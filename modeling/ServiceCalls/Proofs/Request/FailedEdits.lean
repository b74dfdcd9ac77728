import Mathlib.Data.List.TakeWhile
import ServiceCalls.Proofs.Http.HeaderText
import ServiceCalls.Proofs.Request.HeldParts

/-
  What an edit that fails leaves behind.

  An edit that fails leaves a draft as it was, and from then
  on nothing tells whether it was tried.  There are two
  edits that do several things: the values of a header are
  added one by one, and a part is changed step by step once
  it was added.  What was done before the first failure is
  what an edit of just that much does.

  Key definitions include:
    * `HeaderValue.accepts`
    * `Headers.appendTexts`
    * `RequestEdit.Remains` and `RequestEdit.Spares`

  Main declarations:
    * `RequestDraft.addHeader_eq`
    * `Part.exists_made`
    * `RequestEdit.exists_spares`
    * `RequestEdit.observed_after_failure`
-/

namespace ServiceCalls

------------------------------------------------------------
-- Header Edits
------------------------------------------------------------

/- Whether a text can be the value of a header. -/
def HeaderValue.accepts (value : String) : Bool :=
  (HeaderValue.ofText? value).isSome

theorem HeaderValue.read_eq (value : String) :
    HeaderValue.read value =
      if accepts value then .ok ⟨Text.encode value⟩
      else .error .badHeaderValue := by
  unfold accepts
  cases hValue : ofText? value with
  | none =>
      unfold read
      rw [hValue]
      rfl
  | some v =>
      have hRead : read value = .ok v := by
        unfold read
        rw [hValue]
      rw [hRead, eq_of_read hRead]
      rfl

/- Fields with texts for values behind those there are. -/
def Headers.appendTexts
    (h : Headers)
    (name : HeaderName)
    (values : List String) :
    Headers :=
  ⟨h.fields ++ values.map fun value =>
    (name, ⟨Text.encode value⟩)⟩

theorem Headers.appendTexts_nil
    (h : Headers)
    (name : HeaderName) :
    h.appendTexts name [] = h := by
  unfold appendTexts
  rw [List.map_nil, List.append_nil]

theorem Headers.appendTexts_cons
    (h : Headers)
    (name : HeaderName)
    (value : String)
    (rest : List String) :
    h.appendTexts name (value :: rest) =
      (h.append name ⟨Text.encode value⟩).appendTexts name
        rest := by
  unfold appendTexts append
  rw [List.map_cons, List.append_assoc]
  rfl

namespace RequestDraft

/- A value that is not accepted leaves the draft alone. -/
theorem insertHeader_eq
    (name : HeaderName)
    (value : String)
    (draft : RequestDraft) :
    insertHeader name value draft =
      if HeaderValue.accepts value then
        ⟨{ draft with headers :=
            draft.headers.insert name ⟨Text.encode value⟩ },
          [], .ok ()⟩
      else ⟨draft, [], .error .badHeaderValue⟩ := by
  change Edit.bind (Edit.lift _) _ draft = _
  rw [HeaderValue.read_eq]
  cases HeaderValue.accepts value <;> rfl

theorem appendHeader_eq
    (name : HeaderName)
    (value : String)
    (draft : RequestDraft) :
    appendHeader name value draft =
      if HeaderValue.accepts value then
        ⟨{ draft with headers :=
            draft.headers.append name ⟨Text.encode value⟩ },
          [], .ok ()⟩
      else ⟨draft, [], .error .badHeaderValue⟩ := by
  change Edit.bind (Edit.lift _) _ draft = _
  rw [HeaderValue.read_eq]
  cases HeaderValue.accepts value <;> rfl

/- Values are added up to the first one not accepted. -/
theorem appendAll_eq
    (name : HeaderName)
    (values : List String)
    (draft : RequestDraft) :
    Edit.all (values.map (appendHeader name)) draft =
      ⟨{ draft with
          headers := draft.headers.appendTexts name
            (values.takeWhile HeaderValue.accepts) },
        [],
        if values.all HeaderValue.accepts then .ok ()
        else .error .badHeaderValue⟩ := by
  induction values generalizing draft with
  | nil =>
      rw [List.takeWhile_nil, Headers.appendTexts_nil]
      rfl
  | cons value rest ih =>
      have hStep := appendHeader_eq name value draft
      rw [List.map_cons, Edit.all, List.takeWhile_cons,
        List.all_cons]
      cases hAccepts : HeaderValue.accepts value with
      | true =>
          rw [hAccepts, if_pos rfl] at hStep
          have hOk :
              (appendHeader name value draft).result =
                .ok () := by
            rw [hStep]
          rw [Edit.bind_of_ok hOk, ih, hStep, if_pos rfl,
            Headers.appendTexts_cons, Bool.true_and]
          rfl
      | false =>
          rw [hAccepts, if_neg Bool.false_ne_true] at hStep
          have hFailed :
              (appendHeader name value draft).result =
                .error .badHeaderValue := by
            rw [hStep]
          rw [Edit.bind_of_error hFailed, hStep,
            if_neg Bool.false_ne_true,
            Headers.appendTexts_nil, Bool.false_and]
          rfl

theorem addHeader_eq
    (name : String)
    (values : List String)
    (draft : RequestDraft) :
    addHeader name values draft =
      match HeaderName.read name with
      | .error error => ⟨draft, [], .error error⟩
      | .ok header =>
          ⟨{ draft with
              headers := draft.headers.appendTexts header
                (values.takeWhile HeaderValue.accepts) },
            [],
            if values.all HeaderValue.accepts then .ok ()
            else .error .badHeaderValue⟩ := by
  change Edit.bind (Edit.lift _) _ draft = _
  cases hName : HeaderName.read name with
  | error error => rfl
  | ok header =>
      rw [Edit.bind_of_ok (show
        (Edit.lift (.ok header) draft).result = .ok header
          from rfl), appendAll_eq]
      rfl

end RequestDraft

------------------------------------------------------------
-- Changes to a Part
------------------------------------------------------------

/- Changes before one that fails are those that are made. -/
theorem Part.exists_made
    {part : Part}
    {changes : List Part.Change}
    {error : ServiceError}
    (h : (part.changeAll changes).2 = .error error) :
    ∃ made bad rest,
      changes = made ++ bad :: rest ∧
        part.changeAll made =
          ((part.changeAll changes).1, .ok ()) := by
  induction changes generalizing part with
  | nil => cases h
  | cons change rest ih =>
      cases hChange : part.change change with
      | error cause =>
          refine ⟨[], change, rest, rfl, ?_⟩
          simp only [changeAll, hChange]
      | ok changed =>
          simp only [changeAll, hChange] at h ⊢
          rcases ih h with
            ⟨made, bad, others, hChanges, hMade⟩
          refine ⟨change :: made, bad, others, ?_, ?_⟩
          · rw [hChanges]
            rfl
          · simp only [changeAll, hChange, hMade]

------------------------------------------------------------
-- What Remains of an Edit
------------------------------------------------------------

namespace RequestEdit

/-
  The edits that do what is left of an edit that fails.
  There is nothing left but of values and of changes.
-/
inductive Remains (draft : RequestDraft) :
    RequestEdit → List RequestEdit → Prop where
| nothing
    {edit : RequestEdit}
    (hHeader : ∀ name values, edit ≠ .addHeader name values)
    (hPart : ∀ name value changes,
      edit ≠ .addPart name value changes) :
    Remains draft edit []
| noName
    {name : String}
    {error : ServiceError}
    (hName : HeaderName.read name = .error error)
    (values : List String) :
    Remains draft (.addHeader name values) []
| someValues
    {name : String}
    {header : HeaderName}
    (hName : HeaderName.read name = .ok header)
    (values : List String) :
    Remains draft (.addHeader name values)
      [.addHeader name
        (values.takeWhile HeaderValue.accepts)]
| noPart
    {name : String}
    {value : Argument}
    {error : ServiceError}
    (hPart :
      (RequestDraft.addPart name value [] draft).result =
        .error error)
    (changes : List Part.Change) :
    Remains draft (.addPart name value changes) []
| someChanges
    {name : String}
    {value : Argument}
    (hPart :
      (RequestDraft.addPart name value [] draft).result =
        .ok ())
    (made : List Part.Change)
    (bad : Part.Change)
    (rest : List Part.Change) :
    Remains draft (.addPart name value (made ++ bad :: rest))
      [.addPart name value made]

/- Edits that do all that is left of one that fails. -/
structure Spares
    (draft : RequestDraft)
    (edit : RequestEdit)
    (kept : List RequestEdit) :
    Prop where
  remains : Remains draft edit kept
  succeed : ∀ other ∈ kept,
    (other.run draft).result = .ok ()
  draft_eq : (edit.run draft).draft = runAll draft kept

variable {draft : RequestDraft}
variable {error : ServiceError}

/- Nothing is left of an edit that leaves the draft alone. -/
theorem spares_nothing
    {edit : RequestEdit}
    (hRemains : Remains draft edit [])
    (hSame : (edit.run draft).draft = draft) :
    Spares draft edit [] :=
  ⟨hRemains, List.forall_mem_nil _, hSame⟩

/- An edit that succeeds is all that is left. -/
theorem spares_one
    {edit other : RequestEdit}
    (hRemains : Remains draft edit [other])
    (hOutcome : other.run.outcome draft =
      ((edit.run draft).draft, .ok ())) :
    Spares draft edit [other] := by
  refine ⟨hRemains, ?_, ?_⟩
  · intro edit hMem
    rw [List.mem_singleton.mp hMem]
    exact congrArg Prod.snd hOutcome
  · exact (congrArg Prod.fst hOutcome).symm

theorem draft_of_failed_insertHeader
    {name : HeaderName}
    {value : String}
    (h :
      (RequestDraft.insertHeader name value draft).result =
        .error error) :
    (RequestDraft.insertHeader name value draft).draft =
      draft := by
  rw [RequestDraft.insertHeader_eq] at h ⊢
  split at h
  · cases h
  · next hRefused => rw [if_neg hRefused]

theorem draft_of_failed_setAccept
    {mediaTypes : List String}
    (h :
      (RequestDraft.setAccept mediaTypes draft).result =
        .error error) :
    (RequestDraft.setAccept mediaTypes draft).draft =
      draft := by
  unfold RequestDraft.setAccept at h ⊢
  split at h
  · cases h
  · next hSome =>
      rw [if_neg hSome]
      exact draft_of_failed_insertHeader h

theorem draft_of_failed_setBody
    {value : Argument}
    (h :
      (RequestDraft.setBody value draft).result =
        .error error) :
    (RequestDraft.setBody value draft).draft = draft := by
  rw [RequestDraft.setBody_eq] at h ⊢
  split at h
  · rfl
  · cases h

/- Values before the first bad one are left of a header. -/
theorem exists_spares_header
    (name : String)
    (values : List String)
    (draft : RequestDraft) :
    ∃ kept, Spares draft (.addHeader name values) kept := by
  have hEdit := RequestDraft.addHeader_eq name values draft
  cases hName : HeaderName.read name with
  | error cause =>
      rw [hName] at hEdit
      exact ⟨[], spares_nothing (.noName hName values)
        (congrArg Edited.draft hEdit)⟩
  | ok header =>
      rw [hName] at hEdit
      refine ⟨_, spares_one (.someValues hName values) ?_⟩
      have hKept := RequestDraft.addHeader_eq name
        (values.takeWhile HeaderValue.accepts) draft
      rw [hName] at hKept
      change ((RequestDraft.addHeader name _ draft).draft,
        (RequestDraft.addHeader name _ draft).result) =
          ((RequestDraft.addHeader name values draft).draft,
            .ok ())
      rw [hKept, hEdit]
      dsimp only
      rw [List.takeWhile_idem, List.all_takeWhile, if_pos rfl]

/- Changes before the first bad one are left of a part. -/
theorem exists_spares_part
    {name : String}
    {value : Argument}
    {changes : List Part.Change}
    (h :
      (RequestDraft.addPart name value changes
        draft).result = .error error) :
    ∃ kept,
      Spares draft (.addPart name value changes) kept := by
  have hEdit := RequestDraft.addPart_eq name value changes
    draft
  have hPart := RequestDraft.addPart_eq name value [] draft
  cases hRoom : draft.body.parts? with
  | none =>
      rw [hRoom] at hEdit hPart
      exact ⟨[], spares_nothing
        (.noPart (congrArg Edited.result hPart) changes)
        (congrArg Edited.draft hEdit)⟩
  | some items =>
      rw [hRoom] at hEdit hPart
      cases hValue : Part.ofArgument name value with
      | error cause =>
          rw [hValue] at hEdit hPart
          exact ⟨[], spares_nothing
            (.noPart (congrArg Edited.result hPart) changes)
            (congrArg Edited.draft hEdit)⟩
      | ok part =>
          rw [hValue] at hEdit hPart
          have hChanges :
              (part.changeAll changes).2 = .error error := by
            rw [hEdit] at h
            exact h
          rcases Part.exists_made hChanges with
            ⟨made, bad, rest, rfl, hMade⟩
          have hKept :=
            RequestDraft.addPart_eq name value made draft
          rw [hRoom, hValue] at hKept
          refine ⟨_, spares_one
            (.someChanges (congrArg Edited.result hPart) made
              bad rest) ?_⟩
          change
            ((RequestDraft.addPart name value made
                draft).draft,
              (RequestDraft.addPart name value made
                draft).result) =
              ((RequestDraft.addPart name value _
                draft).draft, .ok ())
          rw [hKept, hEdit]
          dsimp only
          rw [hMade]

theorem exists_spares
    {edit : RequestEdit}
    (h : (edit.run draft).result = .error error) :
    ∃ kept, Spares draft edit kept := by
  cases edit with
  | setAccept mediaTypes =>
      exact ⟨[], spares_nothing (.nothing nofun nofun)
        (draft_of_failed_setAccept h)⟩
  | setContentType mediaType =>
      exact ⟨[], spares_nothing (.nothing nofun nofun)
        (draft_of_failed_insertHeader h)⟩
  | addHeader name values =>
      exact exists_spares_header name values draft
  | addPart name value changes => exact exists_spares_part h
  | setBody value =>
      exact ⟨[], spares_nothing (.nothing nofun nofun)
        (draft_of_failed_setBody h)⟩
  | _ => cases h

/- Only values and changes can be left of an edit. -/
theorem Remains.eq_nil
    {edit : RequestEdit}
    {kept : List RequestEdit}
    (h : Remains draft edit kept)
    (hHeader : ∀ name values, edit ≠ .addHeader name values)
    (hPart : ∀ name value changes,
      edit = .addPart name value changes → changes = []) :
    kept = [] := by
  cases h with
  | nothing _ _ => rfl
  | noName _ _ => rfl
  | someValues hName values => exact absurd rfl (hHeader _ _)
  | noPart _ _ => rfl
  | someChanges _ made bad rest =>
      have hNone := hPart _ _ _ rfl
      rw [List.append_eq_nil_iff] at hNone
      cases hNone.2

------------------------------------------------------------
-- Drafts After a Failure
------------------------------------------------------------

/-
  After any edits, one that fails is not seen any more.  All
  that later edits come to, what the draft shows after them,
  and what is finished in the end are as if only the edits
  that are left of it had been made, and nothing is left
  but values of a header and changes of a part before the
  first that fails.  This holds for drafts that hold parts
  before there are any, and for those with one kind of body,
  since they are seen to be the same.
-/
theorem observed_after_failure
    (before : List RequestEdit)
    (edit : RequestEdit)
    (hFailed : (edit.run (drafted before)).result =
      .error error) :
    let held := HeldDraft.drafting.after .empty
    ∃ kept,
      (Spares (drafted before) edit kept ∧
        ((∀ name values, edit ≠ .addHeader name values) →
          (∀ name value changes,
            edit = .addPart name value changes →
              changes = []) →
          kept = []) ∧
        ∀ name values header,
          edit = .addHeader name values →
          HeaderName.read name = .ok header →
          (drafted (before ++ [edit])).headers =
            (drafted before).headers.appendTexts header
              (values.takeWhile HeaderValue.accepts)) ∧
      ∀ later,
        HeldDraft.drafting.observe (held (before ++ [edit]))
            later =
          HeldDraft.drafting.observe (held (before ++ kept))
            later ∧
        RequestDraft.drafting.observe
            (drafted (before ++ [edit])) later =
          RequestDraft.drafting.observe
            (drafted (before ++ kept)) later ∧
        HeldDraft.drafting.observe (held (before ++ [edit]))
            later =
          RequestDraft.drafting.observe
            (drafted (before ++ [edit])) later := by
  intro held
  rcases exists_spares hFailed with ⟨kept, hSpares⟩
  have hEdited :
      drafted (before ++ [edit]) =
        (edit.run (drafted before)).draft :=
    runAll_append .empty before [edit]
  have hSame :
      drafted (before ++ [edit]) =
        drafted (before ++ kept) := by
    rw [hEdited, hSpares.draft_eq]
    exact (runAll_append .empty before kept).symm
  refine ⟨kept, ⟨hSpares, hSpares.remains.eq_nil, ?_⟩,
    fun later =>
      ⟨?_, ?_, HeldDraft.observe_after _ later⟩⟩
  · rintro name values header rfl hName
    have hAdded := RequestDraft.addHeader_eq name values
      (drafted before)
    rw [hName] at hAdded
    rw [hEdited]
    exact congrArg (fun edited => edited.draft.headers)
      hAdded
  · rw [HeldDraft.observe_after, HeldDraft.observe_after,
      hSame]
  · rw [hSame]

/- A part that cannot be made, of a draft without parts. -/
def nestedPart : RequestEdit :=
  .addPart "nested"
    (.entity (.entity (.text "a") .empty) .empty) []

/- A header whose second value is none. -/
def brokenHeader : RequestEdit :=
  .addHeader "X-Trace" ["1", "2\n", "3"]

/-
  A value can be set as if the part had not been tried, and
  one value of the header is left.
-/
theorem observed_after_broken :
    let held := HeldDraft.drafting.after .empty
    (held [.setMethod .post, nestedPart]).parts.isSome =
        true ∧
      HeldDraft.drafting.observe
          (held [.setMethod .post, nestedPart])
          [.setBody (.text "b")] =
        HeldDraft.drafting.observe (held [.setMethod .post])
          [.setBody (.text "b")] ∧
      (drafted [nestedPart, brokenHeader]).headers =
        ⟨[(⟨"x-trace"⟩, ⟨Text.encode "1"⟩)]⟩ := by
  intro held
  have hPart :
      (nestedPart.run (drafted [.setMethod .post])).result =
        .error Part.nestedEntity :=
    rfl
  have hValue :
      (brokenHeader.run (drafted [nestedPart])).result =
        .error .badHeaderValue :=
    rfl
  rcases observed_after_failure [.setMethod .post] nestedPart
      hPart with ⟨kept, ⟨_, hNone, _⟩, hLater⟩
  rcases observed_after_failure [nestedPart] brokenHeader
      hValue with ⟨_, ⟨_, _, hHeader⟩, _⟩
  refine ⟨rfl, ?_, ?_⟩
  · have hSame := (hLater [.setBody (.text "b")]).1
    rw [hNone (fun _ _ hEdit => by cases hEdit)
      (fun _ _ _ hEdit => by cases hEdit; rfl),
      List.append_nil] at hSame
    exact hSame
  · exact (hHeader _ _ ⟨"x-trace"⟩ rfl rfl).trans rfl

end RequestEdit

end ServiceCalls
