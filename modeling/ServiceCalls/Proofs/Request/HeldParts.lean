import ServiceCalls.Proofs.Request.BodyShapes

/-
  Drafts that hold parts and a value side by side.

  Parts are held from the first time one is tried, so that a
  draft may hold parts of which there are none yet.  Nothing
  that can be seen of such a draft tells it from one without
  parts, neither while it is edited nor when it is finished,
  and so it behaves like a draft with one kind of body: all
  that is said of the body of the one holds for the other.

  Key definitions include:
    * `Drafting` and `Drafting.observe`
    * `Drafting.Simulates`
    * `Edit.IgnoresBody`
    * `HeldDraft` and `HeldDraft.Shows`

  Main declarations:
    * `Drafting.Simulates.observe_eq`
    * `RequestEdit.ignoresBody_run`
    * `HeldDraft.simulates`
    * `RequestEdit.bodies_of_edits`
-/

namespace ServiceCalls

------------------------------------------------------------
-- What Is Seen of a Draft
------------------------------------------------------------

/- What a draft shows while it is edited. -/
structure Glance where
  method : Option Method
  headers : Headers
  hasBody : Bool

/- Drafts of some form, with all that can be done to them. -/
structure Drafting (σ : Type) where
  run : RequestEdit → σ → σ × Except ServiceError Unit
  glance : σ → Glance
  build : σ → Except ServiceError RequestValues

/-
  What is seen of a draft from some time on: what it shows,
  what each edit comes to and what it shows after it, and
  what is finished in the end.
-/
structure Observed where
  glance : Glance
  results : List (Except ServiceError Unit × Glance)
  built : Except ServiceError RequestValues

namespace Drafting

variable {σ τ : Type}

/- The draft after edits. -/
def after (drafting : Drafting σ) (draft : σ) :
    List RequestEdit → σ
  | [] => draft
  | edit :: rest =>
      drafting.after (drafting.run edit draft).1 rest

/- What is seen of a draft while edits are made. -/
def observe (drafting : Drafting σ) (draft : σ) :
    List RequestEdit → Observed
  | [] => ⟨drafting.glance draft, [], drafting.build draft⟩
  | edit :: rest =>
      let made := drafting.run edit draft
      let later := drafting.observe made.1 rest
      ⟨drafting.glance draft,
        (made.2, later.glance) :: later.results,
        later.built⟩

/- Related drafts do and show the same. -/
structure Simulates
    (first : Drafting σ)
    (second : Drafting τ)
    (related : σ → τ → Prop) :
    Prop where
  result : ∀ edit s t, related s t →
    (first.run edit s).2 = (second.run edit t).2
  next : ∀ edit s t, related s t →
    related (first.run edit s).1 (second.run edit t).1
  glance : ∀ s t, related s t →
    first.glance s = second.glance t
  build : ∀ s t, related s t →
    first.build s = second.build t

namespace Simulates

variable {first : Drafting σ}
variable {second : Drafting τ}
variable {related : σ → τ → Prop}
variable {s : σ} {t : τ}

/- Related drafts stay related. -/
theorem related_after
    (h : first.Simulates second related)
    (hRelated : related s t)
    (edits : List RequestEdit) :
    related (first.after s edits) (second.after t edits) := by
  induction edits generalizing s t with
  | nil => exact hRelated
  | cons edit rest ih => exact ih (h.next edit s t hRelated)

/- Nothing that is seen tells related drafts apart. -/
theorem observe_eq
    (h : first.Simulates second related)
    (hRelated : related s t)
    (edits : List RequestEdit) :
    first.observe s edits = second.observe t edits := by
  induction edits generalizing s t with
  | nil =>
      unfold observe
      rw [h.glance s t hRelated, h.build s t hRelated]
  | cons edit rest ih =>
      have hRest := ih (h.next edit s t hRelated)
      simp only [observe, h.glance s t hRelated,
        h.result edit s t hRelated, hRest]

end Simulates

end Drafting

/- Drafts with one kind of body, as they are edited. -/
def RequestDraft.drafting : Drafting RequestDraft where
  run := fun edit draft => edit.run.outcome draft
  glance := fun draft =>
    ⟨draft.method, draft.headers, draft.hasBody⟩
  build := RequestDraft.build

theorem RequestDraft.after_eq
    (draft : RequestDraft)
    (edits : List RequestEdit) :
    drafting.after draft edits =
      RequestEdit.runAll draft edits := by
  induction edits generalizing draft with
  | nil => rfl
  | cons edit rest ih => exact ih _

------------------------------------------------------------
-- Edits That Ignore the Body
------------------------------------------------------------

namespace Edit

variable {α β : Type}

/- An edit that leaves the body, and does not look at it. -/
def IgnoresBody (edit : Edit α) : Prop :=
  ∀ draft body,
    edit { draft with body := body } =
      ⟨{ (edit draft).draft with body := body },
        (edit draft).records, (edit draft).result⟩

theorem ignoresBody_pure (a : α) :
    (Edit.pure a).IgnoresBody :=
  fun _ _ => rfl

theorem ignoresBody_lift (result : Except ServiceError α) :
    (Edit.lift result).IgnoresBody :=
  fun _ _ => rfl

theorem ignoresBody_modify
    {f : RequestDraft → RequestDraft}
    (h : ∀ draft body,
      f { draft with body := body } =
        { f draft with body := body }) :
    (Edit.modify f).IgnoresBody :=
  fun draft body => by
    unfold Edit.modify
    rw [h draft body]

theorem ignoresBody_bind
    {first : Edit α}
    {next : α → Edit β}
    (hFirst : first.IgnoresBody)
    (hNext : ∀ a, (next a).IgnoresBody) :
    (Edit.bind first next).IgnoresBody := by
  intro draft body
  have hStart := hFirst draft body
  cases hResult : (first draft).result with
  | error error =>
      have hSame :
          (first { draft with body := body }).result =
            .error error := by
        rw [hStart]
        exact hResult
      rw [bind_of_error hResult, bind_of_error hSame, hStart]
  | ok a =>
      have hSame :
          (first { draft with body := body }).result =
            .ok a := by
        rw [hStart]
        exact hResult
      rw [bind_of_ok hResult, bind_of_ok hSame, hStart]
      dsimp only
      rw [hNext a (first draft).draft body]

theorem ignoresBody_all
    {steps : List (Edit Unit)}
    (h : ∀ step ∈ steps, step.IgnoresBody) :
    (Edit.all steps).IgnoresBody := by
  induction steps with
  | nil => exact ignoresBody_pure ()
  | cons step rest ih =>
      rw [List.forall_mem_cons] at h
      exact ignoresBody_bind h.1 fun _ => ih h.2

end Edit

namespace RequestDraft

theorem ignoresBody_insertHeader
    (name : HeaderName)
    (value : String) :
    (insertHeader name value).IgnoresBody :=
  Edit.ignoresBody_bind (Edit.ignoresBody_lift _)
    fun _ => Edit.ignoresBody_modify fun _ _ => rfl

theorem ignoresBody_appendHeader
    (name : HeaderName)
    (value : String) :
    (appendHeader name value).IgnoresBody :=
  Edit.ignoresBody_bind (Edit.ignoresBody_lift _)
    fun _ => Edit.ignoresBody_modify fun _ _ => rfl

theorem ignoresBody_setAccept (mediaTypes : List String) :
    (setAccept mediaTypes).IgnoresBody := by
  unfold setAccept
  split
  · exact Edit.ignoresBody_modify fun _ _ => rfl
  · exact ignoresBody_insertHeader _ _

theorem ignoresBody_addHeader
    (name : String)
    (values : List String) :
    (addHeader name values).IgnoresBody := by
  refine Edit.ignoresBody_bind (Edit.ignoresBody_lift _)
    fun header => Edit.ignoresBody_all fun step hStep => ?_
  rcases List.mem_map.mp hStep with ⟨value, _, rfl⟩
  exact ignoresBody_appendHeader header value

end RequestDraft

/- Only edits of the body have to do with it. -/
theorem RequestEdit.ignoresBody_run
    {edit : RequestEdit}
    (h : edit.field ≠ .body) :
    edit.run.IgnoresBody := by
  cases edit with
  | addPart name value changes => exact absurd rfl h
  | setBody value => exact absurd rfl h
  | setAccept mediaTypes =>
      exact RequestDraft.ignoresBody_setAccept mediaTypes
  | setContentType mediaType =>
      exact RequestDraft.ignoresBody_insertHeader _ mediaType
  | addHeader name values =>
      exact RequestDraft.ignoresBody_addHeader name values
  | _ => exact Edit.ignoresBody_modify fun _ _ => rfl

------------------------------------------------------------
-- Parts Beside a Value
------------------------------------------------------------

/-
  A draft that holds its parts and its value apart from all
  the rest.  Without parts there may be none held, or a list
  of none.
-/
structure HeldDraft where
  rest : RequestDraft
  parts : Option (List Part)
  value : Option Argument

namespace HeldDraft

open RequestDraft (bodyAndParts methodRequired)

def empty : HeldDraft :=
  ⟨.empty, none, none⟩

/- The parts that are held, if any. -/
def items (held : HeldDraft) : List Part :=
  held.parts.getD []

/- Parts are held as soon as there is no value. -/
def addPart
    (name : String)
    (value : Argument)
    (changes : List Part.Change)
    (held : HeldDraft) :
    HeldDraft × Except ServiceError Unit :=
  match held.value with
  | some _ => (held, .error bodyAndParts)
  | none =>
      let (items, result) :=
        ServiceCalls.addPart held.items name value changes
      ({ held with parts := some items }, result)

/- A value is set unless there is a part. -/
def setBody (value : Argument) (held : HeldDraft) :
    HeldDraft × Except ServiceError Unit :=
  if held.items.isEmpty then
    ({ held with value := some value }, .ok ())
  else (held, .error bodyAndParts)

/- All other edits are made to the rest. -/
def run (edit : RequestEdit) (held : HeldDraft) :
    HeldDraft × Except ServiceError Unit :=
  match edit with
  | .addPart name value changes =>
      held.addPart name value changes
  | .setBody value => held.setBody value
  | edit =>
      ({ held with rest := (edit.run held.rest).draft },
        (edit.run held.rest).result)

/- A value and a part cannot both be sent. -/
def bodyOf :
    List Part → Option Argument →
      Except ServiceError DraftBody
  | [], none => .ok .empty
  | [], some value => .ok (.value value)
  | items, none => .ok (.parts items)
  | _, some _ => .error bodyAndParts

/- The method is missed before the body is looked at. -/
def build (held : HeldDraft) :
    Except ServiceError RequestValues :=
  match held.rest.method with
  | none => .error methodRequired
  | some _ => do
      let body ← bodyOf held.items held.value
      RequestDraft.build { held.rest with body := body }

def drafting : Drafting HeldDraft where
  run := run
  glance := fun held =>
    ⟨held.rest.method, held.rest.headers,
      held.value.isSome⟩
  build := build

/- The one kind of body that parts and a value are. -/
inductive ShowsBody :
    List Part → Option Argument → DraftBody → Prop where
| empty :
    ShowsBody [] none .empty
| value
    (value : Argument) :
    ShowsBody [] (some value) (.value value)
| parts
    (first : Part)
    (others : List Part) :
    ShowsBody (first :: others) none
      (.parts (first :: others))

namespace ShowsBody

variable {items : List Part}
variable {value? : Option Argument}
variable {body : DraftBody}

theorem of_parts (h : items ≠ []) :
    ShowsBody items none (.parts items) := by
  cases items with
  | nil => exact absurd rfl h
  | cons first others => exact .parts first others

theorem bodyOf_eq (h : ShowsBody items value? body) :
    bodyOf items value? = .ok body := by
  cases h <;> rfl

/- There is room for parts unless there is a value. -/
theorem parts?_eq (h : ShowsBody items value? body) :
    body.parts? =
      if value?.isSome then none else some items := by
  cases h <;> rfl

/- There is room for a value unless there are parts. -/
theorem setBody_eq
    {draft : RequestDraft}
    (h : ShowsBody items value? draft.body)
    (value : Argument) :
    RequestDraft.setBody value draft =
      if items.isEmpty then
        ⟨{ draft with body := .value value }, [], .ok ()⟩
      else ⟨draft, [], .error bodyAndParts⟩ := by
  rw [RequestDraft.setBody_eq]
  generalize draft.body = body at h
  cases h <;> rfl

theorem hasBody_eq
    {draft : RequestDraft}
    (h : ShowsBody items value? draft.body) :
    draft.hasBody = value?.isSome := by
  unfold RequestDraft.hasBody
  generalize draft.body = body at h
  cases h <;> rfl

/- What is held is what was set last and all added. -/
theorem held_of_holds
    {values : List Argument}
    {parts : List Part}
    (h : ShowsBody items value? body)
    (hHolds : body.Holds values parts) :
    items = parts ∧ value? = values.getLast? := by
  cases h with
  | empty =>
      cases hHolds
      exact ⟨rfl, rfl⟩
  | value last =>
      cases hHolds
      exact ⟨rfl, List.getLast?_concat.symm⟩
  | parts first others =>
      generalize first :: others = items at hHolds
      cases hHolds
      exact ⟨rfl, rfl⟩

end ShowsBody

/-
  A draft and one with one kind of body that are the same
  but for parts that are none.
-/
structure Shows
    (held : HeldDraft)
    (draft : RequestDraft) :
    Prop where
  body : ShowsBody held.items held.value draft.body
  rest : draft = { held.rest with body := draft.body }

theorem run_of_other
    {edit : RequestEdit}
    (h : edit.field ≠ .body)
    (held : HeldDraft) :
    held.run edit =
      ({ held with rest := (edit.run held.rest).draft },
        (edit.run held.rest).result) := by
  cases edit with
  | addPart name value changes => exact absurd rfl h
  | setBody value => exact absurd rfl h
  | _ => rfl

namespace Shows

variable {held : HeldDraft}
variable {draft : RequestDraft}

/- Edits of the rest do to both the same. -/
theorem run_other
    (h : held.Shows draft)
    {edit : RequestEdit}
    (hField : edit.field ≠ .body) :
    (held.run edit).2 = (edit.run draft).result ∧
      (held.run edit).1.Shows (edit.run draft).draft := by
  have hIgnores :=
    edit.ignoresBody_run hField held.rest draft.body
  rw [← h.rest] at hIgnores
  rw [run_of_other hField, hIgnores]
  exact ⟨rfl, h.body, rfl⟩

/- A part goes behind those that are shown. -/
theorem run_addPart
    (h : held.Shows draft)
    (name : String)
    (value : Argument)
    (changes : List Part.Change) :
    let held' := held.addPart name value changes
    let edited :=
      RequestDraft.addPart name value changes draft
    held'.2 = edited.result ∧
      held'.1.Shows edited.draft := by
  intro held' edited
  obtain ⟨rest, parts, value?⟩ := held
  obtain ⟨hBody, hRest⟩ := h
  have hEdited : edited = _ :=
    RequestDraft.addPart_eq name value changes draft
  cases value? with
  | some old =>
      have hRoom : draft.body.parts? = none :=
        hBody.parts?_eq
      rw [hRoom] at hEdited
      rw [hEdited]
      exact ⟨rfl, hBody, hRest⟩
  | none =>
      have hRoom : draft.body.parts? = some (parts.getD []) :=
        hBody.parts?_eq
      have hHeld :
          held' =
            let added := ServiceCalls.addPart
              (parts.getD []) name value changes
            (⟨rest, some added.1, none⟩, added.2) :=
        rfl
      rw [hRoom] at hEdited
      rw [hHeld, hEdited]
      unfold ServiceCalls.addPart
      cases Part.ofArgument name value with
      | error error =>
          -- Parts are held now, but there are none more.
          exact ⟨rfl, hBody, hRest⟩
      | ok part =>
          refine ⟨rfl, ShowsBody.of_parts ?_, ?_⟩
          · exact List.append_ne_nil_of_right_ne_nil _
              (List.cons_ne_nil _ _)
          · rw [hRest]

/- A value takes the place of parts that are none. -/
theorem run_setBody
    (h : held.Shows draft)
    (value : Argument) :
    let held' := held.setBody value
    let edited := RequestDraft.setBody value draft
    held'.2 = edited.result ∧
      held'.1.Shows edited.draft := by
  intro held' edited
  obtain ⟨hBody, hRest⟩ := h
  have hEdited : edited = _ := hBody.setBody_eq value
  rw [hEdited]
  by_cases hItems : held.items = []
  · have hHeld :
        held' =
          ({ held with value := some value }, .ok ()) :=
      if_pos (List.isEmpty_iff.mpr hItems)
    rw [hHeld, if_pos (List.isEmpty_iff.mpr hItems)]
    refine ⟨rfl, ?_, ?_⟩
    · change ShowsBody held.items (some value) _
      rw [hItems]
      exact .value value
    · rw [hRest]
  · have hHeld :
        held' = (held, .error bodyAndParts) :=
      if_neg (mt List.isEmpty_iff.mp hItems)
    rw [hHeld, if_neg (mt List.isEmpty_iff.mp hItems)]
    exact ⟨rfl, hBody, hRest⟩

theorem run_edit
    (h : held.Shows draft)
    (edit : RequestEdit) :
    (held.run edit).2 = (edit.run draft).result ∧
      (held.run edit).1.Shows (edit.run draft).draft := by
  by_cases hField : edit.field = .body
  · cases edit with
    | addPart name value changes =>
        exact h.run_addPart name value changes
    | setBody value => exact h.run_setBody value
    | _ => cases hField
  · exact h.run_other hField

/- What is finished has the body that is shown. -/
theorem build_eq (h : held.Shows draft) :
    held.build = draft.build := by
  have hMethod : draft.method = held.rest.method := by
    rw [h.rest]
  unfold HeldDraft.build
  split
  · next hNone =>
      unfold RequestDraft.build
      rw [hMethod, hNone]
  · rw [h.body.bodyOf_eq]
    exact congrArg RequestDraft.build h.rest.symm

theorem glance_eq (h : held.Shows draft) :
    drafting.glance held =
      RequestDraft.drafting.glance draft := by
  change Glance.mk held.rest.method held.rest.headers _ =
    Glance.mk draft.method draft.headers draft.hasBody
  rw [h.body.hasBody_eq, h.rest]

end Shows

/- Parts that are none make no difference. -/
theorem simulates :
    drafting.Simulates RequestDraft.drafting Shows where
  result := fun edit _ _ h => (h.run_edit edit).1
  next := fun edit _ _ h => (h.run_edit edit).2
  glance := fun _ _ h => h.glance_eq
  build := fun _ _ h => h.build_eq

theorem shows_after (edits : List RequestEdit) :
    (drafting.after .empty edits).Shows
      (RequestEdit.drafted edits) := by
  have hRelated := simulates.related_after
    (show Shows .empty .empty from ⟨.empty, rfl⟩) edits
  rw [RequestDraft.after_eq] at hRelated
  exact hRelated

/- After the same edits the same is seen of both. -/
theorem observe_after (edits later : List RequestEdit) :
    drafting.observe (drafting.after .empty edits) later =
      RequestDraft.drafting.observe
        (RequestEdit.drafted edits) later :=
  simulates.observe_eq (shows_after edits) later

end HeldDraft

------------------------------------------------------------
-- Bodies of Requests
------------------------------------------------------------

namespace RequestEdit

open RequestDraft (bodyAndParts isForm)

/-
  After any edits of an empty draft there are values or
  parts, not both.  A value that was set refuses parts, a
  part that was added refuses values, and a part that was
  refused is as if it had not been tried.  The request with
  a method fails to be finished when form fields meet
  another body; otherwise it has the body of what was set,
  added, or left for a form.  A draft that holds parts from
  the first try on holds just these parts and the value set
  last, refuses the same edits, and is finished alike.
-/
theorem bodies_of_edits (edits : List RequestEdit) :
    let held := HeldDraft.drafting.after .empty
    ((drafted edits).body.Holds (valuesSet edits)
        (partsAdded edits) ∧
      (valuesSet edits = [] ∨ partsAdded edits = []) ∧
      (held edits).items = partsAdded edits ∧
      (held edits).value = (valuesSet edits).getLast?) ∧
    (∀ before value between,
      edits = before ++ .setBody value :: between →
      (RequestDraft.setBody value
        (drafted before)).result = .ok () →
      ∀ name later changes,
        (RequestDraft.addPart name later changes
          (drafted edits)).result = .error bodyAndParts ∧
        ((held edits).addPart name later changes).2 =
          .error bodyAndParts) ∧
    (∀ before name value changes between,
      edits =
        before ++ .addPart name value changes :: between →
      (RequestDraft.addPart name value []
        (drafted before)).result = .ok () →
      ∀ later,
        (RequestDraft.setBody later
          (drafted edits)).result = .error bodyAndParts ∧
        ((held edits).setBody later).2 =
          .error bodyAndParts) ∧
    (∀ before name value changes between error,
      edits =
        before ++ .addPart name value changes :: between →
      (RequestDraft.addPart name value []
        (drafted before)).result = .error error →
      drafted edits = drafted (before ++ between) ∧
        ∀ later,
          HeldDraft.drafting.observe (held edits) later =
            HeldDraft.drafting.observe
              (held (before ++ between)) later) ∧
    (∀ method, .setMethod method ∈ edits →
      ((∃ error, (drafted edits).build = .error error) ↔
        isForm (drafted edits).headers = true ∧
          edits.flatMap pairsAdded ≠ [] ∧
          (valuesSet edits ≠ [] ∨ partsAdded edits ≠ [])) ∧
      ∀ finished, (drafted edits).build = .ok finished →
        finished.body =
          RequestBody.ofShapes (partsAdded edits)
            (valuesSet edits)
            (if isForm (drafted edits).headers then
              edits.flatMap pairsAdded
            else [])) ∧
    ∀ later,
      HeldDraft.drafting.observe (held edits) later =
        RequestDraft.drafting.observe (drafted edits)
          later := by
  intro held
  have hHolds := holds_drafted edits
  have hShows := HeldDraft.shows_after edits
  refine ⟨⟨hHolds, hHolds.exclusive,
    hShows.body.held_of_holds hHolds⟩, ?_, ?_, ?_, ?_,
    HeldDraft.observe_after edits⟩
  · rintro before value between rfl hSet name later changes
    have hRefused :=
      refused_part (valuesSet_ne_nil hSet between)
        name later changes
    exact ⟨hRefused,
      (hShows.run_addPart name later changes).1.trans
        hRefused⟩
  · rintro before name value changes between rfl hAdd later
    have hRefused :=
      refused_value (partsAdded_ne_nil hAdd changes between)
        later
    exact ⟨hRefused,
      (hShows.run_setBody later).1.trans hRefused⟩
  · rintro before name value changes between error rfl hAdd
    have hSame :=
      drafted_of_refused_part hAdd changes between
    refine ⟨hSame, fun later => ?_⟩
    rw [HeldDraft.observe_after, HeldDraft.observe_after,
      hSame]
  · intro method hMem
    have hMethod := exists_method hMem
    have hParameters :
        (drafted edits).parameters =
          edits.flatMap pairsAdded :=
      parameters_runAll .empty edits
    rw [← hParameters]
    exact ⟨RequestDraft.build_error_iff hHolds hMethod,
      fun _ => RequestDraft.body_of_build hHolds hMethod⟩

/- A part that is refused, then a value, then a form. -/
def crossedEdits : List RequestEdit :=
  [.setMethod .post,
    .addPart "nested"
      (.entity (.entity (.text "a") .empty) .empty) [],
    .setBody (.text "b"),
    .setContentType MediaType.form,
    .addParameter "c" ["d"]]

/-
  After a refused part the value is set and refuses later
  parts, even where no parts are held for it; the parameter
  makes the form clash with the value.
-/
theorem bodies_of_crossed :
    let held := HeldDraft.drafting.after .empty
    crossedEdits =
        crossedEdits.take 2 ++
          .setBody (.text "b") :: crossedEdits.drop 3 ∧
      (RequestDraft.setBody (.text "b")
        (drafted (crossedEdits.take 2))).result = .ok () ∧
      (RequestDraft.addPart "later" (.text "e") []
        (drafted crossedEdits)).result =
          .error bodyAndParts ∧
      ((held crossedEdits).addPart "later" (.text "e")
        []).2 = .error bodyAndParts ∧
      .setMethod .post ∈ crossedEdits ∧
      ∃ error, (drafted crossedEdits).build =
        .error error := by
  intro held
  obtain ⟨_, hValue, _, _, hBuild, _⟩ :=
    bodies_of_edits crossedEdits
  have hSet :
      (RequestDraft.setBody (.text "b")
        (drafted (crossedEdits.take 2))).result = .ok () :=
    rfl
  have hMethod : .setMethod .post ∈ crossedEdits :=
    List.mem_cons_self
  obtain ⟨hPart, hHeld⟩ :=
    hValue _ _ _ rfl hSet "later" (.text "e") []
  refine ⟨rfl, hSet, hPart, hHeld, hMethod,
    (hBuild .post hMethod).1.mpr ⟨?_, ?_, ?_⟩⟩
  · decide
  · decide
  · exact .inl (List.cons_ne_nil _ _)

end RequestEdit

end ServiceCalls
