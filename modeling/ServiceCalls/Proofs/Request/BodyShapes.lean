import ServiceCalls.Proofs.Request.Edits

/-
  The body of a request after any edits.

  Of a value and parts a draft has one kind at most.  The
  kind that comes first stays, and edits for the other kind
  fail from then on.  A part that could not be made leaves
  nothing behind.  What the finished body is can be told
  from the values that were set, the parts that were added,
  and the parameters.

  Key definitions include:
    * `RequestEdit.drafted`
    * `RequestEdit.valuesSet` and `RequestEdit.partsAdded`
    * `DraftBody.Holds`
    * `RequestBody.ofShapes`

  Main declarations:
    * `RequestEdit.holds_run` and `RequestEdit.holds_drafted`
    * `RequestDraft.build_cases`
    * `RequestDraft.build_error_iff`
    * `RequestDraft.body_of_build`
-/

namespace ServiceCalls

------------------------------------------------------------
-- What Edits Did
------------------------------------------------------------

namespace RequestEdit

/- The draft that edits make of an empty one. -/
def drafted (edits : List RequestEdit) : RequestDraft :=
  runAll .empty edits

/- What is seen of edits, each on the draft before it. -/
def seenAll
    {α : Type}
    (seen : RequestDraft → RequestEdit → List α)
    (draft : RequestDraft) :
    List RequestEdit → List α
  | [] => []
  | edit :: rest =>
      seen draft edit ++
        seenAll seen (edit.run draft).draft rest

/- The value that an edit sets, unless it fails. -/
def valueSet (draft : RequestDraft) :
    RequestEdit → List Argument
  | .setBody value =>
      match (RequestDraft.setBody value draft).result with
      | .ok _ => [value]
      | .error _ => []
  | _ => []

/-
  The part that an edit adds, unless that fails.  A change
  to a part that was added may fail; the changes before it
  stay.
-/
def partAdded (draft : RequestDraft) :
    RequestEdit → List Part
  | .addPart name value changes =>
      match
        (RequestDraft.addPart name value [] draft).result,
        Part.ofArgument name value with
      | .ok _, .ok part => [(part.changeAll changes).1]
      | _, _ => []
  | _ => []

/- The parameters that an edit adds. -/
def pairsAdded : RequestEdit → List (String × String)
  | .addParameter name values =>
      values.map fun value => (name, value)
  | _ => []

/- The values that edits of an empty draft set. -/
def valuesSet (edits : List RequestEdit) : List Argument :=
  seenAll valueSet .empty edits

/- The parts that edits of an empty draft add. -/
def partsAdded (edits : List RequestEdit) : List Part :=
  seenAll partAdded .empty edits

theorem runAll_append
    (draft : RequestDraft)
    (before after : List RequestEdit) :
    runAll draft (before ++ after) =
      runAll (runAll draft before) after := by
  induction before generalizing draft with
  | nil => rfl
  | cons edit rest ih => exact ih (edit.run draft).draft

theorem seenAll_append
    {α : Type}
    (seen : RequestDraft → RequestEdit → List α)
    (draft : RequestDraft)
    (before after : List RequestEdit) :
    seenAll seen draft (before ++ after) =
      seenAll seen draft before ++
        seenAll seen (runAll draft before) after := by
  induction before generalizing draft with
  | nil => rfl
  | cons edit rest ih =>
      simp only [List.cons_append, seenAll, runAll, ih,
        List.append_assoc]

/- What is seen of an edit is seen of all edits. -/
theorem mem_seenAll
    {α : Type}
    {seen : RequestDraft → RequestEdit → List α}
    {draft : RequestDraft}
    {before : List RequestEdit}
    {edit : RequestEdit}
    {a : α}
    (h : a ∈ seen (runAll draft before) edit)
    (after : List RequestEdit) :
    a ∈ seenAll seen draft (before ++ edit :: after) := by
  rw [seenAll_append]
  apply List.mem_append_right
  exact List.mem_append_left _ h

end RequestEdit

------------------------------------------------------------
-- One Kind of Body
------------------------------------------------------------

/-
  What a body is after values were set and parts were added.
  Only one of the two can have happened.
-/
inductive DraftBody.Holds :
    DraftBody → List Argument → List Part → Prop
| empty :
    Holds .empty [] []
| value
    (before : List Argument)
    (last : Argument) :
    Holds (.value last) (before ++ [last]) []
| parts
    (before : List Part)
    (last : Part) :
    Holds (.parts (before ++ [last])) [] (before ++ [last])

namespace DraftBody.Holds

variable {body : DraftBody}
variable {values : List Argument}
variable {parts : List Part}

theorem exclusive (h : body.Holds values parts) :
    values = [] ∨ parts = [] := by
  cases h with
  | empty => exact .inl rfl
  | value before last => exact .inr rfl
  | parts before last => exact .inl rfl

/- There is room for parts unless a value was set. -/
theorem parts?_eq (h : body.Holds values parts) :
    body.parts? =
      if values.isEmpty then some parts else none := by
  cases h with
  | empty => rfl
  | value before last => simp [DraftBody.parts?]
  | parts before last => rfl

end DraftBody.Holds

namespace RequestEdit

variable {draft : RequestDraft}
variable {values : List Argument}
variable {parts : List Part}

/- Other edits set no value and add no part. -/
theorem seen_of_other
    {edit : RequestEdit}
    (h : edit.field ≠ .body)
    (draft : RequestDraft) :
    valueSet draft edit = [] ∧
      partAdded draft edit = [] := by
  cases edit with
  | addPart name value changes => exact absurd rfl h
  | setBody value => exact absurd rfl h
  | _ => exact ⟨rfl, rfl⟩

theorem holds_setBody
    (h : draft.body.Holds values parts)
    (value : Argument) :
    (RequestDraft.setBody value draft).draft.body.Holds
      (values ++ valueSet draft (.setBody value)) parts := by
  cases hBody : draft.body with
  | empty =>
      rw [hBody] at h
      cases h
      simpa only [valueSet, RequestDraft.setBody_eq, hBody]
        using DraftBody.Holds.value [] value
  | value old =>
      rw [hBody] at h
      cases h
      simpa only [valueSet, RequestDraft.setBody_eq, hBody]
        using DraftBody.Holds.value _ value
  | parts items =>
      simpa only [valueSet, RequestDraft.setBody_eq, hBody,
        List.append_nil] using hBody ▸ h

theorem holds_addPart
    (h : draft.body.Holds values parts)
    (name : String)
    (value : Argument)
    (changes : List Part.Change) :
    (RequestDraft.addPart name value changes
      draft).draft.body.Holds values
        (parts ++
          partAdded draft (.addPart name value changes)) := by
  cases values with
  | cons first rest =>
      have hRoom : draft.body.parts? = none := h.parts?_eq
      simpa only [partAdded, RequestDraft.addPart_eq, hRoom,
        List.append_nil] using h
  | nil =>
      have hRoom : draft.body.parts? = some parts :=
        h.parts?_eq
      cases hPart : Part.ofArgument name value with
      | error error =>
          simpa only [partAdded, RequestDraft.addPart_eq,
            hRoom, hPart, List.append_nil] using h
      | ok part =>
          simpa only [partAdded, RequestDraft.addPart_eq,
            hRoom, hPart, Part.changeAll]
            using DraftBody.Holds.parts parts _

/- One edit keeps the account of the body. -/
theorem holds_run
    (h : draft.body.Holds values parts)
    (edit : RequestEdit) :
    (edit.run draft).draft.body.Holds
      (values ++ valueSet draft edit)
      (parts ++ partAdded draft edit) := by
  by_cases hField : edit.field = .body
  · cases edit with
    | addPart name value changes =>
        rw [show valueSet draft
            (.addPart name value changes) = [] from rfl,
          List.append_nil]
        exact holds_addPart h name value changes
    | setBody value =>
        rw [show partAdded draft (.setBody value) = []
            from rfl,
          List.append_nil]
        exact holds_setBody h value
    | _ => cases hField
  · rcases seen_of_other hField draft with
      ⟨hValue, hPart⟩
    rw [hValue, hPart, List.append_nil, List.append_nil,
      edit.keeps_run (RequestDraft.hides_body hField) draft]
    exact h

theorem holds_runAll
    (h : draft.body.Holds values parts)
    (edits : List RequestEdit) :
    (runAll draft edits).body.Holds
      (values ++ seenAll valueSet draft edits)
      (parts ++ seenAll partAdded draft edits) := by
  induction edits generalizing draft values parts with
  | nil =>
      rw [seenAll, seenAll, List.append_nil,
        List.append_nil]
      exact h
  | cons edit rest ih =>
      have hRest := ih (holds_run h edit)
      rw [List.append_assoc, List.append_assoc] at hRest
      exact hRest

/- The body after edits is that of what they did. -/
theorem holds_drafted (edits : List RequestEdit) :
    (drafted edits).body.Holds (valuesSet edits)
      (partsAdded edits) := by
  have hEmpty : RequestDraft.empty.body.Holds [] [] :=
    .empty
  exact holds_runAll hEmpty edits

/- A value that was set stays among those that were. -/
theorem valuesSet_ne_nil
    {before : List RequestEdit}
    {value : Argument}
    (h :
      (RequestDraft.setBody value
        (drafted before)).result = .ok ())
    (between : List RequestEdit) :
    valuesSet (before ++ .setBody value :: between) ≠ [] := by
  have hMem :
      value ∈ valueSet (drafted before)
        (.setBody value) := by
    simp only [valueSet, h, List.mem_singleton]
  exact List.ne_nil_of_mem (mem_seenAll hMem between)

------------------------------------------------------------
-- Edits That Are Refused
------------------------------------------------------------

/- After a value no part is added. -/
theorem refused_part
    {edits : List RequestEdit}
    (h : valuesSet edits ≠ [])
    (name : String)
    (value : Argument)
    (changes : List Part.Change) :
    (RequestDraft.addPart name value changes
      (drafted edits)).result =
        .error RequestDraft.bodyAndParts := by
  have hRoom : (drafted edits).body.parts? = none := by
    rw [(holds_drafted edits).parts?_eq, if_neg]
    rwa [List.isEmpty_iff]
  simp only [RequestDraft.addPart_eq, hRoom]

/- After a part no value is set. -/
theorem refused_value
    {edits : List RequestEdit}
    (h : partsAdded edits ≠ [])
    (value : Argument) :
    (RequestDraft.setBody value (drafted edits)).result =
      .error RequestDraft.bodyAndParts := by
  have hHolds := holds_drafted edits
  cases hBody : (drafted edits).body with
  | empty =>
      rw [hBody] at hHolds
      generalize valuesSet edits = values at hHolds
      generalize partsAdded edits = parts at hHolds h
      cases hHolds
      exact absurd rfl h
  | value old =>
      rw [hBody] at hHolds
      generalize valuesSet edits = values at hHolds
      generalize partsAdded edits = parts at hHolds h
      cases hHolds
      exact absurd rfl h
  | parts items =>
      simp only [RequestDraft.setBody_eq, hBody]

/- A part that cannot be added leaves nothing behind. -/
theorem draft_of_refused_part
    {draft : RequestDraft}
    {name : String}
    {value : Argument}
    {error : ServiceError}
    (h :
      (RequestDraft.addPart name value [] draft).result =
        .error error)
    (changes : List Part.Change) :
    (RequestDraft.addPart name value changes draft).draft =
      draft := by
  cases hRoom : draft.body.parts? with
  | none => simp only [RequestDraft.addPart_eq, hRoom]
  | some items =>
      cases hPart : Part.ofArgument name value with
      | error cause =>
          simp only [RequestDraft.addPart_eq, hRoom, hPart]
      | ok part =>
          simp only [RequestDraft.addPart_eq, hRoom, hPart,
            Part.changeAll] at h
          cases h

/- A part that is added comes from its value. -/
theorem exists_part
    {draft : RequestDraft}
    {name : String}
    {value : Argument}
    (h :
      (RequestDraft.addPart name value [] draft).result =
        .ok ()) :
    ∃ part, Part.ofArgument name value = .ok part := by
  cases hPart : Part.ofArgument name value with
  | ok part => exact ⟨part, rfl⟩
  | error error =>
      simp only [RequestDraft.addPart_eq, hPart] at h
      split at h <;> cases h

/- A part that was added stays among those that were. -/
theorem partsAdded_ne_nil
    {before : List RequestEdit}
    {name : String}
    {value : Argument}
    (h :
      (RequestDraft.addPart name value []
        (drafted before)).result = .ok ())
    (changes : List Part.Change)
    (between : List RequestEdit) :
    partsAdded
      (before ++ .addPart name value changes :: between) ≠
        [] := by
  obtain ⟨part, hPart⟩ := exists_part h
  have hMem :
      (part.changeAll changes).1 ∈
        partAdded (drafted before)
          (.addPart name value changes) := by
    simp only [partAdded, h, hPart, List.mem_singleton]
  exact List.ne_nil_of_mem (mem_seenAll hMem between)

/- Later edits do not tell that a part was refused. -/
theorem drafted_of_refused_part
    {before : List RequestEdit}
    {name : String}
    {value : Argument}
    {error : ServiceError}
    (h :
      (RequestDraft.addPart name value []
        (drafted before)).result = .error error)
    (changes : List Part.Change)
    (between : List RequestEdit) :
    drafted
        (before ++ .addPart name value changes :: between) =
      drafted (before ++ between) := by
  unfold drafted
  rw [runAll_append, runAll_append]
  exact congrArg (runAll · between)
    (draft_of_refused_part h changes)

------------------------------------------------------------
-- Methods and Parameters
------------------------------------------------------------

/- A draft with a method keeps having one. -/
theorem method_ne_none_run
    (h : draft.method ≠ none)
    (edit : RequestEdit) :
    (edit.run draft).draft.method ≠ none := by
  by_cases hField : edit.field = .method
  · cases edit with
    | setMethod method => exact Option.some_ne_none method
    | _ => cases hField
  · rw [edit.keeps_run (RequestDraft.hides_method hField) draft]
    exact h

theorem method_ne_none_runAll
    (h : draft.method ≠ none)
    (edits : List RequestEdit) :
    (runAll draft edits).method ≠ none := by
  induction edits generalizing draft with
  | nil => exact h
  | cons edit rest ih => exact ih (method_ne_none_run h edit)

/- A method that was set once is there in the end. -/
theorem exists_method
    {edits : List RequestEdit}
    {method : Method}
    (h : .setMethod method ∈ edits) :
    ∃ last, (drafted edits).method = some last := by
  obtain ⟨before, after, rfl⟩ := List.append_of_mem h
  apply Option.ne_none_iff_exists'.mp
  unfold drafted
  rw [runAll_append]
  exact method_ne_none_runAll (Option.some_ne_none method)
    after

theorem parameters_run
    (draft : RequestDraft)
    (edit : RequestEdit) :
    (edit.run draft).draft.parameters =
      draft.parameters ++ edit.pairsAdded := by
  by_cases hField : edit.field = .parameters
  · cases edit with
    | addParameter name values => rfl
    | _ => cases hField
  · have hPairs : edit.pairsAdded = [] := by
      cases edit with
      | addParameter name values => exact absurd rfl hField
      | _ => rfl
    have hHides := RequestDraft.hides_parameters hField
    rw [edit.keeps_run hHides draft, hPairs,
      List.append_nil]

theorem parameters_runAll
    (draft : RequestDraft)
    (edits : List RequestEdit) :
    (runAll draft edits).parameters =
      draft.parameters ++ edits.flatMap pairsAdded := by
  induction edits generalizing draft with
  | nil => exact (List.append_nil _).symm
  | cons edit rest ih =>
      rw [runAll, ih, parameters_run, List.flatMap_cons,
        List.append_assoc]

end RequestEdit

------------------------------------------------------------
-- Finished Bodies
------------------------------------------------------------

/-
  The body of a request: all parts, else the value set last,
  else the fields of a form, if there are any.
-/
def RequestBody.ofShapes
    (parts : List Part)
    (values : List Argument)
    (fields : List (String × String)) :
    RequestBody :=
  if parts.isEmpty then
    match values.getLast? with
    | some last => .value last
    | none => if fields.isEmpty then .empty else .form fields
  else .parts parts

namespace RequestDraft

variable {draft : RequestDraft}
variable {values : List Argument}
variable {parts : List Part}

/-
  All that building can come to.  Parameters that are form
  fields are the body, unless there is another.
-/
theorem build_cases
    (hMethod : ∃ method, draft.method = some method) :
    ((draft.parameters = [] ∨
        isForm draft.headers = false) ∧
      ∃ finished,
        draft.build = .ok finished ∧
        finished.body = draftedBody draft.body) ∨
    ((draft.parameters ≠ [] ∧
        isForm draft.headers = true) ∧
      draftedBody draft.body = .empty ∧
      ∃ finished,
        draft.build = .ok finished ∧
        finished.body = .form draft.parameters) ∨
    ((draft.parameters ≠ [] ∧
        isForm draft.headers = true) ∧
      draftedBody draft.body ≠ .empty ∧
      draft.build = .error formAndBody) := by
  obtain ⟨method, hMethod⟩ := hMethod
  unfold build
  rw [hMethod]
  dsimp only
  cases hParameters : draft.parameters with
  | nil => exact .inl ⟨.inl rfl, _, rfl, rfl⟩
  | cons pair rest =>
      have hSome : pair :: rest ≠ [] :=
        List.cons_ne_nil pair rest
      rw [if_neg (mt List.isEmpty_iff.mp hSome)]
      cases hForm : isForm draft.headers with
      | false => exact .inl ⟨.inr rfl, _, rfl, rfl⟩
      | true =>
          rw [if_pos rfl]
          apply Or.inr
          cases draftedBody draft.body with
          | empty =>
              exact .inl ⟨⟨hSome, rfl⟩, rfl, _, rfl, rfl⟩
          | value argument =>
              exact .inr ⟨⟨hSome, rfl⟩, nofun, rfl⟩
          | form fields =>
              exact .inr ⟨⟨hSome, rfl⟩, nofun, rfl⟩
          | parts items =>
              exact .inr ⟨⟨hSome, rfl⟩, nofun, rfl⟩

/- There is a body when a value was set or a part added. -/
theorem draftedBody_ne_empty_iff
    (h : draft.body.Holds values parts) :
    draftedBody draft.body ≠ .empty ↔
      values ≠ [] ∨ parts ≠ [] := by
  revert h
  generalize draft.body = body
  intro h
  cases h with
  | empty => simp [draftedBody]
  | value before last => simp [draftedBody]
  | parts before last => simp [draftedBody]

/- Fields are looked at when there is no other body. -/
theorem ofShapes_eq
    (h : draft.body.Holds values parts)
    (fields : List (String × String)) :
    RequestBody.ofShapes parts values fields =
      match draftedBody draft.body, fields with
      | .empty, [] => .empty
      | .empty, fields => .form fields
      | body, _ => body := by
  revert h
  generalize draft.body = body
  intro h
  cases h with
  | empty => cases fields <;> rfl
  | value before last =>
      simp [draftedBody, RequestBody.ofShapes]
  | parts before last =>
      simp [draftedBody, RequestBody.ofShapes]

/- Form fields clash with a body of another shape. -/
theorem build_error_iff
    (hBody : draft.body.Holds values parts)
    (hMethod : ∃ method, draft.method = some method) :
    (∃ error, draft.build = .error error) ↔
      isForm draft.headers = true ∧
        draft.parameters ≠ [] ∧
        (values ≠ [] ∨ parts ≠ []) := by
  rw [← draftedBody_ne_empty_iff hBody]
  rcases build_cases hMethod with
    ⟨hQuery, finished, hBuild, _⟩ |
      ⟨hFields, hEmpty, finished, hBuild, _⟩ |
      ⟨⟨hSome, hForm⟩, hOther, hBuild⟩
  · rw [hBuild]
    grind
  · rw [hBuild, hEmpty]
    simp
  · rw [hBuild]
    exact ⟨fun _ => ⟨hForm, hSome, hOther⟩,
      fun _ => ⟨_, rfl⟩⟩

/- What the body of a finished request is. -/
theorem body_of_build
    (hBody : draft.body.Holds values parts)
    (hMethod : ∃ method, draft.method = some method)
    {finished : RequestValues}
    (h : draft.build = .ok finished) :
    finished.body =
      RequestBody.ofShapes parts values
        (if isForm draft.headers then draft.parameters
          else []) := by
  rw [ofShapes_eq hBody]
  rcases build_cases hMethod with
    ⟨hQuery, built, hBuild, hDrafted⟩ |
      ⟨⟨hSome, hForm⟩, hEmpty, built, hBuild, hDrafted⟩ |
      ⟨_, _, hBuild⟩
  · have hFields :
        (if isForm draft.headers = true then
          draft.parameters else []) = [] := by
      rcases hQuery with hNone | hOther
      · rw [hNone, ite_self]
      · rw [hOther, if_neg Bool.false_ne_true]
    rw [h] at hBuild
    cases hBuild
    rw [hFields, hDrafted]
    cases draftedBody draft.body <;> rfl
  · rw [h] at hBuild
    cases hBuild
    rw [hDrafted, hEmpty, if_pos hForm]
    cases hParameters : draft.parameters with
    | nil => exact absurd hParameters hSome
    | cons pair rest => rfl
  · rw [h] at hBuild
    cases hBuild

end RequestDraft

end ServiceCalls
