import ServiceCalls.Proofs.Fallible
import ServiceCalls.Request.Draft

/-
  What single edits do to a draft.

  A view of drafts is kept by an edit if it shows the same
  before and after, whether the edit fails or not.  Every
  edit changes one field, and keeps all views that hide it.
  Other views may change in one way by an edit that succeeds.
  A part is added behind those there are, or the draft stays
  as it is.

  Key definitions include:
    * `Edit.outcome`
    * `Edit.Keeps`, `Edit.Changes`, and `Edit.FailsOnly`
    * `DraftField` and `RequestDraft.Hides`
    * `RequestEdit.field`
    * `DraftBody.parts?`

  Main declarations:
    * `Edit.keeps_bind` and `Edit.keeps_all`
    * `Edit.changes_bind`
    * `RequestEdit.keeps_run`
    * `RequestDraft.addPart_eq` and `RequestDraft.setBody_eq`
-/

namespace ServiceCalls

namespace Edit

variable {α β γ : Type}

------------------------------------------------------------
-- One Step After Another
------------------------------------------------------------

theorem bind_of_error
    {first : Edit α}
    {draft : RequestDraft}
    {error : ServiceError}
    (h : (first draft).result = .error error)
    (next : α → Edit β) :
    Edit.bind first next draft =
      ⟨(first draft).draft, (first draft).records,
        .error error⟩ := by
  simp only [Edit.bind, h]

theorem bind_of_ok
    {first : Edit α}
    {draft : RequestDraft}
    {a : α}
    (h : (first draft).result = .ok a)
    (next : α → Edit β) :
    Edit.bind first next draft =
      ⟨(next a (first draft).draft).draft,
        (first draft).records ++
          (next a (first draft).draft).records,
        (next a (first draft).draft).result⟩ := by
  simp only [Edit.bind, h]

/- What an edit comes to, without its records. -/
def outcome
    (edit : Edit α)
    (draft : RequestDraft) :
    RequestDraft × Except ServiceError α :=
  ((edit draft).draft, (edit draft).result)

/- The next step goes on where the first one ended. -/
theorem outcome_bind
    (first : Edit α)
    (next : α → Edit β)
    (draft : RequestDraft) :
    (Edit.bind first next).outcome draft =
      match first.outcome draft with
      | (reached, .ok a) => (next a).outcome reached
      | (last, .error error) => (last, .error error) := by
  unfold outcome
  cases h : (first draft).result with
  | error error => rw [bind_of_error h]
  | ok a => rw [bind_of_ok h]

------------------------------------------------------------
-- Views That Are Kept
------------------------------------------------------------

/- An edit after which a view of the draft is the same. -/
def Keeps
    (edit : Edit α)
    (view : RequestDraft → γ) :
    Prop :=
  ∀ draft, view (edit draft).draft = view draft

variable {view : RequestDraft → γ}

theorem keeps_pure (a : α) :
    (Edit.pure a).Keeps view :=
  fun _ => rfl

theorem keeps_fail (error : ServiceError) :
    (Edit.fail error : Edit α).Keeps view :=
  fun _ => rfl

theorem keeps_lift (result : Except ServiceError α) :
    (Edit.lift result).Keeps view :=
  fun _ => rfl

theorem keeps_record (entry : LogRecord) :
    (Edit.record entry).Keeps view :=
  fun _ => rfl

theorem keeps_modify
    {f : RequestDraft → RequestDraft}
    (h : ∀ draft, view (f draft) = view draft) :
    (Edit.modify f).Keeps view :=
  h

theorem keeps_bind
    {first : Edit α}
    {next : α → Edit β}
    (hFirst : first.Keeps view)
    (hNext : ∀ a, (next a).Keeps view) :
    (Edit.bind first next).Keeps view := by
  intro draft
  cases hResult : (first draft).result with
  | error error =>
      rw [bind_of_error hResult]
      exact hFirst draft
  | ok a =>
      rw [bind_of_ok hResult]
      exact (hNext a _).trans (hFirst draft)

theorem keeps_all
    {steps : List (Edit Unit)}
    (h : ∀ step ∈ steps, step.Keeps view) :
    (Edit.all steps).Keeps view := by
  induction steps with
  | nil => exact keeps_pure ()
  | cons step rest ih =>
      refine keeps_bind (h step List.mem_cons_self) ?_
      intro _
      exact ih fun later hLater =>
        h later (List.mem_cons_of_mem _ hLater)

------------------------------------------------------------
-- Views That Change
------------------------------------------------------------

/- An edit that changes a view in one way, if it succeeds. -/
def Changes
    (edit : Edit Unit)
    (view : RequestDraft → γ)
    (change : γ → γ) :
    Prop :=
  ∀ draft, (edit draft).result = .ok () →
    view (edit draft).draft = change (view draft)

theorem changes_of_keeps
    {edit : Edit Unit}
    (h : edit.Keeps view) :
    edit.Changes view id :=
  fun draft _ => h draft

theorem changes_of_outcome
    {edit : Edit Unit}
    {change : γ → γ}
    (h : ∀ draft next, edit.outcome draft = (next, .ok ()) →
      view next = change (view draft)) :
    edit.Changes view change :=
  fun draft hOk => h draft _ (Prod.ext rfl hOk)

theorem changes_bind
    {first next : Edit Unit}
    {before after : γ → γ}
    (hFirst : first.Changes view before)
    (hNext : next.Changes view after) :
    (Edit.bind first fun _ => next).Changes view
      (after ∘ before) := by
  intro draft hOk
  cases hResult : (first draft).result with
  | error error =>
      rw [bind_of_error hResult] at hOk
      cases hOk
  | ok _ =>
      rw [bind_of_ok hResult] at hOk ⊢
      exact (hNext _ hOk).trans
        (congrArg after (hFirst draft hResult))

------------------------------------------------------------
-- Failures
------------------------------------------------------------

/- An edit whose failures are all of a kind. -/
def FailsOnly
    (kind : ServiceError → Prop)
    (edit : Edit α) :
    Prop :=
  ∀ draft, Fallible.FailsOnly kind (edit draft).result

variable {kind : ServiceError → Prop}

theorem failsOnly_pure (a : α) :
    (Edit.pure a).FailsOnly kind :=
  fun _ => Fallible.failsOnly_ok a

theorem failsOnly_modify
    (f : RequestDraft → RequestDraft) :
    (Edit.modify f).FailsOnly kind :=
  fun _ => Fallible.failsOnly_ok ()

theorem failsOnly_bind
    {first : Edit α}
    {next : α → Edit β}
    (hFirst : first.FailsOnly kind)
    (hNext : ∀ a, (next a).FailsOnly kind) :
    (Edit.bind first next).FailsOnly kind := by
  intro draft
  cases hResult : (first draft).result with
  | error error =>
      rw [bind_of_error hResult]
      exact Fallible.failsOnly_error
        (hFirst draft error hResult)
  | ok a =>
      rw [bind_of_ok hResult]
      exact hNext a (first draft).draft

end Edit

------------------------------------------------------------
-- Bodies
------------------------------------------------------------

/- The parts of a body, unless it is a value. -/
def DraftBody.parts? : DraftBody → Option (List Part)
  | .empty => some []
  | .value _ => none
  | .parts items => some items

namespace RequestDraft

/- A part goes behind the others, if its value makes one. -/
theorem addPart_eq
    (name : String)
    (value : Argument)
    (changes : List Part.Change)
    (draft : RequestDraft) :
    addPart name value changes draft =
      match draft.body.parts? with
      | none => ⟨draft, [], .error bodyAndParts⟩
      | some items =>
          match Part.ofArgument name value with
          | .error error => ⟨draft, [], .error error⟩
          | .ok part =>
              ⟨{ draft with
                  body := .parts
                    (items ++ [(part.changeAll changes).1]) },
                [], (part.changeAll changes).2⟩ := by
  obtain ⟨_, _, _, _, _, _, _, body⟩ := draft
  unfold addPart ServiceCalls.addPart
  cases body with
  | value _ => rfl
  | empty => cases Part.ofArgument name value <;> rfl
  | parts items =>
      cases Part.ofArgument name value with
      | error error => cases items <;> rfl
      | ok part => cases items <;> rfl

/- A value is set unless there are parts. -/
theorem setBody_eq
    (value : Argument)
    (draft : RequestDraft) :
    setBody value draft =
      match draft.body with
      | .parts _ => ⟨draft, [], .error bodyAndParts⟩
      | _ =>
          ⟨{ draft with body := .value value }, [],
            .ok ()⟩ := by
  obtain ⟨_, _, _, _, _, _, _, body⟩ := draft
  cases body <;> rfl

end RequestDraft

------------------------------------------------------------
-- Fields
------------------------------------------------------------

/- What an edit may change; the variables go with a target. -/
inductive DraftField where
| method
| target
| headers
| cookies
| attributes
| parameters
| body
deriving DecidableEq, Repr

namespace RequestDraft

variable {γ : Type} {view : RequestDraft → γ}

/- A view that does not show a field. -/
def Hides (view : RequestDraft → γ) : DraftField → Prop
  | .method => ∀ draft method,
      view { draft with method := method } = view draft
  | .target => ∀ draft target uriVariables,
      view { draft with
        target := target
        «variables» := uriVariables } = view draft
  | .headers => ∀ draft headers,
      view { draft with headers := headers } = view draft
  | .cookies => ∀ draft cookies,
      view { draft with cookies := cookies } = view draft
  | .attributes => ∀ draft attributes,
      view { draft with attributes := attributes } =
        view draft
  | .parameters => ∀ draft parameters,
      view { draft with parameters := parameters } =
        view draft
  | .body => ∀ draft body,
      view { draft with body := body } = view draft

theorem hides_body
    {field : DraftField}
    (h : field ≠ .body) :
    Hides RequestDraft.body field := by
  cases field with
  | target => exact fun _ _ _ => rfl
  | body => exact absurd rfl h
  | _ => exact fun _ _ => rfl

theorem hides_method
    {field : DraftField}
    (h : field ≠ .method) :
    Hides RequestDraft.method field := by
  cases field with
  | target => exact fun _ _ _ => rfl
  | method => exact absurd rfl h
  | _ => exact fun _ _ => rfl

theorem hides_parameters
    {field : DraftField}
    (h : field ≠ .parameters) :
    Hides RequestDraft.parameters field := by
  cases field with
  | target => exact fun _ _ _ => rfl
  | parameters => exact absurd rfl h
  | _ => exact fun _ _ => rfl

theorem keeps_insertHeader
    (hView : Hides view .headers)
    (name : HeaderName)
    (value : String) :
    (insertHeader name value).Keeps view :=
  Edit.keeps_bind (Edit.keeps_lift _) fun _ =>
    Edit.keeps_modify fun _ => hView _ _

theorem keeps_setAccept
    (hView : Hides view .headers)
    (mediaTypes : List String) :
    (setAccept mediaTypes).Keeps view := by
  unfold setAccept
  split
  · exact Edit.keeps_modify fun _ => hView _ _
  · exact keeps_insertHeader hView _ _

theorem keeps_appendHeader
    (hView : Hides view .headers)
    (name : HeaderName)
    (value : String) :
    (appendHeader name value).Keeps view :=
  Edit.keeps_bind (Edit.keeps_lift _) fun _ =>
    Edit.keeps_modify fun _ => hView _ _

theorem keeps_addHeader
    (hView : Hides view .headers)
    (name : String)
    (values : List String) :
    (addHeader name values).Keeps view := by
  refine Edit.keeps_bind (Edit.keeps_lift _) fun header => ?_
  apply Edit.keeps_all
  intro step hStep
  rcases List.mem_map.mp hStep with ⟨value, _, hSame⟩
  subst hSame
  exact keeps_appendHeader hView header value

theorem keeps_addPart
    (hView : Hides view .body)
    (name : String)
    (value : Argument)
    (changes : List Part.Change) :
    (addPart name value changes).Keeps view := by
  intro draft
  rw [addPart_eq]
  split
  · rfl
  · split
    · rfl
    · exact hView _ _

theorem keeps_setBody
    (hView : Hides view .body)
    (value : Argument) :
    (setBody value).Keeps view := by
  intro draft
  rw [setBody_eq]
  split
  · rfl
  · exact hView _ _

end RequestDraft

namespace RequestEdit

/- The field that an edit changes. -/
def field : RequestEdit → DraftField
  | .setMethod _ => .method
  | .setUri _ => .target
  | .setTemplate _ => .target
  | .setVariable _ _ => .target
  | .setAccept _ => .headers
  | .setContentType _ => .headers
  | .addHeader _ _ => .headers
  | .addCookie _ _ => .cookies
  | .addAttribute _ _ => .attributes
  | .addParameter _ _ => .parameters
  | .addPart _ _ _ => .body
  | .setBody _ => .body

/- An edit keeps what does not show its field. -/
theorem keeps_run
    {γ : Type}
    {view : RequestDraft → γ}
    (edit : RequestEdit)
    (hView : RequestDraft.Hides view edit.field) :
    edit.run.Keeps view := by
  cases edit with
  | setMethod method => exact fun _ => hView _ _
  | setUri url => exact fun _ => hView _ _ _
  | setTemplate text => exact fun _ => hView _ _ _
  | setVariable name value => exact fun _ => hView _ _ _
  | setAccept mediaTypes =>
      exact RequestDraft.keeps_setAccept hView mediaTypes
  | setContentType mediaType =>
      exact RequestDraft.keeps_insertHeader hView _ mediaType
  | addHeader name values =>
      exact RequestDraft.keeps_addHeader hView name values
  | addCookie name values => exact fun _ => hView _ _
  | addAttribute name value => exact fun _ => hView _ _
  | addParameter name values => exact fun _ => hView _ _
  | addPart name value changes =>
      exact RequestDraft.keeps_addPart hView name value
        changes
  | setBody value =>
      exact RequestDraft.keeps_setBody hView value

end RequestEdit

end ServiceCalls
