import ServiceCalls.Binding.Resolver
import ServiceCalls.Proofs.Fallible
import ServiceCalls.Proofs.Request.Edits

/-
  What the resolvers that are built in make of a parameter.

  A binding decides alone how a parameter is bound, unless
  it asks for an attribute where these are not supported.  A
  parameter without a binding is bound by its type.  What
  its arguments add changes one field, and nothing else.

  Key definitions include:
    * `Parameter.BoundByType`
    * `Resolver.byType`
    * `Resolver.byBinding`
    * `Parameter.field?`

  Main declarations:
    * `Resolver.firstOf_chain`
    * `ValueRule.keeps_binder`
    * `Resolver.keeps_of_chain`
-/

namespace ServiceCalls

------------------------------------------------------------
-- Decisions of the Chain
------------------------------------------------------------

/-
  A parameter that no binding takes away from its type: it
  has none, or one that is not supported.
-/
def Parameter.BoundByType
    (supportsAttributes : Bool)
    (parameter : Parameter) :
    Prop :=
  parameter.binding = none ∨
    supportsAttributes = false ∧
      ∃ value,
        parameter.binding = some (.named .attribute value)

namespace Resolver

section

variable [DomainNames]

/- How a parameter is bound by nothing but its type. -/
def byType : Resolver :=
  fun parameter =>
    match parameter.type with
    | .uri => .ok (some contributeUri)
    | .method => .ok (some contributeMethod)
    | .file =>
        (ValueRule.file.bind .unnamed parameter).map some
    | _ => .ok none

/- How a parameter is bound by what it is used for. -/
def byBinding (supportsAttributes : Bool) : Resolver :=
  fun parameter =>
    match parameter.binding with
    | none => byType parameter
    | some (.body required) =>
        .ok (some (contributeBody required
          (parameter.name.getD "body")))
    | some (.named role value) =>
        if role = .attribute ∧ supportsAttributes = false then
          byType parameter
        else (role.rule.bind value parameter).map some

theorem byBinding_of_boundByType
    {supports : Bool}
    {parameter : Parameter}
    (h : parameter.BoundByType supports) :
    byBinding supports parameter = byType parameter := by
  unfold byBinding
  rcases h with hNone | ⟨hOff, value, hNamed⟩
  · rw [hNone]
  · rw [hNamed]
    exact if_pos ⟨rfl, hOff⟩

end

/- A resolver that binds is the last that is asked. -/
theorem firstOf_cons_of_map
    {resolver : Resolver}
    {parameter : Parameter}
    {result : Except ServiceError Binder}
    (h : resolver parameter = result.map some)
    (rest : List Resolver) :
    firstOf (resolver :: rest) parameter =
      result.map some := by
  unfold firstOf
  rw [h]
  cases result <;> rfl

theorem firstOf_byType [DomainNames] (parameter : Parameter) :
    firstOf [uri, method, file] parameter =
      byType parameter := by
  obtain ⟨index, name, type, binding⟩ := parameter
  cases type with
  | file =>
      change firstOf [file] _ = _
      exact firstOf_cons_of_map rfl []
  | _ => rfl

/- The chain decides by the binding, else by the type. -/
theorem firstOf_chain
    [DomainNames]
    (supports : Bool)
    (parameter : Parameter) :
    firstOf (chain [] supports) parameter =
      byBinding supports parameter := by
  obtain ⟨index, name, type, binding⟩ := parameter
  cases binding with
  | none =>
      cases supports <;> exact firstOf_byType _
  | some binding =>
      cases binding with
      | body required => rfl
      | named role value =>
          cases role with
          | header => exact firstOf_cons_of_map rfl _
          | pathVariable =>
              change firstOf (ofRole .pathVariable :: _) _ = _
              exact firstOf_cons_of_map rfl _
          | parameter =>
              change firstOf (ofRole .parameter :: _) _ = _
              exact firstOf_cons_of_map rfl _
          | part =>
              change firstOf (ofRole .part :: _) _ = _
              exact firstOf_cons_of_map rfl _
          | cookie =>
              change firstOf (ofRole .cookie :: _) _ = _
              exact firstOf_cons_of_map rfl _
          | «attribute» =>
              cases supports with
              | false => exact firstOf_byType _
              | true =>
                  change firstOf (ofRole .attribute :: _) _ = _
                  exact firstOf_cons_of_map rfl _

end Resolver

------------------------------------------------------------
-- Fields That Arguments Go To
------------------------------------------------------------

/- The field of a draft that values of a role go to. -/
def Role.field : Role → DraftField
  | .pathVariable => .target
  | .parameter => .parameters
  | .header => .headers
  | .cookie => .cookies
  | .attribute => .attributes
  | .part => .body

/- The field for parameters that are bound by their type. -/
def ParameterType.field? : ParameterType → Option DraftField
  | .uri => some .target
  | .method => some .method
  | .file => some .body
  | _ => none

/- The field that the argument of a parameter goes to. -/
def Parameter.field?
    (supportsAttributes : Bool)
    (parameter : Parameter) :
    Option DraftField :=
  match parameter.binding with
  | none => parameter.type.field?
  | some (.body _) => some .body
  | some (.named role _) =>
      if role = .attribute ∧ supportsAttributes = false then
        parameter.type.field?
      else some role.field

variable {γ : Type}
variable {view : RequestDraft → γ}

namespace ValueRule

variable {rule : ValueRule}

theorem keeps_addOne
    (h : ∀ name item, (rule.add name item).Keeps view)
    (value : NamedValue)
    (argument : Argument) :
    (rule.addOne value argument).Keeps view := by
  have hPresent (name : String) (item : Argument) :
      (rule.addPresent name item).Keeps view :=
    Edit.keeps_bind (Edit.keeps_record _)
      fun _ => h name item
  unfold addOne
  split
  · split
    · exact hPresent _ _
    · split
      · exact Edit.keeps_fail _
      · exact Edit.keeps_pure ()
  · exact hPresent _ _

theorem keeps_addValue
    (h : ∀ name item, (rule.add name item).Keeps view)
    (value : NamedValue)
    (argument : Argument) :
    (rule.addValue value argument).Keeps view := by
  unfold addValue
  split
  · exact keeps_addOne h value argument
  · split
    · exact keeps_addOne h value .null
    · split
      · apply Edit.keeps_all
        intro step hStep
        rcases List.mem_map.mp hStep with ⟨item, _, hSame⟩
        rw [← hSame]
        exact keeps_addOne h _ item
      · exact Edit.keeps_bind (Edit.keeps_lift _)
          fun one => keeps_addOne h value one

theorem keeps_addEntries
    (h : ∀ name item, (rule.add name item).Keeps view)
    (argument : Argument) :
    (rule.addEntries argument).Keeps view := by
  unfold addEntries
  split
  · exact Edit.keeps_fail _
  · apply Edit.keeps_all
    intro step hStep
    rcases List.mem_map.mp hStep with ⟨entry, _, hSame⟩
    rw [← hSame]
    exact keeps_addValue h _ entry.2

/- A binder keeps what its rule keeps for single values. -/
theorem keeps_binder
    (h : ∀ name item, (rule.add name item).Keeps view)
    {value : NamedValue}
    {parameter : Parameter}
    {binder : Binder}
    (hBinder : rule.bind value parameter = .ok binder)
    (argument : Argument) :
    (binder argument).Keeps view := by
  unfold bind at hBinder
  split at hBinder
  · cases hBinder
    exact keeps_addEntries h argument
  · obtain ⟨name, _, hMade⟩ := Fallible.map_eq_ok hBinder
    rw [← hMade]
    exact keeps_addValue h _ argument

end ValueRule

theorem Role.keeps_add
    {role : Role}
    (hView : RequestDraft.Hides view role.field)
    (name : String)
    (item : Argument) :
    (role.rule.add name item).Keeps view := by
  cases role with
  | header =>
      exact Edit.keeps_bind (Edit.keeps_lift _) fun text =>
        RequestDraft.keeps_addHeader hView name [text]
  | parameter =>
      exact Edit.keeps_bind (Edit.keeps_lift _) fun _ =>
        Edit.keeps_modify fun _ => hView _ _
  | cookie =>
      exact Edit.keeps_bind (Edit.keeps_lift _) fun _ =>
        Edit.keeps_modify fun _ => hView _ _
  | pathVariable =>
      exact Edit.keeps_bind (Edit.keeps_lift _) fun _ =>
        Edit.keeps_modify fun _ => hView _ _ _
  | «attribute» =>
      exact Edit.keeps_bind (Edit.keeps_lift _) fun _ =>
        Edit.keeps_modify fun _ => hView _ _
  | part => exact RequestDraft.keeps_addPart hView name item []

theorem keeps_addFile
    (hView : RequestDraft.Hides view .body)
    (name : String)
    (item : Argument) :
    (addFile name item).Keeps view := by
  cases item with
  | file f => exact RequestDraft.keeps_addPart hView name _ []
  | _ => exact Edit.keeps_fail _

namespace Resolver

theorem keeps_contributeBody
    (hView : RequestDraft.Hides view .body)
    (required : Bool)
    (name : String)
    (argument : Argument) :
    (contributeBody required name argument).Keeps view := by
  unfold contributeBody
  split
  · split
    · exact Edit.keeps_fail _
    · exact Edit.keeps_pure ()
  · exact RequestDraft.keeps_setBody hView argument

theorem keeps_contributeUri
    [DomainNames]
    (hView : RequestDraft.Hides view .target)
    (argument : Argument) :
    (contributeUri argument).Keeps view := by
  unfold contributeUri
  split
  · exact Edit.keeps_pure ()
  · exact Edit.keeps_modify fun _ => hView _ _ _
  · split
    · exact Edit.keeps_modify fun _ => hView _ _ _
    · exact Edit.keeps_fail _
  · exact Edit.keeps_fail _

theorem keeps_contributeMethod
    (hView : RequestDraft.Hides view .method)
    (argument : Argument) :
    (contributeMethod argument).Keeps view := by
  unfold contributeMethod
  split
  · exact Edit.keeps_pure ()
  · exact Edit.keeps_modify fun _ => hView _ _
  · split
    · exact Edit.keeps_modify fun _ => hView _ _
    · exact Edit.keeps_fail _
  · exact Edit.keeps_fail _

theorem keeps_byType
    [DomainNames]
    {parameter : Parameter}
    {binder : Binder}
    (hBinder : byType parameter = .ok (some binder))
    (hView : ∀ field, parameter.type.field? = some field →
      RequestDraft.Hides view field)
    (argument : Argument) :
    (binder argument).Keeps view := by
  unfold byType at hBinder
  cases hType : parameter.type with
  | uri =>
      rw [hType] at hBinder hView
      cases hBinder
      exact keeps_contributeUri (hView _ rfl) argument
  | method =>
      rw [hType] at hBinder hView
      cases hBinder
      exact keeps_contributeMethod (hView _ rfl) argument
  | file =>
      rw [hType] at hBinder hView
      obtain ⟨made, hMade, hSame⟩ :=
        Fallible.map_eq_ok hBinder
      cases hSame
      exact ValueRule.keeps_binder
        (keeps_addFile (hView _ rfl)) hMade argument
  | _ =>
      rw [hType] at hBinder
      cases hBinder

/-
  An argument changes the field that its parameter goes to,
  and no other.
-/
theorem keeps_of_chain
    [DomainNames]
    {supports : Bool}
    {parameter : Parameter}
    {binder : Binder}
    (hBinder : firstOf (chain [] supports) parameter =
      .ok (some binder))
    (hView : ∀ field, parameter.field? supports = some field →
      RequestDraft.Hides view field)
    (argument : Argument) :
    (binder argument).Keeps view := by
  rw [firstOf_chain] at hBinder
  unfold byBinding at hBinder
  unfold Parameter.field? at hView
  cases hBinding : parameter.binding with
  | none =>
      rw [hBinding] at hBinder hView
      exact keeps_byType hBinder hView argument
  | some binding =>
      rw [hBinding] at hBinder hView
      cases binding with
      | body required =>
          cases hBinder
          exact keeps_contributeBody (hView _ rfl) required _
            argument
      | named role value =>
          dsimp only at hBinder hView
          split at hBinder
          · next hOff =>
              rw [if_pos hOff] at hView
              exact keeps_byType hBinder hView argument
          · next hOn =>
              rw [if_neg hOn] at hView
              obtain ⟨made, hMade, hSame⟩ :=
                Fallible.map_eq_ok hBinder
              cases hSame
              exact ValueRule.keeps_binder
                (Role.keeps_add (hView _ rfl)) hMade argument

end Resolver

end ServiceCalls
