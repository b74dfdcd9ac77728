import Mathlib.Data.List.Forall2
import ServiceCalls.Proofs.Binding.BuiltIn
import ServiceCalls.Proofs.Binding.NamedValues

/-
  What attributes are set to.

  A JSON value becomes the attribute as it is, with the
  exception of arrays.  An array is taken for several values
  and is put together again from those that are not null;
  without any the attribute counts as absent.

  Key definitions include:
    * `RequestDraft.withAttribute`
    * `Binder.Sets`
    * `Json.KeepsItems`
    * `Argument.Denotes`

  Main declarations:
    * `NamedKind.resolve_attribute`
    * `NamedKind.sets_array_iff`
    * `NamedKind.attributes_kept_iff`
-/

namespace ServiceCalls

------------------------------------------------------------
-- Attributes That Are Set
------------------------------------------------------------

/- A draft with an attribute, and otherwise as it was. -/
def RequestDraft.withAttribute
    (draft : RequestDraft)
    (name : String)
    (value : Json) :
    RequestDraft :=
  { draft with
    attributes := Assoc.insert name value draft.attributes }

theorem RequestDraft.lookup_withAttribute
    (draft : RequestDraft)
    (name : String)
    (value : Json) :
    (draft.withAttribute name value).attributes.lookup name =
      some value := by
  simp [withAttribute, Assoc.lookup_insert]

/- On every draft, an argument sets an attribute. -/
def Binder.Sets
    (binder : Binder)
    (name : String)
    (argument : Argument)
    (value : Json) :
    Prop :=
  ∀ draft,
    (binder argument).outcome draft =
      (draft.withAttribute name value, .ok ())

/- An attribute is set to one value only. -/
theorem Binder.Sets.unique
    {binder : Binder}
    {name : String}
    {argument : Argument}
    {value other : Json}
    (hValue : binder.Sets name argument value)
    (hOther : binder.Sets name argument other) :
    value = other := by
  have hSame := (hValue .empty).symm.trans (hOther .empty)
  have hLookup := congrArg
    (fun reached => reached.1.attributes.lookup name) hSame
  simpa [RequestDraft.lookup_withAttribute] using hLookup

------------------------------------------------------------
-- Values
------------------------------------------------------------

/- A value that is no array, or one of items without null. -/
def Json.KeepsItems : Json → Prop
  | .array items =>
      items ≠ [] ∧ ∀ item ∈ items, item.isNull = false
  | _ => True

/- The items of an array that are not null. -/
def Json.presentItems (items : List Json) : List Json :=
  items.filter fun item => !item.isNull

/- The value of a text, or of JSON other than null. -/
inductive Argument.Denotes : Argument → Json → Prop
| text
    (s : String) :
    Denotes (.text s) (.string s)
| json
    (value : Json)
    (h : value.isNull = false) :
    Denotes (.json value) value

namespace Json

theorem isNull_json (value : Json) :
    (Argument.json value).isNull = value.isNull := by
  cases value <;> rfl

/- Nothing is left out of an array exactly without nulls. -/
theorem presentItems_eq_self_iff (items : List Json) :
    presentItems items = items ↔
      ∀ item ∈ items, item.isNull = false := by
  simp [presentItems]

/- The items that an array stands for. -/
theorem present_array (items : List Json) :
    (Argument.json (.array items)).present =
      (presentItems items).map .json := by
  rw [Argument.present_of_items rfl, presentItems,
    List.filter_map]
  simp only [Function.comp_def, isNull_json]

/- Any other value stands for itself. -/
theorem items?_json
    {value : Json}
    (h : ∀ items, value ≠ .array items) :
    ValueRule.items? (.json value) = none := by
  cases value with
  | array items => exact absurd rfl (h items)
  | _ => rfl

end Json

namespace Argument

variable {argument : Argument}
variable {value : Json}

theorem Denotes.isNull
    (h : argument.Denotes value) :
    argument.isNull = false := by
  cases h with
  | text s => rfl
  | json value h => rw [Json.isNull_json, h]

theorem Denotes.attributeValue
    (h : argument.Denotes value) :
    attributeValue argument = .ok value := by
  cases h <;> simp [ServiceCalls.attributeValue]

/- Arguments in order have the values in order. -/
theorem mapM_attributeValue
    {items : List Argument}
    {values : List Json}
    (h : List.Forall₂ Denotes items values) :
    items.mapM ServiceCalls.attributeValue = .ok values := by
  induction h with
  | nil => rfl
  | cons hFirst _ ih =>
      rw [List.mapM_cons, hFirst.attributeValue, ih]
      rfl

/- A list of such arguments stands for all of them. -/
theorem present_list
    {items : List Argument}
    {values : List Json}
    (h : List.Forall₂ Denotes items values) :
    (Argument.list items).present = items := by
  have hItems : ∀ item ∈ items, item.isNull = false := by
    induction h with
    | nil => simp
    | cons hFirst _ ih =>
        exact List.forall_mem_cons.mpr ⟨hFirst.isNull, ih⟩
  rw [present_of_items rfl, List.filter_eq_self]
  intro item hMem
  rw [hItems item hMem]
  rfl

/- The items of an array that are not null are such. -/
theorem denotes_presentItems (items : List Json) :
    List.Forall₂ Denotes
      ((Json.presentItems items).map .json)
      (Json.presentItems items) := by
  rw [List.forall₂_map_left_iff, List.forall₂_same]
  intro item hMem
  refine .json item ?_
  simpa using (List.mem_filter.mp hMem).2

end Argument

------------------------------------------------------------
-- Values of Attributes
------------------------------------------------------------

namespace NamedKind

variable {value : NamedValue}
variable {argument : Argument}

/- A value that is no list is entered as it is. -/
theorem resolve_attribute
    {entered : Json}
    (h : argument.Denotes entered)
    (hSingle : ValueRule.items? argument = none)
    (draft : RequestDraft) :
    (NamedKind.ofRole .attribute).resolve value argument
        draft =
      (draft.withAttribute value.name entered, .ok ()) := by
  have hPresent : argument.present = [argument] := by
    rw [Argument.present_of_single hSingle, h.isNull]
    rfl
  simp only [resolve, hPresent, repeatable, hSingle]
  rw [enterAll_singleton]
  simp only [enter, h.attributeValue]
  rfl

/- Values that are there are entered as one array. -/
theorem resolve_attribute_items
    {items : List Argument}
    (hItems : ValueRule.items? argument = some items)
    {values : List Json}
    (h : List.Forall₂ Argument.Denotes argument.present
      values)
    (hSome : values ≠ [])
    (draft : RequestDraft) :
    (NamedKind.ofRole .attribute).resolve value argument
        draft =
      (draft.withAttribute value.name (.array values),
        .ok ()) := by
  have hValues := Argument.mapM_attributeValue h
  cases hPresent : argument.present with
  | nil =>
      rw [hPresent, List.forall₂_nil_left_iff] at h
      exact absurd h hSome
  | cons first rest =>
      rw [hPresent] at hValues
      simp only [resolve, hPresent, repeatable, hItems,
        collapsed, hValues]
      rfl

/- Without any the argument is the same as null. -/
theorem resolve_of_absent
    {kind : NamedKind}
    (h : argument.present = [])
    (draft : RequestDraft) :
    kind.resolve value argument draft =
      kind.resolve value .null draft := by
  have hNull : Argument.null.present = [] := rfl
  simp only [resolve, h, hNull]

/- Null leaves the default, or nothing. -/
theorem lookup_resolve_null (value : NamedValue) :
    ((NamedKind.ofRole .attribute).resolve value .null
        .empty).1.attributes.lookup value.name =
      value.default?.map .string := by
  change (resolveAbsent _ value .empty).1.attributes.lookup
    value.name = _
  unfold resolveAbsent
  cases value.default? with
  | some text =>
      exact RequestDraft.lookup_withAttribute .empty
        value.name (.string text)
  | none => cases value.required <;> rfl

------------------------------------------------------------
-- Bound Attributes
------------------------------------------------------------

/- The chain binds attributes where they are supported. -/
theorem binder_of_attribute
    [DomainNames]
    {parameter : Parameter}
    (hBinding :
      parameter.binding = some (.named .attribute value))
    (hType : parameter.type ≠ .map)
    {name : String}
    (hName : nameOf? value parameter = some name) :
    Resolver.firstOf (Resolver.chain [] true) parameter =
      .ok (some (Role.attribute.rule.addValue
        { value with name := name })) := by
  have hEffective (label : String) :
      ValueRule.effectiveName label value parameter =
        .ok name := by
    unfold nameOf? at hName
    unfold ValueRule.effectiveName
    cases hEmpty : value.name.isEmpty with
    | true => simp_all
    | false => simp_all
  rw [Resolver.firstOf_chain]
  simp only [Resolver.byBinding, hBinding, ValueRule.bind,
    hEffective]
  rw [if_neg (by simp), if_neg hType]
  rfl

/- An array is set from the items that are there, if any. -/
theorem sets_array_iff
    {items : List Argument}
    (hItems : ValueRule.items? argument = some items)
    {values : List Json}
    (h : List.Forall₂ Argument.Denotes argument.present
      values)
    (all : List Json) :
    Binder.Sets (Role.attribute.rule.addValue value)
        value.name argument (.array all) ↔
      values ≠ [] ∧ values = all := by
  have hOutcome :=
    outcome_addValue (.ofRole .attribute) value argument
  have hSets
      (hSome : values ≠ []) :
      Binder.Sets (Role.attribute.rule.addValue value)
        value.name argument (.array values) :=
    fun draft => (hOutcome draft).trans
      (resolve_attribute_items hItems h hSome draft)
  constructor
  · intro hAll
    have hSome : values ≠ [] := by
      intro hNone
      rw [hNone, List.forall₂_nil_right_iff] at h
      have hEmpty := (hOutcome .empty).symm.trans
        (hAll .empty)
      rw [resolve_of_absent h] at hEmpty
      have hLookup := lookup_resolve_null value
      rw [hEmpty, RequestDraft.lookup_withAttribute]
        at hLookup
      cases hDefault : value.default? <;>
        simp [hDefault] at hLookup
    exact ⟨hSome, Json.array.inj ((hSets hSome).unique hAll)⟩
  · rintro ⟨hSome, rfl⟩
    exact hSets hSome

/- A JSON value is kept unless items of it are left out. -/
theorem sets_json_iff
    {entered : Json}
    (h : entered.isNull = false) :
    Binder.Sets (Role.attribute.rule.addValue value)
        value.name (.json entered) entered ↔
      entered.KeepsItems := by
  have hOther
      (hNone : ∀ items, entered ≠ .array items) :
      Binder.Sets (Role.attribute.rule.addValue value)
        value.name (.json entered) entered :=
    fun draft =>
      (outcome_addValue (.ofRole .attribute) value _
        draft).trans
        (resolve_attribute (.json entered h)
          (Json.items?_json hNone) draft)
  cases entered with
  | array items =>
      have hDenotes := Argument.denotes_presentItems items
      rw [← Json.present_array] at hDenotes
      rw [sets_array_iff rfl hDenotes]
      unfold Json.KeepsItems
      constructor
      · rintro ⟨hSome, hSame⟩
        refine ⟨?_, (Json.presentItems_eq_self_iff _).mp
          hSame⟩
        rwa [hSame] at hSome
      · rintro ⟨hSome, hItems⟩
        have hSame :=
          (Json.presentItems_eq_self_iff items).mpr hItems
        rw [hSame]
        exact ⟨hSome, rfl⟩
  | _ => exact iff_of_true (hOther (by simp)) trivial

/- A list of texts and JSON is kept unless it is empty. -/
theorem sets_list_iff
    {items : List Argument}
    {values : List Json}
    (h : List.Forall₂ Argument.Denotes items values) :
    Binder.Sets (Role.attribute.rule.addValue value)
        value.name (.list items) (.array values) ↔
      items ≠ [] := by
  have hPresent := Argument.present_list h
  have hDenotes :
      List.Forall₂ Argument.Denotes
        (Argument.list items).present values := by
    rwa [hPresent]
  rw [sets_array_iff rfl hDenotes]
  have hLength := h.length_eq
  simp only [ne_eq, ← List.length_eq_zero_iff, hLength,
    and_true]

/-
  An attribute is set to a JSON value exactly if that is no
  array, or one of items that are not null, and to the array
  of a list of texts and JSON exactly if there are any.
  Other arrays are those of the items that are not null, and
  what has none counts as null.
-/
theorem attributes_kept_iff
    [DomainNames]
    {parameter : Parameter}
    (hBinding :
      parameter.binding = some (.named .attribute value))
    (hType : parameter.type ≠ .map)
    {name : String}
    (hName : nameOf? value parameter = some name) :
    ∃ binder : Binder,
      Resolver.firstOf (Resolver.chain [] true) parameter =
        .ok (some binder) ∧
      (∀ entered : Json, entered.isNull = false →
        (binder.Sets name (.json entered) entered ↔
          entered.KeepsItems)) ∧
      (∀ items values,
        List.Forall₂ Argument.Denotes items values →
        (binder.Sets name (.list items) (.array values) ↔
          items ≠ [])) ∧
      (∀ items, Json.presentItems items ≠ [] →
        binder.Sets name (.json (.array items))
          (.array (Json.presentItems items))) ∧
      ∀ argument : Argument, argument.present = [] →
        ∀ draft,
          (binder argument).outcome draft =
            (binder .null).outcome draft := by
  refine ⟨_, binder_of_attribute hBinding hType hName, ?_,
    ?_, ?_, ?_⟩
  · intro entered hEntered
    exact sets_json_iff hEntered
  · intro items values hDenotes
    exact sets_list_iff hDenotes
  · intro items hSome
    have hDenotes := Argument.denotes_presentItems items
    rw [← Json.present_array] at hDenotes
    exact (sets_array_iff rfl hDenotes _).mpr ⟨hSome, rfl⟩
  · intro argument hAbsent draft
    have hOutcome := outcome_addValue (.ofRole .attribute)
      { value with name := name }
    exact (hOutcome argument draft).trans
      ((resolve_of_absent hAbsent draft).trans
        (hOutcome .null draft).symm)

/- The tenant that a request is made for. -/
def tenantAttribute : Parameter :=
  (Parameter.named "tenant" .value).withBinding
    (.named .attribute ⟨"", true, none⟩)

open PlainNames

/- Null within an item stays where it is. -/
theorem attributes_kept_nested :
    ∃ binder : Binder,
      Resolver.firstOf (Resolver.chain [] true)
          tenantAttribute = .ok (some binder) ∧
      binder.Sets "tenant"
        (.json (.array [.array [.nat 1, .null]]))
        (.array [.array [.nat 1, .null]]) ∧
      binder.Sets "tenant"
        (.list [.text "a", .json (.bool true)])
        (.array [.string "a", .bool true]) := by
  have hBinding : tenantAttribute.binding =
      some (.named .attribute ⟨"", true, none⟩) := rfl
  rcases attributes_kept_iff hBinding (by decide) rfl with
    ⟨binder, hBinder, hJson, hList, _⟩
  refine ⟨binder, hBinder, ?_, ?_⟩
  · exact (hJson _ rfl).mpr ⟨by simp, by simp [Json.isNull]⟩
  · exact (hList _ _ (.cons (.text "a")
      (.cons (.json (.bool true) rfl) .nil))).mpr (by simp)

/- Null is left out of an array of numbers. -/
theorem attributes_not_always_kept :
    ¬ ∀ (parameter : Parameter)
        (value : NamedValue)
        (name : String)
        (binder : Binder),
      parameter.binding = some (.named .attribute value) →
      parameter.type ≠ .map →
      nameOf? value parameter = some name →
      Resolver.firstOf (Resolver.chain [] true) parameter =
        .ok (some binder) →
      ∀ entered : Json, entered.isNull = false →
        binder.Sets name (.json entered) entered := by
  intro hAlways
  have hKept := hAlways tenantAttribute
    ⟨"", true, none⟩ "tenant" _ rfl (by decide) rfl
    (binder_of_attribute rfl (by decide) rfl)
    (.array [.nat 1, .null, .nat 2]) rfl
  have hItems := (sets_json_iff rfl).mp hKept
  have hNull := hItems.2 .null (by simp)
  cases hNull

end NamedKind

end ServiceCalls
