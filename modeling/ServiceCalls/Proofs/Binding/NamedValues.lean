import ServiceCalls.Binding.Resolver
import ServiceCalls.Proofs.Fallible
import ServiceCalls.Proofs.Request.Edits

/-
  What named values come to.

  An argument stands for the values in it that are not null.
  They are entered into the draft one by one where a name
  may have several, and as one value elsewhere.  If there is
  none, the default is entered; without a default a required
  value is missed.  Binders of all kinds do just that.

  Key definitions include:
    * `Argument.present`
    * `NamedKind`
    * `NamedKind.enter` and `NamedKind.enterAll`
    * `NamedKind.resolve` and `NamedKind.resolveMap`

  Main declarations:
    * `NamedKind.outcome_add`
    * `NamedKind.outcome_addValue`
    * `NamedKind.outcome_addEntries`
    * `NamedKind.outcome_of_binding`
-/

namespace ServiceCalls

/- The values that an argument stands for, without nulls. -/
def Argument.present (argument : Argument) :
    List Argument :=
  ((ValueRule.items? argument).getD [argument]).filter
    fun item => !item.isNull

namespace Argument

variable {argument : Argument}

theorem isNull_of_present
    {item : Argument}
    (h : item ∈ argument.present) :
    item.isNull = false := by
  simpa using (List.mem_filter.mp h).2

/- The present items of a list. -/
theorem present_of_items
    {items : List Argument}
    (h : ValueRule.items? argument = some items) :
    argument.present =
      items.filter fun item => !item.isNull := by
  unfold present
  rw [h, Option.getD_some]

/- Any other argument stands for itself, unless it is null. -/
theorem present_of_single
    (h : ValueRule.items? argument = none) :
    argument.present =
      if argument.isNull then [] else [argument] := by
  unfold present
  rw [h, Option.getD_none, List.filter_cons, List.filter_nil]
  cases argument.isNull <;> rfl

end Argument

------------------------------------------------------------
-- Kinds of Named Values
------------------------------------------------------------

/- Where named values go: to the place of a role, or files. -/
inductive NamedKind where
| ofRole
    (role : Role)
| file
deriving DecidableEq, Repr

namespace NamedKind

/- The words for a kind in messages. -/
def label : NamedKind → String
  | .ofRole .header => "request header"
  | .ofRole .parameter => "request param"
  | .ofRole .cookie => "cookie value"
  | .ofRole .pathVariable => "path variable"
  | .ofRole .attribute => "request attribute"
  | .ofRole .part => "request part"
  | .file => "multipart file"

/- Whether a name may have several values. -/
def repeatable : NamedKind → Bool
  | .ofRole .pathVariable => false
  | .ofRole .attribute => false
  | _ => true

/- What a parameter declares for a kind. -/
inductive Declares :
    NamedKind → Parameter → NamedValue → Prop
| ofRole
    {role : Role}
    {parameter : Parameter}
    {value : NamedValue}
    (h : parameter.binding = some (.named role value)) :
    Declares (.ofRole role) parameter value
| file
    {parameter : Parameter}
    (h : parameter.type = .file) :
    Declares .file parameter ⟨"", true, none⟩

/- The resolver of a kind. -/
def resolver : NamedKind → Resolver
  | .ofRole role => Resolver.ofRole role
  | .file => Resolver.file

------------------------------------------------------------
-- Entering Values
------------------------------------------------------------

/- A draft with one more part, unless it has a body value. -/
def enterPart
    (draft : RequestDraft)
    (name : String)
    (item : Argument) :
    Except ServiceError RequestDraft :=
  match draft.body.parts? with
  | none => .error RequestDraft.bodyAndParts
  | some parts =>
      (Part.ofArgument name item).map fun part =>
        { draft with body := .parts (parts ++ [part]) }

/- A draft with one more value of a kind under a name. -/
def enter
    (name : String)
    (draft : RequestDraft)
    (item : Argument) :
    NamedKind → Except ServiceError RequestDraft
  | .ofRole .header => do
      let text ← item.toText
      (draft.headers.appendText name text).map fun headers =>
        { draft with headers := headers }
  | .ofRole .parameter => do
      let text ← item.toText
      return { draft with
        parameters := draft.parameters ++ [(name, text)] }
  | .ofRole .cookie => do
      let text ← item.toText
      return { draft with
        cookies := draft.cookies ++ [(name, text)] }
  | .ofRole .pathVariable => do
      let text ← item.toText
      return { draft with
        «variables» :=
          Assoc.insert name text draft.variables }
  | .ofRole .attribute => do
      let value ← attributeValue item
      return { draft with
        attributes :=
          Assoc.insert name value draft.attributes }
  | .ofRole .part => enterPart draft name item
  | .file =>
      match item with
      | .file _ => enterPart draft name item
      | _ => .error (notFile name item)

/- Values entered in order, up to one that is refused. -/
def enterAll
    (kind : NamedKind)
    (name : String)
    (draft : RequestDraft) :
    List Argument → RequestDraft × Except ServiceError Unit
  | [] => (draft, .ok ())
  | item :: rest =>
      match kind.enter name draft item with
      | .error error => (draft, .error error)
      | .ok next => kind.enterAll name next rest

/- Several values as one: an array, or texts with commas. -/
def collapsed :
    NamedKind → List Argument → Except ServiceError Argument
  | .ofRole .attribute, items =>
      (items.mapM attributeValue).map fun values =>
        .json (.array values)
  | _, items =>
      (items.mapM Argument.toText).map fun texts =>
        .text (",".intercalate texts)

/- What becomes of a draft when there is no value. -/
def resolveAbsent
    (kind : NamedKind)
    (value : NamedValue)
    (draft : RequestDraft) :
    RequestDraft × Except ServiceError Unit :=
  match value.default? with
  | some text => kind.enterAll value.name draft [.text text]
  | none =>
      if value.required then
        (draft, .error (.missingValue kind.label value.name))
      else (draft, .ok ())

/- What becomes of a draft when an argument is bound. -/
def resolve
    (kind : NamedKind)
    (value : NamedValue)
    (argument : Argument)
    (draft : RequestDraft) :
    RequestDraft × Except ServiceError Unit :=
  match argument.present with
  | [] => kind.resolveAbsent value draft
  | first :: rest =>
      if kind.repeatable then
        kind.enterAll value.name draft (first :: rest)
      else if (ValueRule.items? argument).isNone then
        kind.enterAll value.name draft [argument]
      else
        match kind.collapsed (first :: rest) with
        | .error error => (draft, .error error)
        | .ok one => kind.enterAll value.name draft [one]

/-
  What becomes of a draft when entries are bound.  No entry
  is required or has a default.
-/
def resolveEntries
    (kind : NamedKind)
    (draft : RequestDraft) :
    List (String × Argument) →
      RequestDraft × Except ServiceError Unit
  | [] => (draft, .ok ())
  | (name, item) :: rest =>
      match kind.resolve ⟨name, false, none⟩ item draft with
      | (next, .ok _) => kind.resolveEntries next rest
      | (last, .error error) => (last, .error error)

/- What becomes of a draft when a map is bound. -/
def resolveMap
    (kind : NamedKind)
    (argument : Argument)
    (draft : RequestDraft) :
    RequestDraft × Except ServiceError Unit :=
  match argument with
  | .null => (draft, .ok ())
  | .map entries => kind.resolveEntries draft entries
  | .json (.object fields) =>
      kind.resolveEntries draft
        (fields.map fun field => (field.1, .json field.2))
  | other =>
      (draft, .error (ValueRule.notMap kind.label other))

------------------------------------------------------------
-- Rules
------------------------------------------------------------

/- The rule that values of a kind are added by. -/
def rule : NamedKind → ValueRule
  | .ofRole role => role.rule
  | .file => ValueRule.file

theorem label_rule (kind : NamedKind) :
    kind.rule.label = kind.label := by
  cases kind with
  | ofRole role => cases role <;> rfl
  | file => rfl

theorem repeatable_rule (kind : NamedKind) :
    kind.rule.repeatable = kind.repeatable := by
  cases kind with
  | ofRole role => cases role <;> rfl
  | file => rfl

end NamedKind

------------------------------------------------------------
-- Adding by a Rule
------------------------------------------------------------

/- What comes of a change that is not made if it fails. -/
def RequestDraft.changedTo
    (draft : RequestDraft) :
    Except ServiceError RequestDraft →
      RequestDraft × Except ServiceError Unit
  | .ok next => (next, .ok ())
  | .error error => (draft, .error error)

theorem RequestDraft.outcome_addHeader
    (name text : String)
    (draft : RequestDraft) :
    (addHeader name [text]).outcome draft =
      draft.changedTo
        ((draft.headers.appendText name text).map
          fun headers => { draft with headers := headers }) := by
  unfold addHeader Headers.appendText
  cases HeaderName.read name with
  | error error => rfl
  | ok header =>
      change (Edit.all [appendHeader header text]).outcome
        draft = _
      unfold appendHeader
      cases HeaderValue.read text <;> rfl

theorem outcome_addPlainPart
    (name : String)
    (item : Argument)
    (draft : RequestDraft) :
    (addPlainPart name item).outcome draft =
      draft.changedTo
        (NamedKind.enterPart draft name item) := by
  unfold addPlainPart Edit.outcome NamedKind.enterPart
  rw [RequestDraft.addPart_eq]
  cases draft.body.parts? with
  | none => rfl
  | some parts => cases Part.ofArgument name item <;> rfl

/- What takes a text is given that of a scalar. -/
theorem outcome_addText
    {add : String → String → Edit Unit}
    {name : String}
    {draft : RequestDraft}
    {change : String → Except ServiceError RequestDraft}
    (h : ∀ text,
      (add name text).outcome draft =
        draft.changedTo (change text))
    (item : Argument) :
    (addText add name item).outcome draft =
      draft.changedTo (item.toText >>= change) := by
  unfold addText
  cases item.toText with
  | error error => rfl
  | ok text => exact h text

/- Texts of scalars are joined with commas. -/
theorem join_eq_intercalate
    (separator : String)
    (texts : List String) :
    Text.join separator texts =
      separator.intercalate texts := by
  induction texts with
  | nil => rfl
  | cons first rest ih =>
      cases rest with
      | nil => exact String.intercalate_singleton.symm
      | cons second others =>
          rw [String.intercalate_cons_cons, ← ih]
          rfl

theorem joinScalars_eq (items : List Argument) :
    joinScalars items =
      (items.mapM Argument.toText).map fun texts =>
        .text (",".intercalate texts) := by
  unfold joinScalars
  simp only [join_eq_intercalate]

theorem attributeItems_eq (items : List Argument) :
    attributeItems items = items.mapM attributeValue := by
  induction items with
  | nil => rfl
  | cons first rest ih =>
      rw [List.mapM_cons, ← ih, attributeItems]

theorem collapseToArray_eq (items : List Argument) :
    collapseToArray items =
      (items.mapM attributeValue).map fun values =>
        .json (.array values) := by
  unfold collapseToArray
  rw [attributeItems_eq]

namespace NamedKind

variable {kind : NamedKind}

theorem enterAll_singleton
    (kind : NamedKind)
    (name : String)
    (draft : RequestDraft)
    (item : Argument) :
    kind.enterAll name draft [item] =
      draft.changedTo (kind.enter name draft item) := by
  unfold enterAll
  cases kind.enter name draft item <;> rfl

/- A rule adds a value as its kind enters it. -/
theorem outcome_add
    (kind : NamedKind)
    (name : String)
    (item : Argument)
    (draft : RequestDraft) :
    (kind.rule.add name item).outcome draft =
      draft.changedTo (kind.enter name draft item) := by
  cases kind with
  | file =>
      cases item with
      | file f => exact outcome_addPlainPart name _ draft
      | _ => rfl
  | ofRole role =>
      cases role with
      | part => exact outcome_addPlainPart name item draft
      | header =>
          exact outcome_addText (fun text =>
            RequestDraft.outcome_addHeader name text draft)
            item
      | pathVariable =>
          exact outcome_addText (fun _ => rfl) item
      | parameter =>
          exact outcome_addText (fun _ => rfl) item
      | cookie =>
          exact outcome_addText (fun _ => rfl) item
      | «attribute» =>
          change (addAttributeValue name item).outcome draft =
            _
          unfold addAttributeValue enter
          cases attributeValue item <;> rfl

/- A rule makes one value of several as its kind does. -/
theorem collapse_rule
    (kind : NamedKind)
    (items : List Argument) :
    kind.rule.collapse items = kind.collapsed items := by
  cases kind with
  | file => exact joinScalars_eq items
  | ofRole role =>
      cases role with
      | «attribute» => exact collapseToArray_eq items
      | _ => exact joinScalars_eq items

/- One value that is made of several is not null. -/
theorem isNull_of_collapsed
    {kind : NamedKind}
    {items : List Argument}
    {one : Argument}
    (h : kind.collapsed items = .ok one) :
    one.isNull = false := by
  unfold collapsed at h
  split at h
  · obtain ⟨values, _, rfl⟩ := Fallible.map_eq_ok h
    rfl
  · obtain ⟨texts, _, rfl⟩ := Fallible.map_eq_ok h
    rfl

------------------------------------------------------------
-- Single Values and Lists
------------------------------------------------------------

variable {draft : RequestDraft}
variable {value : NamedValue}

theorem outcome_addOne_present
    {item : Argument}
    (h : item.isNull = false) :
    (kind.rule.addOne value item).outcome draft =
      kind.enterAll value.name draft [item] := by
  unfold ValueRule.addOne
  rw [h, enterAll_singleton, ← outcome_add]
  rfl

theorem outcome_addOne_absent
    {item : Argument}
    (h : item.isNull = true) :
    (kind.rule.addOne value item).outcome draft =
      kind.resolveAbsent value draft := by
  unfold ValueRule.addOne resolveAbsent
  rw [h, if_pos rfl]
  cases value.default? with
  | some text =>
      dsimp only
      rw [enterAll_singleton, ← outcome_add]
      rfl
  | none =>
      dsimp only
      rw [label_rule]
      cases value.required <;> rfl

/- The items of a list are entered one after the other. -/
theorem outcome_addItems
    {items : List Argument}
    (h : ∀ item ∈ items, item.isNull = false)
    (name : String)
    (draft : RequestDraft) :
    (Edit.all (items.map
      (kind.rule.addOne (ValueRule.ofItem name)))).outcome
      draft = kind.enterAll name draft items := by
  induction items generalizing draft with
  | nil => rfl
  | cons item rest ih =>
      have hItem :
          (kind.rule.addOne (ValueRule.ofItem name)
            item).outcome draft =
            draft.changedTo (kind.enter name draft item) := by
        rw [outcome_addOne_present (h item List.mem_cons_self)]
        exact enterAll_singleton kind name draft item
      rw [List.map_cons, Edit.all, Edit.outcome_bind, hItem,
        enterAll]
      cases kind.enter name draft item with
      | error error => rfl
      | ok next =>
          exact ih (fun later hLater =>
            h later (List.mem_cons_of_mem _ hLater)) next

/- An argument is added as what it stands for. -/
theorem outcome_addValue
    (kind : NamedKind)
    (value : NamedValue)
    (argument : Argument)
    (draft : RequestDraft) :
    (kind.rule.addValue value argument).outcome draft =
      kind.resolve value argument draft := by
  unfold ValueRule.addValue resolve
  cases hItems : ValueRule.items? argument with
  | none =>
      rw [Argument.present_of_single hItems]
      cases hNull : argument.isNull with
      | true => exact outcome_addOne_absent hNull
      | false =>
          have hOne :
              (kind.rule.addOne value argument).outcome draft =
                kind.enterAll value.name draft [argument] :=
            outcome_addOne_present hNull
          cases kind.repeatable <;> exact hOne
  | some items =>
      have hPresent :
          ∀ item ∈ argument.present, item.isNull = false :=
        fun _ hMem => Argument.isNull_of_present hMem
      rw [Argument.present_of_items hItems] at hPresent ⊢
      -- A list of nulls is no different from null.
      cases hRest : items.filter fun item => !item.isNull with
      | nil =>
          have hNone : Argument.null.isNull = true := rfl
          simp only [hRest]
          exact outcome_addOne_absent hNone
      | cons first rest =>
          rw [hRest] at hPresent
          simp only [hRest, repeatable_rule, collapse_rule]
          cases kind.repeatable with
          | true =>
              exact outcome_addItems hPresent value.name draft
          | false =>
              change (Edit.bind _ _).outcome draft = _
              rw [Edit.outcome_bind]
              cases hOne : kind.collapsed (first :: rest) with
              | error error => rfl
              | ok one =>
                  exact outcome_addOne_present
                    (isNull_of_collapsed hOne)

------------------------------------------------------------
-- Maps
------------------------------------------------------------

theorem outcome_addEach
    (kind : NamedKind)
    (entries : List (String × Argument))
    (draft : RequestDraft) :
    (Edit.all (entries.map fun entry =>
      kind.rule.addValue (ValueRule.ofItem entry.1)
        entry.2)).outcome draft =
      kind.resolveEntries draft entries := by
  induction entries generalizing draft with
  | nil => rfl
  | cons entry rest ih =>
      rw [List.map_cons, Edit.all, Edit.outcome_bind,
        outcome_addValue, resolveEntries, ValueRule.ofItem]
      cases kind.resolve ⟨entry.1, false, none⟩ entry.2
          draft with
      | mk next result =>
          cases result with
          | error error => rfl
          | ok _ => exact ih next

/- The entries of a map are added one after the other. -/
theorem outcome_addEntries
    (kind : NamedKind)
    (argument : Argument)
    (draft : RequestDraft) :
    (kind.rule.addEntries argument).outcome draft =
      kind.resolveMap argument draft := by
  cases argument with
  | null => rfl
  | map entries => exact outcome_addEach kind entries draft
  | json document =>
      cases document with
      | object fields =>
          rw [resolveMap, ← outcome_addEach, List.map_map]
          simp only [ValueRule.addEntries, ValueRule.entries?,
            List.map_map]
      | _ =>
          rw [resolveMap, ← label_rule]
          · rfl
          all_goals simp
  | _ =>
      rw [resolveMap, ← label_rule]
      · rfl
      all_goals simp

------------------------------------------------------------
-- Bindings
------------------------------------------------------------

/- The name that values of a parameter go by. -/
def nameOf? (value : NamedValue) (parameter : Parameter) :
    Option String :=
  if value.name.isEmpty then parameter.name
  else some value.name

/- A declared parameter is bound by the rule of its kind. -/
theorem resolver_of_declares
    {parameter : Parameter}
    (h : kind.Declares parameter value) :
    kind.resolver parameter =
      (kind.rule.bind value parameter).map some := by
  cases h with
  | ofRole h =>
      simp only [resolver, Resolver.ofRole,
        Resolver.valueInRole?, h, if_true, rule]
  | file h =>
      simp only [resolver, Resolver.file, h, if_true, rule,
        NamedValue.unnamed]

/-
  Whatever the kind, its flags, and the declared type, what
  an argument is bound to is what its values come to.
-/
theorem outcome_of_binding
    {parameter : Parameter}
    (h : kind.Declares parameter value) :
    (parameter.type ≠ .map →
      ∀ name, nameOf? value parameter = some name →
        ∃ binder : Binder,
          kind.resolver parameter = .ok (some binder) ∧
          ∀ argument draft,
            (binder argument).outcome draft =
              kind.resolve { value with name := name }
                argument draft) ∧
    (parameter.type = .map →
      ∃ binder : Binder,
        kind.resolver parameter = .ok (some binder) ∧
        ∀ argument draft,
          (binder argument).outcome draft =
            kind.resolveMap argument draft) := by
  rw [resolver_of_declares h]
  unfold ValueRule.bind
  constructor
  · intro hType name hName
    rw [if_neg hType]
    have hEffective :
        ValueRule.effectiveName kind.rule.label value
          parameter = .ok name := by
      unfold nameOf? at hName
      unfold ValueRule.effectiveName
      cases hEmpty : value.name.isEmpty with
      | true =>
          rw [hEmpty, if_pos rfl] at hName
          simp only [hName, if_true]
      | false =>
          rw [hEmpty] at hName
          simpa using hName
    rw [hEffective]
    exact ⟨_, rfl, outcome_addValue kind _⟩
  · intro hType
    rw [if_pos hType]
    exact ⟨_, rfl, outcome_addEntries kind⟩

/- A path variable with a default that is also required. -/
def idsVariable : Parameter :=
  (Parameter.named "ids" .value).withBinding
    (.named .pathVariable ⟨"", true, some "all"⟩)

/- Items are joined without nulls; the default replaces null. -/
theorem outcome_of_ids :
    ∃ binder : Binder,
      resolver (.ofRole .pathVariable) idsVariable =
        .ok (some binder) ∧
      (binder .null).outcome RequestDraft.empty =
        ({ RequestDraft.empty with
            «variables» := [("ids", "all")] }, .ok ()) ∧
      (binder (.list [.null, .text "a", .text "b"])).outcome
          RequestDraft.empty =
        ({ RequestDraft.empty with
            «variables» := [("ids", "a,b")] }, .ok ()) := by
  have hDeclares :
      Declares (.ofRole .pathVariable) idsVariable
        ⟨"", true, some "all"⟩ :=
    .ofRole rfl
  obtain ⟨binder, hBinder, hOutcome⟩ :=
    (outcome_of_binding hDeclares).1 (by decide) "ids" rfl
  refine ⟨binder, hBinder, ?_, ?_⟩
  · exact hOutcome _ _
  · rw [hOutcome]
    rfl

end NamedKind

end ServiceCalls
