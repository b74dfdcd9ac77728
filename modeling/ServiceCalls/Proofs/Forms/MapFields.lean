import ServiceCalls.Binding.Resolver
import ServiceCalls.Exchange.Encoding
import ServiceCalls.Proofs.Fallible
import ServiceCalls.Proofs.Forms.FieldOrder

/-
  Maps that are sent as forms.

  A map is sent as a form when it is the body, and when its
  entries are bound as parameters.  The parameters are those
  of the entries in order; the body goes through an object,
  in which names are in order and occur once.

  Key definitions include:
    * `IsFieldScalar` and `IsFieldValue`
    * `Argument.fieldTexts`
    * `Edit.Adds`

  Main declarations:
    * `Edit.adds_addEntries`
    * `encodeValue_map`
    * `fields_of_map`
-/

namespace ServiceCalls

------------------------------------------------------------
-- Values of Fields
------------------------------------------------------------

/- A value that makes one field, or none if it is null. -/
inductive IsFieldScalar : Argument → Prop where
| null :
    IsFieldScalar .null
| text
    (s : String) :
    IsFieldScalar (.text s)
| uri
    (url : Url) :
    IsFieldScalar (.uri url)
| method
    (m : Method) :
    IsFieldScalar (.method m)
| jsonNull :
    IsFieldScalar (.json .null)
| jsonBool
    (b : Bool) :
    IsFieldScalar (.json (.bool b))
| jsonNumber
    (n : Json.Number) :
    IsFieldScalar (.json (.number n))
| jsonString
    (s : String) :
    IsFieldScalar (.json (.string s))

/- A value that makes some fields of one name. -/
inductive IsFieldValue : Argument → Prop where
| scalar
    {a : Argument}
    (h : IsFieldScalar a) :
    IsFieldValue a
| list
    {items : List Argument}
    (h : ∀ item ∈ items, IsFieldScalar item) :
    IsFieldValue (.list items)
| array
    {items : List Json}
    (h : ∀ item ∈ items, IsFieldScalar (.json item)) :
    IsFieldValue (.json (.array items))

namespace Argument

/- The text of a field; null has none. -/
def fieldText? (a : Argument) : Option String :=
  a.toText.toOption

/- The texts of all fields of a value. -/
def fieldTexts (a : Argument) : List String :=
  ((ValueRule.items? a).getD [a]).filterMap fieldText?

end Argument

theorem items?_of_isFieldScalar
    {a : Argument}
    (h : IsFieldScalar a) :
    ValueRule.items? a = none := by
  cases h <;> rfl

theorem fieldTexts_of_isFieldScalar
    {a : Argument}
    (h : IsFieldScalar a) :
    a.fieldTexts = a.fieldText?.toList := by
  unfold Argument.fieldTexts
  rw [items?_of_isFieldScalar h, Option.getD_none,
    List.filterMap_cons, List.filterMap_nil]
  cases a.fieldText? <;> rfl

/- A scalar is null, or it has a text. -/
theorem toText_of_isFieldScalar
    {a : Argument}
    (h : IsFieldScalar a) :
    (a.isNull = true ∧ a.fieldText? = none) ∨
      a.isNull = false ∧
        ∃ text,
          a.toText = .ok text ∧
          a.fieldText? = some text := by
  cases h with
  | null => exact .inl ⟨rfl, rfl⟩
  | jsonNull => exact .inl ⟨rfl, rfl⟩
  | text s => exact .inr ⟨rfl, _, rfl, rfl⟩
  | uri url => exact .inr ⟨rfl, _, rfl, rfl⟩
  | method m => exact .inr ⟨rfl, _, rfl, rfl⟩
  | jsonBool b => exact .inr ⟨rfl, _, rfl, rfl⟩
  | jsonNumber n => exact .inr ⟨rfl, _, rfl, rfl⟩
  | jsonString s => exact .inr ⟨rfl, _, rfl, rfl⟩

------------------------------------------------------------
-- Parameters
------------------------------------------------------------

namespace Edit

/- A step that adds parameters and nothing else. -/
def Adds
    (step : Edit Unit)
    (pairs : List (String × String)) :
    Prop :=
  ∀ draft,
    (step draft).result = .ok () ∧
    (step draft).draft =
      { draft with parameters := draft.parameters ++ pairs }

theorem adds_pure : (Edit.pure ()).Adds [] := by
  intro draft
  refine ⟨rfl, ?_⟩
  rw [List.append_nil]
  rfl

theorem adds_bind
    {first second : Edit Unit}
    {before after : List (String × String)}
    (hFirst : first.Adds before)
    (hSecond : second.Adds after) :
    (Edit.bind first fun _ => second).Adds
      (before ++ after) := by
  intro draft
  rcases hFirst draft with ⟨hResult, hDraft⟩
  rcases hSecond (first draft).draft with ⟨hLast, hAfter⟩
  unfold Edit.bind
  dsimp only
  rw [hResult]
  refine ⟨hLast, ?_⟩
  rw [hAfter, hDraft]
  dsimp only
  rw [List.append_assoc]

/- Steps that add parameters add those of all of them. -/
theorem adds_all
    {α : Type}
    {step : α → Edit Unit}
    {pairs : α → List (String × String)}
    {items : List α}
    (h : ∀ item ∈ items, (step item).Adds (pairs item)) :
    (Edit.all (items.map step)).Adds
      (items.flatMap pairs) := by
  induction items with
  | nil => exact adds_pure
  | cons first rest ih =>
      rw [List.map_cons, List.flatMap_cons]
      apply adds_bind (h first List.mem_cons_self)
      apply ih
      intro item hItem
      exact h item (List.mem_cons_of_mem _ hItem)

theorem adds_record (entry : LogRecord) :
    (Edit.record entry).Adds [] := by
  intro draft
  refine ⟨rfl, ?_⟩
  rw [List.append_nil]
  rfl

/- A scalar is added as one parameter, or none. -/
theorem adds_addOne
    (name : String)
    {item : Argument}
    (hItem : IsFieldScalar item) :
    (Role.parameter.rule.addOne
      (ValueRule.ofItem name) item).Adds
        (item.fieldText?.toList.map
          fun text => (name, text)) := by
  unfold ValueRule.addOne
  rcases toText_of_isFieldScalar hItem with
    ⟨hNull, hText⟩ | ⟨hThere, text, hOk, hText⟩
  · rw [hNull, hText]
    exact adds_pure
  · have hAdd :
        (Role.parameter.rule.add name item).Adds
          [(name, text)] := by
      intro draft
      change (Edit.bind (Edit.lift item.toText)
          (fun text =>
            RequestDraft.addParameter name [text])
          draft).result = _ ∧
        (Edit.bind (Edit.lift item.toText)
          (fun text =>
            RequestDraft.addParameter name [text])
          draft).draft = _
      rw [hOk]
      exact ⟨rfl, rfl⟩
    rw [hThere, hText]
    exact adds_bind (adds_record _) hAdd

/- The items of a list are added one by one. -/
theorem adds_items
    (name : String)
    {items : List Argument}
    (hItems : ∀ item ∈ items, IsFieldScalar item) :
    (Edit.all (items.map
      (Role.parameter.rule.addOne
        (ValueRule.ofItem name)))).Adds
      ((items.filterMap Argument.fieldText?).map
        fun text => (name, text)) := by
  rw [List.filterMap_eq_flatMap_toList, List.map_flatMap]
  apply adds_all
  intro item hItem
  exact adds_addOne name (hItems item hItem)

/- Items that are null have no fields. -/
theorem filterMap_filter_null
    {items : List Argument}
    (hItems : ∀ item ∈ items, IsFieldScalar item) :
    (items.filter fun item => !item.isNull).filterMap
        Argument.fieldText? =
      items.filterMap Argument.fieldText? := by
  rw [List.filterMap_filter]
  apply List.filterMap_congr
  intro item hItem
  rcases toText_of_isFieldScalar (hItems item hItem) with
    ⟨hNull, hText⟩ | ⟨hThere, _⟩
  · rw [hNull, hText]
    rfl
  · rw [hThere]
    rfl

theorem adds_addValue_items
    (name : String)
    {a : Argument}
    {items : List Argument}
    (hList : ValueRule.items? a = some items)
    (hItems : ∀ item ∈ items, IsFieldScalar item) :
    (Role.parameter.rule.addValue
      (ValueRule.ofItem name) a).Adds
        (a.fieldTexts.map fun text => (name, text)) := by
  unfold ValueRule.addValue Argument.fieldTexts
  rw [hList, Option.getD_some,
    ← filterMap_filter_null hItems]
  dsimp only
  have hPresent :
      ∀ item ∈ items.filter (fun item => !item.isNull),
        IsFieldScalar item :=
    fun item hItem =>
      hItems item (List.mem_of_mem_filter hItem)
  cases hFilter :
      items.filter fun item => !item.isNull with
  | nil => exact adds_addOne name .null
  | cons first rest =>
      rw [hFilter] at hPresent
      exact adds_items name hPresent

theorem adds_addValue
    (name : String)
    {a : Argument}
    (hValue : IsFieldValue a) :
    (Role.parameter.rule.addValue
      (ValueRule.ofItem name) a).Adds
        (a.fieldTexts.map fun text => (name, text)) := by
  cases hValue with
  | scalar hScalar =>
      unfold ValueRule.addValue
      rw [items?_of_isFieldScalar hScalar,
        fieldTexts_of_isFieldScalar hScalar]
      exact adds_addOne name hScalar
  | list hItems =>
      exact adds_addValue_items name rfl hItems
  | array hItems =>
      apply adds_addValue_items name rfl
      intro item hItem
      rcases List.mem_map.mp hItem with
        ⟨value, hMem, hSame⟩
      subst hSame
      exact hItems value hMem

/- The entries of a map are added in order. -/
theorem adds_addEntries
    {entries : List (String × Argument)}
    (hValues :
      ∀ entry ∈ entries, IsFieldValue entry.2) :
    (Role.parameter.rule.addEntries (.map entries)).Adds
      (Forms.fields Argument.fieldTexts entries) := by
  unfold Forms.fields
  apply adds_all
  intro entry hEntry
  exact adds_addValue entry.1 (hValues entry hEntry)

end Edit

------------------------------------------------------------
-- Bodies
------------------------------------------------------------

/- A scalar and its JSON form have the same text. -/
theorem toJson_of_isFieldScalar
    {a : Argument}
    (h : IsFieldScalar a) :
    ∃ value,
      a.toJson = .ok value ∧
      fieldItems value = [value] ∧
      ∀ name, fieldText? name value = .ok a.fieldText? := by
  cases h with
  | null => exact ⟨_, rfl, rfl, fun _ => rfl⟩
  | jsonNull => exact ⟨_, rfl, rfl, fun _ => rfl⟩
  | text s => exact ⟨_, rfl, rfl, fun _ => rfl⟩
  | uri url => exact ⟨_, rfl, rfl, fun _ => rfl⟩
  | method m => exact ⟨_, rfl, rfl, fun _ => rfl⟩
  | jsonBool b => exact ⟨_, rfl, rfl, fun _ => rfl⟩
  | jsonNumber n => exact ⟨_, rfl, rfl, fun _ => rfl⟩
  | jsonString s => exact ⟨_, rfl, rfl, fun _ => rfl⟩

/- The fields of a name are those of the texts there are. -/
theorem fieldsNamed_of_texts
    {name : String}
    {values : List Json}
    {texts : List (Option String)}
    (h : values.mapM (fieldText? name) = .ok texts) :
    fieldsNamed name values =
      .ok ((texts.filterMap id).map
        fun text => (name, text)) := by
  unfold fieldsNamed
  rw [h]
  change Except.ok (texts.filterMap fun text? =>
    text?.map fun text => (name, text)) = _
  rw [List.map_filterMap]
  rfl

theorem itemsToJson_of_isFieldScalar
    {items : List Argument}
    (hItems : ∀ item ∈ items, IsFieldScalar item) :
    ∃ values,
      itemsToJson items = .ok values ∧
      ∀ name, values.mapM (fieldText? name) =
        .ok (items.map Argument.fieldText?) := by
  induction items with
  | nil => exact ⟨[], rfl, fun _ => rfl⟩
  | cons first rest ih =>
      rcases toJson_of_isFieldScalar
          (hItems first List.mem_cons_self) with
        ⟨value, hValue, _, hText⟩
      rcases ih fun item hItem =>
          hItems item (List.mem_cons_of_mem _ hItem) with
        ⟨values, hValues, hTexts⟩
      refine ⟨value :: values, ?_, ?_⟩
      · unfold itemsToJson
        rw [hValue, hValues]
        rfl
      · intro name
        rw [List.mapM_cons, hText, hTexts]
        rfl

theorem itemsToJson_json (items : List Json) :
    itemsToJson (items.map Argument.json) = .ok items := by
  induction items with
  | nil => rfl
  | cons first rest ih =>
      rw [List.map_cons]
      unfold itemsToJson
      rw [ih]
      rfl

/- The JSON form of a value has its fields. -/
theorem toJson_of_isFieldValue
    {a : Argument}
    (h : IsFieldValue a) :
    ∃ value,
      a.toJson = .ok value ∧
      ∀ name, fieldsNamed name (fieldItems value) =
        .ok (a.fieldTexts.map
          fun text => (name, text)) := by
  cases h with
  | scalar hScalar =>
      rcases toJson_of_isFieldScalar hScalar with
        ⟨value, hValue, hItems, hText⟩
      refine ⟨value, hValue, ?_⟩
      intro name
      have hTexts :
          [value].mapM (fieldText? name) =
            .ok [a.fieldText?] := by
        rw [List.mapM_cons, hText]
        rfl
      rw [hItems, fieldsNamed_of_texts hTexts,
        fieldTexts_of_isFieldScalar hScalar]
      cases a.fieldText? <;> rfl
  | list hItems =>
      rcases itemsToJson_of_isFieldScalar hItems with
        ⟨values, hValues, hTexts⟩
      refine ⟨.array values, ?_, ?_⟩
      · unfold Argument.toJson
        rw [hValues]
        rfl
      · intro name
        rw [fieldItems, fieldsNamed_of_texts (hTexts name),
          List.filterMap_map]
        rfl
  | @array items hItems =>
      have hScalars :
          ∀ item ∈ items.map Argument.json,
            IsFieldScalar item := by
        intro item hItem
        rcases List.mem_map.mp hItem with
          ⟨value, hMem, hSame⟩
        subst hSame
        exact hItems value hMem
      rcases itemsToJson_of_isFieldScalar hScalars with
        ⟨values, hValues, hTexts⟩
      rw [itemsToJson_json] at hValues
      cases hValues
      refine ⟨.array items, rfl, ?_⟩
      intro name
      rw [fieldItems, fieldsNamed_of_texts (hTexts name),
        List.filterMap_map]
      rfl

/- The JSON form of a value that has one. -/
def Argument.asJson (a : Argument) : Json :=
  a.toJson.toOption.getD .null

theorem asJson_of_isFieldValue
    {a : Argument}
    (h : IsFieldValue a) :
    a.toJson = .ok a.asJson ∧
      ∀ name, fieldsNamed name (fieldItems a.asJson) =
        .ok (a.fieldTexts.map
          fun text => (name, text)) := by
  rcases toJson_of_isFieldValue h with
    ⟨value, hValue, hFields⟩
  have hSame : a.asJson = value := by
    unfold Argument.asJson
    rw [hValue]
    rfl
  rw [hSame]
  exact ⟨hValue, hFields⟩

theorem entriesToJson_of_isFieldValue
    {entries : List (String × Argument)}
    (hValues :
      ∀ entry ∈ entries, IsFieldValue entry.2) :
    entriesToJson entries =
      .ok (entries.map
        fun entry => (entry.1, entry.2.asJson)) := by
  induction entries with
  | nil => rfl
  | cons first rest ih =>
      rcases first with ⟨name, a⟩
      have hFirst := asJson_of_isFieldValue
        (hValues (name, a) List.mem_cons_self)
      have hRest := ih fun entry hEntry =>
        hValues entry (List.mem_cons_of_mem _ hEntry)
      unfold entriesToJson
      rw [hFirst.1, hRest]
      rfl

/- The form fields of the JSON forms of entries. -/
theorem formFields_of_isFieldValue
    {entries : List (String × Argument)}
    (hValues :
      ∀ entry ∈ entries, IsFieldValue entry.2) :
    formFields (entries.map
        fun entry => (entry.1, entry.2.asJson)) =
      .ok (Forms.fields Argument.fieldTexts entries) := by
  have hGroups
      (entry : String × Argument)
      (hEntry : entry ∈ entries) :
      fieldsNamed entry.1 (fieldItems entry.2.asJson) =
        .ok (entry.2.fieldTexts.map
          fun text => (entry.1, text)) :=
    (asJson_of_isFieldValue (hValues entry hEntry)).2 _
  unfold formFields
  rw [Fallible.mapM_map_eq_ok hGroups]
  change Except.ok (List.flatten _) = _
  rw [← List.flatMap_def]
  rfl

/- A map is sent with its entries in order. -/
theorem encodeValue_map
    [KnownMedia]
    {entries : List (String × Argument)}
    (hValues :
      ∀ entry ∈ entries, IsFieldValue entry.2)
    {declared : String}
    (hForm : MediaType.isForm declared = true) :
    encodeValue (some declared) (.map entries) =
      .ok (some ⟨some declared,
        .form (Forms.fields Argument.fieldTexts
          (Json.sortFields entries))⟩) := by
  have hSorted :
      ∀ entry ∈ Json.sortFields entries,
        IsFieldValue entry.2 :=
    fun entry hEntry =>
      hValues entry (Json.mem_of_mem_sortFields hEntry)
  have hFields :
      declaredFields? (some declared) (.map entries) =
        some (.ok ((Json.sortFields entries).map
          fun entry => (entry.1, entry.2.asJson))) := by
    unfold declaredFields? declaresForm fieldsOf?
    dsimp only
    rw [if_pos hForm, entriesToJson_of_isFieldValue hValues,
      ← Json.sortFields_map]
    rfl
  unfold encodeValue
  rw [hFields]
  dsimp only [bind, Except.bind]
  rw [formFields_of_isFieldValue hSorted]
  rfl

------------------------------------------------------------
-- Both Ways
------------------------------------------------------------

/- The form fields of a finished request. -/
def RequestBody.fields :
    RequestBody → List (String × String)
  | .form fields => fields
  | _ => []

/- Parameters of a form without a body are its fields. -/
theorem RequestDraft.build_fields
    {draft : RequestDraft}
    {method : Method}
    (hMethod : draft.method = some method)
    (hForm : RequestDraft.isForm draft.headers = true)
    (hBody : draft.body = .empty) :
    ∃ values,
      draft.build = .ok values ∧
      values.body.fields = draft.parameters := by
  unfold RequestDraft.build
  rw [hMethod]
  dsimp only
  cases hNone : draft.parameters with
  | nil =>
      refine ⟨_, rfl, ?_⟩
      rw [hBody]
      rfl
  | cons first rest =>
      rw [List.isEmpty_cons, if_neg Bool.false_ne_true,
        if_pos hForm, hBody]
      exact ⟨_, rfl, rfl⟩

/-
  A map whose entries are bound as parameters is sent as the
  fields of its entries, in order.  As a body it is sent as
  the same fields exactly if all of its entries keep their
  places among the names in order.
-/
theorem fields_of_map
    [KnownMedia]
    {entries : List (String × Argument)}
    (hValues :
      ∀ entry ∈ entries, IsFieldValue entry.2)
    {declared : String}
    (hForm : MediaType.isForm declared = true)
    {parameter : Parameter}
    {value : NamedValue}
    (hRole :
      Resolver.valueInRole? .parameter parameter =
        some value)
    (hType : parameter.type = .map)
    {draft : RequestDraft}
    {method : Method}
    (hMethod : draft.method = some method)
    (hDeclared :
      draft.headers.text? .contentType = some declared)
    (hBody : draft.body = .empty) :
    ∃ binder values bodyFields,
      Resolver.ofRole .parameter parameter =
        .ok (some binder) ∧
      (binder (.map entries) draft).result = .ok () ∧
      (binder (.map entries) draft).draft.build =
        .ok values ∧
      values.body.fields =
        draft.parameters ++
          Forms.fields Argument.fieldTexts entries ∧
      encodeValue (some declared) (.map entries) =
        .ok (some ⟨some declared, .form bodyFields⟩) ∧
      (draft.parameters ++ bodyFields =
          values.body.fields ↔
        entries.Pairwise
          (Forms.KeepsPlace Argument.fieldTexts)) := by
  rcases Edit.adds_addEntries hValues draft with
    ⟨hResult, hDraft⟩
  have hIsForm :
      RequestDraft.isForm draft.headers = true := by
    unfold RequestDraft.isForm
    rw [hDeclared]
    exact hForm
  have hBuilt :
      ∃ values,
        (Role.parameter.rule.addEntries
          (.map entries) draft).draft.build = .ok values ∧
        values.body.fields =
          draft.parameters ++
            Forms.fields Argument.fieldTexts entries := by
    rw [hDraft]
    exact RequestDraft.build_fields hMethod hIsForm hBody
  rcases hBuilt with ⟨values, hBuild, hFields⟩
  refine ⟨Role.parameter.rule.addEntries, values,
    Forms.fields Argument.fieldTexts
      (Json.sortFields entries),
    ?_, hResult, hBuild, hFields,
    encodeValue_map hValues hForm, ?_⟩
  · unfold Resolver.ofRole ValueRule.bind
    rw [hRole]
    dsimp only
    rw [if_pos hType]
    rfl
  · rw [hFields, List.append_right_inj]
    exact Forms.fields_sortFields_iff
      Argument.fieldTexts entries

------------------------------------------------------------
-- A Map That Is Reordered
------------------------------------------------------------

namespace Forms

/- A parameter whose entries are bound. -/
def filters : Parameter :=
  ⟨0, some "filters", .map,
    some (.named .parameter ⟨"filters", true, none⟩)⟩

/- A form that is sent with the entries as parameters. -/
def filterDraft : RequestDraft :=
  { RequestDraft.empty with
    method := some ⟨"POST"⟩
    headers := ⟨[(.contentType,
      ⟨Text.encode MediaType.form⟩)]⟩ }

/- Entries against the order of their names. -/
def unordered : List (String × Argument) :=
  [("b", .text "1"), ("a", .text "2")]

theorem isFieldValue_unordered :
    ∀ entry ∈ unordered, IsFieldValue entry.2 := by
  intro entry hEntry
  rcases List.mem_pair.mp hEntry with hFirst | hSecond
  · subst hFirst
    exact .scalar (.text "1")
  · subst hSecond
    exact .scalar (.text "2")

theorem filterDraft_declared :
    filterDraft.headers.text? .contentType =
      some MediaType.form := by
  decide +kernel

theorem unordered_moves :
    ¬unordered.Pairwise
      (KeepsPlace Argument.fieldTexts) := by
  intro hKeeps
  have hFirst := List.rel_of_pairwise_cons hKeeps
    List.mem_cons_self
  rcases hFirst with hNone | ⟨_, hNone | hLess⟩
  · exact absurd hNone (by decide)
  · exact absurd hNone (by decide)
  · exact absurd hLess (by decide)

open CommonMedia

theorem fields_of_unordered :
    ∃ binder values bodyFields,
      Resolver.ofRole .parameter filters =
        .ok (some binder) ∧
      (binder (.map unordered) filterDraft).draft.build =
        .ok values ∧
      values.body.fields = [("b", "1"), ("a", "2")] ∧
      encodeValue (some MediaType.form) (.map unordered) =
        .ok (some ⟨some MediaType.form,
          .form bodyFields⟩) ∧
      bodyFields ≠ values.body.fields := by
  have hRole :
      Resolver.valueInRole? .parameter filters =
        some ⟨"filters", true, none⟩ :=
    rfl
  have hMethod : filterDraft.method = some ⟨"POST"⟩ := rfl
  rcases fields_of_map isFieldValue_unordered
      (by decide +kernel) hRole rfl hMethod
      filterDraft_declared rfl with
    ⟨binder, values, bodyFields, hBinder, _, hBuild,
      hFields, hBody, hSame⟩
  refine ⟨binder, values, bodyFields, hBinder, hBuild,
    hFields, hBody, ?_⟩
  intro hEqual
  apply unordered_moves
  apply hSame.mp
  exact hEqual

/- A body does not always have the fields of parameters. -/
theorem fields_not_always_same :
    ¬∀ (entries : List (String × Argument))
        (declared : String)
        (parameter : Parameter)
        (binder : Binder)
        (draft : RequestDraft)
        (values : RequestValues)
        (bodyFields : List (String × String)),
      (∀ entry ∈ entries, IsFieldValue entry.2) →
      MediaType.isForm declared = true →
      parameter.type = .map →
      Resolver.ofRole .parameter parameter =
        .ok (some binder) →
      draft.headers.text? .contentType = some declared →
      draft.body = .empty →
      draft.parameters = [] →
      (binder (.map entries) draft).draft.build =
        .ok values →
      encodeValue (some declared) (.map entries) =
        .ok (some ⟨some declared, .form bodyFields⟩) →
      bodyFields = values.body.fields := by
  intro hAll
  have hForm : MediaType.isForm MediaType.form = true := by
    decide +kernel
  have hAdded :=
    Edit.adds_addEntries isFieldValue_unordered filterDraft
  have hBuilt :
      ∃ values,
        (Role.parameter.rule.addEntries (.map unordered)
          filterDraft).draft.build = .ok values ∧
        values.body.fields = [("b", "1"), ("a", "2")] := by
    rw [hAdded.2]
    apply RequestDraft.build_fields rfl _ rfl
    unfold RequestDraft.isForm
    rw [filterDraft_declared]
    exact hForm
  rcases hBuilt with ⟨values, hBuild, hFields⟩
  have hSame := hAll unordered MediaType.form filters
    Role.parameter.rule.addEntries filterDraft values _
    isFieldValue_unordered hForm rfl rfl
    filterDraft_declared rfl rfl hBuild
    (encodeValue_map isFieldValue_unordered hForm)
  rw [hFields] at hSame
  exact absurd hSame (by decide)

end Forms

end ServiceCalls
