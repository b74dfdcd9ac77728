import ServiceCalls.Proofs.Calls.HeaderPrecedence
import ServiceCalls.Proofs.Exchange.Shapes

/-
  What becomes of the elements of parts.

  A part has its content for an element, or all that its
  content yields.  First all elements are waited for, then
  each is encoded by itself, and null is left out.  A
  failure while waiting comes before all others.

  Key definitions include:
    * `Part.elements`
    * `Part.encodedElement`
    * `Argument.firstFailure?`
    * `reservedHeaders`

  Main declarations:
    * `mapM_awaitPart`
    * `encodeParts_of_failure` and `encodeParts_of_values`
    * `exists_encodePart_iff`
    * `encodeParts_elements`
-/

namespace ServiceCalls

------------------------------------------------------------
-- Elements
------------------------------------------------------------

namespace Argument

/- Whether an argument is null; a JSON null is a value. -/
def isAbsent : Argument → Bool
  | .null => true
  | _ => false

/- The first failure among some results. -/
def firstFailure?
    (results : List (Except ServiceError Argument)) :
    Option ServiceError :=
  results.findSome? fun result =>
    match result with
    | .ok _ => none
    | .error error => some error

/- The values among some results, in order. -/
def valuesOf
    (results : List (Except ServiceError Argument)) :
    List Argument :=
  results.filterMap Except.toOption

theorem gather_eq
    (results : List (Except ServiceError Argument)) :
    gather results =
      match firstFailure? results with
      | some error => .error error
      | none => .ok (valuesOf results) := by
  induction results with
  | nil => rfl
  | cons result rest ih =>
      cases result with
      | error error => rfl
      | ok value =>
          have hFailure :
              firstFailure? (.ok value :: rest) =
                firstFailure? rest :=
            rfl
          have hValues :
              valuesOf (.ok value :: rest) =
                value :: valuesOf rest :=
            rfl
          rw [gather, ih, hFailure, hValues]
          cases firstFailure? rest with
          | none => rfl
          | some error => rfl

theorem firstFailure?_append
    (first later : List (Except ServiceError Argument)) :
    firstFailure? (first ++ later) =
      (firstFailure? first).or (firstFailure? later) :=
  List.findSome?_append

theorem firstFailure?_eq_none_iff
    (results : List (Except ServiceError Argument)) :
    firstFailure? results = none ↔
      ∀ result ∈ results, ∃ value, result = .ok value := by
  unfold firstFailure?
  rw [List.findSome?_eq_none_iff]
  refine forall₂_congr fun result _ => ?_
  cases result with
  | ok value => simp
  | error error => simp

theorem mem_valuesOf
    (results : List (Except ServiceError Argument))
    (value : Argument) :
    value ∈ valuesOf results ↔ .ok value ∈ results := by
  unfold valuesOf
  rw [List.mem_filterMap]
  constructor
  · rintro ⟨result, hMem, hValue⟩
    cases result with
    | ok found =>
        cases hValue
        exact hMem
    | error error => cases hValue
  · exact fun hMem => ⟨_, hMem, rfl⟩

end Argument

/- The headers of a part that are written by other means. -/
def reservedHeaders : List HeaderName :=
  [.contentDisposition, .contentType, .contentLength]

namespace Part

/- What a part has to be encoded, or failed to yield. -/
def elements (part : Part) :
    List (Except ServiceError Argument) :=
  part.content.elements?.getD [.ok part.content]

/- A part with a value in place of its content. -/
def withContent (part : Part) (value : Argument) : Part :=
  { part with content := value }

/-
  An element of a part as it is sent.  The first media type
  that the part declares counts if it can be read.
-/
def encodedElement
    [KnownMedia]
    (part : Part) (element : Argument) :
    FormPart where
  name := part.name
  fileName := ownFileName? element <|>
    headerFileName? part.headers
  mediaType := (part.headers.text? .contentType).getD
    element.defaultType
  headers := ⟨part.headers.fields.filter fun field =>
    field.1 ∉ reservedHeaders⟩
  content := element.octets

/- All elements of a part as they are sent. -/
def encodedElements
    [KnownMedia]
    (part : Part) : List FormPart :=
  ((Argument.valuesOf part.elements).filter
    (!·.isAbsent)).map part.encodedElement

end Part

------------------------------------------------------------
-- Waiting
------------------------------------------------------------

theorem awaitPart_eq (part : Part) :
    awaitPart part =
      (Argument.gather part.elements).map fun values =>
        values.map part.withContent := by
  unfold awaitPart Part.elements
  cases part.content.elements? with
  | none => rfl
  | some results =>
      dsimp only [Option.getD_some]
      cases Argument.gather results with
      | error error => rfl
      | ok values => rfl

/- The first failure of all parts ends the waiting. -/
theorem mapM_awaitPart (parts : List Part) :
    parts.mapM awaitPart =
      match Argument.firstFailure?
          (parts.flatMap Part.elements) with
      | some error => .error error
      | none => .ok (parts.map fun part =>
          (Argument.valuesOf part.elements).map
            part.withContent) := by
  induction parts with
  | nil => rfl
  | cons part rest ih =>
      rw [List.mapM_cons, awaitPart_eq, Argument.gather_eq,
        ih, List.flatMap_cons, Argument.firstFailure?_append]
      cases Argument.firstFailure? part.elements with
      | some error => rfl
      | none =>
          rw [Option.none_or]
          cases Argument.firstFailure?
              (rest.flatMap Part.elements) with
          | some error => rfl
          | none => rfl

/- All parts with their elements in place of the content. -/
def awaitedParts (parts : List Part) : List Part :=
  parts.flatMap fun part =>
    (Argument.valuesOf part.elements).map part.withContent

theorem encodeParts_of_failure
    [KnownMedia]
    {parts : List Part}
    {error : ServiceError}
    (h : Argument.firstFailure?
      (parts.flatMap Part.elements) = some error) :
    encodeParts parts = .error error := by
  unfold encodeParts
  rw [mapM_awaitPart, h]
  rfl

theorem encodeParts_of_values
    [KnownMedia]
    {parts : List Part}
    (h : Argument.firstFailure?
      (parts.flatMap Part.elements) = none) :
    encodeParts parts =
      ((awaitedParts parts).mapM encodePart).map fun made =>
        made.filterMap id := by
  unfold encodeParts
  rw [mapM_awaitPart, h]
  change (List.mapM encodePart (awaitedParts parts) >>= _) =
    _
  cases (awaitedParts parts).mapM encodePart with
  | error error => rfl
  | ok made => rfl

------------------------------------------------------------
-- Encoding
------------------------------------------------------------

theorem extraHeaders_eq (headers : Headers) :
    extraHeaders headers =
      ⟨headers.fields.filter fun field =>
        field.1 ∉ reservedHeaders⟩ := by
  unfold extraHeaders Headers.remove
  rw [List.filter_filter, List.filter_filter]
  congr 1
  apply List.filter_congr
  intro field _
  simp only [reservedHeaders, List.mem_cons,
    List.not_mem_nil, or_false, not_or]
  rw [Bool.eq_iff_iff]
  simp only [Bool.and_eq_true, bne_iff_ne, ne_eq,
    decide_eq_true_eq]
  constructor
  · rintro ⟨⟨hLength, hType⟩, hDisposition⟩
    exact ⟨hDisposition, hType, hLength⟩
  · rintro ⟨hDisposition, hType, hLength⟩
    exact ⟨⟨hLength, hType⟩, hDisposition⟩

section

variable [KnownMedia]

theorem encodePart_of_isEncodable
    {part : Part}
    (h : IsEncodable part.content) :
    encodePart part =
      .ok (some (part.encodedElement part.content)) := by
  unfold encodePart
  rw [encodeBytes_of_isEncodable h, extraHeaders_eq]
  rfl

theorem encodePart_of_null
    {part : Part}
    (h : part.content = .null) :
    encodePart part = .ok none := by
  unfold encodePart
  rw [h]
  rfl

/- A part is encoded if its content can be or is null. -/
theorem exists_encodePart_iff (part : Part) :
    (∃ made, encodePart part = .ok made) ↔
      part.content = .null ∨ IsEncodable part.content := by
  constructor
  · rintro ⟨made, hMade⟩
    rcases Fallible.bind_eq_ok hMade with
      ⟨encoded, hEncoded, _⟩
    exact isEncodable_of_encodeBytes hEncoded
  · rintro (hNull | hEncodable)
    · exact ⟨_, encodePart_of_null hNull⟩
    · exact ⟨_, encodePart_of_isEncodable hEncodable⟩

/- What is made of a part, if anything is. -/
def Part.made? (part : Part) : Option FormPart :=
  if part.content.isAbsent then none
  else some (part.encodedElement part.content)

theorem made?_of_encodePart
    {part : Part}
    {made : Option FormPart}
    (h : encodePart part = .ok made) :
    made = part.made? := by
  unfold Part.made?
  rcases (exists_encodePart_iff part).mp ⟨made, h⟩ with
    hNull | hEncodable
  · rw [encodePart_of_null hNull] at h
    cases h
    rw [hNull]
    rfl
  · rw [encodePart_of_isEncodable hEncodable] at h
    cases h
    cases hContent : part.content with
    | null =>
        rw [hContent] at hEncodable
        cases hEncodable
    | _ => rfl

theorem filterMap_made?
    (part : Part)
    (values : List Argument) :
    (values.map part.withContent).filterMap Part.made? =
      (values.filter (!·.isAbsent)).map
        part.encodedElement := by
  induction values with
  | nil => rfl
  | cons value rest ih =>
      have hMade :
          (part.withContent value).made? =
            if value.isAbsent then none
            else some (part.encodedElement value) :=
        rfl
      rw [List.map_cons, List.filterMap_cons, hMade, ih,
        List.filter_cons]
      cases value.isAbsent with
      | true => rfl
      | false => rfl

theorem filterMap_awaitedParts (parts : List Part) :
    (awaitedParts parts).filterMap Part.made? =
      parts.flatMap Part.encodedElements := by
  unfold awaitedParts
  rw [List.filterMap_flatMap]
  congr 1
  funext part
  exact filterMap_made? part _

------------------------------------------------------------
-- All Parts
------------------------------------------------------------

/- Parts are encoded if all their elements can be. -/
theorem exists_encodeParts_iff (parts : List Part) :
    (∃ encoded, encodeParts parts = .ok encoded) ↔
      ∀ part ∈ parts, ∀ result ∈ part.elements,
        ∃ element, result = .ok element ∧
          (element = .null ∨ IsEncodable element) := by
  cases hFailure :
      Argument.firstFailure?
        (parts.flatMap Part.elements) with
  | some error =>
      constructor
      · rintro ⟨encoded, hEncoded⟩
        rw [encodeParts_of_failure hFailure] at hEncoded
        cases hEncoded
      · intro hAll
        have hNone : Argument.firstFailure?
            (parts.flatMap Part.elements) = none := by
          rw [Argument.firstFailure?_eq_none_iff]
          intro result hMem
          rcases List.mem_flatMap.mp hMem with
            ⟨part, hPart, hResult⟩
          rcases hAll part hPart result hResult with
            ⟨element, hElement, _⟩
          exact ⟨element, hElement⟩
        rw [hNone] at hFailure
        cases hFailure
  | none =>
      rw [encodeParts_of_values hFailure,
        Fallible.exists_map_ok, Fallible.exists_mapM_ok]
      rw [Argument.firstFailure?_eq_none_iff] at hFailure
      constructor
      · intro hAll part hPart result hResult
        rcases hFailure result (List.mem_flatMap.mpr
          ⟨part, hPart, hResult⟩) with ⟨element, rfl⟩
        have hMem :
            part.withContent element ∈ awaitedParts parts :=
          List.mem_flatMap.mpr ⟨part, hPart,
            List.mem_map_of_mem
              ((Argument.mem_valuesOf _ _).mpr hResult)⟩
        exact ⟨element, rfl,
          (exists_encodePart_iff _).mp (hAll _ hMem)⟩
      · intro hAll awaited hMem
        rcases List.mem_flatMap.mp hMem with
          ⟨part, hPart, hElement⟩
        rcases List.mem_map.mp hElement with
          ⟨element, hValue, rfl⟩
        rcases hAll part hPart _
          ((Argument.mem_valuesOf _ _).mp hValue) with
          ⟨found, hFound, hEncodable⟩
        cases hFound
        exact (exists_encodePart_iff _).mpr hEncodable

/- Each element that is not null is encoded, in order. -/
theorem eq_of_encodeParts
    {parts : List Part}
    {encoded : List FormPart}
    (h : encodeParts parts = .ok encoded) :
    encoded = parts.flatMap Part.encodedElements := by
  cases hFailure :
      Argument.firstFailure?
        (parts.flatMap Part.elements) with
  | some error =>
      rw [encodeParts_of_failure hFailure] at h
      cases h
  | none =>
      rw [encodeParts_of_values hFailure] at h
      rcases Fallible.map_eq_ok h with ⟨made, hMade, rfl⟩
      have hEach : made.map id =
          (awaitedParts parts).map Part.made? :=
        Fallible.map_of_mapM
          (fun _ _ hPart => made?_of_encodePart hPart) hMade
      rw [List.map_id] at hEach
      rw [hEach, List.filterMap_map,
        ← filterMap_awaitedParts]
      rfl

theorem reserved_encodedElement
    (part : Part)
    (element : Argument)
    {name : HeaderName}
    (hReserved : name ∈ reservedHeaders) :
    (part.encodedElement element).headers.values name =
      [] := by
  unfold Headers.values Part.encodedElement
  rw [List.map_eq_nil_iff, List.filter_filter,
    List.filter_eq_nil_iff]
  intro field _ hField
  rw [Bool.and_eq_true, beq_iff_eq, decide_eq_true_eq]
    at hField
  rw [hField.1] at hField
  exact hField.2 hReserved

/-
  Parts are encoded exactly when they yield only values and
  each of these is null or can be encoded.  Then there is
  one encoded part for each of them that is not null, part
  by part and in order, without the headers that are written
  by other means.  What fails to be yielded comes first.
-/
theorem encodeParts_elements (parts : List Part) :
    ((∃ encoded, encodeParts parts = .ok encoded) ↔
      ∀ part ∈ parts, ∀ result ∈ part.elements,
        ∃ element, result = .ok element ∧
          (element = .null ∨ IsEncodable element)) ∧
      (∀ encoded, encodeParts parts = .ok encoded →
        encoded = parts.flatMap Part.encodedElements ∧
          ∀ written ∈ encoded, ∀ name ∈ reservedHeaders,
            written.headers.values name = []) ∧
      (∀ error,
        Argument.firstFailure?
          (parts.flatMap Part.elements) = some error →
        encodeParts parts = .error error) := by
  refine ⟨exists_encodeParts_iff parts, ?_, ?_⟩
  · intro encoded hEncoded
    have hElements := eq_of_encodeParts hEncoded
    refine ⟨hElements, ?_⟩
    intro written hWritten name hReserved
    rw [hElements] at hWritten
    rcases List.mem_flatMap.mp hWritten with
      ⟨part, _, hElement⟩
    rcases List.mem_map.mp hElement with
      ⟨element, _, rfl⟩
    exact reserved_encodedElement part element hReserved
  · exact fun error hFailure =>
      encodeParts_of_failure hFailure

end

------------------------------------------------------------
-- Declared Media Types
------------------------------------------------------------

/- Headers with two media types, of which one is readable. -/
def accentedTypes : Headers :=
  ⟨[(.contentType, ⟨Text.encode "é"⟩),
    (.contentType, ⟨Text.encode "text/csv"⟩)]⟩

/- A table, and what a stream yields behind it. -/
def tableParts : List Part :=
  [⟨"table", accentedTypes, .text "x"⟩,
    ⟨"rows", .empty,
      .stream [.ok (.text "1"), .ok .null,
        .ok (.bytes [50])]⟩]

open CommonMedia

/- Nothing of the stream is lost but the null in it. -/
theorem encodeParts_tableParts :
    encodeParts tableParts = .ok
      [⟨"table", none, MediaType.plainText, .empty,
          Text.encode "x"⟩,
        ⟨"rows", none, MediaType.plainText, .empty,
          Text.encode "1"⟩,
        ⟨"rows", none, MediaType.octetStream, .empty,
          [50]⟩] := by
  have hAll := encodeParts_elements tableParts
  have hEncodable : ∀ part ∈ tableParts,
      ∀ result ∈ part.elements,
        ∃ element, result = .ok element ∧
          (element = .null ∨ IsEncodable element) := by
    simp only [tableParts, Part.elements,
      Argument.elements?, List.forall_mem_cons,
      Option.getD_none, Option.getD_some]
    exact ⟨⟨⟨_, rfl, .inr (.text _)⟩, nofun⟩,
      ⟨⟨_, rfl, .inr (.text _)⟩, ⟨_, rfl, .inl rfl⟩,
        ⟨_, rfl, .inr (.bytes _)⟩, nofun⟩, nofun⟩
  rcases hAll.1.mpr hEncodable with ⟨encoded, hEncoded⟩
  rw [hEncoded, (hAll.2.1 encoded hEncoded).1]
  rfl

/- A later media type does not stand in for the first. -/
theorem readable_type_not_always_sent :
    ¬∀ (values : List (String × Argument))
        (parts : List Part)
        (encoded : List FormPart),
      (values.mapM fun value =>
        Part.ofArgument value.1 value.2) = .ok parts →
      encodeParts parts = .ok encoded →
      encoded = parts.flatMap fun part =>
        ((Argument.valuesOf part.elements).filter
          (!·.isAbsent)).map fun element =>
            { part.encodedElement element with
              mediaType :=
                ((part.headers.values .contentType).filterMap
                  HeaderValue.text?).head?.getD
                  element.defaultType } := by
  intro hAll
  have hTyped := hAll
    [("table", .entity (.text "x") accentedTypes)]
    [⟨"table", accentedTypes, .text "x"⟩]
    [⟨"table", none, MediaType.plainText, .empty,
      Text.encode "x"⟩] rfl rfl
  exact absurd hTyped (by decide)

end ServiceCalls
