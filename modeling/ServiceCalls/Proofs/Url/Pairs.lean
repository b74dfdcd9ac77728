import ServiceCalls.Proofs.Text.Percent
import ServiceCalls.Proofs.Text.Utf8
import ServiceCalls.Proofs.Url.Segments
import ServiceCalls.Url.Query

/-
  Pairs that are added to a query and read back.

  Names and values are read back from both forms in which
  they are written, and neither form holds a character that
  separates pairs or their halves.

  Key definitions include:
    * `Url.Spells`
    * `Url.pairs`
    * `Url.pairsText`
    * `Url.Opens`

  Main declarations:
    * `Url.formDecodeText_formEncode`
    * `Url.formDecode_append`
    * `Url.pairs_appendPairs`
    * `Url.formDecode_pairsText`
-/

namespace ServiceCalls

namespace Url

------------------------------------------------------------
-- Texts Read Back
------------------------------------------------------------

/- A component has no mark of form encoding. -/
theorem not_mem_encodeComponent
    {mark : Char}
    (h : mark = '+' ∨ mark = '=' ∨ mark = '&')
    (text : List Char) :
    mark ∉ Text.encodeComponent text := by
  intro hMem
  have hComponent := Text.isComponentChar_of_mem hMem
  rcases h with h | h | h
  all_goals
    subst h
    exact absurd hComponent (by decide)

theorem map_encodeComponent (text : List Char) :
    ((Text.encodeComponent text).map fun c =>
      if c == '+' then ' ' else c) =
      Text.encodeComponent text := by
  conv => rhs; rw [← List.map_id (Text.encodeComponent text)]
  apply List.map_congr_left
  intro c hMem
  rw [if_neg]
  · rfl
  · intro hPlus
    rw [beq_iff_eq] at hPlus
    subst hPlus
    exact not_mem_encodeComponent (.inl rfl) _ hMem

theorem formDecodeText_encodeComponent (s : String) :
    formDecodeText (Text.encodeComponent s.toList) = s := by
  have hRead :=
    Text.percentDecode_encodeComponent s.toList []
  rw [List.append_nil] at hRead
  unfold formDecodeText
  dsimp only
  rw [map_encodeComponent, hRead, Text.percentDecode,
    List.append_nil]
  exact Text.decodeLenient_encode s

/- What form encoding writes for an octet. -/
def formOctet (b : UInt8) : List Char :=
  if b == 0x20 then ['+']
  else if isFormPlain b then [Char.ofNat b.toNat]
  else Text.encodeOctet b

/- Octets that form encoding writes in no percent form. -/
def isFormKept (b : UInt8) : Bool :=
  b == 0x20 || isFormPlain b

theorem not_mem_formOctet (b : UInt8) :
    '=' ∉ formOctet b ∧ '&' ∉ formOctet b := by
  apply Text.forall_octet (p := fun b =>
    '=' ∉ formOctet b ∧ '&' ∉ formOctet b)
  decide +kernel

/- With its spaces back an octet is in percent form. -/
theorem map_formOctet (b : UInt8) :
    (formOctet b).map (fun c => if c == '+' then ' ' else c) =
      if isFormKept b then [Char.ofNat b.toNat]
      else Text.encodeOctet b := by
  apply Text.forall_octet (p := fun b =>
    (formOctet b).map
        (fun c => if c == '+' then ' ' else c) =
      if isFormKept b then [Char.ofNat b.toNat]
      else Text.encodeOctet b)
  decide +kernel

theorem not_mem_formEncode
    {mark : Char}
    (h : mark = '=' ∨ mark = '&')
    (s : String) :
    mark ∉ formEncode s := by
  intro hMem
  rcases List.mem_flatMap.mp hMem with ⟨b, _, hOctet⟩
  have hNot := not_mem_formOctet b
  rcases h with h | h
  · subst h
    exact hNot.1 hOctet
  · subst h
    exact hNot.2 hOctet

theorem of_isFormKept
    {b : UInt8}
    (h : isFormKept b = true) :
    b < 0x80 ∧ b ≠ 0x25 := by
  revert h
  apply Text.forall_octet (p := fun b =>
    isFormKept b = true → b < 0x80 ∧ b ≠ 0x25)
  decide +kernel

theorem formDecodeText_formEncode (s : String) :
    formDecodeText (formEncode s) = s := by
  have hPlain :
      ((formEncode s).map fun c =>
        if c == '+' then ' ' else c) =
        Text.percentEncode isFormKept (Text.encode s) := by
    change ((Text.encode s).flatMap formOctet).map _ = _
    unfold Text.percentEncode
    rw [List.map_flatMap]
    exact congrArg (fun f => (Text.encode s).flatMap f)
      (funext map_formOctet)
  have hRead := Text.percentDecode_percentEncode
    (fun _ => of_isFormKept) (Text.encode s) []
  rw [List.append_nil] at hRead
  unfold formDecodeText
  dsimp only
  rw [hPlain, hRead, Text.percentDecode, List.append_nil]
  exact Text.decodeLenient_encode s

------------------------------------------------------------
-- Pairs
------------------------------------------------------------

/- A text that is read as one pair. -/
structure Spells
    (piece : List Char)
    (pair : String × String) :
    Prop where
  some : piece ≠ []
  apart : '&' ∉ piece
  reads : formDecodePair piece = pair

theorem formDecodePair_halves
    {name : List Char}
    (h : '=' ∉ name)
    (value : List Char) :
    formDecodePair (name ++ '=' :: value) =
      (formDecodeText name, formDecodeText value) := by
  have hTake :
      (name ++ '=' :: value).takeWhile (· != '=') =
        name := by
    apply Text.takeWhile_append_stop
    · intro c hMem
      rw [bne_iff_ne]
      intro hSame
      subst hSame
      exact h hMem
    · exact Text.stops_cons rfl value
  have hDrop :
      (name ++ '=' :: value).drop (name.length + 1) =
        value := by
    rw [List.drop_length_add_append]
    rfl
  unfold formDecodePair
  dsimp only
  rw [hTake, hDrop]

theorem formDecodePair_of_none
    {name : List Char}
    (h : '=' ∉ name) :
    formDecodePair name =
      (formDecodeText name, formDecodeText []) := by
  have hGoes : ∀ c ∈ name, (c != '=') = true := by
    intro c hMem
    rw [bne_iff_ne]
    intro hSame
    subst hSame
    exact h hMem
  have hTake :=
    Text.takeWhile_append_stop hGoes Text.stops_nil
  rw [List.append_nil] at hTake
  unfold formDecodePair
  dsimp only
  rw [hTake, List.drop_eq_nil_of_le (Nat.le_succ _)]

theorem spells_of_halves
    {name value : List Char}
    {pair : String × String}
    (hEqual : '=' ∉ name)
    (hName : '&' ∉ name)
    (hValue : '&' ∉ value)
    (hFirst : formDecodeText name = pair.1)
    (hSecond : formDecodeText value = pair.2) :
    Spells (name ++ '=' :: value) pair := by
  constructor
  · exact List.append_ne_nil_of_right_ne_nil _
      (List.cons_ne_nil _ _)
  · intro hMem
    rcases List.mem_append.mp hMem with hMem | hMem
    · exact hName hMem
    · rcases List.mem_cons.mp hMem with hMark | hMem
      · exact absurd hMark (by decide)
      · exact hValue hMem
  · rw [formDecodePair_halves hEqual, hFirst, hSecond]

theorem spells_formPair (pair : String × String) :
    Spells (formPair pair) pair :=
  spells_of_halves (not_mem_formEncode (.inl rfl) _)
    (not_mem_formEncode (.inr rfl) _)
    (not_mem_formEncode (.inr rfl) _)
    (formDecodeText_formEncode _)
    (formDecodeText_formEncode _)

/- A pair with both halves written as components. -/
def componentPair (pair : String × String) : List Char :=
  Text.encodeComponent pair.1.toList ++
    '=' :: Text.encodeComponent pair.2.toList

theorem spells_componentPair (pair : String × String) :
    Spells (componentPair pair) pair :=
  spells_of_halves
    (not_mem_encodeComponent (.inr (.inl rfl)) _)
    (not_mem_encodeComponent (.inr (.inr rfl)) _)
    (not_mem_encodeComponent (.inr (.inr rfl)) _)
    (formDecodeText_encodeComponent _)
    (formDecodeText_encodeComponent _)

------------------------------------------------------------
-- Queries of Pairs
------------------------------------------------------------

/- Queries on both sides of a mark are read one by one. -/
theorem formDecode_append (front rest : List Char) :
    formDecode (front ++ '&' :: rest) =
      formDecode front ++ formDecode rest := by
  unfold formDecode Text.splitAll
  rw [Text.splitBy_append rfl, List.filter_append,
    List.map_append]

theorem Spells.formDecode
    {piece : List Char}
    {pair : String × String}
    (h : Spells piece pair) :
    Url.formDecode piece = [pair] := by
  have hOne :
      Text.splitBy (· == '&') piece = [piece] := by
    apply Text.splitBy_of_none
    intro c hMem
    rw [beq_eq_false_iff_ne]
    intro hSame
    subst hSame
    exact h.apart hMem
  have hEmpty : piece.isEmpty = false :=
    List.isEmpty_eq_false_iff.mpr h.some
  unfold Url.formDecode Text.splitAll
  rw [hOne, List.filter_cons_of_pos (by rw [hEmpty]; rfl),
    List.filter_nil, List.map_cons, h.reads]
  rfl

theorem formDecode_appendPair
    (query : List Char)
    (pair : String × String) :
    formDecode (appendPair query pair) =
      formDecode query ++ [pair] := by
  have hPair := (spells_formPair pair).formDecode
  cases query with
  | nil => exact hPair
  | cons c rest =>
      unfold appendPair
      rw [List.isEmpty_cons, if_neg Bool.false_ne_true,
        formDecode_append, hPair]

/- The pairs of the query of a URL. -/
def pairs (url : Url) : List (String × String) :=
  formDecode (url.query.getD "").toList

/- Pairs that are added to a URL come after its own. -/
theorem pairs_appendPairs
    (url : Url)
    (added : List (String × String)) :
    (url.appendPairs added).pairs = url.pairs ++ added := by
  have hFold (query : List Char) :
      formDecode (added.foldl appendPair query) =
        formDecode query ++ added := by
    induction added generalizing query with
    | nil => rw [List.append_nil]; rfl
    | cons pair rest ih =>
        rw [List.foldl_cons, ih, formDecode_appendPair,
          List.append_assoc]
        rfl
  unfold pairs appendPairs
  dsimp only
  rw [Option.getD_some, String.toList_ofList, hFold]

/- Pairs as components with marks between them. -/
def pairsText : List (String × String) → List Char
  | [] => []
  | [last] => componentPair last
  | pair :: rest => componentPair pair ++ '&' :: pairsText rest

theorem formDecode_pairsText
    (added : List (String × String)) :
    formDecode (pairsText added) = added := by
  induction added with
  | nil => rfl
  | cons pair rest ih =>
      have hPair := (spells_componentPair pair).formDecode
      cases rest with
      | nil => exact hPair
      | cons next more =>
          unfold pairsText
          rw [formDecode_append, hPair, ih]
          rfl

/- A query behind which a pair is one of its own. -/
def Opens (query : List Char) : Prop :=
  query = [] ∨ ∃ front, query = front ++ ['&']

theorem Opens.formDecode_append
    {query : List Char}
    (h : Opens query)
    (rest : List Char) :
    formDecode (query ++ rest) =
      formDecode query ++ formDecode rest := by
  rcases h with hNone | ⟨front, hMark⟩
  · subst hNone
    rfl
  · have hNil : formDecode [] = [] := rfl
    rw [hMark, List.append_assoc]
    change formDecode (front ++ '&' :: rest) = _
    rw [Url.formDecode_append, Url.formDecode_append, hNil,
      List.append_nil]

end Url

end ServiceCalls
