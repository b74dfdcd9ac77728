import ServiceCalls.Http.HeaderText
import ServiceCalls.Proofs.Text.Percent
import ServiceCalls.Proofs.Text.Utf8

/-
  Header fields that are read again.

  A name that was read is read again as itself, and so is
  the text of a value that is readable.

  Key definitions include:
    * `HeaderValue.isReadable`

  Main declarations:
    * `HeaderName.parse?_text` and `HeaderName.eq_of_read`
    * `HeaderValue.eq_of_read`
    * `HeaderValue.decodeLenient_of_read`
    * `HeaderValue.ofText?_of_text?`
    * `HeaderValue.isReadable_iff_of_read`
    * `HeaderValue.text?_eq_some_iff`
-/

namespace ServiceCalls

------------------------------------------------------------
-- Names
------------------------------------------------------------

theorem toNat_toLower (c : Char) :
    c.toLower.toNat =
      if 65 ≤ c.toNat ∧ c.toNat ≤ 90 then c.toNat + 32
      else c.toNat := by
  unfold Char.toLower
  simp only [Char.toNat, ge_iff_le, UInt32.le_iff_toNat_le]
  split
  · next h =>
      have hUpper : 65 ≤ c.val.toNat ∧ c.val.toNat ≤ 90 := h
      rw [if_pos hUpper, UInt32.toNat_add]
      change (c.val.toNat + 32) % 2 ^ 32 = _
      omega
  · next h =>
      have hOther :
          ¬(65 ≤ c.val.toNat ∧ c.val.toNat ≤ 90) := h
      rw [if_neg hOther]

theorem char_eq_of_toNat
    {c d : Char}
    (h : c.toNat = d.toNat) :
    c = d :=
  Char.ext (UInt32.toNat_inj.1 h)

theorem toLower_toLower (c : Char) :
    c.toLower.toLower = c.toLower := by
  apply char_eq_of_toNat
  rw [toNat_toLower c.toLower, toNat_toLower c]
  split
  · rw [if_neg (by omega)]
  · rfl

theorem isTokenChar_toLower
    {c : Char}
    (h : isTokenChar c = true) :
    isTokenChar c.toLower = true := by
  by_cases hUpper : 65 ≤ c.toNat ∧ c.toNat ≤ 90
  · have hNat := toNat_toLower c
    rw [if_pos hUpper] at hNat
    have hLower : c.toLower.isLower = true := by
      change (decide (97 ≤ c.toLower.toNat) &&
        decide (c.toLower.toNat ≤ 122)) = true
      rw [Bool.and_eq_true, decide_eq_true_eq,
        decide_eq_true_eq]
      omega
    have hAlpha : c.toLower.isAlpha = true := by
      change (c.toLower.isUpper || c.toLower.isLower) = true
      rw [hLower, Bool.or_true]
    unfold isTokenChar Char.isAlphanum
    rw [hAlpha, Bool.true_or, Bool.true_or]
  · have hSame : c.toLower = c := by
      apply char_eq_of_toNat
      rw [toNat_toLower, if_neg hUpper]
    rw [hSame]
    exact h

theorem isToken_lowerAscii
    {s : String}
    (h : isToken s = true) :
    isToken (lowerAscii s) = true := by
  simp only [isToken, lowerAscii, String.toList_ofList,
    Bool.and_eq_true, List.all_map, List.isEmpty_map] at h ⊢
  refine ⟨h.1, ?_⟩
  rw [List.all_eq_true] at h ⊢
  intro c hMem
  exact isTokenChar_toLower (h.2 c hMem)

theorem lowerAscii_lowerAscii (s : String) :
    lowerAscii (lowerAscii s) = lowerAscii s := by
  simp only [lowerAscii, String.toList_ofList, List.map_map]
  congr 1
  apply List.map_congr_left
  intro c _
  exact toLower_toLower c

/- A name that was read is read again as itself. -/
theorem HeaderName.parse?_text
    {s : String}
    {name : HeaderName}
    (h : HeaderName.parse? s = some name) :
    HeaderName.parse? name.text = some name := by
  unfold HeaderName.parse? at h
  split at h
  · next hValid =>
      cases h
      rw [Bool.and_eq_true, decide_eq_true_eq] at hValid
      have hLength :
          (lowerAscii s).length = s.length := by
        simp only [lowerAscii, String.length_ofList,
          List.length_map, String.length_toList]
      have hAgain :
          (isToken (lowerAscii s) &&
            decide ((lowerAscii s).length ≤ maxLength)) =
          true := by
        rw [hLength, isToken_lowerAscii hValid.1,
          decide_eq_true hValid.2]
        rfl
      unfold HeaderName.parse?
      rw [if_pos hAgain, lowerAscii_lowerAscii]
  · cases h

/- A name is read in lower case. -/
theorem HeaderName.eq_of_read
    {s : String}
    {name : HeaderName}
    (h : HeaderName.read s = .ok name) :
    name = ⟨lowerAscii s⟩ := by
  unfold HeaderName.read HeaderName.parse? at h
  split at h
  · next hParse =>
      split at hParse
      · cases hParse
        cases h
        rfl
      · cases hParse
  · cases h

------------------------------------------------------------
-- Readable Values
------------------------------------------------------------

namespace HeaderValue

/- Whether a value has a text. -/
def isReadable (value : HeaderValue) : Bool :=
  value.bytes.all isReadableOctet

theorem isSome_text? (value : HeaderValue) :
    value.text?.isSome = value.isReadable := by
  unfold text? isReadable
  cases value.bytes.all isReadableOctet <;> rfl

theorem lt_of_isReadableOctet
    {b : UInt8}
    (h : isReadableOctet b = true) :
    b < 0x80 := by
  simp only [isReadableOctet, Bool.or_eq_true,
    Bool.and_eq_true, decide_eq_true_eq, beq_iff_eq] at h
  rcases h with ⟨_, hBelow⟩ | hTab
  · exact Nat.lt_trans hBelow (by decide)
  · subst hTab
    decide

theorem isFieldOctet_of_isReadableOctet
    {b : UInt8}
    (h : isReadableOctet b = true) :
    isFieldOctet b = true := by
  simp only [isReadableOctet, isFieldOctet, Bool.or_eq_true,
    Bool.and_eq_true, decide_eq_true_eq, beq_iff_eq,
    bne_iff_ne] at h ⊢
  rcases h with ⟨hAbove, hBelow⟩ | hTab
  · refine .inl ⟨hAbove, ?_⟩
    intro hDelete
    subst hDelete
    exact absurd hBelow (by decide)
  · exact .inr hTab

theorem encodeChars_readable
    (bytes : Bytes)
    (h : bytes.all isReadableOctet = true) :
    Text.encodeChars
        (bytes.map fun b => Char.ofNat b.toNat) =
      bytes := by
  induction bytes with
  | nil => rfl
  | cons b rest ih =>
      rw [List.all_cons, Bool.and_eq_true] at h
      have hRest := ih h.2
      unfold Text.encodeChars at hRest ⊢
      rw [List.map_cons, List.flatMap_cons, hRest,
        Text.utf8EncodeChar_ofNat
          (lt_of_isReadableOctet h.1)]
      rfl

/- A value is read as the octets of its text. -/
theorem eq_of_read
    {s : String}
    {value : HeaderValue}
    (h : HeaderValue.read s = .ok value) :
    value = ⟨Text.encode s⟩ := by
  unfold HeaderValue.read ofText? ofBytes? at h
  split at h
  · next hText =>
      split at hText
      · cases hText
        cases h
        rfl
      · cases hText
  · cases h

/- The octets of a value that was read give its text. -/
theorem decodeLenient_of_read
    {s : String}
    {value : HeaderValue}
    (h : HeaderValue.read s = .ok value) :
    Text.decodeLenient value.bytes = s := by
  rw [eq_of_read h, Text.decodeLenient_encode]

/- The text of a readable value is read as that value. -/
theorem ofText?_of_text?
    {value : HeaderValue}
    {s : String}
    (h : value.text? = some s) :
    HeaderValue.ofText? s = some value := by
  unfold text? at h
  split at h
  · next hReadable =>
      cases h
      have hField :
          value.bytes.all isFieldOctet = true := by
        rw [List.all_eq_true] at hReadable ⊢
        intro b hMem
        exact isFieldOctet_of_isReadableOctet
          (hReadable b hMem)
      unfold ofText? ofBytes? Text.encode
      rw [String.toList_ofList,
        encodeChars_readable _ hReadable, if_pos hField]
  · cases h

theorem isReadableOctet_iff
    {b : UInt8}
    (hField : isFieldOctet b = true) :
    isReadableOctet b = true ↔ b < 0x80 := by
  constructor
  · exact lt_of_isReadableOctet
  · intro hBelow
    simp only [isReadableOctet, isFieldOctet, Bool.or_eq_true,
      Bool.and_eq_true, decide_eq_true_eq, beq_iff_eq,
      bne_iff_ne] at hField ⊢
    rcases hField with ⟨hAbove, hDelete⟩ | hTab
    · refine .inl ⟨hAbove, ?_⟩
      have hNat : b.toNat ≠ 0x7F := fun hEq =>
        hDelete (UInt8.toNat_inj.mp hEq)
      have hLow : b.toNat < 0x80 := hBelow
      rw [UInt8.lt_iff_toNat_lt]
      change b.toNat < 0x7F
      omega
    · exact .inr hTab

/- A value that was read holds only octets of a field. -/
theorem isFieldOctet_of_read
    {s : String}
    {value : HeaderValue}
    (h : HeaderValue.read s = .ok value)
    {b : UInt8}
    (hMem : b ∈ value.bytes) :
    isFieldOctet b = true := by
  unfold HeaderValue.read ofText? ofBytes? at h
  split at h
  · next hText =>
      split at hText
      · next hAll =>
          cases hText
          cases h
          exact List.all_eq_true.mp hAll b hMem
      · cases hText
  · cases h

/- A value that was read is readable if it is ASCII. -/
theorem isReadable_iff_of_read
    {s : String}
    {value : HeaderValue}
    (h : HeaderValue.read s = .ok value) :
    value.isReadable = true ↔
      ∀ c ∈ s.toList, c.toNat < 0x80 := by
  have hBytes : value.bytes = Text.encodeChars s.toList :=
    congrArg HeaderValue.bytes (eq_of_read h)
  unfold isReadable
  rw [List.all_eq_true]
  constructor
  · intro hReadable c hMem
    apply Nat.lt_of_not_le
    intro hHigh
    rcases List.exists_mem_of_ne_nil _
      (String.utf8EncodeChar_ne_nil (c := c)) with
      ⟨b, hOctet⟩
    have hByte : b ∈ value.bytes := by
      rw [hBytes]
      exact List.mem_flatMap.mpr ⟨c, hMem, hOctet⟩
    exact absurd (lt_of_isReadableOctet (hReadable b hByte))
      (UInt8.not_lt.mpr
        (Text.le_of_mem_utf8EncodeChar hHigh hOctet))
  · intro hAscii b hByte
    rw [isReadableOctet_iff (isFieldOctet_of_read h hByte)]
    rw [hBytes] at hByte
    rcases List.mem_flatMap.mp hByte with
      ⟨c, hMem, hOctet⟩
    have hLow := hAscii c hMem
    rw [Text.utf8EncodeChar_of_lt hLow,
      List.mem_singleton] at hOctet
    rw [hOctet, UInt8.lt_iff_toNat_lt, UInt8.toNat_ofNat',
      Nat.mod_eq_of_lt (Nat.lt_trans hLow (by decide))]
    exact hLow

/- The text of a readable value is what its octets say. -/
theorem text?_eq_some_iff (value : HeaderValue) (s : String) :
    value.text? = some s ↔
      value.isReadable = true ∧
        s = Text.decodeLenient value.bytes := by
  have hDecoded
      {text : String}
      (hText : value.text? = some text) :
      text = Text.decodeLenient value.bytes := by
    refine (decodeLenient_of_read ?_).symm
    unfold HeaderValue.read
    rw [ofText?_of_text? hText]
  rw [← isSome_text?]
  cases hValue : value.text? with
  | none => simp
  | some text =>
      rw [← hDecoded hValue, Option.some_inj]
      exact ⟨fun hEq => ⟨rfl, hEq.symm⟩,
        fun hBoth => hBoth.2.symm⟩

end HeaderValue

end ServiceCalls
