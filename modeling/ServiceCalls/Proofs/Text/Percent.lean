import ServiceCalls.Proofs.Text.Octets

/-
  Percent form and back.

  Octets that were written in percent form are read back,
  and putting more of a text into percent form does not
  change what is read, as long as it leaves percent signs
  and digits alone.

  Key definitions include:
    * `Text.escapeOctets`

  Main declarations:
    * `Text.percentDecode_append`
    * `Text.percentDecode_percentEncode`
    * `Text.percentDecode_encodeComponent`
    * `Text.percentDecode_escapeChars`
    * `Text.of_percentDecode_cons`
-/

namespace ServiceCalls

namespace Text

------------------------------------------------------------
-- Characters as Octets
------------------------------------------------------------

theorem encodeChars_append (front rest : List Char) :
    encodeChars (front ++ rest) =
      encodeChars front ++ encodeChars rest :=
  List.flatMap_append

theorem encodeChars_cons (c : Char) (rest : List Char) :
    encodeChars (c :: rest) =
      String.utf8EncodeChar c ++ encodeChars rest :=
  List.flatMap_cons

/- A character of ASCII is one octet. -/
theorem utf8EncodeChar_of_lt
    {c : Char}
    (h : c.toNat < 0x80) :
    String.utf8EncodeChar c = [UInt8.ofNat c.toNat] := by
  have hLow : c.val.toNat ≤ 127 := Nat.le_of_lt_succ h
  unfold String.utf8EncodeChar
  rw [if_pos hLow]
  rfl

/- The octets of any other character are not ASCII. -/
theorem le_of_mem_utf8EncodeChar
    {c : Char}
    (h : 0x80 ≤ c.toNat)
    {b : UInt8}
    (hMem : b ∈ String.utf8EncodeChar c) :
    0x80 ≤ b := by
  have hHigh : ¬c.val.toNat ≤ 127 := Nat.not_le.mpr h
  have hBound
      {n : Nat}
      (hOctet : b = UInt8.ofNat n)
      (hLarge : 128 ≤ n % 256) :
      0x80 ≤ b := by
    rw [hOctet, UInt8.le_iff_toNat_le, UInt8.toNat_ofNat']
    exact hLarge
  unfold String.utf8EncodeChar at hMem
  rw [if_neg hHigh] at hMem
  split at hMem
  · simp only [List.mem_cons, List.not_mem_nil, or_false]
      at hMem
    rcases hMem with hMem | hMem
    all_goals exact hBound hMem (by omega)
  · split at hMem
    · simp only [List.mem_cons, List.not_mem_nil, or_false]
        at hMem
      rcases hMem with hMem | hMem | hMem
      all_goals exact hBound hMem (by omega)
    · simp only [List.mem_cons, List.not_mem_nil, or_false]
        at hMem
      rcases hMem with hMem | hMem | hMem | hMem
      all_goals exact hBound hMem (by omega)

/- An octet of ASCII at the start is a character. -/
theorem of_encodeChars_cons
    {b : UInt8}
    (hAscii : b < 0x80)
    {cs : List Char}
    {rest : Bytes}
    (h : encodeChars cs = b :: rest) :
    ∃ more,
      cs = Char.ofNat b.toNat :: more ∧
      encodeChars more = rest := by
  cases cs with
  | nil => cases h
  | cons c more =>
      rw [encodeChars_cons] at h
      by_cases hLow : c.toNat < 0x80
      · rw [utf8EncodeChar_of_lt hLow] at h
        rcases List.cons.inj h with ⟨hFirst, hRest⟩
        refine ⟨more, ?_, hRest⟩
        rw [← hFirst, UInt8.toNat_ofNat',
          Nat.mod_eq_of_lt (Nat.lt_trans hLow (by decide)),
          Char.ofNat_toNat]
      · have hHigh := Nat.not_lt.mp hLow
        have hMem : b ∈ String.utf8EncodeChar c := by
          cases hOctets : String.utf8EncodeChar c with
          | nil =>
              exact absurd hOctets
                (String.utf8EncodeChar_ne_nil (c := c))
          | cons first others =>
              rw [hOctets] at h
              rw [(List.cons.inj h).1]
              exact List.mem_cons_self
        exact absurd hAscii (UInt8.not_lt.mpr
          (le_of_mem_utf8EncodeChar hHigh hMem))

theorem encodeChars_eq_nil
    {cs : List Char}
    (h : encodeChars cs = []) :
    cs = [] := by
  cases cs with
  | nil => rfl
  | cons c more =>
      rw [encodeChars_cons, List.append_eq_nil_iff] at h
      exact absurd h.1 (String.utf8EncodeChar_ne_nil (c := c))

------------------------------------------------------------
-- Octets in Percent Form
------------------------------------------------------------

/- Whether an octet is a hexadecimal digit. -/
def isHexOctet (b : UInt8) : Bool :=
  (hexValue? (Char.ofNat b.toNat)).isSome

/- A digit is one octet, and is read as its number. -/
theorem hexDigit_octet
    {n : Nat}
    (h : n < 16) :
    ∃ d,
      encodeChars [hexDigit n] = [d] ∧
      hexValue? (Char.ofNat d.toNat) = some n := by
  have hAll :
      ∀ m : Fin 16,
        encodeChars [hexDigit m.val] =
            [UInt8.ofNat (hexDigit m.val).toNat] ∧
          hexValue? (Char.ofNat (UInt8.ofNat
            (hexDigit m.val).toNat).toNat) =
              some m.val := by
    decide
  exact ⟨_, hAll ⟨n, h⟩⟩

/- An octet in percent form is read as that octet. -/
theorem percentDecode_encodeOctet
    (b : UInt8)
    (rest : Bytes) :
    percentDecode (encodeChars (encodeOctet b) ++ rest) =
      b :: percentDecode rest := by
  have hByte := b.toNat_lt
  rcases hexDigit_octet (n := b.toNat / 16) (by omega) with
    ⟨high, hHigh, hHighValue⟩
  rcases hexDigit_octet (n := b.toNat % 16) (by omega) with
    ⟨low, hLow, hLowValue⟩
  have hOctets :
      encodeChars (encodeOctet b) = [0x25, high, low] := by
    have hSplit :
        encodeOctet b =
          ['%'] ++ ([hexDigit (b.toNat / 16)] ++
            [hexDigit (b.toNat % 16)]) :=
      rfl
    rw [hSplit, encodeChars_append, encodeChars_append,
      hHigh, hLow]
    rfl
  have hValue :
      b.toNat / 16 * 16 + b.toNat % 16 = b.toNat := by
    omega
  rw [hOctets]
  change percentDecode (0x25 :: high :: low :: rest) = _
  rw [percentDecode, hHighValue, hLowValue]
  dsimp only
  rw [hValue, UInt8.ofNat_toNat]

/- An octet that is no percent sign stands for itself. -/
theorem percentDecode_cons
    {b : UInt8}
    (h : b ≠ 0x25)
    (rest : Bytes) :
    percentDecode (b :: rest) = b :: percentDecode rest := by
  rw [percentDecode]
  intro high low more hSign _
  exact h hSign

/- So does a percent sign without two digits after it. -/
theorem percentDecode_sign
    {rest : Bytes}
    (h :
      ∀ high low more, rest = high :: low :: more →
        isHexOctet high = false ∨ isHexOctet low = false) :
    percentDecode (0x25 :: rest) =
      0x25 :: percentDecode rest := by
  match rest with
  | [] => rfl
  | [_] => rfl
  | high :: low :: more =>
      have hDigits := h high low more rfl
      unfold isHexOctet at hDigits
      rw [Option.isSome_eq_false_iff,
        Option.isSome_eq_false_iff, Option.isNone_iff_eq_none,
        Option.isNone_iff_eq_none] at hDigits
      rw [percentDecode]
      split
      · next hHigh hLow =>
          rcases hDigits with hNone | hNone
          · rw [hNone] at hHigh
            cases hHigh
          · rw [hNone] at hLow
            cases hLow
      · rfl

/- Octets behind one that is no digit are read apart. -/
theorem percentDecode_append
    {b : UInt8}
    (hDigit : isHexOctet b = false)
    (bytes rest : Bytes) :
    percentDecode (bytes ++ b :: rest) =
      percentDecode bytes ++ percentDecode (b :: rest) := by
  fun_induction percentDecode bytes with
  | case1 => rfl
  | case2 high low more h l hHigh hLow ih =>
      rw [List.cons_append, List.cons_append,
        List.cons_append, percentDecode, hHigh, hLow]
      exact congrArg (UInt8.ofNat (h * 16 + l) :: ·) ih
  | case3 high low more hNot ih =>
      rw [List.cons_append, List.cons_append,
        List.cons_append, percentDecode]
      split
      · next hHigh hLow => exact absurd hLow (hNot _ _ hHigh)
      · exact congrArg (0x25 :: ·) ih
  | case4 first more hNot ih =>
      rw [List.cons_append]
      by_cases hSign : first = 0x25
      · subst hSign
        rw [percentDecode_sign, ih]
        · rfl
        · intro high low others hSplit
          cases more with
          | nil =>
              cases hSplit
              exact .inl hDigit
          | cons second others =>
              cases others with
              | nil =>
                  cases hSplit
                  exact .inr hDigit
              | cons third last =>
                  exact absurd rfl (hNot second third last rfl)
      · rw [percentDecode_cons hSign, ih]
        rfl

/- Octets of which some are in percent form are read back. -/
theorem percentDecode_percentEncode
    {plain : UInt8 → Bool}
    (hPlain :
      ∀ b, plain b = true → b < 0x80 ∧ b ≠ 0x25)
    (bytes rest : Bytes) :
    percentDecode
        (encodeChars (percentEncode plain bytes) ++ rest) =
      bytes ++ percentDecode rest := by
  induction bytes with
  | nil => rfl
  | cons b more ih =>
      unfold percentEncode at ih ⊢
      rw [List.flatMap_cons, encodeChars_append,
        List.append_assoc]
      split
      · next hb =>
          rcases hPlain b hb with ⟨hAscii, hSign⟩
          have hOctet :
              encodeChars [Char.ofNat b.toNat] = [b] := by
            rw [encodeChars_cons,
              utf8EncodeChar_ofNat hAscii]
            rfl
          rw [hOctet, List.singleton_append,
            percentDecode_cons hSign, ih]
          rfl
      · rw [percentDecode_encodeOctet, ih]
        rfl

theorem of_isUnreserved
    {b : UInt8}
    (h : isUnreserved b = true) :
    b < 0x80 ∧ b ≠ 0x25 := by
  simp only [isUnreserved, Bool.or_eq_true,
    Bool.and_eq_true, decide_eq_true_eq, beq_iff_eq,
    UInt8.le_iff_toNat_le, ← UInt8.toNat_inj] at h
  rw [UInt8.lt_iff_toNat_lt, Ne, ← UInt8.toNat_inj]
  simp only [UInt8.toNat_ofNat] at h ⊢
  omega

/- The octets of a component are read back. -/
theorem percentDecode_encodeComponent
    (cs : List Char)
    (rest : Bytes) :
    percentDecode
        (encodeChars (encodeComponent cs) ++ rest) =
      encodeChars cs ++ percentDecode rest :=
  percentDecode_percentEncode (fun _ => of_isUnreserved)
    (encodeChars cs) rest

------------------------------------------------------------
-- More Octets in Percent Form
------------------------------------------------------------

/- Put some octets into percent form. -/
def escapeOctets
    (escaped : UInt8 → Bool)
    (bytes : Bytes) :
    Bytes :=
  bytes.flatMap fun b =>
    if escaped b then encodeChars (encodeOctet b) else [b]

theorem escapeOctets_cons
    (escaped : UInt8 → Bool)
    (b : UInt8)
    (rest : Bytes) :
    escapeOctets escaped (b :: rest) =
      (if escaped b then encodeChars (encodeOctet b)
        else [b]) ++ escapeOctets escaped rest :=
  List.flatMap_cons

/- The first octet of what may be in percent form. -/
theorem isHexOctet_of_escaped
    {escaped : UInt8 → Bool}
    {b : UInt8}
    (hOther : isHexOctet b = false)
    {first : UInt8}
    {rest more : Bytes}
    (h :
      (if escaped b then encodeChars (encodeOctet b)
        else [b]) ++ rest = first :: more) :
    isHexOctet first = false := by
  split at h
  · have hFirst : (0x25 : UInt8) = first :=
      (List.cons.inj h).1
    rw [← hFirst]
    decide
  · rw [← (List.cons.inj h).1]
    exact hOther

/-
  Two digits do not come up behind a percent sign when other
  octets are put into percent form.
-/
theorem percentDecode_sign_escapeOctets
    {escaped : UInt8 → Bool}
    (hEscaped :
      ∀ b, escaped b = true →
        b ≠ 0x25 ∧ isHexOctet b = false)
    {bytes : Bytes}
    (h :
      ∀ high low more, bytes = high :: low :: more →
        isHexOctet high = false ∨ isHexOctet low = false) :
    percentDecode (0x25 :: escapeOctets escaped bytes) =
      0x25 :: percentDecode (escapeOctets escaped bytes) := by
  apply percentDecode_sign
  intro high low more hStart
  cases bytes with
  | nil => cases hStart
  | cons b rest =>
      rw [escapeOctets_cons] at hStart
      by_cases hFirst : isHexOctet b = true
      · -- A digit stays, so the octet after it comes next.
        have hStays : escaped b = false := by
          rw [Bool.eq_false_iff]
          intro hTrue
          exact Bool.false_ne_true
            ((hEscaped b hTrue).2.symm.trans hFirst)
        rw [hStays, if_neg Bool.false_ne_true] at hStart
        have hRest :
            escapeOctets escaped rest = low :: more :=
          (List.cons.inj hStart).2
        cases rest with
        | nil => cases hRest
        | cons c others =>
            rcases h b c others rfl with hNone | hNone
            · exact absurd hFirst (by rw [hNone]; decide)
            · rw [escapeOctets_cons] at hRest
              exact .inr (isHexOctet_of_escaped hNone hRest)
      · rw [Bool.not_eq_true] at hFirst
        exact .inl (isHexOctet_of_escaped hFirst hStart)

/- What is read does not change. -/
theorem percentDecode_escapeOctets
    {escaped : UInt8 → Bool}
    (hEscaped :
      ∀ b, escaped b = true →
        b ≠ 0x25 ∧ isHexOctet b = false)
    (bytes : Bytes) :
    percentDecode (escapeOctets escaped bytes) =
      percentDecode bytes := by
  have hSign : escaped 0x25 = false := by
    rw [Bool.eq_false_iff]
    intro hTrue
    exact (hEscaped _ hTrue).1 rfl
  have hDigit
      {b : UInt8}
      {n : Nat}
      (hValue :
        hexValue? (Char.ofNat b.toNat) = some n) :
      escaped b = false := by
    rw [Bool.eq_false_iff]
    intro hTrue
    have hNone := (hEscaped b hTrue).2
    unfold isHexOctet at hNone
    rw [hValue] at hNone
    cases hNone
  fun_induction percentDecode bytes with
  | case1 => rfl
  | case2 high low rest h l hHigh hLow ih =>
      rw [escapeOctets_cons, escapeOctets_cons,
        escapeOctets_cons, hSign, hDigit hHigh, hDigit hLow]
      change percentDecode (0x25 :: high :: low ::
        escapeOctets escaped rest) = _
      rw [percentDecode, hHigh, hLow]
      dsimp only
      rw [ih]
  | case3 high low rest hNot ih =>
      rw [escapeOctets_cons, hSign]
      change percentDecode (0x25 ::
        escapeOctets escaped (high :: low :: rest)) = _
      rw [percentDecode_sign_escapeOctets hEscaped, ih]
      intro first second more hStart
      cases hStart
      unfold isHexOctet
      cases hHigh : hexValue? (Char.ofNat high.toNat) with
      | none => exact .inl rfl
      | some h =>
          cases hLow : hexValue? (Char.ofNat low.toNat) with
          | none => exact .inr rfl
          | some l => exact absurd hLow (hNot h l hHigh)
  | case4 b rest hNot ih =>
      rw [escapeOctets_cons]
      split
      · rw [percentDecode_encodeOctet, ih]
      · by_cases hPercent : b = 0x25
        · subst hPercent
          change percentDecode (0x25 ::
            escapeOctets escaped rest) = _
          rw [percentDecode_sign_escapeOctets hEscaped, ih]
          intro first second more hStart
          exact absurd hStart (hNot first second more rfl)
        · rw [List.singleton_append,
            percentDecode_cons hPercent, ih]

/- The octets of characters that are put into this form. -/
theorem encodeChars_escapeChars
    (escaped : Char → Bool)
    (cs : List Char) :
    encodeChars (escapeChars escaped cs) =
      escapeOctets
        (fun b => 0x80 ≤ b || escaped (Char.ofNat b.toNat))
        (encodeChars cs) := by
  induction cs with
  | nil => rfl
  | cons c rest ih =>
      have hFirst :
          encodeChars
              (if escaped c || 0x80 ≤ c.toNat then
                (String.utf8EncodeChar c).flatMap encodeOctet
              else [c]) =
            escapeOctets
              (fun b =>
                0x80 ≤ b || escaped (Char.ofNat b.toNat))
              (String.utf8EncodeChar c) := by
        by_cases hLow : c.toNat < 0x80
        · have hOctet :
              (UInt8.ofNat c.toNat).toNat = c.toNat := by
            rw [UInt8.toNat_ofNat']
            omega
          have hAscii : ¬0x80 ≤ UInt8.ofNat c.toNat := by
            rw [UInt8.le_iff_toNat_le, hOctet]
            exact Nat.not_le.mpr hLow
          have hHigh : ¬0x80 ≤ c.toNat :=
            Nat.not_le.mpr hLow
          rw [utf8EncodeChar_of_lt hLow, escapeOctets,
            List.flatMap_singleton, List.flatMap_singleton,
            hOctet, Char.ofNat_toNat, decide_eq_false hAscii,
            decide_eq_false hHigh, Bool.or_false,
            Bool.false_or]
          split
          · rfl
          · rw [encodeChars_cons, utf8EncodeChar_of_lt hLow]
            rfl
        · have hHigh : 0x80 ≤ c.toNat := Nat.not_lt.mp hLow
          rw [decide_eq_true hHigh, Bool.or_true, if_pos rfl]
          unfold encodeChars escapeOctets
          rw [List.flatMap_assoc, List.flatMap_def,
            List.flatMap_def]
          congr 1
          apply List.map_congr_left
          intro b hMem
          have hByte := le_of_mem_utf8EncodeChar hHigh hMem
          have hEscaped :
              (decide (0x80 ≤ b) ||
                escaped (Char.ofNat b.toNat)) = true := by
            rw [decide_eq_true hByte, Bool.true_or]
          exact (if_pos hEscaped).symm
      unfold escapeChars at ih ⊢
      rw [List.flatMap_cons, encodeChars_append, ih, hFirst,
        encodeChars_cons]
      exact List.flatMap_append.symm

theorem hexValue?_of_le
    {c : Char}
    (h : 0x80 ≤ c.toNat) :
    hexValue? c = none := by
  have hAbove (d : Char) (hd : d.toNat < 128) : ¬c ≤ d := by
    intro hLess
    have hNat : c.toNat ≤ d.toNat := hLess
    omega
  unfold hexValue?
  rw [if_neg (fun hRange => hAbove '9' (by decide) hRange.2),
    if_neg (fun hRange => hAbove 'F' (by decide) hRange.2),
    if_neg (fun hRange => hAbove 'f' (by decide) hRange.2)]

/- Characters put into percent form are read back. -/
theorem percentDecode_escapeChars
    {escaped : Char → Bool}
    (hEscaped :
      ∀ c, escaped c = true →
        c ≠ '%' ∧ hexValue? c = none)
    (cs : List Char) :
    percentDecode (encodeChars (escapeChars escaped cs)) =
      percentDecode (encodeChars cs) := by
  rw [encodeChars_escapeChars]
  apply percentDecode_escapeOctets
  intro b hb
  rw [Bool.or_eq_true, decide_eq_true_eq] at hb
  unfold isHexOctet
  rcases hb with hHigh | hChar
  · rw [UInt8.le_iff_toNat_le] at hHigh
    have hChar : 0x80 ≤ (Char.ofNat b.toNat).toNat := by
      rw [toNat_ofNat_toNat]
      exact hHigh
    rw [hexValue?_of_le hChar]
    refine ⟨?_, rfl⟩
    intro hSame
    subst hSame
    exact absurd hHigh (by decide)
  · rcases hEscaped _ hChar with ⟨hSign, hDigit⟩
    rw [hDigit]
    refine ⟨?_, rfl⟩
    intro hSame
    subst hSame
    exact hSign (by decide)

------------------------------------------------------------
-- What Is Read
------------------------------------------------------------

/- The first octet that is read, and where it comes from. -/
theorem of_percentDecode_cons
    {bytes out : Bytes}
    {b : UInt8}
    (h : percentDecode bytes = b :: out) :
    (∃ rest,
      bytes = b :: rest ∧ percentDecode rest = out) ∨
      ∃ high low hv lv rest,
        bytes = 0x25 :: high :: low :: rest ∧
        hexValue? (Char.ofNat high.toNat) = some hv ∧
        hexValue? (Char.ofNat low.toNat) = some lv ∧
        b = UInt8.ofNat (hv * 16 + lv) ∧
        percentDecode rest = out := by
  fun_cases percentDecode bytes with
  | case1 => cases h
  | case2 high low rest hv lv hLow hHigh =>
      rw [percentDecode, hHigh, hLow] at h
      rcases List.cons.inj h with ⟨hFirst, hRest⟩
      exact .inr ⟨high, low, hv, lv, rest, rfl, hHigh,
        hLow, hFirst.symm, hRest⟩
  | case3 high low rest hNot =>
      rw [percentDecode] at h
      split at h
      · next hHigh hLow =>
          exact absurd hLow (hNot _ _ hHigh)
      · rcases List.cons.inj h with ⟨hFirst, hRest⟩
        exact .inl ⟨_, by rw [hFirst], hRest⟩
  | case4 first rest hNot =>
      rw [percentDecode] at h
      · rcases List.cons.inj h with ⟨hFirst, hRest⟩
        exact .inl ⟨_, by rw [hFirst], hRest⟩
      · exact hNot

------------------------------------------------------------
-- Characters of Components
------------------------------------------------------------

/- Unreserved characters and the sign of percent form. -/
def isComponentChar (c : Char) : Bool :=
  c.isAlphanum || c == '-' || c == '.' || c == '_' ||
    c == '~' || c == '%'

theorem isComponentChar_of_mem
    {cs : List Char}
    {c : Char}
    (h : c ∈ encodeComponent cs) :
    isComponentChar c = true := by
  have hDigit :
      ∀ n < 16, isComponentChar (hexDigit n) = true := by
    decide
  have hPlain :
      ∀ n < 128, isUnreserved (UInt8.ofNat n) = true →
        isComponentChar (Char.ofNat n) = true := by
    decide
  unfold encodeComponent percentEncode at h
  rcases List.mem_flatMap.mp h with ⟨b, _, hMem⟩
  have hByte := b.toNat_lt
  split at hMem
  · next hb =>
      have hAscii := (of_isUnreserved hb).1
      rw [List.mem_singleton.mp hMem]
      apply hPlain b.toNat hAscii
      rw [UInt8.ofNat_toNat]
      exact hb
  · unfold encodeOctet at hMem
    simp only [List.mem_cons, List.not_mem_nil, or_false]
      at hMem
    rcases hMem with hSign | hHigh | hLow
    · subst hSign
      rfl
    · rw [hHigh]
      exact hDigit _ (by omega)
    · rw [hLow]
      exact hDigit _ (by omega)

theorem lt_of_isAlphanum
    {c : Char}
    (h : c.isAlphanum = true) :
    c.toNat < 128 := by
  have hBelow
      (high : Char)
      (hHigh : high.toNat < 128)
      (hLe : c.val ≤ high.val) :
      c.toNat < 128 :=
    Nat.lt_of_le_of_lt hLe hHigh
  rcases Bool.or_eq_true_iff.mp h with hAlpha | hDigit
  · rcases Bool.or_eq_true_iff.mp hAlpha with
      hUpper | hLower
    · exact hBelow 'Z' (by decide)
        (of_decide_eq_true hUpper).2
    · exact hBelow 'z' (by decide)
        (of_decide_eq_true
          (Bool.and_eq_true_iff.mp hLower).2)
  · exact hBelow '9' (by decide)
      (of_decide_eq_true
        (Bool.and_eq_true_iff.mp hDigit).2)

theorem lt_of_isComponentChar
    {c : Char}
    (h : isComponentChar c = true) :
    c.toNat < 128 := by
  unfold isComponentChar at h
  simp only [Bool.or_eq_true, beq_iff_eq] at h
  rcases h with ((((h | h) | h) | h) | h) | h
  · exact lt_of_isAlphanum h
  all_goals
    subst h
    decide
/- What holds of the codes of components holds of them. -/
theorem of_isComponentChar
    {p : Char → Bool}
    (h :
      ∀ n < 128, isComponentChar (Char.ofNat n) = true →
        p (Char.ofNat n) = true)
    {c : Char}
    (hc : isComponentChar c = true) :
    p c = true := by
  have hCode := h c.toNat (lt_of_isComponentChar hc)
  rw [Char.ofNat_toNat] at hCode
  exact hCode hc

/- A text that takes no percent form stays as it is. -/
theorem escapeChars_eq_self
    {escaped : Char → Bool}
    {text : List Char}
    (h :
      ∀ c ∈ text,
        (escaped c || decide (0x80 ≤ c.toNat)) = false) :
    escapeChars escaped text = text := by
  unfold escapeChars
  induction text with
  | nil => rfl
  | cons c rest ih =>
      rw [List.flatMap_cons,
        if_neg (Bool.eq_false_iff.mp
          (h c List.mem_cons_self)),
        ih fun d hd => h d (List.mem_cons_of_mem _ hd)]
      rfl

end Text

end ServiceCalls
