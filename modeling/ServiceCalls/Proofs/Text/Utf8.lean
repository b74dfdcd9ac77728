import ServiceCalls.Text.Utf8

/-
  Texts that are written as octets and read back.

  The octets of a character are one chunk, whatever follows
  them, so a text is read back from its octets.

  Main declarations:
    * `Text.firstChunk_utf8EncodeChar`
    * `Text.decodeLenient_encode`
    * `Text.decode?_encode`
    * `Text.encode_injective`
-/

namespace ServiceCalls

namespace Text

------------------------------------------------------------
-- Chunks of Several Octets
------------------------------------------------------------

theorem isContinuation_iff (b : UInt8) :
    isContinuation b = true ↔
      128 ≤ b.toNat ∧ b.toNat ≤ 191 := by
  unfold isContinuation
  rw [Bool.and_eq_true, decide_eq_true_eq,
    decide_eq_true_eq, UInt8.le_iff_toNat_le,
    UInt8.le_iff_toNat_le]
  rfl

/- Six bits as they are written in a continuation. -/
theorem toNat_continuation (n : Nat) :
    (UInt8.ofNat (n % 64 + 128)).toNat = n % 64 + 128 := by
  rw [UInt8.toNat_ofNat']
  omega

theorem isContinuation_ofNat (n : Nat) :
    isContinuation (UInt8.ofNat (n % 64 + 128)) = true := by
  rw [isContinuation_iff, toNat_continuation]
  omega

theorem payload_ofNat (n : Nat) :
    payload (UInt8.ofNat (n % 64 + 128)) = n % 64 := by
  unfold payload
  rw [toNat_continuation]
  omega

theorem firstChunk_two
    {lead b : UInt8}
    (hLow : 0xC2 ≤ lead.toNat)
    (hHigh : lead.toNat ≤ 0xDF)
    (hb : isContinuation b = true)
    (rest : Bytes) :
    firstChunk lead (b :: rest) =
      (.char (Char.ofNat
        (lead.toNat % 32 * 64 + payload b)), 2) := by
  have hAscii : ¬lead < 0x80 := by
    rw [UInt8.lt_iff_toNat_lt]
    change ¬lead.toNat < 128
    omega
  have hTwo :
      (decide (0xC2 ≤ lead) && decide (lead ≤ 0xDF)) =
        true := by
    rw [Bool.and_eq_true, decide_eq_true_eq,
      decide_eq_true_eq]
    exact ⟨hLow, hHigh⟩
  unfold firstChunk
  rw [if_neg hAscii, if_pos hTwo]
  dsimp only
  rw [if_pos hb]

theorem firstChunk_three
    {lead b c : UInt8}
    (hLow : 0xE0 ≤ lead.toNat)
    (hHigh : lead.toNat ≤ 0xEF)
    (hb : fitsThree lead b = true)
    (hc : isContinuation c = true)
    (rest : Bytes) :
    firstChunk lead (b :: c :: rest) =
      (.char (Char.ofNat
        (lead.toNat % 16 * 4096 + payload b * 64 +
          payload c)), 3) := by
  have hAscii : ¬lead < 0x80 := by
    rw [UInt8.lt_iff_toNat_lt]
    change ¬lead.toNat < 128
    omega
  have hTwo :
      ¬(decide (0xC2 ≤ lead) && decide (lead ≤ 0xDF)) =
        true := by
    rw [Bool.and_eq_true, decide_eq_true_eq,
      decide_eq_true_eq, UInt8.le_iff_toNat_le,
      UInt8.le_iff_toNat_le]
    change ¬(194 ≤ lead.toNat ∧ lead.toNat ≤ 223)
    omega
  have hThree :
      (decide (0xE0 ≤ lead) && decide (lead ≤ 0xEF)) =
        true := by
    rw [Bool.and_eq_true, decide_eq_true_eq,
      decide_eq_true_eq]
    exact ⟨hLow, hHigh⟩
  unfold firstChunk
  rw [if_neg hAscii, if_neg hTwo, if_pos hThree]
  dsimp only
  rw [hb, hc]
  rfl

theorem firstChunk_four
    {lead b c d : UInt8}
    (hLow : 0xF0 ≤ lead.toNat)
    (hHigh : lead.toNat ≤ 0xF4)
    (hb : fitsFour lead b = true)
    (hc : isContinuation c = true)
    (hd : isContinuation d = true)
    (rest : Bytes) :
    firstChunk lead (b :: c :: d :: rest) =
      (.char (Char.ofNat
        (lead.toNat % 8 * 262144 + payload b * 4096 +
          payload c * 64 + payload d)), 4) := by
  have hAscii : ¬lead < 0x80 := by
    rw [UInt8.lt_iff_toNat_lt]
    change ¬lead.toNat < 128
    omega
  have hTwo :
      ¬(decide (0xC2 ≤ lead) && decide (lead ≤ 0xDF)) =
        true := by
    rw [Bool.and_eq_true, decide_eq_true_eq,
      decide_eq_true_eq, UInt8.le_iff_toNat_le,
      UInt8.le_iff_toNat_le]
    change ¬(194 ≤ lead.toNat ∧ lead.toNat ≤ 223)
    omega
  have hThree :
      ¬(decide (0xE0 ≤ lead) && decide (lead ≤ 0xEF)) =
        true := by
    rw [Bool.and_eq_true, decide_eq_true_eq,
      decide_eq_true_eq, UInt8.le_iff_toNat_le,
      UInt8.le_iff_toNat_le]
    change ¬(224 ≤ lead.toNat ∧ lead.toNat ≤ 239)
    omega
  have hFour :
      (decide (0xF0 ≤ lead) && decide (lead ≤ 0xF4)) =
        true := by
    rw [Bool.and_eq_true, decide_eq_true_eq,
      decide_eq_true_eq]
    exact ⟨hLow, hHigh⟩
  unfold firstChunk
  rw [if_neg hAscii, if_neg hTwo, if_neg hThree,
    if_pos hFour]
  dsimp only
  rw [hb, hc, hd]
  rfl

------------------------------------------------------------
-- Octets of a Character
------------------------------------------------------------

theorem toNat_lead
    {bits offset : Nat}
    (n : Nat)
    (hBits : 0 < bits)
    (h : bits + offset ≤ 256) :
    (UInt8.ofNat (n % bits + offset)).toNat =
      n % bits + offset := by
  have hLess := Nat.mod_lt n hBits
  rw [UInt8.toNat_ofNat']
  omega

/- Three octets are no surrogate and are not too long. -/
theorem fitsThree_ofNat
    {v : Nat}
    (hLow : 0x800 ≤ v)
    (hHigh : v < 0x10000)
    (hValid : v < 0xD800 ∨ 0xDFFF < v) :
    fitsThree (UInt8.ofNat (v / 4096 % 16 + 224))
      (UInt8.ofNat (v / 64 % 64 + 128)) = true := by
  have hLead :
      (UInt8.ofNat (v / 4096 % 16 + 224)).toNat =
        v / 4096 % 16 + 224 :=
    toNat_lead _ (by omega) (by omega)
  have hSecond := toNat_continuation (v / 64)
  unfold fitsThree
  split
  · next hFirst =>
      have hNat : v / 4096 % 16 + 224 = 0xE0 := by
        rw [← hLead, beq_iff_eq.mp hFirst]
        rfl
      rw [Bool.and_eq_true, decide_eq_true_eq,
        decide_eq_true_eq, UInt8.le_iff_toNat_le,
        UInt8.le_iff_toNat_le, hSecond]
      change 160 ≤ _ ∧ _ ≤ 191
      omega
  · split
    · next hLast =>
        have hNat : v / 4096 % 16 + 224 = 0xED := by
          rw [← hLead, beq_iff_eq.mp hLast]
          rfl
        rw [Bool.and_eq_true, decide_eq_true_eq,
          decide_eq_true_eq, UInt8.le_iff_toNat_le,
          UInt8.le_iff_toNat_le, hSecond]
        change 128 ≤ _ ∧ _ ≤ 159
        omega
    · exact isContinuation_ofNat _

/- Four octets are a code point and are not too long. -/
theorem fitsFour_ofNat
    {v : Nat}
    (hLow : 0x10000 ≤ v)
    (hHigh : v < 0x110000) :
    fitsFour (UInt8.ofNat (v / 262144 % 8 + 240))
      (UInt8.ofNat (v / 4096 % 64 + 128)) = true := by
  have hLead :
      (UInt8.ofNat (v / 262144 % 8 + 240)).toNat =
        v / 262144 % 8 + 240 :=
    toNat_lead _ (by omega) (by omega)
  have hSecond := toNat_continuation (v / 4096)
  unfold fitsFour
  split
  · next hFirst =>
      have hNat : v / 262144 % 8 + 240 = 0xF0 := by
        rw [← hLead, beq_iff_eq.mp hFirst]
        rfl
      rw [Bool.and_eq_true, decide_eq_true_eq,
        decide_eq_true_eq, UInt8.le_iff_toNat_le,
        UInt8.le_iff_toNat_le, hSecond]
      change 144 ≤ _ ∧ _ ≤ 191
      omega
  · split
    · next hLast =>
        have hNat : v / 262144 % 8 + 240 = 0xF4 := by
          rw [← hLead, beq_iff_eq.mp hLast]
          rfl
        rw [Bool.and_eq_true, decide_eq_true_eq,
          decide_eq_true_eq, UInt8.le_iff_toNat_le,
          UInt8.le_iff_toNat_le, hSecond]
        change 128 ≤ _ ∧ _ ≤ 143
        omega
    · exact isContinuation_ofNat _

theorem ofNat_of_eq
    {c : Char}
    {n : Nat}
    (h : n = c.val.toNat) :
    Char.ofNat n = c := by
  subst h
  exact Char.ofNat_toNat c

/- The octets of a character are its chunk. -/
theorem firstChunk_utf8EncodeChar (c : Char) :
    ∃ lead more,
      String.utf8EncodeChar c = lead :: more ∧
      ∀ rest,
        firstChunk lead (more ++ rest) =
          (.char c, more.length + 1) := by
  have hValid := c.valid
  unfold UInt32.isValidChar Nat.isValidChar at hValid
  by_cases hOne : c.val.toNat ≤ 127
  · refine ⟨UInt8.ofNat c.val.toNat, [], ?_, ?_⟩
    · unfold String.utf8EncodeChar
      rw [if_pos hOne]
    · intro rest
      have hLead :
          (UInt8.ofNat c.val.toNat).toNat = c.val.toNat := by
        rw [UInt8.toNat_ofNat']
        omega
      have hAscii : UInt8.ofNat c.val.toNat < 0x80 := by
        rw [UInt8.lt_iff_toNat_lt, hLead]
        exact Nat.lt_succ_of_le hOne
      unfold firstChunk
      rw [if_pos hAscii, ofNat_of_eq hLead]
      rfl
  by_cases hTwo : c.val.toNat ≤ 0x7FF
  · have hOctets :
        String.utf8EncodeChar c =
          [UInt8.ofNat (c.val.toNat / 64 % 32 + 192),
            UInt8.ofNat (c.val.toNat % 64 + 128)] := by
      unfold String.utf8EncodeChar
      rw [if_neg hOne, if_pos hTwo]
    have hLead :
        (UInt8.ofNat
            (c.val.toNat / 64 % 32 + 192)).toNat =
          c.val.toNat / 64 % 32 + 192 :=
      toNat_lead _ (by omega) (by omega)
    refine ⟨_, _, hOctets, ?_⟩
    intro rest
    rw [List.cons_append, firstChunk_two (by omega)
      (by omega) (isContinuation_ofNat _), hLead,
      payload_ofNat, ofNat_of_eq (c := c) (by omega)]
    rfl
  by_cases hThree : c.val.toNat ≤ 0xFFFF
  · have hOctets :
        String.utf8EncodeChar c =
          [UInt8.ofNat (c.val.toNat / 4096 % 16 + 224),
            UInt8.ofNat (c.val.toNat / 64 % 64 + 128),
            UInt8.ofNat (c.val.toNat % 64 + 128)] := by
      unfold String.utf8EncodeChar
      rw [if_neg hOne, if_neg hTwo, if_pos hThree]
    have hLead :
        (UInt8.ofNat
            (c.val.toNat / 4096 % 16 + 224)).toNat =
          c.val.toNat / 4096 % 16 + 224 :=
      toNat_lead _ (by omega) (by omega)
    refine ⟨_, _, hOctets, ?_⟩
    intro rest
    rw [List.cons_append, List.cons_append,
      firstChunk_three (by omega) (by omega)
        (fitsThree_ofNat (by omega) (by omega) (by omega))
        (isContinuation_ofNat _), hLead,
      payload_ofNat, payload_ofNat,
      ofNat_of_eq (c := c) (by omega)]
    rfl
  · have hOctets :
        String.utf8EncodeChar c =
          [UInt8.ofNat (c.val.toNat / 262144 % 8 + 240),
            UInt8.ofNat (c.val.toNat / 4096 % 64 + 128),
            UInt8.ofNat (c.val.toNat / 64 % 64 + 128),
            UInt8.ofNat (c.val.toNat % 64 + 128)] := by
      unfold String.utf8EncodeChar
      rw [if_neg hOne, if_neg hTwo, if_neg hThree]
    have hLead :
        (UInt8.ofNat
            (c.val.toNat / 262144 % 8 + 240)).toNat =
          c.val.toNat / 262144 % 8 + 240 :=
      toNat_lead _ (by omega) (by omega)
    refine ⟨_, _, hOctets, ?_⟩
    intro rest
    rw [List.cons_append, List.cons_append,
      List.cons_append,
      firstChunk_four (by omega) (by omega)
        (fitsFour_ofNat (by omega) (by omega))
        (isContinuation_ofNat _) (isContinuation_ofNat _),
      hLead, payload_ofNat, payload_ofNat, payload_ofNat,
      ofNat_of_eq (c := c) (by omega)]
    rfl

------------------------------------------------------------
-- Texts Read Back
------------------------------------------------------------

theorem chunks_encodeChars (cs : List Char) :
    chunks (encodeChars cs) = cs.map Chunk.char := by
  induction cs with
  | nil =>
      unfold encodeChars
      rw [List.flatMap_nil, chunks]
      rfl
  | cons c rest ih =>
      rcases firstChunk_utf8EncodeChar c with
        ⟨lead, more, hOctets, hChunk⟩
      have hSplit :
          encodeChars (c :: rest) =
            lead :: (more ++ encodeChars rest) := by
        unfold encodeChars
        rw [List.flatMap_cons, hOctets, List.cons_append]
      rw [hSplit, chunks, hChunk]
      dsimp only
      rw [Nat.add_sub_cancel, List.drop_left, ih]
      rfl

/- Octets of a text are read as the text. -/
theorem decodeLenient_encodeChars (cs : List Char) :
    decodeLenient (encodeChars cs) = String.ofList cs := by
  unfold decodeLenient
  rw [chunks_encodeChars, List.map_map]
  exact congrArg String.ofList (List.map_id cs)

theorem decodeLenient_encode (s : String) :
    decodeLenient (encode s) = s := by
  unfold encode
  rw [decodeLenient_encodeChars, String.ofList_toList]

/- Octets of a text are a text. -/
theorem decode?_encode (s : String) :
    decode? (encode s) = some s := by
  have hCollect (cs : List Char) (position : Nat) :
      collect position (cs.map Chunk.char) = .ok cs := by
    induction cs generalizing position with
    | nil => rfl
    | cons c rest ih =>
        rw [List.map_cons, collect, ih]
        rfl
  unfold decode? decode encode
  rw [chunks_encodeChars, hCollect]
  exact congrArg some String.ofList_toList

/- Texts with the same octets are the same. -/
theorem encode_injective
    {first second : String}
    (h : encode first = encode second) :
    first = second := by
  rw [← decodeLenient_encode first, h,
    decodeLenient_encode]

end Text

end ServiceCalls
