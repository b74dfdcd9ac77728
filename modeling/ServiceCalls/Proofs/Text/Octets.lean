import ServiceCalls.Proofs.Fallible
import ServiceCalls.Text.Percent

/-
  Octets that stay what they are when text is decoded.

  An octet of ASCII is a character of its own, and percent
  form does not take the last octet of a text away unless it
  is a digit.  A lenient reader starts anew with it.

  Main declarations:
    * `Text.utf8EncodeChar_ofNat`
    * `Text.mem_percentDecode`
    * `Text.mem_of_decode?`
    * `Text.decodeLenient_append`
-/

namespace ServiceCalls

namespace Text

------------------------------------------------------------
-- ASCII
------------------------------------------------------------

/- Every octet is the code of a character. -/
theorem toNat_ofNat_toNat (b : UInt8) :
    (Char.ofNat b.toNat).toNat = b.toNat := by
  have hByte := b.toNat_lt
  have hValid : b.toNat.isValidChar := .inl (by omega)
  rw [Char.ofNat, dif_pos hValid]
  rfl

/- The character of an ASCII octet is that octet. -/
theorem utf8EncodeChar_ofNat
    {b : UInt8}
    (h : b < 0x80) :
    String.utf8EncodeChar (Char.ofNat b.toNat) = [b] := by
  have hNat : b.toNat < 128 := h
  have hChar :
      (Char.ofNat b.toNat).val.toNat = b.toNat :=
    toNat_ofNat_toNat b
  unfold String.utf8EncodeChar
  simp [hChar]
  omega

/- A property of octets is decided octet by octet. -/
theorem forall_octet
    {p : UInt8 → Prop}
    [DecidablePred p]
    (h :
      (List.range 256).all
        (fun n => decide (p (UInt8.ofNat n))) = true)
    (b : UInt8) :
    p b := by
  have hOne := List.all_eq_true.1 h b.toNat
    (List.mem_range.2 b.toNat_lt)
  rw [UInt8.ofNat_toNat] at hOne
  exact of_decide_eq_true hOne

------------------------------------------------------------
-- Percent Form
------------------------------------------------------------

theorem escapeChars_append
    (escaped : Char → Bool)
    (front rest : List Char) :
    escapeChars escaped (front ++ rest) =
      escapeChars escaped front ++ escapeChars escaped rest :=
  List.flatMap_append

/- A last octet that is no digit is kept. -/
theorem mem_percentDecode
    {b : UInt8}
    (hDigit : hexValue? (Char.ofNat b.toNat) = none)
    {bytes : Bytes}
    (hLast : bytes.getLast? = some b) :
    b ∈ percentDecode bytes := by
  fun_induction percentDecode bytes with
  | case1 => cases hLast
  | case2 high low rest h l hHigh hLow ih =>
      cases rest with
      | nil =>
          have hSame : low = b := Option.some.inj hLast
          rw [hSame, hDigit] at hHigh
          cases hHigh
      | cons c more =>
          apply List.mem_cons_of_mem
          exact ih hLast
  | case3 high low rest hNot ih =>
      apply List.mem_cons_of_mem
      exact ih hLast
  | case4 first rest hNot ih =>
      cases rest with
      | nil =>
          cases hLast
          exact List.mem_cons_self
      | cons c more =>
          apply List.mem_cons_of_mem
          exact ih hLast

------------------------------------------------------------
-- UTF-8
------------------------------------------------------------

theorem le_of_isContinuation
    {b : UInt8}
    (h : isContinuation b = true) :
    0x80 ≤ b := by
  simp only [isContinuation, Bool.and_eq_true,
    decide_eq_true_eq] at h
  exact h.1

theorem le_of_fitsThree
    {lead second : UInt8}
    (h : fitsThree lead second = true) :
    0x80 ≤ second := by
  unfold fitsThree at h
  split at h
  · simp only [Bool.and_eq_true, decide_eq_true_eq] at h
    exact UInt8.le_trans (by decide) h.1
  · split at h
    · simp only [Bool.and_eq_true, decide_eq_true_eq] at h
      exact h.1
    · exact le_of_isContinuation h

theorem le_of_fitsFour
    {lead second : UInt8}
    (h : fitsFour lead second = true) :
    0x80 ≤ second := by
  unfold fitsFour at h
  split at h
  · simp only [Bool.and_eq_true, decide_eq_true_eq] at h
    exact UInt8.le_trans (by decide) h.1
  · split at h
    · simp only [Bool.and_eq_true, decide_eq_true_eq] at h
      exact h.1
    · exact le_of_isContinuation h

/-
  A character is an octet of ASCII, or its octets are all
  above.
-/
theorem firstChunk_char
    {lead : UInt8}
    {rest : Bytes}
    {c : Char}
    {size : Nat}
    (h : firstChunk lead rest = (.char c, size)) :
    (c = Char.ofNat lead.toNat ∧ size = 1) ∨
      (0x80 ≤ lead ∧
        ∀ b ∈ rest.take (size - 1), 0x80 ≤ b) := by
  unfold firstChunk at h
  split at h
  · cases h
    exact .inl ⟨rfl, rfl⟩
  · next hLead =>
      refine .inr ⟨UInt8.not_lt.1 hLead, ?_⟩
      split at h
      · split at h
        · cases h
        · split at h
          · next hSecond =>
              cases h
              intro b hMem
              rw [List.mem_singleton.1 hMem]
              exact le_of_isContinuation hSecond
          · cases h
      · split at h
        · split at h
          · cases h
          · split at h <;> cases h
          · split at h
            · cases h
            · next hSecond =>
                split at h
                · next hThird =>
                    cases h
                    intro b hMem
                    rw [Bool.not_eq_true,
                      Bool.not_eq_false'] at hSecond
                    rcases List.mem_cons.1 hMem with
                      hb | hMem
                    · rw [hb]
                      exact le_of_fitsThree hSecond
                    · rw [List.mem_singleton.1 hMem]
                      exact le_of_isContinuation hThird
                · cases h
        · split at h
          · split at h
            · cases h
            · split at h <;> cases h
            · split at h
              · cases h
              · split at h <;> cases h
            · split at h
              · cases h
              · next hSecond =>
                  split at h
                  · cases h
                  · next hThird =>
                      split at h
                      · next hFourth =>
                          cases h
                          intro b hMem
                          rw [Bool.not_eq_true,
                            Bool.not_eq_false']
                            at hSecond hThird
                          rcases List.mem_cons.1 hMem with
                            hb | hMem
                          · rw [hb]
                            exact le_of_fitsFour hSecond
                          rcases List.mem_cons.1 hMem with
                            hb | hMem
                          · rw [hb]
                            exact le_of_isContinuation hThird
                          · rw [List.mem_singleton.1 hMem]
                            exact le_of_isContinuation
                              hFourth
                      · cases h
          · cases h

/- Octets of ASCII are characters of what is decoded. -/
theorem mem_of_collect
    {b : UInt8}
    (hAscii : b < 0x80)
    {bytes : Bytes}
    (hMem : b ∈ bytes)
    {position : Nat}
    {cs : List Char}
    (h : collect position (chunks bytes) = .ok cs) :
    Char.ofNat b.toNat ∈ cs := by
  fun_induction chunks bytes generalizing position cs with
  | case1 => cases hMem
  | case2 lead rest chunk size hChunk ih =>
      cases chunk with
      | broken octets cut => cases h
      | char c =>
          rcases Fallible.map_eq_ok h with
            ⟨more, hMore, hCons⟩
          subst hCons
          rcases firstChunk_char hChunk with
            ⟨hc, hSize⟩ | ⟨hLead, hTake⟩
          · subst hc hSize
            rcases List.mem_cons.1 hMem with hb | hRest
            · rw [hb]
              exact List.mem_cons_self
            · apply List.mem_cons_of_mem
              exact ih hRest hMore
          · rcases List.mem_cons.1 hMem with hb | hRest
            · rw [← hb] at hLead
              exact absurd hAscii (UInt8.not_lt.2 hLead)
            · rw [← List.take_append_drop (size - 1) rest]
                at hRest
              rcases List.mem_append.1 hRest with
                hFirst | hLater
              · exact absurd hAscii
                  (UInt8.not_lt.2 (hTake b hFirst))
              · apply List.mem_cons_of_mem
                exact ih hLater hMore

theorem mem_of_decode?
    {b : UInt8}
    (hAscii : b < 0x80)
    {bytes : Bytes}
    (hMem : b ∈ bytes)
    {text : String}
    (h : decode? bytes = some text) :
    Char.ofNat b.toNat ∈ text.toList := by
  unfold decode? decode at h
  cases hCollect : collect 0 (chunks bytes) with
  | error fault =>
      rw [hCollect] at h
      cases h
  | ok cs =>
      rw [hCollect] at h
      cases h
      rw [String.toList_ofList]
      exact mem_of_collect hAscii hMem hCollect

------------------------------------------------------------
-- Lenient Readers
------------------------------------------------------------

/- What a lenient reader puts for a chunk. -/
def Chunk.lenient : Chunk → Char
  | .char c => c
  | .broken _ _ => '\uFFFD'

theorem not_isContinuation
    {b : UInt8}
    (h : b < 0x80) :
    isContinuation b = false := by
  rw [Bool.eq_false_iff]
  intro hb
  exact UInt8.not_lt.mpr (le_of_isContinuation hb) h

theorem not_fitsThree
    {b : UInt8}
    (h : b < 0x80)
    (lead : UInt8) :
    fitsThree lead b = false := by
  rw [Bool.eq_false_iff]
  intro hb
  exact UInt8.not_lt.mpr (le_of_fitsThree hb) h

theorem not_fitsFour
    {b : UInt8}
    (h : b < 0x80)
    (lead : UInt8) :
    fitsFour lead b = false := by
  rw [Bool.eq_false_iff]
  intro hb
  exact UInt8.not_lt.mpr (le_of_fitsFour hb) h

/- A chunk ends before an octet of ASCII. -/
theorem firstChunk_append
    {b : UInt8}
    (h : b < 0x80)
    (lead : UInt8)
    (more rest : Bytes) :
    (firstChunk lead (more ++ b :: rest)).1.lenient =
        (firstChunk lead more).1.lenient ∧
      (firstChunk lead (more ++ b :: rest)).2 =
        (firstChunk lead more).2 ∧
      (firstChunk lead more).2 - 1 ≤ more.length := by
  have hContinuation := not_isContinuation h
  have hThree := not_fitsThree h lead
  have hFour := not_fitsFour h lead
  match more with
  | [] => grind [firstChunk, Chunk.lenient]
  | [_] => grind [firstChunk, Chunk.lenient]
  | [_, _] => grind [firstChunk, Chunk.lenient]
  | _ :: _ :: _ :: _ => grind [firstChunk, Chunk.lenient]

theorem decodeLenient_eq (bytes : Bytes) :
    decodeLenient bytes =
      String.ofList ((chunks bytes).map Chunk.lenient) :=
  rfl

/- Octets behind one of ASCII are read apart. -/
theorem decodeLenient_append
    {b : UInt8}
    (h : b < 0x80)
    (bytes rest : Bytes) :
    decodeLenient (bytes ++ b :: rest) =
      decodeLenient bytes ++ decodeLenient (b :: rest) := by
  have hChunks :
      (chunks (bytes ++ b :: rest)).map Chunk.lenient =
        (chunks bytes).map Chunk.lenient ++
          (chunks (b :: rest)).map Chunk.lenient := by
    fun_induction chunks bytes with
    | case1 => rfl
    | case2 lead more chunk size hChunk ih =>
        rcases firstChunk_append h lead more rest with
          ⟨hSame, hSize, hLength⟩
        rw [hChunk] at hSame hSize hLength
        rw [List.cons_append, chunks, List.map_cons,
          List.map_cons, hSame, hSize,
          List.drop_append_of_le_length hLength, ih]
        rfl
  rw [decodeLenient_eq, decodeLenient_eq, decodeLenient_eq,
    hChunks, String.ofList_append]

end Text

end ServiceCalls
