import ServiceCalls.Proofs.Text.Percent
import ServiceCalls.Proofs.Url.Authority
import ServiceCalls.Proofs.Url.Segments

/-
  Texts that are read as hosts.

  A name that is accepted holds no character that none may
  hold, and an address in brackets ends at its bracket.  So
  a reader that looks for the end of a host takes all of it,
  whatever follows.

  Key definitions include:
    * `Host.IsAddress`

  Main declarations:
    * `Host.not_mem_of_parseSpecial`
    * `Host.exists_address`
    * `Host.parseSpecial_ne_empty`
    * `Host.hostLength_of_parseSpecial`
-/

namespace ServiceCalls

------------------------------------------------------------
-- Octets That Are Kept
------------------------------------------------------------

/- An octet that percent form has no use for is kept. -/
theorem Text.mem_percentDecode_of_mem
    {b : UInt8}
    (hSign : b ≠ 0x25)
    (hDigit : hexValue? (Char.ofNat b.toNat) = none)
    {bytes : Bytes}
    (hMem : b ∈ bytes) :
    b ∈ percentDecode bytes := by
  fun_induction percentDecode bytes with
  | case1 => cases hMem
  | case2 high low rest h l hLow hHigh ih =>
      have hOther (d : UInt8)
          (hSome : (hexValue? (Char.ofNat d.toNat)).isSome) :
          b ≠ d := by
        intro hSame
        rw [← hSame, hDigit] at hSome
        cases hSome
      simp only [List.mem_cons] at hMem
      rcases hMem with hFirst | hSecond | hThird | hRest
      · exact absurd hFirst hSign
      · exact absurd hSecond (hOther high (by rw [hHigh]; rfl))
      · exact absurd hThird (hOther low (by rw [hLow]; rfl))
      · exact List.mem_cons_of_mem _ (ih hRest)
  | case3 high low rest hNot ih =>
      rcases List.mem_cons.mp hMem with hFirst | hRest
      · exact absurd hFirst hSign
      · exact List.mem_cons_of_mem _ (ih hRest)
  | case4 first rest hNot ih =>
      rcases List.mem_cons.mp hMem with hFirst | hRest
      · rw [hFirst]
        exact List.mem_cons_self
      · exact List.mem_cons_of_mem _ (ih hRest)

namespace Host

------------------------------------------------------------
-- Names
------------------------------------------------------------

/- What no domain holds is in no text of a domain. -/
theorem not_mem_of_parseSpecial
    [DomainNames]
    {c : Char}
    (hAscii : c.toNat < 128)
    (hSign : c ≠ '%')
    (hDigit : Text.hexValue? c = none)
    (hForbidden : staysForbidden c = true)
    {text : List Char}
    (hHead : text.head? ≠ some '[')
    {host : Host}
    (h : parseSpecial text = .ok host) :
    c ∉ text := by
  intro hMem
  have hNat :
      (UInt8.ofNat c.toNat).toNat = c.toNat :=
    Nat.mod_eq_of_lt (by omega)
  have hChar :
      Char.ofNat (UInt8.ofNat c.toNat).toNat = c := by
    rw [hNat]
    exact Char.ofNat_toNat c
  have hOctet :
      UInt8.ofNat c.toNat ∈ Text.encodeChars text := by
    unfold Text.encodeChars
    refine List.mem_flatMap.mpr ⟨c, hMem, ?_⟩
    rw [Text.utf8EncodeChar_of_lt hAscii]
    exact List.mem_singleton_self _
  have hKept := Text.mem_percentDecode_of_mem
    (by
      intro hSame
      rw [hSame] at hChar
      exact hSign hChar.symm)
    (by rw [hChar]; exact hDigit) hOctet
  cases hDecode :
      Text.decode? (Text.percentDecode
        (Text.encodeChars text)) with
  | none =>
      rw [parseSpecial_of_undecoded hHead hDecode] at h
      cases h
  | some decoded =>
      have hLow : UInt8.ofNat c.toNat < 0x80 := by
        change (UInt8.ofNat c.toNat).toNat < 128
        omega
      have hText := Text.mem_of_decode? hLow hKept hDecode
      rw [hChar] at hText
      rw [parseSpecial_of_forbidden hHead hDecode hText
        hForbidden] at h
      cases h

------------------------------------------------------------
-- Addresses in Brackets
------------------------------------------------------------

/- Digits, points and colons. -/
def isAddressChar (c : Char) : Bool :=
  (Text.hexValue? c).isSome || c == '.' || c == ':'

/- A text of characters of addresses. -/
def IsAddress (text : List Char) : Prop :=
  ∀ c ∈ text, isAddressChar c = true

theorem isAddress_nil : IsAddress [] :=
  fun _ hMem => absurd hMem List.not_mem_nil

theorem IsAddress.append
    {front rest : List Char}
    (hFront : IsAddress front)
    (hRest : IsAddress rest) :
    IsAddress (front ++ rest) := by
  intro c hMem
  rcases List.mem_append.mp hMem with hFirst | hSecond
  · exact hFront c hFirst
  · exact hRest c hSecond

/- Pieces and what separates them make up a text. -/
theorem isAddress_of_splitAll
    {separator : Char}
    (hSeparator : isAddressChar separator = true)
    {text : List Char}
    (h :
      ∀ piece ∈ Text.splitAll separator text,
        IsAddress piece) :
    IsAddress text := by
  unfold Text.splitAll at h
  induction text with
  | nil => exact isAddress_nil
  | cons c rest ih =>
      unfold IsAddress
      rw [List.forall_mem_cons]
      rcases Text.exists_splitBy (· == separator) rest with
        ⟨piece, pieces, hRest⟩
      cases hSame : c == separator with
      | true =>
          rw [Text.splitBy_cons_separator
            (p := (· == separator)) hSame,
            List.forall_mem_cons] at h
          rw [beq_iff_eq.mp hSame]
          exact ⟨hSeparator, ih h.2⟩
      | false =>
          rw [Text.splitBy_cons
            (p := (· == separator)) hSame hRest,
            List.forall_mem_cons] at h
          rcases List.forall_mem_cons.mp h.1 with
            ⟨hFirst, hPiece⟩
          refine ⟨hFirst, ih ?_⟩
          rw [hRest, List.forall_mem_cons]
          exact ⟨hPiece, h.2⟩

/- A number has only digits, whatever came before it. -/
theorem isAddress_of_foldl
    {base : Nat}
    {digits : List Char}
    {sofar : Option Nat}
    (h :
      (digits.foldl (fun sofar c =>
        sofar.bind fun n =>
          (Text.hexValue? c).bind fun d =>
            if d < base then some (n * base + d) else none)
        sofar).isSome) :
    sofar.isSome ∧ IsAddress digits := by
  induction digits generalizing sofar with
  | nil => exact ⟨h, isAddress_nil⟩
  | cons c rest ih =>
      rcases ih h with ⟨hStep, hRest⟩
      cases sofar with
      | none => cases hStep
      | some n =>
          cases hValue : Text.hexValue? c with
          | none => simp [hValue] at hStep
          | some d =>
              refine ⟨rfl, ?_⟩
              unfold IsAddress
              rw [List.forall_mem_cons]
              refine ⟨?_, hRest⟩
              simp [isAddressChar, hValue]

theorem isAddress_of_number?
    {base n : Nat}
    {digits : List Char}
    (h : number? base digits = some n) :
    IsAddress digits := by
  unfold number? at h
  exact (isAddress_of_foldl (by rw [h]; rfl)).2

theorem isAddress_of_group?
    {digits : List Char}
    {n : Nat}
    (h : group? digits = some n) :
    IsAddress digits := by
  unfold group? at h
  split at h
  · cases h
  · exact isAddress_of_number? h

theorem isAddress_of_octet?
    {digits : List Char}
    {n : Nat}
    (h : octet? digits = some n) :
    IsAddress digits := by
  unfold octet? at h
  split at h
  · cases h
  · cases h
  · split at h
    · rcases Option.filter_eq_some_iff.mp h with
        ⟨hNumber, _⟩
      exact isAddress_of_number? hNumber
    · cases h

theorem isAddress_of_octets
    {pieces : List (List Char)}
    {numbers : List Nat}
    (h : pieces.mapM octet? = some numbers) :
    ∀ piece ∈ pieces, IsAddress piece := by
  induction pieces generalizing numbers with
  | nil => exact fun _ hMem => absurd hMem List.not_mem_nil
  | cons first rest ih =>
      rw [List.mapM_cons] at h
      rcases Option.bind_eq_some_iff.mp h with
        ⟨n, hFirst, hMore⟩
      rcases Option.bind_eq_some_iff.mp hMore with
        ⟨ns, hRest, _⟩
      rw [List.forall_mem_cons]
      exact ⟨isAddress_of_octet? hFirst, ih hRest⟩

theorem isAddress_of_dotted?
    {digits : List Char}
    {numbers : List Nat}
    (h : dotted? digits = some numbers) :
    IsAddress digits := by
  unfold dotted? at h
  split at h
  · next a b c d hOctets =>
      have hDot : isAddressChar '.' = true := rfl
      exact isAddress_of_splitAll hDot
        (isAddress_of_octets hOctets)
  · cases h

theorem isAddress_of_groups?
    {pieces : List (List Char)}
    {numbers : List Nat}
    (h : groups? pieces = some numbers) :
    ∀ piece ∈ pieces, IsAddress piece := by
  fun_induction groups? pieces generalizing numbers with
  | case1 => exact fun _ hMem => absurd hMem List.not_mem_nil
  | case2 last n hGroup =>
      intro piece hMem
      rw [List.mem_singleton.mp hMem]
      exact isAddress_of_group? hGroup
  | case3 last hNone =>
      intro piece hMem
      rw [List.mem_singleton.mp hMem]
      exact isAddress_of_dotted? h
  | case4 first rest hRest ih =>
      rcases Option.bind_eq_some_iff.mp h with
        ⟨n, hFirst, hMore⟩
      rcases Option.bind_eq_some_iff.mp hMore with
        ⟨ns, hNext, _⟩
      rw [List.forall_mem_cons]
      exact ⟨isAddress_of_group? hFirst, ih hNext⟩

theorem isAddress_of_side?
    {text : List Char}
    {numbers : List Nat}
    (h : side? text = some numbers) :
    IsAddress text := by
  unfold side? at h
  split at h
  · next hNone =>
      rw [List.isEmpty_iff.mp hNone]
      exact isAddress_nil
  · have hColon : isAddressChar ':' = true := rfl
    exact isAddress_of_splitAll hColon
      (isAddress_of_groups? h)

theorem isAddress_of_ipv6?
    {text : List Char}
    {numbers : List Nat}
    (h : ipv6? text = some numbers) :
    IsAddress text := by
  unfold ipv6? at h
  split at h
  · rcases Option.filter_eq_some_iff.mp h with ⟨hSide, _⟩
    exact isAddress_of_side? hSide
  · next before after hSplit =>
      rcases Option.bind_eq_some_iff.mp h with
        ⟨high, hHigh, hMore⟩
      rcases Option.bind_eq_some_iff.mp hMore with
        ⟨low, hLow, _⟩
      have hColons : IsAddress "::".toList :=
        List.all_eq_true.mp (by decide)
      rw [Text.append_of_splitOnce hSplit]
      exact ((isAddress_of_side? hHigh).append hColons).append
        (isAddress_of_side? hLow)

/- What is in brackets is an address. -/
theorem exists_address
    {text : List Char}
    {host : Host}
    (h : parseBracketed text = .ok host) :
    ∃ address,
      text = '[' :: (address ++ [']']) ∧
        IsAddress address := by
  unfold parseBracketed at h
  split at h
  · next rest =>
      split at h
      · next hLast =>
          rcases List.getLast?_eq_some_iff.mp hLast with
            ⟨address, hAddress⟩
          rw [hAddress, List.dropLast_concat] at h
          split at h
          · next pieces hPieces =>
              rw [hAddress]
              exact ⟨address, rfl, isAddress_of_ipv6? hPieces⟩
          · cases h
      · cases h
  · cases h

theorem parseSpecial_nil [DomainNames] :
    parseSpecial [] = .error .emptyHost := by
  have hDecode :
      Text.decode? (Text.percentDecode
        (Text.encodeChars [])) = some "" := by
    simp [Text.encodeChars, Text.percentDecode, Text.decode?,
      Text.decode, Text.chunks, Text.collect, Except.map,
      Except.toOption]
  unfold parseSpecial
  rw [if_neg (by decide), hDecode]
  rfl

theorem parseSpecial_ne_empty
    [DomainNames]
    {text : List Char}
    {host : Host}
    (h : parseSpecial text = .ok host) :
    host ≠ .empty := by
  intro hEmpty
  subst hEmpty
  unfold parseSpecial at h
  split at h
  · unfold parseBracketed at h
    split at h
    · split at h
      · split at h <;> cases h
      · cases h
    · cases h
  · dsimp only at h
    split at h
    · cases h
    · split at h
      · cases h
      · split at h
        · cases h
        · split at h
          · rcases Fallible.map_eq_ok h with
              ⟨address, _, hSame⟩
            cases hSame
          · cases h

------------------------------------------------------------
-- Ends of Hosts
------------------------------------------------------------

/- A host outside of brackets goes on up to a colon. -/
theorem hostLength_name
    {special : Bool}
    {text : List Char}
    (hInside : Url.Inside special text)
    (hColon : ':' ∉ text)
    (hBracket : '[' ∉ text)
    (rest : List Char) :
    Url.hostLength special false (text ++ rest) =
      text.length + Url.hostLength special false rest := by
  induction text with
  | nil => simp
  | cons c more ih =>
      rw [List.mem_cons, not_or] at hColon hBracket
      have hMore := ih
        (fun d hMem => hInside d (List.mem_cons_of_mem _ hMem))
        hColon.2 hBracket.2
      have hEnds := hInside c List.mem_cons_self
      have hNoColon : (c == ':') = false :=
        beq_false_of_ne (Ne.symm hColon.1)
      have hNoBracket : (c == '[') = false :=
        beq_false_of_ne (Ne.symm hBracket.1)
      rw [List.cons_append, Url.hostLength]
      simp [hEnds, hNoColon, hNoBracket, hMore]
      omega

/- A host in brackets goes on up to the closing one. -/
theorem hostLength_brackets
    {special : Bool}
    {text : List Char}
    (hInside : Url.Inside special text)
    (hBracket : ']' ∉ text)
    (rest : List Char) :
    Url.hostLength special true (text ++ ']' :: rest) =
      text.length + 1 +
        Url.hostLength special false rest := by
  induction text with
  | nil =>
      cases special <;>
        simp [Url.hostLength, Url.endsAuthority]
  | cons c more ih =>
      rw [List.mem_cons, not_or] at hBracket
      have hMore := ih
        (fun d hMem => hInside d (List.mem_cons_of_mem _ hMem))
        hBracket.2
      have hEnds := hInside c List.mem_cons_self
      have hNoBracket : (c == ']') = false :=
        beq_false_of_ne (Ne.symm hBracket.1)
      rw [List.cons_append, Url.hostLength]
      simp [hEnds, hNoBracket, hMore]
      omega

/- An accepted host is read as far as it goes. -/
theorem hostLength_of_parseSpecial
    [DomainNames]
    {special : Bool}
    {text : List Char}
    (hInside : Url.Inside special text)
    {host : Host}
    (h : parseSpecial text = .ok host)
    {rest : List Char}
    (hRest : ∀ c, rest.head? = some c → c = ':') :
    Url.hostLength special false (text ++ rest) =
      text.length := by
  have hStop : Url.hostLength special false rest = 0 := by
    cases rest with
    | nil => rfl
    | cons c more =>
        rw [hRest c rfl]
        rfl
  by_cases hHead : text.head? = some '['
  · have hAddress := h
    unfold parseSpecial at hAddress
    rw [if_pos hHead] at hAddress
    rcases exists_address hAddress with
      ⟨address, hText, hPlain⟩
    have hBracket : ']' ∉ address := by
      intro hMem
      exact absurd (hPlain _ hMem) (by decide)
    have hWithin : Url.Inside special address := by
      intro c hMem
      apply hInside
      rw [hText]
      simp [hMem]
    have hLength :=
      hostLength_brackets hWithin hBracket rest
    have hOpens :
        Url.hostLength special false
            ('[' :: (address ++ ']' :: rest)) =
          1 + Url.hostLength special true
            (address ++ ']' :: rest) := by
      cases special <;> rfl
    rw [hText, List.cons_append, List.append_assoc]
    change Url.hostLength special false
      ('[' :: (address ++ ']' :: rest)) = _
    rw [hOpens, hLength, hStop]
    simp
    omega
  · have hColon : ':' ∉ text :=
      not_mem_of_parseSpecial (by decide) (by decide)
        (by decide) (by decide) hHead h
    have hBracket : '[' ∉ text :=
      not_mem_of_parseSpecial (by decide) (by decide)
        (by decide) (by decide) hHead h
    rw [hostLength_name hInside hColon hBracket, hStop,
      Nat.add_zero]

end Host

end ServiceCalls
