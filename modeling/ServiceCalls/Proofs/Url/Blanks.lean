import ServiceCalls.Proofs.Text.Octets
import ServiceCalls.Proofs.Url.Authority

/-
  Blanks after a host.

  A host with blanks at its end is refused, or is another
  host.  An authority is the same with blanks behind it only
  if something comes in between.

  Key definitions include:
    * `Url.Blanks`

  Main declarations:
    * `Host.parseSpecial_blanks`
    * `Host.parsePlain_blanks`
    * `Url.parseAuthority_blanks`
-/

namespace ServiceCalls

namespace Url

/- A run of blanks. -/
structure Blanks (blanks : List Char) : Prop where
  some : blanks ≠ []
  outer : ∀ c ∈ blanks, isOuterBlank c = true

end Url

namespace Host

theorem toNat_le_of_isOuterBlank
    {c : Char}
    (h : Url.isOuterBlank c = true) :
    c.toNat ≤ 32 := by
  unfold Url.isOuterBlank at h
  exact of_decide_eq_true h

theorem ne_of_isOuterBlank
    {c d : Char}
    (h : Url.isOuterBlank c = true)
    (hd : 32 < d.toNat) :
    c ≠ d := by
  intro hSame
  subst hSame
  have hLe := toNat_le_of_isOuterBlank h
  omega

theorem hexValue?_of_isOuterBlank
    {c : Char}
    (h : Url.isOuterBlank c = true) :
    Text.hexValue? c = none := by
  have hLe := toNat_le_of_isOuterBlank h
  have hBelow (d : Char) (hd : 32 < d.toNat) : ¬d ≤ c := by
    intro hLess
    have hNat : d.toNat ≤ c.toNat := hLess
    omega
  unfold Text.hexValue?
  rw [if_neg (fun hRange => hBelow '0' (by decide) hRange.1),
    if_neg (fun hRange => hBelow 'A' (by decide) hRange.1),
    if_neg (fun hRange => hBelow 'a' (by decide) hRange.1)]

theorem staysForbidden_of_isOuterBlank
    {c : Char}
    (h : Url.isOuterBlank c = true) :
    staysForbidden c = true := by
  have hLe := toNat_le_of_isOuterBlank h
  have hAll :
      ∀ n < 33, staysForbidden (Char.ofNat n) = true := by
    decide
  rw [← Char.ofNat_toNat c]
  exact hAll c.toNat (by omega)

/- A last blank is an octet of its own. -/
theorem getLast?_encodeChars
    {c : Char}
    (h : Url.isOuterBlank c = true)
    (text : List Char) :
    ∃ b : UInt8, Char.ofNat b.toNat = c ∧ b < 0x80 ∧
      (Text.encodeChars (text ++ [c])).getLast? =
        some b := by
  have hLe := toNat_le_of_isOuterBlank h
  have hNat : (UInt8.ofNat c.toNat).toNat = c.toNat :=
    Nat.mod_eq_of_lt (by omega)
  have hChar :
      Char.ofNat (UInt8.ofNat c.toNat).toNat = c := by
    rw [hNat]
    exact Char.ofNat_toNat c
  have hAscii : UInt8.ofNat c.toNat < 0x80 := by
    change (UInt8.ofNat c.toNat).toNat < 128
    omega
  refine ⟨UInt8.ofNat c.toNat, hChar, hAscii, ?_⟩
  have hOctet := Text.utf8EncodeChar_ofNat hAscii
  rw [hChar] at hOctet
  unfold Text.encodeChars
  rw [List.flatMap_append, List.flatMap_singleton, hOctet,
    List.getLast?_concat]

/- An address in brackets ends with one. -/
theorem parseBracketed_blanks
    {text blanks : List Char}
    (hBlanks : Url.Blanks blanks)
    (hHead : (text ++ blanks).head? = some '[') :
    parseBracketed (text ++ blanks) =
      .error .invalidIpv6 := by
  cases hText : text ++ blanks with
  | nil =>
      rw [hText] at hHead
      cases hHead
  | cons c rest =>
      rw [hText] at hHead
      cases hHead
      have hLast := congrArg List.getLast? hText
      rw [List.getLast?_append,
        List.getLast?_eq_some_getLast hBlanks.some,
        Option.some_or] at hLast
      have hOuter :=
        hBlanks.outer _ (List.getLast_mem hBlanks.some)
      unfold parseBracketed
      refine if_neg ?_
      intro hBracket
      have hNot : rest ≠ [] := by
        intro hNone
        subst hNone
        cases hBracket
      rw [List.getLast?_cons_of_ne_nil hNot, hBracket]
        at hLast
      exact ne_of_isOuterBlank hOuter (by decide)
        (Option.some.inj hLast)

/- The host of a special scheme holds no blank at its end. -/
theorem parseSpecial_blanks
    [DomainNames]
    {blanks : List Char}
    (hBlanks : Url.Blanks blanks)
    (text : List Char) :
    ∃ error, parseSpecial (text ++ blanks) =
      .error error := by
  by_cases hHead : (text ++ blanks).head? = some '['
  · unfold parseSpecial
    rw [if_pos hHead]
    exact ⟨_, parseBracketed_blanks hBlanks hHead⟩
  · have hOuter :=
      hBlanks.outer _ (List.getLast_mem hBlanks.some)
    rcases getLast?_encodeChars hOuter
      (text ++ blanks.dropLast) with
      ⟨b, hChar, hAscii, hLast⟩
    rw [List.append_assoc,
      List.dropLast_concat_getLast hBlanks.some] at hLast
    cases hDecode : Text.decode? (Text.percentDecode
        (Text.encodeChars (text ++ blanks))) with
    | none => exact ⟨_, parseSpecial_of_undecoded hHead hDecode⟩
    | some decoded =>
        have hMem := Text.mem_of_decode? hAscii
          (Text.mem_percentDecode
            (by rw [hChar]
                exact hexValue?_of_isOuterBlank hOuter)
            hLast) hDecode
        rw [hChar] at hMem
        exact ⟨_, parseSpecial_of_forbidden hHead hDecode hMem
          (staysForbidden_of_isOuterBlank hOuter)⟩

theorem escapeChars_ne_nil
    {text : List Char}
    (h : text ≠ [])
    (escaped : Char → Bool) :
    Text.escapeChars escaped text ≠ [] := by
  cases text with
  | nil => exact absurd rfl h
  | cons c rest =>
      intro hNone
      unfold Text.escapeChars at hNone
      rw [List.flatMap_cons] at hNone
      have hFirst := (List.append_eq_nil_iff.1 hNone).1
      split at hFirst
      · rw [List.flatMap_eq_nil_iff] at hFirst
        rcases List.exists_mem_of_ne_nil _
          (String.utf8EncodeChar_ne_nil (c := c)) with
          ⟨b, hMem⟩
        cases hFirst b hMem
      · cases hFirst

/- Any other host with a blank at its end is another one. -/
theorem parsePlain_blanks
    {text blanks : List Char}
    (hBlanks : Url.Blanks blanks)
    {other : Host}
    (hOther : parsePlain (text ++ blanks) = .ok other) :
    other ≠ .empty ∧
      ∀ host, parsePlain text = .ok host → other ≠ host := by
  unfold parsePlain at hOther
  split at hOther
  · next hHead =>
      rw [parseBracketed_blanks hBlanks hHead] at hOther
      cases hOther
  · next hHead =>
      split at hOther
      · cases hOther
      · split at hOther
        · next hEmpty =>
            rw [List.isEmpty_iff] at hEmpty
            exact absurd (List.append_eq_nil_iff.1 hEmpty).2
              hBlanks.some
        · cases hOther
          refine ⟨nofun, ?_⟩
          intro host hHost
          unfold parsePlain at hHost
          split at hHost
          · next hFirst =>
              rw [List.head?_append, hFirst] at hHead
              exact absurd rfl hHead
          · split at hHost
            · cases hHost
            · split at hHost
              · cases hHost
                exact nofun
              · cases hHost
                intro hSame
                have hText := String.ofList_injective
                  (Host.name.inj hSame)
                rw [Text.escapeChars_append,
                  List.append_right_eq_self] at hText
                exact escapeChars_ne_nil hBlanks.some _
                  hText

end Host

namespace Url

------------------------------------------------------------
-- Authorities
------------------------------------------------------------

theorem Blanks.inside
    {blanks : List Char}
    (h : Blanks blanks)
    (special : Bool) :
    Inside special blanks := by
  intro c hMem
  have hOuter := h.outer c hMem
  have hNe (d : Char) (hd : 32 < d.toNat) :
      (c == d) = false :=
    beq_false_of_ne (Host.ne_of_isOuterBlank hOuter hd)
  unfold endsAuthority
  rw [hNe '/' (by decide), hNe '?' (by decide),
    hNe '#' (by decide), hNe '\\' (by decide),
    Bool.and_false]
  rfl

/- Blanks are part of a host that does not stop before. -/
theorem Blanks.hostLength
    {special : Bool}
    {blanks rest : List Char}
    (hOuter : ∀ c ∈ blanks, isOuterBlank c = true)
    (hInside : Inside special blanks)
    (hRest : Ends special rest)
    (bracketed : Bool) :
    Url.hostLength special bracketed (blanks ++ rest) =
      blanks.length := by
  induction blanks with
  | nil => exact hostLength_ends hRest bracketed
  | cons c more ih =>
      have hFirst := hOuter c List.mem_cons_self
      have hNe (d : Char) (hd : 32 < d.toNat) :
          (c == d) = false :=
        beq_false_of_ne (Host.ne_of_isOuterBlank hFirst hd)
      have hMore := ih
        (fun d hMem => hOuter d (List.mem_cons_of_mem _ hMem))
        (fun d hMem =>
          hInside d (List.mem_cons_of_mem _ hMem))
      rw [List.cons_append, List.length_cons]
      unfold Url.hostLength
      rw [hInside c List.mem_cons_self, hNe ':' (by decide),
        hNe '[' (by decide), hNe ']' (by decide)]
      simp only [Bool.false_and, Bool.or_false,
        Bool.false_eq_true, if_false]
      rw [hMore, Nat.add_comm]

/- A host that stops within an authority stops at a colon. -/
theorem head?_drop_hostLength
    {special : Bool}
    {bracketed : Bool}
    {text : List Char}
    (hText : Inside special text)
    (h : hostLength special bracketed text < text.length) :
    (text.drop (hostLength special bracketed text)).head? =
      some ':' := by
  induction text generalizing bracketed with
  | nil => exact absurd h (Nat.lt_irrefl 0)
  | cons c more ih =>
      have hMore : Inside special more :=
        fun d hMem => hText d (List.mem_cons_of_mem _ hMem)
      unfold hostLength at h ⊢
      split
      · next hStops =>
          rw [hText c List.mem_cons_self, Bool.or_false,
            Bool.and_eq_true, beq_iff_eq] at hStops
          rw [List.drop_zero, List.head?_cons, hStops.1]
      · next hGoes =>
          rw [if_neg hGoes, List.length_cons] at h
          rw [Nat.add_comm, List.drop_succ_cons]
          apply ih hMore
          omega

/- A port with blanks at its end is none. -/
theorem parsePort_blanks
    {c : Char}
    (hOuter : isOuterBlank c = true)
    (sofar : Option Nat)
    (digits rest : List Char) :
    parsePort sofar (digits ++ c :: rest) =
      parsePort sofar digits >>= fun (port, left) =>
        if left = [] then .error .invalidPort
        else .ok (port, left ++ c :: rest) := by
  induction digits generalizing sofar with
  | nil =>
      have hLe := Host.toNat_le_of_isOuterBlank hOuter
      have hAll :
          ∀ n < 33, (Char.ofNat n).isDigit = false ∧
            "/\\?#".toList.contains (Char.ofNat n) =
              false := by
        decide
      have hBlank := hAll c.toNat (by omega)
      rw [Char.ofNat_toNat] at hBlank
      rw [List.nil_append]
      unfold parsePort
      rw [if_neg (by simp [hBlank.1]),
        if_neg (by rw [hBlank.2]; exact Bool.false_ne_true)]
      rfl
  | cons d more ih =>
      rw [List.cons_append]
      unfold parsePort
      split
      · dsimp only
        split
        · rfl
        · exact ih _
      · split
        · rfl
        · rfl

theorem hostOf_blanks
    [DomainNames]
    {scheme : String}
    {text blanks : List Char}
    (hBlanks : Blanks blanks)
    {other : Host}
    (hOther : hostOf scheme (text ++ blanks) = .ok other) :
    isSpecial scheme = false ∧
      other ≠ .empty ∧
      ∀ host, hostOf scheme text = .ok host →
        other ≠ host := by
  unfold hostOf at hOther ⊢
  cases hSpecial : isSpecial scheme with
  | true =>
      rw [hSpecial, if_pos rfl] at hOther
      rcases Host.parseSpecial_blanks hBlanks text
        with ⟨error, hError⟩
      split at hOther
      · cases hOther
      · rw [hError] at hOther
        cases hOther
  | false =>
      rw [hSpecial, if_neg Bool.false_ne_true] at hOther
      exact ⟨rfl, Host.parsePlain_blanks hBlanks hOther⟩

/- A host that a port follows is read before all else. -/
theorem readHost_append_of_lt
    [DomainNames]
    {scheme : String}
    {text : List Char}
    (hText : Inside (isSpecial scheme) text)
    (hLess :
      hostLength (isSpecial scheme) false text <
        text.length)
    {more left : List Char}
    {host : Host}
    (h : readHost scheme (text ++ more) = .ok (host, left)) :
    ∃ digits,
      readHost scheme text = .ok (host, ':' :: digits) ∧
      left = ':' :: digits ++ more := by
  have hHead := head?_drop_hostLength hText hLess
  rcases List.head?_eq_some_iff.mp hHead with
    ⟨digits, hDigits⟩
  have hLe := Nat.le_of_lt hLess
  unfold readHost at h ⊢
  dsimp only at h ⊢
  rw [hostLength_append_of_lt hLess,
    List.take_append_of_le_length hLe,
    List.drop_append_of_le_length hLe, hDigits] at h
  rw [hDigits]
  rcases Fallible.bind_eq_ok h with ⟨found, hFound, hRest⟩
  rw [hFound]
  split at hRest
  · cases hRest
  · next hNot =>
      cases hRest
      exact ⟨digits, if_neg hNot, rfl⟩

/-
  Blanks after an authority do not matter when something
  comes between it and them; else they are taken for part of
  the host.
-/
theorem parseAuthority_blanks
    [DomainNames]
    {scheme : String}
    {text blanks rest : List Char}
    (hText : Inside (isSpecial scheme) text)
    (hBlanks : Blanks blanks)
    (hRest : Ends (isSpecial scheme) rest)
    {other : Authority}
    {after : List Char}
    (hOther :
      parseAuthority scheme (text ++ (blanks ++ rest)) =
        .ok (other, after)) :
    (∃ left,
      left ≠ [] ∧
      parseAuthority scheme text = .ok (other, left) ∧
      after = left ++ (blanks ++ rest)) ∨
      (isSpecial scheme = false ∧
        after = rest ∧
        other.host ≠ .empty ∧
        ∀ authority left,
          parseAuthority scheme text =
              .ok (authority, left) →
            left = [] ∧ other.host ≠ authority.host) := by
  have hAt : '@' ∉ blanks := fun hMem =>
    Host.ne_of_isOuterBlank (hBlanks.outer _ hMem)
      (by decide) rfl
  have hUser := splitUser_append hText (.inr hBlanks.some)
    (hBlanks.inside _) hAt hRest
  rw [parseAuthority_eq, hUser] at hOther
  cases hSplit : splitUser (isSpecial scheme) text with
  | error error =>
      rw [hSplit] at hOther
      cases hOther
  | ok parts =>
      rcases parts with ⟨user, named⟩
      rw [hSplit] at hOther
      change (readHost scheme (named ++ (blanks ++ rest)) >>=
        _) = _ at hOther
      rcases Fallible.bind_eq_ok hOther with
        ⟨⟨host, ported⟩, hHostRead, hPortRead⟩
      dsimp only at hPortRead
      have hInside := inside_of_splitUser hText hSplit
      have hAlone :
          parseAuthority scheme text =
            readHost scheme named >>= fun found =>
              readPort scheme user found.1 found.2 := by
        rw [parseAuthority_eq, hSplit]
        rfl
      rw [hAlone]
      have hLe := hostLength_le (isSpecial scheme) false named
      rcases Nat.lt_or_eq_of_le hLe with hLess | hSame
      · refine .inl ?_
        rcases readHost_append_of_lt hInside hLess hHostRead
          with ⟨digits, hNamedRead, hPorted⟩
        rw [hNamedRead]
        subst hPorted
        cases blanks with
        | nil => exact absurd rfl hBlanks.some
        | cons blank more =>
            have hOuter :=
              hBlanks.outer blank List.mem_cons_self
            rcases Fallible.bind_eq_ok hPortRead with
              ⟨⟨port, left⟩, hPort, hFinish⟩
            change parsePort none
              (digits ++ blank :: (more ++ rest)) = _ at hPort
            rw [parsePort_blanks hOuter] at hPort
            rcases Fallible.bind_eq_ok hPort with
              ⟨⟨found, kept⟩, hDigits, hKept⟩
            dsimp only at hKept hFinish
            split at hKept
            · cases hKept
            · next hSome =>
                cases hKept
                split at hFinish
                · cases hFinish
                · next hUserless =>
                    cases hFinish
                    refine ⟨kept, hSome, ?_, rfl⟩
                    change (parsePort none digits >>= _) = _
                    rw [hDigits]
                    exact if_neg hUserless
      · refine .inr ?_
        rcases hostLength_append_of_eq hSame (blanks ++ rest)
          with ⟨inside, hLength⟩
        rw [Blanks.hostLength hBlanks.outer
          (hBlanks.inside _) hRest, ← List.length_append]
          at hLength
        rcases of_readHost hHostRead with ⟨hOf, hPorted⟩
        rw [hLength, ← List.append_assoc, List.take_left]
          at hOf
        rw [hLength, ← List.append_assoc, List.drop_left]
          at hPorted
        subst hPorted
        rcases of_readPort hPortRead with
          ⟨port, hPort, hAuthority⟩
        have hColon : ported.head? ≠ some ':' := by
          intro hHead
          have hEnd := hRest ':' hHead
          generalize isSpecial scheme = special at hEnd
          cases special <;> cases hEnd
        rw [portOf_other hColon] at hPort
        cases hPort
        rcases hostOf_blanks hBlanks hOf with
          ⟨hSpecial, hSome, hOthers⟩
        rw [hAuthority]
        refine ⟨hSpecial, rfl, hSome, ?_⟩
        intro authority left hRead
        rcases Fallible.bind_eq_ok hRead with
          ⟨⟨found, more⟩, hFound, hMore⟩
        rcases of_readHost hFound with ⟨hNamedOf, hLeft⟩
        rw [hSame, List.take_length] at hNamedOf
        rw [hSame, List.drop_length] at hLeft
        subst hLeft
        rcases of_readPort hMore with ⟨_, hNone, hFoundHost⟩
        cases hNone
        rw [hFoundHost]
        exact ⟨rfl, hOthers found hNamedOf⟩

/- Blanks that nothing comes behind. -/
theorem parseAuthority_last_blanks
    [DomainNames]
    {scheme : String}
    {text blanks : List Char}
    (hText : Inside (isSpecial scheme) text)
    (hBlanks : Blanks blanks)
    {other : Authority}
    {after : List Char}
    (hOther :
      parseAuthority scheme (text ++ blanks) =
        .ok (other, after)) :
    (∃ left,
      left ≠ [] ∧
      parseAuthority scheme text = .ok (other, left) ∧
      after = left ++ blanks) ∨
      (isSpecial scheme = false ∧
        after = [] ∧
        other.host ≠ .empty ∧
        ∀ authority left,
          parseAuthority scheme text =
              .ok (authority, left) →
            left = [] ∧ other.host ≠ authority.host) := by
  rw [← List.append_nil blanks] at hOther
  have hCases :=
    parseAuthority_blanks hText hBlanks Text.stops_nil hOther
  rw [List.append_nil] at hCases
  exact hCases

end Url

end ServiceCalls
