import ServiceCalls.Proofs.Url.PathReading

/-
  URLs of texts that end in blanks.

  Blanks at the end of a text are no part of its URL, and
  are part of the URL when something follows them.  They
  come to be in its host, in its path or in its query, so
  that it is another URL.

  Main declarations:
    * `Url.formDecode_blanks_ne`
    * `Url.path_ne_of_blanks`
    * `Url.path_ne_of_lost`
    * `Url.path_ne_of_gained`
    * `Url.path_ne_of_question`
    * `Url.pairs_ne_of_and`
-/

namespace ServiceCalls

namespace Url

------------------------------------------------------------
-- Queries
------------------------------------------------------------

/- Blanks take percent form in a query. -/
theorem Blanks.escapeChars
    {blanks : List Char}
    (h : Blanks blanks)
    (special : Bool) :
    Text.escapeChars (escapedInQuery special) blanks =
      Text.encodeComponent blanks := by
  have hAll :
      ∀ n < 33,
        escapedInQuery special (Char.ofNat n) = true ∧
          Text.isUnreserved (UInt8.ofNat n) = false := by
    cases special <;> decide
  unfold Text.escapeChars Text.encodeComponent
    Text.percentEncode Text.encodeChars
  rw [List.flatMap_assoc, List.flatMap_def,
    List.flatMap_def]
  congr 1
  apply List.map_congr_left
  intro c hMem
  have hLe := Host.toNat_le_of_isOuterBlank (h.outer c hMem)
  rcases hAll c.toNat (by omega) with ⟨hEscaped, hPlain⟩
  rw [Char.ofNat_toNat] at hEscaped
  rw [hEscaped, Bool.true_or, if_pos rfl,
    Text.utf8EncodeChar_of_lt (by omega)]
  simp [hPlain]

/- Blanks start with an octet of ASCII in percent form. -/
theorem Blanks.exists_octets
    {blanks : List Char}
    (h : Blanks blanks) :
    ∃ b octets more,
      Text.encodeChars blanks = b :: octets ∧
      b < 0x80 ∧
      Text.encodeComponent blanks = '%' :: more := by
  cases blanks with
  | nil => exact absurd rfl h.some
  | cons c rest =>
      have hLe := Host.toNat_le_of_isOuterBlank
        (h.outer c List.mem_cons_self)
      have hAll :
          ∀ n < 33,
            UInt8.ofNat n < 0x80 ∧
              Text.isUnreserved (UInt8.ofNat n) = false := by
        decide
      rcases hAll c.toNat (by omega) with ⟨hAscii, hPlain⟩
      have hOctets :
          Text.encodeChars (c :: rest) =
            UInt8.ofNat c.toNat :: Text.encodeChars rest := by
        rw [Text.encodeChars_cons,
          Text.utf8EncodeChar_of_lt (by omega)]
        rfl
      have hMore :
          ∃ more,
            Text.encodeComponent (c :: rest) =
              '%' :: more := by
        unfold Text.encodeComponent Text.percentEncode
        rw [hOctets, List.flatMap_cons, hPlain]
        exact ⟨_, rfl⟩
      rcases hMore with ⟨more, hMore⟩
      exact ⟨_, _, more, hOctets, hAscii, hMore⟩

/- What blanks are written as is read behind a text. -/
theorem formDecodeText_blanks
    {blanks : List Char}
    (h : Blanks blanks)
    (text : List Char) :
    formDecodeText (text ++ Text.encodeComponent blanks) =
      formDecodeText text ++ String.ofList blanks := by
  rcases h.exists_octets with
    ⟨b, octets, more, hOctets, hAscii, hMore⟩
  have hSign :
      Text.encodeChars (Text.encodeComponent blanks) =
        0x25 :: Text.encodeChars more := by
    rw [hMore, Text.encodeChars_cons]
    rfl
  have hRead := Text.percentDecode_encodeComponent blanks []
  rw [List.append_nil, Text.percentDecode, List.append_nil,
    hSign, hOctets] at hRead
  unfold formDecodeText
  dsimp only
  rw [List.map_append, map_encodeComponent,
    Text.encodeChars_append, hSign,
    Text.percentDecode_append rfl, hRead,
    Text.decodeLenient_append hAscii, ← hOctets,
    Text.decodeLenient_encodeChars]

theorem formDecodeText_blanks_ne
    {blanks : List Char}
    (h : Blanks blanks)
    (text : List Char) :
    formDecodeText (text ++ Text.encodeComponent blanks) ≠
      formDecodeText text := by
  rw [formDecodeText_blanks h]
  intro hSame
  have hList := congrArg String.toList hSame
  rw [String.toList_append, String.toList_ofList,
    List.append_right_eq_self] at hList
  exact h.some hList

/- A pair is another one with blanks at its end. -/
theorem formDecodePair_blanks_ne
    {blanks : List Char}
    (h : Blanks blanks)
    (pair : List Char) :
    formDecodePair (pair ++ Text.encodeComponent blanks) ≠
      formDecodePair pair := by
  have hNone := not_mem_encodeComponent
    (.inr (.inl rfl)) blanks
  intro hSame
  by_cases hEqual : '=' ∈ pair
  · rcases List.eq_append_cons_of_mem hEqual with
      ⟨name, value, hSplit, hName⟩
    rw [hSplit, List.append_assoc, List.cons_append,
      formDecodePair_halves hName,
      formDecodePair_halves hName] at hSame
    exact formDecodeText_blanks_ne h value
      (Prod.mk.inj hSame).2
  · have hBoth :
        '=' ∉ pair ++ Text.encodeComponent blanks := by
      rw [List.mem_append, not_or]
      exact ⟨hEqual, hNone⟩
    rw [formDecodePair_of_none hBoth,
      formDecodePair_of_none hEqual] at hSame
    exact formDecodeText_blanks_ne h pair
      (Prod.mk.inj hSame).1

/- A query is another one with blanks behind its last pair. -/
theorem formDecode_blanks_ne
    {blanks : List Char}
    (h : Blanks blanks)
    (query : List Char) :
    formDecode (query ++ Text.encodeComponent blanks) ≠
      formDecode query := by
  have hApart :
      ∀ c ∈ Text.encodeComponent blanks, (c == '&') = false := by
    intro c hMem
    rw [beq_eq_false_iff_ne]
    intro hSame
    subst hSame
    exact not_mem_encodeComponent (.inr (.inr rfl)) _ hMem
  rcases exists_splitBy_append hApart query with
    ⟨before, last, hQuery, hMore⟩
  have hSome :
      (last ++ Text.encodeComponent blanks).isEmpty = false := by
    rcases h.exists_octets with ⟨_, _, more, _, _, hMore⟩
    rw [List.isEmpty_eq_false_iff, hMore]
    exact List.append_ne_nil_of_right_ne_nil _
      (List.cons_ne_nil _ _)
  intro hSame
  unfold formDecode Text.splitAll at hSame
  rw [hQuery, hMore, List.filter_append, List.filter_append,
    List.map_append, List.map_append, List.append_right_inj,
    List.filter_cons_of_pos (by rw [hSome]; rfl)] at hSame
  cases hLast : last.isEmpty with
  | true =>
      rw [List.filter_cons_of_neg (by simp [hLast])] at hSame
      cases hSame
  | false =>
      rw [List.filter_cons_of_pos (by rw [hLast]; rfl)]
        at hSame
      exact formDecodePair_blanks_ne h last
        (List.cons.inj hSame).1

------------------------------------------------------------
-- Blanks that are Kept
------------------------------------------------------------

/- A text that ends in blanks keeps some that are no part. -/
theorem exists_blanks
    {front : List Char}
    (hSome : kept front ≠ [])
    (hEnd : endsInBlank front = true) :
    ∃ blanks,
      Blanks blanks ∧ kept front = clean front ++ blanks := by
  rcases exists_clean front with ⟨blanks, hKept, hBlanks⟩
  have hEnds := endsInBlank_iff hSome hKept hBlanks
  exact ⟨blanks,
    ⟨hEnds.mp hEnd, fun c hMem => (hBlanks c hMem).1⟩, hKept⟩

/- A scheme does not depend on blanks at the end. -/
theorem splitScheme_blanks
    {blanks : List Char}
    (hBlanks : Blanks blanks)
    (text : List Char) :
    splitScheme (text ++ blanks) =
      (splitScheme text).map fun parts =>
        (parts.1, parts.2 ++ blanks) := by
  cases blanks with
  | nil => exact absurd rfl hBlanks.some
  | cons c more =>
      have hOuter := hBlanks.outer c List.mem_cons_self
      have hLe := Host.toNat_le_of_isOuterBlank hOuter
      have hAll :
          ∀ n < 33,
            isSchemeChar (Char.ofNat n) = false := by
        decide
      have hName := hAll c.toNat (by omega)
      rw [Char.ofNat_toNat] at hName
      rw [splitScheme_mark hName
        (Host.ne_of_isOuterBlank hOuter (by decide))]

/- Something is kept of a text with a scheme. -/
theorem kept_ne_nil_of_splitScheme
    {front : List Char}
    {parts : String × List Char}
    (h : splitScheme (kept front) = some parts) :
    kept front ≠ [] := by
  intro hNone
  rw [hNone] at h
  cases h

theorem not_openUser_blanks
    {blanks : List Char}
    (hBlanks : Blanks blanks)
    (scheme : String)
    (own : List Char) :
    ¬OpenUser scheme (own ++ blanks) := by
  intro hOpen
  have hLast := congrArg List.getLast? hOpen.2
  rw [List.getLast?_append,
    List.getLast?_eq_some_getLast hBlanks.some,
    Option.some_or] at hLast
  exact Host.ne_of_isOuterBlank
    (hBlanks.outer _ (List.getLast_mem hBlanks.some))
    (by decide) (Option.some.inj hLast)

------------------------------------------------------------
-- Paths
------------------------------------------------------------

/- No authority has a URL with another authority in it. -/
theorem not_inside_of_behind
    {text front more own : List Char}
    (hText : Inside false text) :
    '/' :: '/' :: text ≠
      front ++ '/' :: (more ++ '/' :: '/' :: own) := by
  intro hSame
  have hCount := congrArg (List.count '/') hSame
  have hNone := List.count_eq_zero.mpr hText.not_mem_slash
  simp only [List.count_append, List.count_cons_self]
    at hCount
  omega

variable [DomainNames]

/- A URL with another authority in it has a path. -/
theorem path_ne_nil_of_behind
    {scheme : String}
    (hSpecial : isSpecial scheme = false)
    {front more text : List Char}
    {url : Url}
    (h :
      ReadsPath scheme
        (front ++ '/' :: (more ++ '/' :: '/' :: text)) url)
    (hHost : url.hasHost = true) :
    url.path ≠ .segments [] := by
  intro hPath
  cases h with
  | whole hNone hOther =>
      rw [hNone] at hHost
      cases hHost
  | behind ahead own slash rest hAfter hSlash hOther =>
      rw [hOther, hSpecial,
        not_file_of_not_special hSpecial] at hPath
      exact parsePath_ne_nil
        (List.append_ne_nil_of_right_ne_nil _
          (List.cons_ne_nil _ _))
        (Path.segments.inj hPath)
  | bare hOther hLast hNone =>
      rw [hSpecial] at hOther
      cases hOther
  | authority rest authority left hOther hAfter hInside hRead
      hUrl =>
      exact not_inside_of_behind hInside hAfter.symm
  | verbatim hOther hHead hNone hVerbatim =>
      rw [hNone] at hHost
      cases hHost

/- Blanks behind an authority are in the host or the path. -/
theorem path_ne_of_authority
    {scheme : String}
    {text blanks : List Char}
    (hBlanks : Blanks blanks)
    (hText : Inside (isSpecial scheme) text)
    {before marked : Authority}
    {left more : List Char}
    (hBefore :
      parseAuthority scheme text = .ok (before, left))
    (hMarked :
      parseAuthority scheme (text ++ blanks) =
        .ok (marked, more))
    (hHost :
      (finishAfter scheme marked more).host? =
        (finishAfter scheme before left).host?) :
    (finishAfter scheme marked more).path ≠
      (finishAfter scheme before left).path := by
  rcases parseAuthority_last_blanks hText hBlanks hMarked
    with ⟨kept, _, hKept, hMore⟩ | ⟨_, _, hSome, hOthers⟩
  · rw [hBefore] at hKept
    cases hKept
    have hLeft : Untailed left := fun c hMem =>
      hText.untailed c
        ((suffix_of_parseAuthority hBefore).subset hMem)
    rw [hMore, path_finishAfter _ _
      (hLeft.append hBlanks.untailed),
      path_finishAfter _ _ hLeft]
    intro hPath
    have hLonger := lastLength_lt_blanks hBlanks
      (isSpecial scheme) left
    have hLe := lastLength_parsePath_le
      (isSpecial scheme) (scheme == "file") left
    rw [← hPath, lastLength_parsePath_blanks hBlanks] at hLe
    omega
  · rw [host?_finishAfter, host?_finishAfter, if_neg hSome]
      at hHost
    split at hHost
    · cases hHost
    · exact absurd (Option.some.inj hHost)
        (hOthers before left hBefore).2

section

variable {scheme : String}
variable {after blanks : List Char}
variable {before marked : Url}
variable (hBlanks : Blanks blanks)
variable (hAfter : Untailed after)
include hBlanks hAfter

/- With blanks at its end a text has another path or host. -/
theorem path_ne_of_blanks
    (hBefore : parseAfterScheme scheme after = .ok before)
    (hMarked :
      parseAfterScheme scheme (after ++ blanks) = .ok marked)
    (hHost : marked.host? = before.host?) :
    marked.path ≠ before.path := by
  intro hPath
  have hLess := lastLength_lt_blanks hBlanks
    (isSpecial scheme) after
  have hReads := readsPath (hAfter.append hBlanks.untailed)
    hMarked
  rcases hReads.of_blanks hBlanks with
    ⟨hLength, _⟩ |
      ⟨hSpecial, text, authority, left, hText, hInside,
        hRead, hUrl⟩ |
      ⟨hSpecial, hHead, _, hVerbatim⟩
  · have hLe := (readsPath hAfter hBefore).lastLength_le
    rw [← hPath, hLength] at hLe
    omega
  · rw [hText, parseAfterScheme_authority hSpecial]
      at hBefore
    rcases Fallible.map_eq_ok hBefore with
      ⟨⟨found, own⟩, hFound, hSame⟩
    dsimp only at hSame
    rw [← hSpecial] at hInside
    rw [hUrl, ← hSame] at hHost hPath
    exact path_ne_of_authority hBlanks hInside hFound hRead
      hHost hPath
  · rw [parseAfterScheme_verbatim hSpecial hHead] at hBefore
    cases hBefore
    rw [hVerbatim] at hPath
    unfold finish at hPath
    rw [hAfter.splitTail] at hPath
    have hLonger :=
      length_escape_lt Host.isControl after hBlanks.some
    rw [Path.verbatim.inj hPath] at hLonger
    omega

end

section

variable {scheme : String}
variable {front more own blanks : List Char}
variable {before marked : Url}
variable (hBlanks : Blanks blanks)
include hBlanks

/-
  With blanks at its end a text has another path behind
  something else than it had by itself.
-/
theorem path_ne_of_lost
    (hOwn : Untailed own)
    (hJoined : Untailed (front ++ '/' :: (more ++ own)))
    (hBefore : parseAfterScheme scheme own = .ok before)
    (hHost : before.hasHost = true)
    (hMarked :
      parseAfterScheme scheme
        (front ++ '/' :: (more ++ own) ++ blanks) =
        .ok marked) :
    marked.path ≠ before.path := by
  intro hPath
  have hBeforeReads := readsPath hOwn hBefore
  have hReads := readsPath
    (hJoined.append hBlanks.untailed) hMarked
  rcases hReads.of_blanks hBlanks with
    ⟨hLength, _⟩ |
      ⟨hSpecial, text, authority, left, hText, hInside, _, _⟩ |
      ⟨_, _, _, hVerbatim⟩
  · have hLess := lastLength_lt_blanks hBlanks
      (isSpecial scheme) (front ++ '/' :: (more ++ own))
    have hLe := hBeforeReads.lastLength_le
    have hMore := lastLength_le_append (isSpecial scheme)
      (front ++ '/' :: more) own
    rw [← hPath, hLength] at hLe
    rw [List.append_assoc, List.cons_append] at hMore
    omega
  · rcases exists_of_hasHost hSpecial hBefore hHost with
      ⟨rest, hRest⟩
    rw [hRest] at hText
    exact not_inside_of_behind hInside hText.symm
  · rcases hBeforeReads.exists_segments hHost with
      ⟨names, hNames⟩
    rw [hNames, hVerbatim] at hPath
    cases hPath

/-
  A text that only has a host with blanks at its end has
  another path by itself than behind something else.
-/
theorem path_ne_of_gained
    (hOwn : Untailed own)
    (hJoined : Untailed (front ++ '/' :: (more ++ own)))
    (hNone :
      ∀ url, parseAfterScheme scheme own = .ok url →
        url.hasHost = false)
    (hBefore :
      parseAfterScheme scheme
        (front ++ '/' :: (more ++ own)) = .ok before)
    (hMarked :
      parseAfterScheme scheme (own ++ blanks) = .ok marked)
    (hHost : marked.hasHost = true)
    (hSome : before.hasHost = true) :
    marked.path ≠ before.path := by
  intro hPath
  have hBeforeReads := readsPath hJoined hBefore
  have hReads := readsPath (hOwn.append hBlanks.untailed)
    hMarked
  rcases hReads.of_blanks hBlanks with
    ⟨hLength, hSlash⟩ |
      ⟨hSpecial, text, authority, left, hText, hInside, hRead,
        hUrl⟩ |
      ⟨_, _, hPlain, _⟩
  · rcases hSlash hHost with ⟨lead, slash, rest, hSplit, hIs⟩
    have hLess := lastLength_lt_blanks hBlanks
      (isSpecial scheme) own
    have hLe := hBeforeReads.lastLength_le
    have hSame :
        lastLength (isSpecial scheme)
            (front ++ '/' :: (more ++ own)) =
          lastLength (isSpecial scheme) own := by
      have hJoin :
          front ++ '/' :: (more ++ own) =
            front ++ '/' :: (more ++ lead) ++
              slash :: rest := by
        rw [hSplit]
        simp
      rw [hJoin, lastLength_slash hIs, hSplit,
        lastLength_slash hIs]
    rw [← hPath, hLength, hSame] at hLe
    omega
  · rw [← hSpecial] at hInside
    rcases parseAuthority_last_blanks hInside hBlanks hRead
      with ⟨kept, _, hKept, _⟩ | ⟨_, hLeft, _, _⟩
    · have hAlone := parseAfterScheme_authority hSpecial text
      rw [hKept, ← hText] at hAlone
      have hPlain := hNone _ hAlone
      unfold hasHost at hHost hPlain
      rw [hUrl, host?_finishAfter] at hHost
      rw [host?_finishAfter, Bool.eq_false_iff] at hPlain
      exact hPlain hHost
    · rw [hUrl, hLeft, path_finishAfter _ _ untailed_nil,
        hSpecial] at hPath
      rw [hText] at hBeforeReads
      exact path_ne_nil_of_behind hSpecial hBeforeReads hSome
        hPath.symm
  · rw [hPlain] at hHost
    cases hHost

end

------------------------------------------------------------
-- Marks Behind Blanks
------------------------------------------------------------

/- The blanks of a text are part of it before a mark. -/
theorem exists_of_question
    {front : List Char}
    (hFront : Untailed front)
    (hEnd : endsInBlank front = true)
    {marked : Url}
    (hMarked : parseChars (front ++ ['?']) = .ok marked) :
    ∃ blanks scheme own url,
      Blanks blanks ∧
      kept front = clean front ++ blanks ∧
      splitScheme (clean front) = some (scheme, own) ∧
      Untailed own ∧
      parseAfterScheme scheme (own ++ blanks) = .ok url ∧
      marked = url.markedWith '?' := by
  have hNil : Clear [] := by
    intro c hMem
    cases hMem
  rw [parseChars_mark front rfl rfl (by decide) hNil]
    at hMarked
  cases hKept : splitScheme (kept front) with
  | none =>
      rw [hKept] at hMarked
      cases hMarked
  | some parts =>
      rcases exists_blanks (kept_ne_nil_of_splitScheme hKept)
        hEnd with ⟨blanks, hBlanks, hSplit⟩
      have hBehind := hKept
      rw [hSplit, splitScheme_blanks hBlanks,
        Option.map_eq_some_iff] at hBehind
      rcases hBehind with ⟨⟨scheme, own⟩, hScheme, hParts⟩
      subst hParts
      have hBoth : Untailed (own ++ blanks) :=
        hFront.kept.behind hKept
      rw [hKept] at hMarked
      dsimp only at hMarked
      rw [parseAfterScheme_question hBoth
        (not_openUser_blanks hBlanks scheme own)] at hMarked
      rcases Fallible.map_eq_ok hMarked with
        ⟨url, hUrl, hSame⟩
      exact ⟨blanks, scheme, own, url, hBlanks, hSplit,
        hScheme,
        fun c hMem => hBoth c (List.mem_append_left _ hMem),
        hUrl, hSame.symm⟩

/- A text that ends in blanks has another path or host. -/
theorem path_ne_of_question
    {front : List Char}
    (hFront : Untailed front)
    (hEnd : endsInBlank front = true)
    {before marked : Url}
    (hBefore : parseChars front = .ok before)
    (hMarked : parseChars (front ++ ['?']) = .ok marked)
    (hHost : marked.host? = before.host?) :
    marked.path ≠ before.path := by
  rcases exists_of_question hFront hEnd hMarked with
    ⟨blanks, scheme, own, url, hBlanks, _, hScheme, hOwn,
      hUrl, hSame⟩
  unfold parseChars at hBefore
  rw [hScheme] at hBefore
  rw [hSame] at hHost ⊢
  have hPath :=
    path_ne_of_blanks hBlanks hOwn hBefore hUrl hHost
  exact hPath

/- The blanks of a query are part of it before a mark. -/
theorem exists_of_and
    {front : List Char}
    (h : TakesMark front '&')
    (hEnd : endsInBlank front = true) :
    ∃ (outcome : Option Url) (query blanks : List Char),
      Blanks blanks ∧
      (parseChars front).toOption =
        outcome.map (·.withQuery query) ∧
      (parseChars (front ++ ['&'])).toOption =
        outcome.map (·.withQuery
          (query ++ Text.encodeComponent blanks ++ ['&'])) := by
  have hMem : '?' ∈ front := by
    rcases h.mark with ⟨hNot, _⟩ | ⟨_, hMem⟩
    · exact absurd hNot (by decide)
    · exact hMem
  have hSome : kept front ≠ [] :=
    List.ne_nil_of_mem ((mem_kept_iff rfl front).mpr hMem)
  rcases exists_blanks hSome hEnd with
    ⟨blanks, hBlanks, hSplit⟩
  have hNil : Clear [] := by
    intro c hNone
    cases hNone
  rw [parseChars_mark front rfl rfl (by decide) hNil,
    hSplit, splitScheme_blanks hBlanks]
  unfold parseChars
  cases hScheme : splitScheme (clean front) with
  | none => exact ⟨none, [], blanks, hBlanks, rfl, rfl⟩
  | some parts =>
      rcases parts with ⟨scheme, own⟩
      dsimp only [Option.map_some]
      have hKept :
          splitScheme (kept front) =
            some (scheme, own ++ blanks) := by
        rw [hSplit, splitScheme_blanks hBlanks, hScheme]
        rfl
      have hNot (mark : Char)
          (hMark : 32 < mark.toNat) : mark ∉ blanks :=
        fun hMem => Host.ne_of_isOuterBlank
          (hBlanks.outer mark hMem) hMark rfl
      rcases (h.behind hKept).cases with
        ⟨hOther, _⟩ |
          ⟨_, ahead, more, hMore, hAhead, hHash⟩
      · exact absurd hOther (by decide)
      rcases split_of_not_mem (hNot '?' (by decide)) hMore
        with ⟨query, hOwn, hQuery⟩
      subst hQuery
      have hBoth : '#' ∉ query ++ blanks ++ ['&'] := by
        intro hMem
        rcases List.mem_append.mp hMem with hMem | hMem
        · exact hHash hMem
        · exact absurd hMem (by decide)
      have hQuery : '#' ∉ query := fun hMem =>
        hHash (List.mem_append_left _ hMem)
      have hText :
          own ++ blanks ++ ['&'] =
            ahead ++ '?' :: (query ++ blanks ++ ['&']) := by
        rw [hMore]
        simp
      rcases exists_query_behind scheme hAhead with
        ⟨outcome, hOutcome⟩
      refine ⟨outcome, Text.escapeChars
        (escapedInQuery (isSpecial scheme)) query, blanks,
        hBlanks, ?_, ?_⟩
      · rw [hOwn]
        exact hOutcome query hQuery
      · have hMarked := hOutcome _ hBoth
        rw [appendable_and.escapeChars, Text.escapeChars_append,
          hBlanks.escapeChars] at hMarked
        rw [hText]
        exact hMarked

/- A query that ends in blanks has other pairs. -/
theorem pairs_ne_of_and
    {front : List Char}
    (h : TakesMark front '&')
    (hEnd : endsInBlank front = true)
    {before marked : Url}
    (hBefore : parseChars front = .ok before)
    (hMarked : parseChars (front ++ ['&']) = .ok marked) :
    marked.pairs ≠ before.pairs := by
  rcases exists_of_and h hEnd with
    ⟨outcome, query, blanks, hBlanks, hFront, hBoth⟩
  rw [hBefore] at hFront
  rw [hMarked] at hBoth
  cases outcome with
  | none => cases hFront
  | some url =>
      rw [Option.some.inj hFront, Option.some.inj hBoth,
        pairs_withQuery, pairs_withQuery, formDecode_append]
      have hNil : formDecode [] = [] := rfl
      rw [hNil, List.append_nil]
      exact formDecode_blanks_ne hBlanks query

end Url

end ServiceCalls
