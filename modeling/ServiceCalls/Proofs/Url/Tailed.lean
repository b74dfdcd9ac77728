import ServiceCalls.Proofs.Url.Appended
import ServiceCalls.Proofs.Url.PathText

/-
  Where a path leads that is put behind a base with a query,
  a fragment or blanks.

  Behind a query or a fragment it does not change the path
  of the base.  Behind blanks it leads elsewhere, or the
  blanks are part of what is ahead of it.

  Main declarations:
    * `Url.path_of_marks`
    * `Url.path_of_blanks`
-/

namespace ServiceCalls

namespace Url

------------------------------------------------------------
-- Queries and Fragments
------------------------------------------------------------

/- What comes before a mark is kept by cleaning. -/
theorem exists_clean_mark
    (front : List Char)
    {mark : Char}
    (hMark : isOuterBlank mark = false)
    (text : List Char) :
    ∃ rest, clean (front ++ mark :: text) =
      kept front ++ mark :: rest := by
  have hKept := kept_mark front hMark text
  rw [List.filter_cons_of_pos] at hKept
  · rw [clean_eq, hKept,
      Text.dropWhileEnd_append_cons hMark]
    exact ⟨_, rfl⟩
  · rw [not_isDropped_of_not_isOuterBlank hMark]
    rfl

theorem Untailed.kept
    {text : List Char}
    (h : Untailed text) :
    Untailed (Url.kept text) := by
  intro c hMem
  exact h c ((List.dropWhile_suffix _).subset
    (List.mem_filter.mp hMem).1)

theorem Untailed.clean
    {text : List Char}
    (h : Untailed text) :
    Untailed (Url.clean text) := by
  intro c hMem
  rcases exists_clean text with ⟨blanks, hKept, _⟩
  apply h.kept c
  rw [hKept]
  exact List.mem_append_left _ hMem

/- No mark comes behind a scheme that none is in. -/
theorem Untailed.behind
    {text after : List Char}
    {scheme : String}
    (h : Untailed text)
    (hScheme : splitScheme text = some (scheme, after)) :
    Untailed after := by
  intro c hMem
  rcases exists_schemeName hScheme with ⟨name, hText, _, _⟩
  apply h c
  rw [hText]
  exact List.mem_append_right _ (List.mem_cons_of_mem _ hMem)

variable [DomainNames]

/- A text with a mark in it has the path before the mark. -/
theorem exists_path_of_mark
    {front : List Char}
    (hFront : Untailed front)
    {mark : Char}
    (hMark : mark = '?' ∨ mark = '#') :
    ∃ path, ∀ rest url,
      parseChars (front ++ mark :: rest) = .ok url →
      path = some url.path := by
  have hPlain :
      isOuterBlank mark = false ∧
        isSchemeChar mark = false ∧ mark ≠ ':' := by
    rcases hMark with h | h
    all_goals
      subst h
      decide
  have hRead (rest : List Char) :
      ∃ more,
        parseChars (front ++ mark :: rest) =
          (splitScheme (kept front)).elim
            (.error .relativeWithoutBase)
            fun parts => parseAfterScheme parts.1
              (parts.2 ++ mark :: more) := by
    rcases exists_clean_mark front hPlain.1 rest with
      ⟨more, hClean⟩
    refine ⟨more, ?_⟩
    unfold parseChars
    rw [hClean, splitScheme_mark hPlain.2.1 hPlain.2.2]
    cases splitScheme (kept front) with
    | none => rfl
    | some parts => rfl
  cases hScheme : splitScheme (kept front) with
  | none =>
      refine ⟨none, ?_⟩
      intro rest url hUrl
      rcases hRead rest with ⟨more, hMore⟩
      rw [hMore, hScheme] at hUrl
      cases hUrl
  | some parts =>
      rcases parts with ⟨scheme, after⟩
      refine ⟨(parseAfterScheme scheme after).toOption.map
        Url.path, ?_⟩
      intro rest url hUrl
      rcases hRead rest with ⟨more, hMore⟩
      have hMarks := marks_cons hMark more
      have hAfter := hFront.kept.behind hScheme
      rw [hMore, hScheme, Option.elim_some] at hUrl
      dsimp only at hUrl
      by_cases hOpen : OpenUser scheme after
      · rw [parseAfterScheme_openUser hOpen hMarks
          (List.cons_ne_nil _ _)] at hUrl
        cases hUrl
      · rw [parseAfterScheme_tail hAfter hMarks hOpen]
          at hUrl
        rcases Fallible.map_eq_ok hUrl with
          ⟨own, hOwn, hSame⟩
        rw [hOwn, ← hSame]
        rfl

/- The path does not depend on what follows a mark. -/
theorem path_of_marks
    {front : List Char}
    (hFront : Untailed front)
    {mark : Char}
    (hMark : mark = '?' ∨ mark = '#')
    {rest more : List Char}
    {home url : Url}
    (hHome : parseChars (front ++ mark :: rest) = .ok home)
    (hUrl : parseChars (front ++ mark :: more) = .ok url) :
    url.path = home.path := by
  rcases exists_path_of_mark hFront hMark with
    ⟨path, hPath⟩
  have hBoth := (hPath more url hUrl).symm.trans
    (hPath rest home hHome)
  exact Option.some.inj hBoth

------------------------------------------------------------
-- Blanks
------------------------------------------------------------

/- Blanks behind an authority that something follows. -/
theorem path_of_blanks_behind
    {scheme : String}
    (hFile : (scheme == "file") = false)
    {after blanks : List Char}
    (hBlanks : Blanks blanks)
    {home : Url}
    (hHome : parseAfterScheme scheme after = .ok home)
    (hHost : home.hasHost = true)
    (hQuery : home.query = none)
    (hFragment : home.fragment = none)
    {text : List Char}
    (hText : Untailed text)
    {url : Url}
    (hUrl :
      parseAfterScheme scheme
        (after ++ blanks ++ '/' :: text) = .ok url)
    (hOrigin : url.origin = home.origin) :
    ∃ front,
      front ≠ [] ∧
      home.path = .segments
        (parsePath (isSpecial scheme) false front) ∧
      url.path = .segments
        (parsePath (isSpecial scheme) false
          (front ++ blanks ++ '/' :: text)) := by
  rcases exists_authority hFile hHome hHost with
    ⟨lead, named, tail, authority, left, hAfter, hLeads,
      hTail, hAuthority, hSome, hFinish⟩
  have hLeft : Untailed (left ++ tail) := by
    rw [hFinish] at hQuery hFragment
    exact untailed_of_finish hQuery hFragment
  have hHomePath :
      home.path = .segments
        (parsePath (isSpecial scheme) false
          (left ++ tail)) := by
    rw [hFinish, path_finishAfter _ _ hLeft, hFile]
  have hUrlPath
      (hReads : url = finishAfter scheme authority
        (left ++ tail ++ (blanks ++ '/' :: text))) :
      url.path = .segments
        (parsePath (isSpecial scheme) false
          (left ++ tail ++ blanks ++ '/' :: text)) := by
    rw [hReads, path_finishAfter _ _
      (hLeft.append
        (hBlanks.untailed.append hText.cons_slash)), hFile,
      List.append_assoc (left ++ tail)]
  rw [hAfter, List.append_assoc, List.append_assoc,
    List.append_assoc] at hUrl
  by_cases hNone : tail = []
  · subst hNone
    rw [List.nil_append, hLeads.reads] at hUrl
    rcases Fallible.map_eq_ok hUrl with
      ⟨⟨other, more⟩, hOther, hSame⟩
    rcases parseAuthority_blanks hLeads.inside hBlanks
      (ends_slash _ text) hOther with
      ⟨kept, hMore, hKept, hRest⟩ | ⟨_, _, _, hOthers⟩
    · rw [hAuthority] at hKept
      cases hKept
      rw [hRest] at hSame
      rw [List.append_nil] at hHomePath hUrlPath
      exact ⟨left, hMore, hHomePath, hUrlPath hSame.symm⟩
    · have hOtherHost := (hOthers authority left hAuthority).2
      rw [← hSame, hFinish, origin_finishAfter,
        origin_finishAfter, if_neg hSome] at hOrigin
      have hHosts :=
        congrArg (fun parts => parts.2.1) hOrigin
      dsimp only at hHosts
      split at hHosts
      · cases hHosts
      · exact absurd (Option.some.inj hHosts) hOtherHost
  · have hEnds := ends_append hTail hNone
      (blanks ++ '/' :: text)
    rw [hLeads.readsOn hAuthority hEnds] at hUrl
    refine ⟨left ++ tail,
      List.append_ne_nil_of_right_ne_nil _ hNone,
      hHomePath, hUrlPath ?_⟩
    rw [← Except.ok.inj hUrl, List.append_assoc]

/- Blanks behind the host of a file that a path follows. -/
theorem path_of_blanks_file
    {after blanks : List Char}
    (hBlanks : Blanks blanks)
    {home : Url}
    (hHome : parseFile after = .ok home)
    (hHost : home.hasHost = true)
    (hQuery : home.query = none)
    (hFragment : home.fragment = none)
    {text : List Char}
    (hText : Untailed text)
    {url : Url}
    (hUrl :
      parseFile (after ++ blanks ++ '/' :: text) =
        .ok url) :
    ∃ front,
      front ≠ [] ∧
      home.path = .segments
        (parsePath (isSpecial "file") true front) ∧
      url.path = .segments
        (parsePath (isSpecial "file") true
          (front ++ blanks ++ '/' :: text)) := by
  rcases exists_fileHost hHome hHost with
    ⟨a, b, named, tail, host, hAfter, hFileHost, hTail,
      hFinish, _⟩
  have hUntailed : Untailed tail := by
    rw [hFinish] at hQuery hFragment
    exact untailed_of_finish hQuery hFragment
  have hHomePath :
      home.path = .segments
        (parsePath (isSpecial "file") true tail) := by
    rw [hFinish, path_finishAfter _ _ hUntailed]
    rfl
  rw [hAfter] at hUrl
  by_cases hNone : tail = []
  · subst hNone
    rw [List.append_nil, List.cons_append, List.cons_append,
      List.cons_append, List.cons_append,
      List.append_assoc] at hUrl
    exact absurd hUrl
      (hFileHost.not_blanks hBlanks (ends_slash true text) _)
  · have hEnds (more : List Char) :
        Ends true (tail ++ blanks ++ '/' :: more) := by
      rw [List.append_assoc]
      exact ends_append hTail hNone _
    have hReads := readsBehind_file hFileHost.first
      hFileHost.second hFileHost.inside hFileHost.some
      hFileHost.noDrive (hUntailed.append hBlanks.untailed)
      hEnds text hText
    rw [hFileHost.reads] at hReads
    have hText :
        a :: b :: (named ++ (tail ++ blanks)) ++
            '/' :: text =
          a :: b :: (named ++ tail) ++ blanks ++
            '/' :: text := by
      simp
    rw [hText] at hReads
    change (parseFile (a :: b :: (named ++ tail) ++ blanks ++
      '/' :: text)).map Url.path = _ at hReads
    rw [hUrl] at hReads
    exact ⟨tail, hNone, hHomePath, Except.ok.inj hReads⟩

/-
  A path behind a base that ends in blanks: it leads to
  another host, or the blanks end what is ahead of it.
-/
theorem path_of_blanks
    {base : List Char}
    {home : Url}
    (hHome : parseChars base = .ok home)
    (hHost : home.hasHost = true)
    (hQuery : home.query = none)
    (hFragment : home.fragment = none)
    (hEnd : endsInBlank base = true)
    {text : List Char}
    (hText : Clear text)
    {url : Url}
    (hUrl :
      parseChars (trimSlashes base ++ '/' :: text) = .ok url)
    (hOrigin : url.origin = home.origin) :
    ∃ front blanks,
      front ≠ [] ∧
      Blanks blanks ∧
      home.path = .segments
        (parsePath (isSpecial home.scheme)
          (home.scheme == "file") front) ∧
      url.path = .segments
        (parsePath (isSpecial home.scheme)
          (home.scheme == "file")
          (front ++ blanks ++ '/' :: text)) := by
  rcases exists_parseAfterScheme hHome with
    ⟨scheme, after, hScheme, hRead⟩
  rw [scheme_of_parseAfterScheme hRead hHost]
  rcases exists_splitScheme hScheme with
    ⟨name, _, _, hBase, hReads⟩
  rcases exists_trimSlashes base with
    ⟨slashes, hSlashes, hSplit⟩
  rw [hSplit] at hScheme hBase hEnd
  rcases kept_front hSlashes hScheme with
    ⟨hNoBlank, _⟩ | ⟨_, blanks, hKept, hSome, hOuter⟩
  · rw [hEnd] at hNoBlank
    cases hNoBlank
  · have hBlanks : Blanks blanks :=
      ⟨hSome, fun c hMem => (hOuter c hMem).1⟩
    rw [hBase, List.append_assoc] at hKept
    rw [parseChars_below hKept hReads hText] at hUrl
    cases hFile : scheme == "file" with
    | false =>
        rcases path_of_blanks_behind hFile hBlanks hRead
          hHost hQuery hFragment hText.untailed hUrl hOrigin
          with ⟨front, hFront, hHomePath, hUrlPath⟩
        exact ⟨front, blanks, hFront, hBlanks, hHomePath,
          hUrlPath⟩
    | true =>
        rw [beq_iff_eq] at hFile
        subst hFile
        rcases path_of_blanks_file hBlanks hRead hHost
          hQuery hFragment hText.untailed hUrl with
          ⟨front, hFront, hHomePath, hUrlPath⟩
        exact ⟨front, blanks, hFront, hBlanks, hHomePath,
          hUrlPath⟩

end Url

end ServiceCalls
