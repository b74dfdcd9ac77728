import ServiceCalls.Proofs.Url.Tailed

/-
  How the path of a text is read.

  The path is that of the text behind the scheme, or of what
  comes behind an authority.  In both cases its last name is
  the last segment of the text, so that blanks at the end of
  the text make it longer.

  Key definitions include:
    * `Url.lastLength`
    * `Url.Unblanked`
    * `Url.ReadsPath`

  Main declarations:
    * `Url.lastLength_lt_blanks`
    * `Url.readsPath`
    * `Url.ReadsPath.lastLength_le`
    * `Url.ReadsPath.of_blanks`
-/

namespace ServiceCalls

namespace Url

------------------------------------------------------------
-- Last Names
------------------------------------------------------------

/- How long the last name of a path is. -/
def Path.lastLength : Path → Nat
  | .verbatim _ => 0
  | .segments names =>
      (names.getLast?.getD "").toList.length

/- How long the last segment of a text is as a name. -/
def lastLength (special : Bool) (text : List Char) : Nat :=
  (escape escapedInPath
    ((Text.splitBy (isSlash special)
      text).getLast?.getD [])).toList.length

/- What comes before a slash is not in the last segment. -/
theorem lastLength_slash
    {special : Bool}
    {slash : Char}
    (h : isSlash special slash = true)
    (front rest : List Char) :
    lastLength special (front ++ slash :: rest) =
      lastLength special rest := by
  rcases Text.exists_splitBy (isSlash special) rest with
    ⟨piece, pieces, hRest⟩
  unfold lastLength
  rw [Text.splitBy_append h, hRest, List.getLast?_append,
    List.getLast?_eq_some_getLast (List.cons_ne_nil _ _),
    Option.some_or]

/- The last segment grows with the text before it. -/
theorem lastLength_le_append
    (special : Bool)
    (front rest : List Char) :
    lastLength special rest ≤
      lastLength special (front ++ rest) := by
  induction front with
  | nil => exact Nat.le_refl _
  | cons c more ih =>
      refine Nat.le_trans ih ?_
      rw [List.cons_append]
      generalize more ++ rest = text
      cases hc : isSlash special c with
      | true => exact Nat.le_of_eq (lastLength_slash hc [] text).symm
      | false =>
          rcases Text.exists_splitBy (isSlash special) text
            with ⟨piece, pieces, hText⟩
          unfold lastLength
          rw [Text.splitBy_cons hc hText, hText]
          cases pieces with
          | nil =>
              unfold escape Text.escapeChars
              simp only [List.getLast?_singleton,
                Option.getD_some, String.toList_ofList,
                List.flatMap_cons, List.length_append]
              omega
          | cons next others =>
              exact Nat.le_refl _

/- Blanks make the last segment longer. -/
theorem lastLength_lt_blanks
    {blanks : List Char}
    (hBlanks : Blanks blanks)
    (special : Bool)
    (text : List Char) :
    lastLength special text <
      lastLength special (text ++ blanks) := by
  rcases exists_splitBy_append (hBlanks.noSlash special) text
    with ⟨before, last, hText, hMore⟩
  unfold lastLength
  rw [hText, hMore, List.getLast?_concat,
    List.getLast?_concat]
  exact length_escape_lt escapedInPath last hBlanks.some

/- The last segment of a path is that of its text. -/
theorem exists_leadSegments
    (special : Bool)
    {text : List Char}
    (h : text ≠ []) :
    ∃ before last,
      leadSegments special text = before ++ [last] ∧
      (Text.splitBy (isSlash special) text).getLast? =
        some last := by
  have hConcat {segments : List (List Char)}
      (hNone : segments ≠ []) :
      ∃ before last,
        segments = before ++ [last] ∧
        segments.getLast? = some last :=
    ⟨_, _, (List.dropLast_concat_getLast hNone).symm,
      List.getLast?_eq_some_getLast hNone⟩
  cases text with
  | nil => exact absurd rfl h
  | cons c rest =>
      unfold leadSegments
      dsimp only
      split
      · next hSlash =>
          rcases hConcat
            (splitBy_ne_nil (isSlash special) rest) with
            ⟨before, last, hSplit, hLast⟩
          refine ⟨before, last, hSplit, ?_⟩
          rw [Text.splitBy_cons_separator hSlash,
            List.getLast?_cons_of_ne_nil
              (splitBy_ne_nil _ _)]
          exact hLast
      · exact hConcat (splitBy_ne_nil _ _)

/- A path has no longer last name than its text has. -/
theorem lastLength_parsePath_le
    (special file : Bool)
    (text : List Char) :
    (Path.segments (parsePath special file
      text)).lastLength ≤ lastLength special text := by
  by_cases hSome : text = []
  · subst hSome
    cases special <;> exact Nat.zero_le _
  · rcases exists_leadSegments special hSome with
      ⟨before, last, hLead, hLast⟩
    rcases exists_last_name file
      (before.foldl (takeSegment file) []) last with
      ⟨names, name, hNames, _, hLength⟩
    have hPath :
        parsePath special file text =
          stripped file names ++ [name] := by
      rw [parsePath_of_ne_nil _ _ hSome, hLead,
        addSegments_append _ _ _ (List.cons_ne_nil _ _),
        hNames, withoutEmpty_concat]
    rw [hPath]
    unfold Path.lastLength lastLength
    dsimp only
    rw [hLast, List.getLast?_concat]
    exact hLength

/- Blanks at its end keep the last segment where it is. -/
theorem lastLength_parsePath_blanks
    {blanks : List Char}
    (hBlanks : Blanks blanks)
    (special file : Bool)
    (text : List Char) :
    (Path.segments (parsePath special file
      (text ++ blanks))).lastLength =
        lastLength special (text ++ blanks) := by
  have hSome : text ++ blanks ≠ [] :=
    List.append_ne_nil_of_right_ne_nil _ hBlanks.some
  rcases exists_leadSegments special hSome with
    ⟨before, last, hLead, hLast⟩
  rcases exists_splitBy_append (hBlanks.noSlash special) text
    with ⟨_, piece, _, hMore⟩
  have hSettled : Settled last := by
    rw [hMore, List.getLast?_concat] at hLast
    cases hLast
    exact settled_blanks hBlanks piece
  have hPath :
      parsePath special file (text ++ blanks) =
        stripped file
            (before.foldl (takeSegment file) []) ++
          [escape escapedInPath last] := by
    have hAll : ∀ segment ∈ [last], Settled segment := by
      intro segment hMem
      rw [List.mem_singleton.mp hMem]
      exact hSettled
    rw [parsePath_of_ne_nil _ _ hSome, hLead,
      addSegments_append _ _ _ (List.cons_ne_nil _ _),
      addSegments_of_settled _ _ hAll]
    exact withoutEmpty_concat _ _ _
  rw [hPath]
  unfold Path.lastLength lastLength
  dsimp only
  rw [hLast, List.getLast?_concat]
  rfl

------------------------------------------------------------
-- How a Path Is Read
------------------------------------------------------------

/- A text whose last character is no blank. -/
def Unblanked (text : List Char) : Prop :=
  ∀ c, text.getLast? = some c → isOuterBlank c = false

/-
  Where in a text the path of its URL is found: it is the
  text, it starts with a slash, there is none behind an
  authority, or it is no path of segments.
-/
inductive ReadsPath
    [DomainNames]
    (scheme : String)
    (after : List Char)
    (url : Url) :
    Prop
| whole
    (hHost : url.hasHost = false)
    (hPath :
      url.path = .segments (parsePath (isSpecial scheme)
        (scheme == "file") after))
| behind
    (front own : List Char)
    (slash : Char)
    (rest : List Char)
    (hAfter : after = front ++ (own ++ slash :: rest))
    (hSlash : isSlash (isSpecial scheme) slash = true)
    (hPath :
      url.path = .segments (parsePath (isSpecial scheme)
        (scheme == "file") (own ++ slash :: rest)))
| bare
    (hSpecial : isSpecial scheme = true)
    (hLast : Unblanked after)
    (hPath : url.path = .segments [""])
| authority
    (text : List Char)
    (authority : Authority)
    (left : List Char)
    (hSpecial : isSpecial scheme = false)
    (hAfter : after = '/' :: '/' :: text)
    (hInside : Inside false text)
    (hRead : parseAuthority scheme text =
      .ok (authority, left))
    (hUrl : url = finishAfter scheme authority left)
| verbatim
    (hSpecial : isSpecial scheme = false)
    (hHead : after.head? ≠ some '/')
    (hHost : url.hasHost = false)
    (hPath :
      url.path =
        .verbatim (escape Host.isControl after))

/- What ends an authority ahead of a path is a slash. -/
theorem exists_slash
    {special : Bool}
    {tail : List Char}
    (hEnds : Ends special tail)
    (hTail : Untailed tail)
    (hSome : tail ≠ []) :
    ∃ slash rest,
      tail = slash :: rest ∧ isSlash special slash = true := by
  cases tail with
  | nil => exact absurd rfl hSome
  | cons c rest =>
      have hEnd := hEnds c rfl
      have hNot := hTail c List.mem_cons_self
      rw [Bool.not_eq_false'] at hEnd
      refine ⟨c, rest, rfl, ?_⟩
      simp only [endsAuthority, Bool.or_eq_true, beq_iff_eq,
        hNot.1, hNot.2, or_false] at hEnd
      simpa only [isSlash, Bool.or_eq_true, beq_iff_eq]
        using hEnd

theorem hasHost_nowhere
    (scheme : String)
    (text : List Char) :
    (finishAfter scheme nowhere text).hasHost = false := by
  unfold hasHost
  rw [host?_finishAfter]
  rfl

theorem not_isOuterBlank_of_isSlash
    {special : Bool}
    {c : Char}
    (h : isSlash special c = true) :
    isOuterBlank c = false := by
  simp only [isSlash, Bool.or_eq_true, Bool.and_eq_true,
    beq_iff_eq] at h
  rcases h with h | ⟨_, h⟩
  · subst h
    rfl
  · subst h
    rfl

theorem blanks_singleton
    {c : Char}
    (h : isOuterBlank c = true) :
    Blanks [c] := by
  refine ⟨List.cons_ne_nil _ _, ?_⟩
  intro d hMem
  rw [List.mem_singleton.mp hMem]
  exact h

/- A text that no blanks can end. -/
theorem unblanked_of_ne
    {text : List Char}
    (h : ∀ front blanks, Blanks blanks →
      text ≠ front ++ blanks) :
    Unblanked text := by
  intro c hLast
  rcases List.getLast?_eq_some_iff.mp hLast with
    ⟨front, hFront⟩
  rw [Bool.eq_false_iff]
  intro hBlank
  exact h front [c] (blanks_singleton hBlank) hFront

/- Slashes before a text put no blank at its end. -/
theorem Unblanked.behind
    {special : Bool}
    {lead text : List Char}
    (hLead : ∀ c ∈ lead, isSlash special c = true)
    (hText : Unblanked text) :
    Unblanked (lead ++ text) := by
  intro c hLast
  by_cases hSome : text = []
  · subst hSome
    rw [List.append_nil] at hLast
    exact not_isOuterBlank_of_isSlash
      (hLead c (List.mem_of_getLast? hLast))
  · rw [List.getLast?_append,
      List.getLast?_eq_some_getLast hSome, Option.some_or,
      ← List.getLast?_eq_some_getLast hSome] at hLast
    exact hText c hLast

/- A slash before a drive letter is not part of the path. -/
theorem parsePath_drive
    {slash : Char}
    (hSlash : isSlash true slash = true)
    {host : List Char}
    (hDrive : isDriveLetter host = true)
    (file : Bool)
    (tail : List Char) :
    parsePath true file (slash :: (host ++ tail)) =
      parsePath true file (host ++ tail) := by
  unfold isDriveLetter at hDrive
  split at hDrive
  · next letter mark =>
      rw [Bool.and_eq_true] at hDrive
      have hLetter : isSlash true letter = false := by
        rw [Bool.eq_false_iff]
        intro hSame
        simp only [isSlash, Bool.or_eq_true,
          Bool.and_eq_true, beq_iff_eq] at hSame
        rcases hSame with hSame | ⟨_, hSame⟩
        · rw [hSame] at hDrive
          exact absurd hDrive.1 (by decide)
        · rw [hSame] at hDrive
          exact absurd hDrive.1 (by decide)
      unfold parsePath
      dsimp only [List.cons_append]
      rw [if_pos hSlash, hLetter, if_neg Bool.false_ne_true]
  · cases hDrive

/- What a text does not hold is taken from before it. -/
theorem split_of_not_mem
    {after text front rest : List Char}
    {mark : Char}
    (hNot : mark ∉ text)
    (h : after ++ text = front ++ mark :: rest) :
    ∃ more,
      after = front ++ mark :: more ∧
      rest = more ++ text := by
  rcases List.append_eq_append_iff.mp h with
    ⟨more, _, hMore⟩ | ⟨more, hAfter, hMore⟩
  · refine absurd ?_ hNot
    rw [hMore]
    exact List.mem_append_right _ List.mem_cons_self
  · cases more with
    | nil =>
        refine absurd ?_ hNot
        rw [← List.nil_append text, ← hMore]
        exact List.mem_cons_self
    | cons c more =>
        cases hMore
        exact ⟨more, hAfter, rfl⟩

theorem Blanks.not_mem_slash
    {blanks : List Char}
    (h : Blanks blanks)
    {special : Bool}
    {slash : Char}
    (hSlash : isSlash special slash = true) :
    slash ∉ blanks := by
  intro hMem
  have hNone := h.noSlash special slash hMem
  rw [hSlash] at hNone
  cases hNone

/- What a port stops at ends an authority. -/
theorem of_parsePort_left
    {sofar port : Option Nat}
    {text left : List Char}
    (h : parsePort sofar text = .ok (port, left)) :
    Ends true left := by
  induction text generalizing sofar with
  | nil =>
      cases h
      exact Text.stops_nil
  | cons first rest ih =>
      unfold parsePort at h
      split at h
      · dsimp only at h
        split at h
        · cases h
        · exact ih h
      · split at h
        · next hMark =>
            cases h
            apply Text.stops_cons
            have hOne : first ∈ ['/', '\\', '?', '#'] :=
              List.contains_iff_mem.mp hMark
            simp only [List.mem_cons, List.not_mem_nil,
              or_false] at hOne
            rcases hOne with h | h | h | h
            all_goals
              subst h
              rfl
        · cases h

variable [DomainNames]

------------------------------------------------------------
-- File URLs
------------------------------------------------------------

section

variable {a b : Char}
variable (hFirst : isSlash true a = true)
variable (hSecond : isSlash true b = true)
variable {host tail : List Char}
variable (hHost : Inside true host)
variable (hEnds : Ends true tail)
variable {url : Url}
variable (h : parseFile (a :: b :: (host ++ tail)) = .ok url)
include hFirst hSecond hHost hEnds h

/- A drive letter is part of the path. -/
theorem readsPath_drive
    (hTail : Untailed (host ++ tail))
    (hDrive : isDriveLetter host = true) :
    ReadsPath "file" (a :: b :: (host ++ tail)) url := by
  have hTake := hHost.takeWhile hEnds
  unfold parseFile at h
  dsimp only at h
  rw [hFirst, hSecond, hTake, hDrive, Bool.and_self,
    if_pos rfl, if_pos rfl] at h
  cases h
  have hPath := parsePath_drive hSecond hDrive true tail
  exact .behind [a] [] b (host ++ tail) rfl hSecond
    ((path_finishAfter "file" nowhere hTail).trans
      (congrArg Path.segments hPath.symm))

/- Any other host is before the path. -/
theorem path_of_parseFile
    (hTail : Untailed tail)
    (hDrive : isDriveLetter host = false) :
    url.path = .segments (parsePath true true tail) ∧
      Unblanked host := by
  have hPath (authority : Authority) :
      (finishAfter "file" authority tail).path =
        .segments (parsePath true true tail) :=
    path_finishAfter "file" authority hTail
  by_cases hNone : host = []
  · subst hNone
    have hTake := hHost.takeWhile hEnds
    unfold parseFile at h
    dsimp only at h
    rw [hFirst, hSecond, Bool.and_self, if_pos rfl, hTake]
      at h
    cases h
    refine ⟨hPath _, ?_⟩
    intro c hLast
    cases hLast
  · rw [parseFile_host hFirst hSecond hHost hNone hDrive
      hEnds] at h
    rcases Fallible.bind_eq_ok h with ⟨found, hFound, hUrl⟩
    constructor
    · dsimp only at hUrl
      split at hUrl
      · cases hUrl
        exact hPath _
      · cases hUrl
        exact hPath _
    · apply unblanked_of_ne
      intro front blanks hBlanks hSplit
      rcases Host.parseSpecial_blanks hBlanks front with
        ⟨error, hError⟩
      rw [hSplit, hError] at hFound
      cases hFound

end

/- How the path of a file URL is read. -/
theorem readsPath_file
    {after : List Char}
    (hAfter : Untailed after)
    {url : Url}
    (h : parseFile after = .ok url) :
    ReadsPath "file" after url := by
  by_cases hSlashes :
      ∃ a b rest, after = a :: b :: rest ∧
        (isSlash true a && isSlash true b) = true
  · rcases hSlashes with ⟨a, b, rest, hSplit, hBoth⟩
    subst hSplit
    rw [Bool.and_eq_true] at hBoth
    rcases exists_inside true rest with
      ⟨host, tail, hSplit, hHost, hEnds⟩
    subst hSplit
    have hRest : Untailed (host ++ tail) := fun c hMem =>
      hAfter c (List.mem_cons_of_mem _
        (List.mem_cons_of_mem _ hMem))
    have hTail : Untailed tail := fun c hMem =>
      hRest c (List.mem_append_right _ hMem)
    cases hDrive : isDriveLetter host with
    | true =>
        exact readsPath_drive hBoth.1 hBoth.2 hHost hEnds h
          hRest hDrive
    | false =>
        rcases path_of_parseFile hBoth.1 hBoth.2 hHost hEnds
          h hTail hDrive with ⟨hPath, hUnblanked⟩
        by_cases hNone : tail = []
        · subst hNone
          rw [List.append_nil]
          refine .bare rfl ?_ hPath
          have hLead :
              ∀ c ∈ [a, b], isSlash true c = true := by
            simp [hBoth.1, hBoth.2]
          exact hUnblanked.behind hLead
        · rcases exists_slash hEnds hTail hNone with
            ⟨slash, more, hTailSplit, hSlash⟩
          subst hTailSplit
          exact .behind (a :: b :: host) [] slash more rfl
            hSlash hPath
  · have hNone (a b : Char) (rest : List Char)
        (hSplit : after = a :: b :: rest) :
        (isSlash true a && isSlash true b) = false := by
      rw [Bool.eq_false_iff]
      intro hBoth
      exact hSlashes ⟨a, b, rest, hSplit, hBoth⟩
    rw [parseFile_plain hNone] at h
    cases h
    exact .whole (hasHost_nowhere _ _)
      (path_finishAfter "file" nowhere hAfter)

------------------------------------------------------------
-- Paths Behind an Authority
------------------------------------------------------------

/- Nothing is left of the authority of a special scheme. -/
theorem left_eq_nil
    {scheme : String}
    (hSpecial : isSpecial scheme = true)
    {text left : List Char}
    (hText : Inside true text)
    {authority : Authority}
    (h : parseAuthority scheme text = .ok (authority, left)) :
    left = [] := by
  have hSuffix := suffix_of_parseAuthority h
  rw [parseAuthority_eq] at h
  rcases Fallible.bind_eq_ok h with
    ⟨⟨user, named⟩, hUser, hRead⟩
  rcases Fallible.bind_eq_ok hRead with
    ⟨⟨host, more⟩, hHost, hPort⟩
  rw [hSpecial] at hUser
  have hInside := inside_of_splitUser hText hUser
  have hMore := (of_readHost hHost).2
  rw [hSpecial] at hMore
  rcases of_readPort hPort with ⟨port, hFound, _⟩
  have hLe := hostLength_le true false named
  rcases Nat.lt_or_eq_of_le hLe with hLess | hSame
  · have hHead := head?_drop_hostLength hInside hLess
    rw [← hMore] at hHead
    rcases List.head?_eq_some_iff.mp hHead with
      ⟨digits, hDigits⟩
    subst hDigits
    cases left with
    | nil => rfl
    | cons c rest =>
        have hEnd := of_parsePort_left hFound c rfl
        have hNot := hText c (hSuffix.subset List.mem_cons_self)
        rw [Bool.not_eq_false', hNot] at hEnd
        cases hEnd
  · rw [hSame, List.drop_length] at hMore
    subst hMore
    cases hFound
    rfl

/- No authority of a special scheme ends in a blank. -/
theorem unblanked_of_parseAuthority
    {scheme : String}
    (hSpecial : isSpecial scheme = true)
    {text : List Char}
    (hText : Inside true text)
    {found : Authority × List Char}
    (h : parseAuthority scheme text = .ok found) :
    Unblanked text := by
  apply unblanked_of_ne
  intro front blanks hBlanks hSplit
  have hFront : Inside true front := by
    intro c hMem
    apply hText
    rw [hSplit]
    exact List.mem_append_left _ hMem
  have hInside : Inside (isSpecial scheme) front := by
    rw [hSpecial]
    exact hFront
  rw [hSplit] at h
  rcases parseAuthority_last_blanks hInside hBlanks h with
    ⟨left, hSome, hRead, _⟩ | ⟨hPlain, _⟩
  · exact hSome (left_eq_nil hSpecial hFront hRead)
  · rw [hSpecial] at hPlain
    cases hPlain

/- How the path behind an authority is read. -/
theorem readsPath_authority
    {scheme : String}
    (hFile : (scheme == "file") = false)
    {lead text : List Char}
    (hLead :
      ∀ c ∈ lead, isSlash (isSpecial scheme) c = true)
    (hPlain : isSpecial scheme = false → lead = ['/', '/'])
    (hText : Untailed text)
    {authority : Authority}
    {left : List Char}
    (hRead :
      parseAuthority scheme text = .ok (authority, left)) :
    ReadsPath scheme (lead ++ text)
      (finishAfter scheme authority left) := by
  have hLeft : Untailed left := fun c hMem =>
    hText c ((suffix_of_parseAuthority hRead).subset hMem)
  have hPath := path_finishAfter scheme authority hLeft
  rcases exists_inside (isSpecial scheme) text with
    ⟨named, tail, hSplit, hInside, hEnds⟩
  subst hSplit
  by_cases hNone : tail = []
  · subst hNone
    rw [List.append_nil] at hRead ⊢
    cases hSpecial : isSpecial scheme with
    | false =>
        rw [hSpecial] at hInside
        rw [hPlain hSpecial]
        exact .authority named authority left hSpecial rfl
          hInside hRead rfl
    | true =>
        rw [hSpecial] at hInside hLead
        have hNil := left_eq_nil hSpecial hInside hRead
        have hUnblanked :=
          unblanked_of_parseAuthority hSpecial hInside hRead
        refine .bare hSpecial (hUnblanked.behind hLead) ?_
        rw [hPath, hNil, hSpecial, hFile]
        rfl
  · have hTail : Untailed tail := fun c hMem =>
      hText c (List.mem_append_right _ hMem)
    rcases exists_slash hEnds hTail hNone with
      ⟨slash, rest, hTailSplit, hSlash⟩
    subst hTailSplit
    have hNamed : named ≠ ['@'] := by
      intro hAt
      subst hAt
      rw [List.singleton_append,
        parseAuthority_at hEnds (.inl hNone)] at hRead
      cases hRead
    rw [parseAuthority_append hInside hNamed hEnds] at hRead
    rcases Fallible.map_eq_ok hRead with
      ⟨⟨found, own⟩, hFound, hSame⟩
    cases hSame
    rcases suffix_of_parseAuthority hFound with
      ⟨front, hFront⟩
    refine .behind (lead ++ front) own slash rest ?_ hSlash
      hPath
    rw [← hFront]
    simp

------------------------------------------------------------
-- Any Scheme
------------------------------------------------------------

/- How the path behind a scheme that is not special is read. -/
theorem readsPath_other
    {scheme : String}
    (hSpecial : isSpecial scheme = false)
    {after : List Char}
    (hAfter : Untailed after)
    {url : Url}
    (h : parseAfterScheme scheme after = .ok url) :
    ReadsPath scheme after url := by
  have hFile := not_file_of_not_special hSpecial
  by_cases hFirst : after.head? = some '/'
  · rcases List.head?_eq_some_iff.mp hFirst with
      ⟨rest, hSplit⟩
    subst hSplit
    have hRest : Untailed rest := fun c hMem =>
      hAfter c (List.mem_cons_of_mem _ hMem)
    by_cases hSecond : rest.head? = some '/'
    · rcases List.head?_eq_some_iff.mp hSecond with
        ⟨text, hSplit⟩
      subst hSplit
      rw [parseAfterScheme_authority hSpecial] at h
      rcases Fallible.map_eq_ok h with
        ⟨⟨authority, left⟩, hRead, hUrl⟩
      have hLead :
          ∀ c ∈ ['/', '/'],
            isSlash (isSpecial scheme) c = true := by
        intro c hMem
        have hSlash : c = '/' := by
          simpa using hMem
        rw [hSlash]
        rfl
      have hText : Untailed text := fun c hMem =>
        hRest c (List.mem_cons_of_mem _ hMem)
      rw [← hUrl]
      exact readsPath_authority hFile hLead (fun _ => rfl)
        hText hRead
    · rw [parseAfterScheme_root hSpecial hSecond] at h
      cases h
      refine .whole rfl ?_
      unfold finish
      rw [hRest.splitTail, hSpecial, hFile]
      rfl
  · rw [parseAfterScheme_verbatim hSpecial hFirst] at h
    cases h
    refine .verbatim hSpecial hFirst rfl ?_
    unfold finish
    rw [hAfter.splitTail]

/- How the path of a text behind a scheme is read. -/
theorem readsPath
    {scheme : String}
    {after : List Char}
    (hAfter : Untailed after)
    {url : Url}
    (h : parseAfterScheme scheme after = .ok url) :
    ReadsPath scheme after url := by
  cases hSpecial : isSpecial scheme with
  | false => exact readsPath_other hSpecial hAfter h
  | true =>
      cases hFile : scheme == "file" with
      | true =>
          rw [beq_iff_eq] at hFile
          subst hFile
          exact readsPath_file hAfter h
      | false =>
          rw [parseAfterScheme_special hFile hSpecial] at h
          rcases Fallible.map_eq_ok h with
            ⟨⟨authority, left⟩, hRead, hUrl⟩
          have hSplit := List.takeWhile_append_dropWhile
            (p := isSlash true) (l := after)
          rw [← hSplit, ← hUrl]
          apply readsPath_authority hFile _ _ _ hRead
          · rw [hSpecial]
            exact List.all_eq_true.mp List.all_takeWhile
          · intro hPlain
            rw [hSpecial] at hPlain
            cases hPlain
          · exact fun c hMem => hAfter c
              ((List.dropWhile_suffix _).subset hMem)

------------------------------------------------------------
-- Paths of Texts that End in Blanks
------------------------------------------------------------

namespace ReadsPath

variable {scheme : String}
variable {after blanks : List Char}
variable {url : Url}

/- The last name is no longer than the last segment. -/
theorem lastLength_le (h : ReadsPath scheme after url) :
    url.path.lastLength ≤
      Url.lastLength (isSpecial scheme) after := by
  cases h with
  | whole hHost hPath =>
      rw [hPath]
      exact lastLength_parsePath_le _ _ _
  | behind front own slash rest hAfter hSlash hPath =>
      rw [hPath, hAfter]
      exact Nat.le_trans (lastLength_parsePath_le _ _ _)
        (lastLength_le_append _ front _)
  | bare hSpecial hLast hPath =>
      rw [hPath]
      exact Nat.zero_le _
  | authority text authority left hSpecial hAfter hInside
      hRead hUrl =>
      rcases suffix_of_parseAuthority hRead with
        ⟨front, hText⟩
      have hLeft : Untailed left := fun c hMem =>
        hInside.untailed c
          ((suffix_of_parseAuthority hRead).subset hMem)
      rw [hUrl, path_finishAfter _ _ hLeft, hAfter, ← hText]
      exact Nat.le_trans (lastLength_parsePath_le _ _ _)
        (lastLength_le_append _ ('/' :: '/' :: front) left)
  | verbatim hSpecial hHead hHost hPath =>
      rw [hPath]
      exact Nat.zero_le _

/-
  Blanks at the end of a text are at the end of its path,
  unless they are in an authority or the path has no
  segments.
-/
theorem of_blanks
    (hBlanks : Blanks blanks)
    (h : ReadsPath scheme (after ++ blanks) url) :
    (url.path.lastLength =
        Url.lastLength (isSpecial scheme) (after ++ blanks) ∧
      (url.hasHost = true →
        ∃ front slash rest,
          after = front ++ slash :: rest ∧
          isSlash (isSpecial scheme) slash = true)) ∨
    (isSpecial scheme = false ∧
      ∃ text authority left,
        after = '/' :: '/' :: text ∧
        Inside false text ∧
        parseAuthority scheme (text ++ blanks) =
          .ok (authority, left) ∧
        url = finishAfter scheme authority left) ∨
    (isSpecial scheme = false ∧
      after.head? ≠ some '/' ∧
      url.hasHost = false ∧
      url.path =
        .verbatim
          (escape Host.isControl (after ++ blanks))) := by
  cases h with
  | whole hHost hPath =>
      refine .inl ⟨?_, ?_⟩
      · rw [hPath]
        exact lastLength_parsePath_blanks hBlanks _ _ _
      · intro hSome
        rw [hHost] at hSome
        cases hSome
  | behind front own slash rest hAfter hSlash hPath =>
      rw [← List.append_assoc] at hAfter
      rcases split_of_not_mem (hBlanks.not_mem_slash hSlash)
        hAfter with ⟨more, hSplit, hRest⟩
      refine .inl ⟨?_, fun _ => ⟨_, slash, more, hSplit,
        hSlash⟩⟩
      have hOwn :
          own ++ slash :: rest =
            own ++ slash :: more ++ blanks := by
        rw [hRest, List.append_assoc]
        rfl
      rw [hPath, hAfter, lastLength_slash hSlash, hOwn,
        lastLength_parsePath_blanks hBlanks, ← hOwn,
        lastLength_slash hSlash]
  | bare hSpecial hLast hPath =>
      have hBlank :=
        hBlanks.outer _ (List.getLast_mem hBlanks.some)
      rw [hLast (blanks.getLast hBlanks.some)] at hBlank
      · cases hBlank
      · rw [List.getLast?_append,
          List.getLast?_eq_some_getLast hBlanks.some,
          Option.some_or]
  | authority text authority left hSpecial hAfter hInside
      hRead hUrl =>
      have hSlash : isSlash false '/' = true := rfl
      have hNot := hBlanks.not_mem_slash hSlash
      have hFirst :
          after ++ blanks = [] ++ '/' :: '/' :: text := hAfter
      rcases split_of_not_mem hNot hFirst with
        ⟨more, hMore, hSecond⟩
      have hBehind : more ++ blanks = [] ++ '/' :: text :=
        hSecond.symm
      rcases split_of_not_mem hNot hBehind with
        ⟨own, hOwn, hText⟩
      rw [hOwn] at hMore
      rw [hText] at hInside hRead
      exact .inr (.inl ⟨hSpecial, own, authority, left, hMore,
        fun c hMem =>
          hInside c (List.mem_append_left _ hMem),
        hRead, hUrl⟩)
  | verbatim hSpecial hHead hHost hPath =>
      refine .inr (.inr ⟨hSpecial, ?_, hHost, hPath⟩)
      intro hSlash
      apply hHead
      rw [List.head?_append, hSlash]
      rfl

/- A path behind a host has segments. -/
theorem exists_segments
    (h : ReadsPath scheme after url)
    (hHost : url.hasHost = true) :
    ∃ names, url.path = .segments names := by
  cases h with
  | whole hNone hPath => exact ⟨_, hPath⟩
  | behind front own slash rest hAfter hSlash hPath =>
      exact ⟨_, hPath⟩
  | bare hSpecial hLast hPath => exact ⟨_, hPath⟩
  | authority text authority left hSpecial hAfter hInside
      hRead hUrl =>
      rw [hUrl]
      exact ⟨_, rfl⟩
  | verbatim hSpecial hHead hNone hPath =>
      rw [hNone] at hHost
      cases hHost

end ReadsPath

/- With a host there are two slashes behind the scheme. -/
theorem exists_of_hasHost
    {scheme : String}
    (hSpecial : isSpecial scheme = false)
    {after : List Char}
    {url : Url}
    (h : parseAfterScheme scheme after = .ok url)
    (hHost : url.hasHost = true) :
    ∃ text, after = '/' :: '/' :: text := by
  by_cases hFirst : after.head? = some '/'
  · rcases List.head?_eq_some_iff.mp hFirst with
      ⟨rest, hSplit⟩
    subst hSplit
    by_cases hSecond : rest.head? = some '/'
    · rcases List.head?_eq_some_iff.mp hSecond with
        ⟨text, hSplit⟩
      rw [hSplit]
      exact ⟨text, rfl⟩
    · rw [parseAfterScheme_root hSpecial hSecond] at h
      cases h
      cases hHost
  · rw [parseAfterScheme_verbatim hSpecial hFirst] at h
    cases h
    cases hHost

end Url

end ServiceCalls
