import ServiceCalls.Proofs.Url.Tailed

/-
  Paths that are put behind the path of a base.

  Behind a base with a query or a fragment a text does not
  become part of the path, and behind blanks it becomes part
  of a longer one.  Behind any other base it follows what is
  ahead of it, which is the path of the base if that has one
  slash at its end.

  Key definitions include:
    * `Url.IsUnder`
    * `Url.PlainPath`

  Main declarations:
    * `Url.untailed_of_path`
    * `Url.endsInBlank_of_path`
    * `Url.exists_urls_below`
    * `Url.isUnder_iff`
-/

namespace ServiceCalls

namespace Url

------------------------------------------------------------
-- Paths Put Behind a Path
------------------------------------------------------------

/-
  A URL with the origin and the query of another, and with a
  text put behind its path.
-/
structure IsUnder
    (home : Url)
    (text : List Char)
    (url : Url) :
    Prop where
  origin : url.origin = home.origin
  path :
    url.path.render.toList = trimmedPath home.path ++ text
  query : url.query = home.query

/- A text behind a slash whose segments are their names. -/
structure PlainPath (special : Bool) (text : List Char) :
    Prop where
  some : text ≠ []
  clear : Clear text
  trails : Trails special text
  written :
    pathText (segmentNames special text) = '/' :: text
  noDrive :
    ∀ name ∈ segmentNames special text,
      isNormalDrive name = false

theorem clear_nil : Clear [] := by
  intro c hMem
  cases hMem

theorem Trails.stops_slash
    {special : Bool}
    {text : List Char}
    (h : Trails special text) :
    Text.Stops (· == '/') text := by
  intro c hHead
  have hNot := h.starts c hHead
  unfold isSlash at hNot
  rw [Bool.or_eq_false_iff] at hNot
  exact hNot.1

/- A text ends in two slashes if one is put behind one. -/
theorem slashes_suffix_iff (text : List Char) :
    "//".toList <:+ text ++ ['/'] ↔
      trimSlashes text ≠ text := by
  have hBoth : "//".toList = ['/'] ++ ['/'] := rfl
  constructor
  · rintro ⟨front, hText⟩ hSame
    rw [hBoth, ← List.append_assoc] at hText
    have hLast : text.getLast? = some '/' := by
      rw [← List.append_cancel_right hText,
        List.getLast?_concat]
    rw [← hSame] at hLast
    exact absurd (Text.getLast?_dropWhileEnd hLast)
      (by decide)
  · intro hOther
    rcases exists_trimSlashes text with
      ⟨slashes, hSlashes, hSplit⟩
    cases hSome : slashes.getLast? with
    | none =>
        rw [List.getLast?_eq_none_iff.mp hSome,
          List.append_nil] at hSplit
        exact absurd hSplit.symm hOther
    | some last =>
        rcases List.getLast?_eq_some_iff.mp hSome with
          ⟨front, hFront⟩
        have hSlash := hSlashes last (by simp [hFront])
        refine ⟨trimSlashes text ++ front, ?_⟩
        conv => rhs; rw [hSplit, hFront, hSlash]
        simp [hBoth]

------------------------------------------------------------
-- Bases with a Query, a Fragment or Blanks
------------------------------------------------------------

section

variable {base text : List Char}
variable {home url : Url}

/- Behind a query or a fragment a text leaves the path. -/
theorem untailed_of_path
    [DomainNames]
    (hHome : parseChars base = .ok home)
    {special : Bool}
    (hText : PlainPath special text)
    (hUrl :
      parseChars (trimSlashes base ++ '/' :: text) =
        .ok url)
    (hPath :
      url.path.render.toList =
        trimmedPath home.path ++ '/' :: text) :
    Untailed base := by
  rcases exists_splitTail base with
    ⟨front, tail, hSplit, _, hFront, hTail⟩
  cases tail with
  | nil =>
      rw [hSplit, List.append_nil]
      exact hFront
  | cons mark rest =>
      have hMark := hTail mark rfl
      have hNoSlash : (mark == '/') = false := by
        rcases hMark with h | h
        all_goals
          subst h
          rfl
      rw [hSplit] at hHome hUrl
      unfold trimSlashes at hUrl
      rw [Text.dropWhileEnd_append_cons (p := (· == '/'))
          hNoSlash, List.append_assoc, List.cons_append]
        at hUrl
      have hSame := path_of_marks hFront hMark hHome hUrl
      rcases exists_trimSlashes home.path.render.toList with
        ⟨slashes, hSlashes, hRender⟩
      rw [hSame] at hPath
      have hBoth : slashes = '/' :: text :=
        List.append_cancel_left (hRender.symm.trans hPath)
      -- Only slashes are missing from the path of the base.
      cases hCons : text with
      | nil => exact absurd hCons hText.some
      | cons c more =>
          have hStop := hText.trails.stops_slash c
            (by rw [hCons]; rfl)
          have hSlash := hSlashes c (by simp [hBoth, hCons])
          subst hSlash
          cases hStop

/- Blanks at the end of a base are written in the path. -/
theorem endsInBlank_of_path
    [DomainNames]
    (hHome : parseChars base = .ok home)
    (hHost : home.hasHost = true)
    (hQuery : home.query = none)
    (hFragment : home.fragment = none)
    (hText : PlainPath (isSpecial home.scheme) text)
    (hUrl :
      parseChars (trimSlashes base ++ '/' :: text) =
        .ok url)
    (hOrigin : url.origin = home.origin)
    (hPath :
      url.path.render.toList =
        trimmedPath home.path ++ '/' :: text) :
    endsInBlank base = false := by
  rw [Bool.eq_false_iff]
  intro hEnd
  rcases path_of_blanks hHome hHost hQuery hFragment hEnd
    hText.clear hUrl hOrigin with
    ⟨front, blanks, hFront, hBlanks, hHomePath, hUrlPath⟩
  have hLonger := length_ahead_blanks
    (isSpecial home.scheme) (home.scheme == "file") hFront
    hBlanks
  rw [hUrlPath, parsePath_append hText.trails,
    render_segments, pathText_append, hText.written] at hPath
  have hAhead := List.append_cancel_right hPath
  rcases exists_trimSlashes home.path.render.toList with
    ⟨slashes, _, hRender⟩
  have hShorter := congrArg List.length hRender
  change _ = (trimmedPath home.path ++ slashes).length
    at hShorter
  rw [← hAhead, List.length_append, hHomePath,
    render_segments] at hShorter
  unfold ahead at hLonger
  omega

end

------------------------------------------------------------
-- Paths Below a Base
------------------------------------------------------------

theorem special_of_file
    {scheme : String}
    (h : (scheme == "file") = true) :
    isSpecial scheme = true := by
  rw [beq_iff_eq] at h
  subst h
  rfl

/- A normal drive letter is a drive letter. -/
theorem isNormalDrive_ofList
    {text : List Char}
    (h : isDriveLetter text = false) :
    isNormalDrive (String.ofList text) = false := by
  unfold isNormalDrive
  rw [String.toList_ofList]
  split
  · simpa [isDriveLetter] using h
  · rfl

/- Names that are no drives do not make a path one. -/
theorem startsWithDrive_append
    {url : Url}
    {names rest : List String}
    (hPath : url.path = .segments (names ++ rest))
    (hRest : ∀ name ∈ rest, isNormalDrive name = false) :
    url.startsWithDrive = names.head?.any isNormalDrive := by
  unfold startsWithDrive
  rw [hPath]
  cases names with
  | cons first more => rfl
  | nil =>
      cases rest with
      | nil => rfl
      | cons first more => exact hRest _ List.mem_cons_self

section

variable [DomainNames]
variable {base : List Char}
variable {home : Url}
variable (hHome : parseChars base = .ok home)
variable (hHost : home.hasHost = true)
include hHome hHost

/-
  A path below a base that ends in no blank is read, and
  what is ahead of it is the path of the base up to empty
  names at its end.
-/
theorem exists_below
    (hQuery : home.query = none)
    (hFragment : home.fragment = none)
    (hEnd : endsInBlank base = false) :
    ∃ names empties,
      (∀ name ∈ empties, name = "") ∧
      home.path = .segments (names ++ empties) ∧
      ∀ text, Clear text →
        Trails (isSpecial home.scheme) text →
        ∃ url,
          parseChars (trimSlashes base ++ '/' :: text) =
            .ok url ∧
          url.path = .segments
            (names ++
              segmentNames (isSpecial home.scheme) text) := by
  rcases exists_readsBelow hHome hHost hQuery hFragment with
    ⟨outcome, hReads, hPlain⟩
  rcases hPlain hEnd with
    ⟨lead, slashes, hOutcome, hSlashes, hPath⟩
  rcases exists_ahead_empties special_of_file lead hSlashes
    with ⟨empties, hEmpties, hNames⟩
  refine ⟨_, empties, hEmpties, hPath.trans
    (congrArg Path.segments hNames), ?_⟩
  intro text hText hTrails
  have hBelow := hReads text hText
  rw [hOutcome] at hBelow
  rcases Fallible.map_eq_ok hBelow with ⟨url, hUrl, hSame⟩
  dsimp only at hSame
  rw [parsePath_append hTrails] at hSame
  exact ⟨url, hUrl, hSame⟩

/- A file with a host has no drive letter. -/
theorem startsWithDrive_of_hasHost
    (hFile : home.scheme = "file") :
    home.startsWithDrive = false := by
  have hUrl : parseChars (joinUrl base []) = .ok home := by
    rw [joinUrl_nil]
    exact hHome
  have hSame := (origin_joinUrl_iff hHome hHost hUrl).mp rfl
  rw [Bool.eq_false_iff]
  intro hDrive
  exact hSame.1 ⟨hFile, hDrive⟩

/- A path below a base that does not take a drive stays. -/
theorem origin_below
    (hEnd : endsInBlank base = false)
    {special : Bool}
    {text : List Char}
    (hText : PlainPath special text)
    {url : Url}
    (hUrl :
      parseChars (trimSlashes base ++ '/' :: text) =
        .ok url)
    (hDrive : url.startsWithDrive = home.startsWithDrive) :
    url.origin = home.origin := by
  have hBase : base ≠ [] := by
    intro hNone
    subst hNone
    cases hHome
  have hJoined :
      parseChars (joinUrl base ('/' :: text)) = .ok url := by
    rw [joinUrl_below hBase,
      Text.dropWhile_stops hText.trails.stops_slash]
    exact hUrl
  rw [origin_joinUrl_iff hHome hHost hJoined]
  constructor
  · rintro ⟨hFile, hStarts⟩
    rw [hDrive, startsWithDrive_of_hasHost hHome hHost
      hFile] at hStarts
    cases hStarts
  · rintro ⟨_, _, _, hBlank⟩
    rw [hEnd] at hBlank
    cases hBlank

/-
  Below a base without query, fragment and blanks there is a
  URL for a path.  It has the path behind that of the base
  exactly if the base has one slash when it is given one.
-/
theorem exists_urls_below
    (hQuery : home.query = none)
    (hFragment : home.fragment = none)
    (hEnd : endsInBlank base = false)
    {text : List Char}
    (hText : PlainPath (isSpecial home.scheme) text) :
    ∃ url dir,
      parseChars (trimSlashes base ++ '/' :: text) =
        .ok url ∧
      parseChars (trimSlashes base ++ ['/']) = .ok dir ∧
      url.startsWithDrive = home.startsWithDrive ∧
      (url.path.render.toList =
          trimmedPath home.path ++ '/' :: text ↔
        ¬"//".toList <:+ dir.path.render.toList) := by
  rcases exists_below hHome hHost hQuery hFragment hEnd with
    ⟨names, empties, hEmpties, hHomePath, hBelow⟩
  rcases hBelow text hText.clear hText.trails with
    ⟨url, hUrl, hUrlPath⟩
  rcases hBelow [] clear_nil (trails_nil _) with
    ⟨dir, hDir, hDirPath⟩
  have hNone :
      ∀ name ∈ empties, isNormalDrive name = false := by
    intro name hMem
    rw [hEmpties name hMem]
    rfl
  have hDirText :
      dir.path.render.toList = pathText names ++ ['/'] := by
    rw [hDirPath, render_segments, pathText_append]
    rfl
  refine ⟨url, dir, hUrl, hDir, ?_, ?_⟩
  · rw [startsWithDrive_append hUrlPath hText.noDrive,
      startsWithDrive_append hHomePath hNone]
  · rw [hUrlPath, hHomePath, hDirText, render_segments,
      pathText_append, hText.written,
      List.append_cancel_right_eq,
      trimmedPath_append names hEmpties, slashes_suffix_iff,
      ne_eq, Classical.not_not]
    exact eq_comm

/-
  A path is put behind the path of a base, and all else is
  as it was, exactly if the base has no query, no fragment
  and no blank at its end, and has one slash there when it
  is given one.
-/
theorem isUnder_iff
    {text : List Char}
    (hText : PlainPath (isSpecial home.scheme) text) :
    (∃ url,
        parseChars (trimSlashes base ++ '/' :: text) =
          .ok url ∧
        IsUnder home ('/' :: text) url) ↔
      home.query = none ∧
      home.fragment = none ∧
      endsInBlank base = false ∧
      ∃ dir,
        parseChars (trimSlashes base ++ ['/']) = .ok dir ∧
        ¬"//".toList <:+ dir.path.render.toList := by
  constructor
  · rintro ⟨url, hUrl, hUnder⟩
    have hUntailed :=
      untailed_of_path hHome hText hUrl hUnder.path
    have hTail := query_of_parseChars hUntailed hHome
    have hEnd := endsInBlank_of_path hHome hHost hTail.1
      hTail.2 hText hUrl hUnder.origin hUnder.path
    rcases exists_urls_below hHome hHost hTail.1 hTail.2
      hEnd hText with ⟨other, dir, hOther, hDir, _, hIff⟩
    rw [hUrl] at hOther
    cases hOther
    exact ⟨hTail.1, hTail.2, hEnd, dir, hDir,
      hIff.mp hUnder.path⟩
  · rintro ⟨hQuery, hFragment, hEnd, dir, hDir, hSlashes⟩
    rcases exists_urls_below hHome hHost hQuery hFragment
      hEnd hText with ⟨url, other, hUrl, hOther, hDrive, hIff⟩
    rw [hDir] at hOther
    cases hOther
    refine ⟨url, hUrl, ?_, hIff.mpr hSlashes, ?_⟩
    · exact origin_below hHome hHost hEnd hText hUrl hDrive
    · have hUntailed := (untailed_of_parseChars hHome hQuery
        hFragment).trimSlashes.append
          hText.clear.untailed.cons_slash
      rw [(query_of_parseChars hUntailed hUrl).1, hQuery]

end

end Url

end ServiceCalls
