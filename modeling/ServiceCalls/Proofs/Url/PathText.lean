import ServiceCalls.Proofs.Url.Below
import ServiceCalls.Proofs.Url.Dots
import ServiceCalls.Proofs.Url.Segments

/-
  Paths as they are written, and what is read ahead of the
  texts that continue them.

  Slashes at the end of a path make no difference to what is
  ahead of a text that continues it.  Blanks do: what is
  ahead is longer then than the path was by itself.

  Key definitions include:
    * `Url.pathText`
    * `Url.trimmedPath`
    * `Url.ahead`

  Main declarations:
    * `Url.exists_ahead_empties`
    * `Url.trimmedPath_append`
    * `Url.length_ahead_blanks`
-/

namespace ServiceCalls

namespace Url

------------------------------------------------------------
-- Written Paths
------------------------------------------------------------

/- Names as they are written in a path. -/
def pathText (names : List String) : List Char :=
  names.flatMap fun name => '/' :: name.toList

/- A written path without the slashes at its end. -/
def trimmedPath (path : Path) : List Char :=
  trimSlashes path.render.toList

theorem render_segments (names : List String) :
    (Path.segments names).render.toList =
      pathText names := by
  simp [Path.render, pathText, String.toList_join,
    List.flatMap_map]

theorem pathText_append (front back : List String) :
    pathText (front ++ back) =
      pathText front ++ pathText back :=
  List.flatMap_append

/- Empty names are slashes. -/
theorem pathText_empties
    {empties : List String}
    (h : ∀ name ∈ empties, name = "") :
    ∀ c ∈ pathText empties, (c == '/') = true := by
  intro c hMem
  rcases List.mem_flatMap.mp hMem with ⟨name, hName, hc⟩
  rw [h name hName] at hc
  rw [List.mem_singleton.mp hc]
  rfl

------------------------------------------------------------
-- Paths with Slashes at the End
------------------------------------------------------------

/- The last segment of a path leaves at most a slash. -/
theorem exists_addSegments
    (file : Bool)
    (path : List String)
    {segments : List (List Char)}
    (h : segments ≠ []) :
    ∃ empties,
      (∀ name ∈ empties, name = "") ∧
      addSegments file path segments =
        segments.foldl (takeSegment file) path ++
          empties := by
  have hEmpty : ∀ name ∈ [""], name = "" :=
    fun _ hMem => List.mem_singleton.mp hMem
  have hNone : ∀ name ∈ ([] : List String), name = "" :=
    fun _ hMem => absurd hMem List.not_mem_nil
  rw [← List.dropLast_concat_getLast h,
    addSegments_append _ _ _ (List.cons_ne_nil _ _),
    List.foldl_append]
  generalize segments.dropLast.foldl _ path = before
  generalize segments.getLast h = last
  simp only [addSegments, takeSegment, List.foldl_cons,
    List.foldl_nil]
  split
  · exact ⟨[""], hEmpty, rfl⟩
  · split
    · exact ⟨[""], hEmpty, rfl⟩
    · exact ⟨[], hNone, (List.append_nil _).symm⟩

/- Slashes have empty segments between them. -/
theorem splitBy_slashes
    (special : Bool)
    {slashes : List Char}
    (h : ∀ c ∈ slashes, c = '/') :
    ∀ segment ∈ Text.splitBy (isSlash special) slashes,
      segment = [] := by
  induction slashes with
  | nil => exact fun _ hMem => List.mem_singleton.mp hMem
  | cons c rest ih =>
      rw [List.forall_mem_cons] at h
      have hSlash : isSlash special c = true := by
        rw [h.1]
        rfl
      rw [Text.splitBy_cons_separator hSlash,
        List.forall_mem_cons]
      exact ⟨rfl, ih h.2⟩

theorem exists_taken_empties
    {special file : Bool}
    (hFile : file = true → special = true)
    (front : List Char)
    {slashes : List Char}
    (hSlashes : ∀ c ∈ slashes, c = '/') :
    ∃ empties,
      (∀ name ∈ empties, name = "") ∧
      parsePath special file (front ++ slashes) =
        withoutEmpty file
          (taken special file front ++ empties) := by
  cases slashes with
  | cons c rest =>
      rw [List.forall_mem_cons] at hSlashes
      rcases hSlashes with ⟨hSlash, hRest⟩
      subst hSlash
      have hPieces := splitBy_slashes special hRest
      have hSettled :
          ∀ segment ∈ Text.splitBy (isSlash special) rest,
            Settled segment := by
        intro segment hMem
        rw [hPieces segment hMem]
        exact settled_nil
      refine ⟨segmentNames special rest, ?_, ?_⟩
      · intro name hMem
        rcases List.mem_map.mp hMem with
          ⟨segment, hSegment, hName⟩
        rw [← hName, hPieces segment hSegment]
        rfl
      · rw [parsePath_of_ne_nil _ _ (by simp),
          leadSegments_append,
          addSegments_append _ _ _ (splitBy_ne_nil _ _),
          addSegments_of_settled _ _ hSettled]
        rfl
  | nil =>
      rw [List.append_nil]
      by_cases hFront : front = []
      · subst hFront
        cases special with
        | true =>
            refine ⟨[""], fun _ hMem =>
              List.mem_singleton.mp hMem, ?_⟩
            cases file <;> rfl
        | false =>
            have hPlain : file = false := by
              rw [Bool.eq_false_iff]
              intro hSome
              cases hFile hSome
            subst hPlain
            exact ⟨[], fun _ hMem =>
              absurd hMem List.not_mem_nil, rfl⟩
      · have hSome : leadSegments special front ≠ [] := by
          cases front with
          | nil => exact absurd rfl hFront
          | cons c rest => exact splitBy_ne_nil _ _
        rcases exists_addSegments file [] hSome with
          ⟨empties, hEmpties, hPath⟩
        refine ⟨empties, hEmpties, ?_⟩
        rw [parsePath_of_ne_nil _ _ hFront, hPath]
        rfl

/- Of a path that ends in empty names only those are lost. -/
theorem exists_stripped_empties
    (file : Bool)
    (path : List String)
    {empties : List String}
    (h : ∀ name ∈ empties, name = "") :
    ∃ more,
      (∀ name ∈ more, name = "") ∧
      withoutEmpty file (path ++ empties) =
        stripped file path ++ more := by
  cases file with
  | false => exact ⟨empties, h, rfl⟩
  | true =>
      unfold withoutEmpty stripped
      rw [if_pos rfl, if_pos rfl, List.dropWhile_append]
      cases hPath : path.dropWhile (·.isEmpty) with
      | cons first rest => exact ⟨empties, h, rfl⟩
      | nil =>
          have hRun :
              ∀ name ∈ empties, name.isEmpty = true := by
            intro name hMem
            rw [h name hMem]
            rfl
          have hDrop :=
            Text.dropWhile_append_stop hRun Text.stops_nil
          rw [List.append_nil] at hDrop
          refine ⟨[""], fun _ hMem =>
            List.mem_singleton.mp hMem, ?_⟩
          rw [List.isEmpty_nil, if_pos rfl, hDrop]
          rfl

/- The names ahead of a text that continues another. -/
def ahead (special file : Bool) (front : List Char) :
    List String :=
  stripped file (taken special file front)

/-
  A path with slashes at its end: what is ahead of a text
  that continues it, and empty names.
-/
theorem exists_ahead_empties
    {special file : Bool}
    (hFile : file = true → special = true)
    (front : List Char)
    {slashes : List Char}
    (hSlashes : ∀ c ∈ slashes, c = '/') :
    ∃ empties,
      (∀ name ∈ empties, name = "") ∧
      parsePath special file (front ++ slashes) =
        ahead special file front ++ empties := by
  rcases exists_taken_empties hFile front hSlashes with
    ⟨some, hSome, hPath⟩
  rcases exists_stripped_empties file
    (taken special file front) hSome with
    ⟨empties, hEmpties, hStripped⟩
  exact ⟨empties, hEmpties, hPath.trans hStripped⟩

/- Without its last slashes a path is what is ahead of it. -/
theorem trimmedPath_append
    (names : List String)
    {empties : List String}
    (h : ∀ name ∈ empties, name = "") :
    trimmedPath (.segments (names ++ empties)) =
      trimSlashes (pathText names) := by
  unfold trimmedPath trimSlashes
  rw [render_segments, pathText_append,
    Text.dropWhileEnd_append_run (pathText_empties h)]

------------------------------------------------------------
-- Paths with Blanks at the End
------------------------------------------------------------

/- What holds no separator belongs to the last piece. -/
theorem exists_splitBy_append
    {p : Char → Bool}
    {more : List Char}
    (h : ∀ c ∈ more, p c = false)
    (text : List Char) :
    ∃ before last,
      Text.splitBy p text = before ++ [last] ∧
      Text.splitBy p (text ++ more) =
        before ++ [last ++ more] := by
  induction text with
  | nil => exact ⟨[], [], rfl, Text.splitBy_of_none h⟩
  | cons c rest ih =>
      rcases ih with ⟨before, last, hRest, hMore⟩
      rw [List.cons_append]
      cases hc : p c with
      | true =>
          refine ⟨[] :: before, last, ?_, ?_⟩
          · rw [Text.splitBy_cons_separator hc, hRest]
            rfl
          · rw [Text.splitBy_cons_separator hc, hMore]
            rfl
      | false =>
          cases before with
          | nil =>
              exact ⟨[], c :: last,
                Text.splitBy_cons hc hRest,
                Text.splitBy_cons hc hMore⟩
          | cons piece pieces =>
              exact ⟨(c :: piece) :: pieces, last,
                Text.splitBy_cons hc hRest,
                Text.splitBy_cons hc hMore⟩

theorem Blanks.noSlash
    {blanks : List Char}
    (h : Blanks blanks)
    (special : Bool) :
    ∀ c ∈ blanks, isSlash special c = false := by
  intro c hMem
  have hInside := h.inside special c hMem
  simp only [endsAuthority, Bool.or_eq_false_iff]
    at hInside
  unfold isSlash
  rw [hInside.1.1.1, hInside.2]
  rfl

/- Blanks belong to the last segment of a text. -/
theorem exists_leadSegments_blanks
    (special : Bool)
    {text blanks : List Char}
    (hSome : text ≠ [])
    (hBlanks : Blanks blanks) :
    ∃ before last,
      leadSegments special text = before ++ [last] ∧
      leadSegments special (text ++ blanks) =
        before ++ [last ++ blanks] := by
  cases text with
  | nil => exact absurd rfl hSome
  | cons c rest =>
      unfold leadSegments
      rw [List.cons_append]
      dsimp only
      split
      · exact exists_splitBy_append
          (hBlanks.noSlash special) rest
      · exact exists_splitBy_append
          (hBlanks.noSlash special) (c :: rest)

/- A segment that ends in a blank stays where it is. -/
theorem settled_blanks
    {blanks : List Char}
    (hBlanks : Blanks blanks)
    (segment : List Char) :
    Settled (segment ++ blanks) := by
  have hOuter :=
    hBlanks.outer _ (List.getLast_mem hBlanks.some)
  have hLast :
      (segment ++ blanks).getLast? =
        some (blanks.getLast hBlanks.some) := by
    rw [List.getLast?_append,
      List.getLast?_eq_some_getLast hBlanks.some,
      Option.some_or]
  have hNot (dot front : List Char)
      (hDot : IsDot dot) :
      segment ++ blanks ≠ front ++ dot := by
    intro hSame
    have hEnd := congrArg List.getLast? hSame
    rw [hLast, List.getLast?_append] at hEnd
    rcases hDot with h | h | h
    all_goals
      subst h
      exact Host.ne_of_isOuterBlank hOuter (by decide)
        (Option.some.inj hEnd)
  refine ⟨?_, ?_, isDriveLetter_blanks hBlanks segment⟩
  · rw [Bool.eq_false_iff]
    intro hSingle
    exact hNot _ [] ((isSingleDot_iff _).mp hSingle) rfl
  · rw [Bool.eq_false_iff]
    intro hDouble
    rcases (isDoubleDot_iff _).mp hDouble with
      ⟨front, dot, hSplit, _, hDot⟩
    exact hNot dot front hDot hSplit

/- What is written for a text grows with the text. -/
theorem length_escape_lt
    (escaped : Char → Bool)
    (text : List Char)
    {more : List Char}
    (h : more ≠ []) :
    (escape escaped text).toList.length <
      (escape escaped (text ++ more)).toList.length := by
  have hSome := List.length_pos_iff.mpr
    (Host.escapeChars_ne_nil h escaped)
  unfold escape
  rw [String.toList_ofList, String.toList_ofList,
    Text.escapeChars_append, List.length_append]
  omega

theorem isPrefix_shorten (file : Bool) (path : List String) :
    shorten file path <+: path := by
  unfold shorten
  split
  · split
    · exact List.prefix_refl _
    · exact List.nil_prefix
  · exact List.dropLast_prefix _

/- The bar of a drive letter takes the place of a colon. -/
theorem length_addSegment
    (file : Bool)
    (path : List String)
    (segment : List Char) :
    ∃ name,
      addSegment file path segment = path ++ [name] ∧
      name.toList.length ≤
        (escape escapedInPath segment).toList.length := by
  have hMark (letter mark : Char)
      (hMark : mark = ':' ∨ mark = '|') :
      (escape escapedInPath
          ([letter] ++ [':'])).toList.length ≤
        (escape escapedInPath
          [letter, mark]).toList.length := by
    unfold escape Text.escapeChars
    rw [String.toList_ofList, String.toList_ofList,
      List.flatMap_append, List.flatMap_cons,
      List.length_append, List.length_append]
    rcases hMark with h | h
    all_goals
      subst h
      simp [escapedInPath, escapedInFragment, Host.isControl]
  unfold addSegment
  refine ⟨_, rfl, ?_⟩
  split
  · next hDrive =>
      rw [Bool.and_eq_true] at hDrive
      have hLetter := hDrive.2
      unfold isDriveLetter at hLetter
      split at hLetter
      · next letter mark =>
          rw [Bool.and_eq_true, Bool.or_eq_true,
            beq_iff_eq, beq_iff_eq] at hLetter
          exact hMark letter mark hLetter.2
      · cases hLetter
  · exact Nat.le_refl _

/- The last name of a path is no longer than its segment. -/
theorem exists_last_name
    (file : Bool)
    (path : List String)
    (segment : List Char) :
    ∃ names name,
      addSegments file path [segment] = names ++ [name] ∧
      names <+: path ∧
      name.toList.length ≤
        (escape escapedInPath segment).toList.length := by
  unfold addSegments
  split
  · exact ⟨_, "", rfl, isPrefix_shorten file path,
      Nat.zero_le _⟩
  · split
    · exact ⟨path, "", rfl, List.prefix_refl _,
        Nat.zero_le _⟩
    · rcases length_addSegment file path segment with
        ⟨name, hPath, hLength⟩
      exact ⟨path, name, hPath, List.prefix_refl _, hLength⟩

theorem length_pathText_of_prefix
    {front names : List String}
    (h : front <+: names) :
    (pathText front).length ≤ (pathText names).length := by
  rcases h with ⟨rest, hNames⟩
  rw [← hNames, pathText_append, List.length_append]
  omega

theorem isPrefix_stripped
    (file : Bool)
    {front names : List String}
    (h : front <+: names) :
    stripped file front <+: stripped file names := by
  rcases h with ⟨rest, hNames⟩
  rw [← hNames]
  cases file with
  | false => exact List.prefix_append _ _
  | true =>
      unfold stripped
      rw [if_pos rfl, if_pos rfl, List.dropWhile_append]
      cases front.dropWhile (·.isEmpty) with
      | nil => exact List.nil_prefix
      | cons first more => exact List.prefix_append _ _

/- A path that a name ends keeps the name. -/
theorem stripped_concat
    (file : Bool)
    (names : List String)
    {name : String}
    (h : name.isEmpty = false) :
    stripped file (names ++ [name]) =
      stripped file names ++ [name] := by
  cases file with
  | false => rfl
  | true =>
      unfold stripped
      rw [if_pos rfl, if_pos rfl, List.dropWhile_append]
      split
      · next hNone =>
          rw [List.isEmpty_iff.mp hNone,
            List.dropWhile_cons_of_neg (by simp [h])]
          rfl
      · rfl

/- The last name of a path is never lost. -/
theorem withoutEmpty_concat
    (file : Bool)
    (names : List String)
    (name : String) :
    withoutEmpty file (names ++ [name]) =
      stripped file names ++ [name] := by
  cases file with
  | false => rfl
  | true =>
      unfold withoutEmpty stripped
      rw [if_pos rfl, if_pos rfl, List.dropWhile_append]
      cases names.dropWhile (·.isEmpty) with
      | cons first rest => rfl
      | nil =>
          rw [List.isEmpty_nil, if_pos rfl]
          cases hName : name.isEmpty with
          | false =>
              rw [List.dropWhile_cons_of_neg (by simp [hName])]
              rfl
          | true =>
              rw [List.dropWhile_cons_of_pos hName,
                String.isEmpty_iff.mp hName]
              rfl

theorem length_pathText_concat
    (names : List String)
    (name : String) :
    (pathText (names ++ [name])).length =
      (pathText names).length + name.toList.length + 1 := by
  simp [pathText]
  omega

/- With blanks at its end a text has a longer path ahead. -/
theorem length_ahead_blanks
    (special file : Bool)
    {text blanks : List Char}
    (hSome : text ≠ [])
    (hBlanks : Blanks blanks) :
    (pathText (parsePath special file text)).length <
      (pathText
        (ahead special file (text ++ blanks))).length := by
  rcases exists_leadSegments_blanks special hSome hBlanks
    with ⟨before, last, hText, hMore⟩
  rcases exists_last_name file
    (before.foldl (takeSegment file) []) last with
    ⟨names, name, hNames, hPrefix, hLength⟩
  have hPath :
      parsePath special file text =
        stripped file names ++ [name] := by
    rw [parsePath_of_ne_nil _ _ hSome, hText,
      addSegments_append _ _ _ (List.cons_ne_nil _ _),
      hNames, withoutEmpty_concat]
  have hSettled := settled_blanks hBlanks last
  have hLonger :=
    length_escape_lt escapedInPath last hBlanks.some
  have hNotEmpty :
      (escape escapedInPath (last ++ blanks)).isEmpty =
        false := by
    rw [Bool.eq_false_iff]
    intro hEmpty
    rw [String.isEmpty_iff.mp hEmpty] at hLonger
    exact Nat.not_lt_zero _ hLonger
  have hAhead :
      ahead special file (text ++ blanks) =
        stripped file
            (before.foldl (takeSegment file) []) ++
          [escape escapedInPath (last ++ blanks)] := by
    unfold ahead taken
    rw [hMore, List.foldl_append, List.foldl_cons,
      List.foldl_nil, takeSegment_of_settled _ _ hSettled,
      stripped_concat _ _ hNotEmpty]
  have hShorter := length_pathText_of_prefix
    (isPrefix_stripped file hPrefix)
  rw [hPath, hAhead, length_pathText_concat,
    length_pathText_concat]
  omega

end Url

end ServiceCalls
