import ServiceCalls.Proofs.Url.Below

/-
  Queries and fragments at the end of a URL.

  Scheme, authority and path are read in the same way
  whatever query and fragment follow.  The only exception is
  an authority that is just the mark of user information: it
  is read as empty at the end of a text, and fails before
  anything else.

  Key definitions include:
    * `Url.Marks`
    * `Url.withTail`
    * `Url.OpenUser`

  Main declarations:
    * `Url.parseAuthority_tail`
    * `Url.parseAfterScheme_tail`
    * `Url.parseAfterScheme_openUser`
-/

namespace ServiceCalls

namespace Url

------------------------------------------------------------
-- Tails
------------------------------------------------------------

/- A text that is empty or starts a query or a fragment. -/
def Marks (tail : List Char) : Prop :=
  ∀ c, tail.head? = some c → c = '?' ∨ c = '#'

theorem marks_nil : Marks [] := by
  intro c hHead
  cases hHead

theorem marks_cons
    {mark : Char}
    (h : mark = '?' ∨ mark = '#')
    (rest : List Char) :
    Marks (mark :: rest) := by
  intro c hHead
  cases hHead
  exact h

theorem Marks.stops
    {p : Char → Bool}
    (hQuery : p '?' = false)
    (hFragment : p '#' = false)
    {tail : List Char}
    (h : Marks tail) :
    Text.Stops p tail := by
  intro c hHead
  rcases h c hHead with hMark | hMark
  · subst hMark
    exact hQuery
  · subst hMark
    exact hFragment

theorem Marks.ends
    {tail : List Char}
    (h : Marks tail)
    (special : Bool) :
    Ends special tail :=
  h.stops (by cases special <;> rfl)
    (by cases special <;> rfl)

/- The URL with the query and fragment of a tail. -/
def withTail
    (special : Bool)
    (tail : List Char)
    (url : Url) :
    Url :=
  { url with
    query := (parseTail special tail).1
    fragment := (parseTail special tail).2 }

theorem splitTail_append
    {front tail : List Char}
    (hFront : Untailed front)
    (hTail : Marks tail) :
    splitTail (front ++ tail) = (front, tail) := by
  have hGoes :
      ∀ c ∈ front, (c != '?' && c != '#') = true := by
    intro c hMem
    rw [Bool.and_eq_true, bne_iff_ne, bne_iff_ne]
    exact hFront c hMem
  have hStops :
      Text.Stops (fun c => c != '?' && c != '#') tail :=
    hTail.stops rfl rfl
  unfold splitTail
  rw [Text.takeWhile_append_stop hGoes hStops,
    Text.dropWhile_append_stop hGoes hStops]

theorem finish_tail
    (scheme : String)
    (authority : Option Authority)
    (path : List Char → Path)
    {front tail : List Char}
    (hFront : Untailed front)
    (hTail : Marks tail) :
    finish scheme authority path (front ++ tail) =
      withTail (isSpecial scheme) tail
        (finish scheme authority path front) := by
  unfold finish withTail
  rw [splitTail_append hFront hTail, hFront.splitTail]

theorem finishAfter_tail
    (scheme : String)
    (authority : Authority)
    {front tail : List Char}
    (hFront : Untailed front)
    (hTail : Marks tail) :
    finishAfter scheme authority (front ++ tail) =
      withTail (isSpecial scheme) tail
        (finishAfter scheme authority front) :=
  finish_tail scheme (some authority) _ hFront hTail

------------------------------------------------------------
-- Authorities Before a Tail
------------------------------------------------------------

section

variable [DomainNames]

/- The mark of user information needs a host after it. -/
theorem parseAuthority_at
    {scheme : String}
    {rest : List Char}
    (hRest : Ends (isSpecial scheme) rest)
    (hSome : rest ≠ [] ∨ isSpecial scheme = true) :
    parseAuthority scheme ('@' :: rest) =
      .error .emptyHost := by
  have hInside : Inside (isSpecial scheme) ['@'] := by
    intro c hMem
    rw [List.mem_singleton.mp hMem]
    cases isSpecial scheme <;> rfl
  have hTake := hInside.takeWhile hRest
  rw [List.singleton_append] at hTake
  have hLast :
      Text.splitLast ['@'] ['@'] = some ([], []) := rfl
  rw [parseAuthority_eq]
  unfold splitUser
  dsimp only
  rw [hTake, hLast]
  cases rest with
  | nil =>
      rcases hSome with hSome | hSpecial
      · exact absurd rfl hSome
      · change readHost scheme [] >>= _ = _
        unfold readHost hostOf
        dsimp only
        rw [hSpecial]
        rfl
  | cons c more =>
      have hEnd := hRest c rfl
      rw [Bool.not_eq_false'] at hEnd
      change (if endsAuthority (isSpecial scheme) c = true
        then _ else _) >>= _ = _
      rw [hEnd]
      rfl

/- An authority is read in the same way before any tail. -/
theorem parseAuthority_tail
    {scheme : String}
    {text tail : List Char}
    (hTail : Marks tail)
    (hText : text ≠ ['@'] ∨ isSpecial scheme = true) :
    parseAuthority scheme (text ++ tail) =
      (parseAuthority scheme text).map
        fun (authority, left) =>
          (authority, left ++ tail) := by
  rcases exists_inside (isSpecial scheme) text with
    ⟨front, rest, hSplit, hInside, hEnds⟩
  have hBoth : Ends (isSpecial scheme) (rest ++ tail) := by
    cases rest with
    | nil => exact hTail.ends _
    | cons c more => exact ends_append hEnds (by simp) tail
  subst hSplit
  by_cases hAt : front = ['@']
  · subst hAt
    have hSome : rest ≠ [] ∨ isSpecial scheme = true := by
      rcases hText with hNot | hSpecial
      · refine .inl ?_
        intro hNone
        subst hNone
        exact hNot rfl
      · exact .inr hSpecial
    have hMore :
        rest ++ tail ≠ [] ∨ isSpecial scheme = true := by
      rcases hSome with hRest | hSpecial
      · exact .inl (List.append_ne_nil_of_left_ne_nil
          hRest tail)
      · exact .inr hSpecial
    rw [List.append_assoc]
    change parseAuthority scheme ('@' :: (rest ++ tail)) =
      (parseAuthority scheme ('@' :: rest)).map _
    rw [parseAuthority_at hBoth hMore,
      parseAuthority_at hEnds hSome]
    rfl
  · rw [List.append_assoc,
      parseAuthority_append hInside hAt hBoth,
      parseAuthority_append hInside hAt hEnds]
    cases parseAuthority scheme front with
    | error error => rfl
    | ok parts =>
        dsimp only [Except.map]
        rw [List.append_assoc]

------------------------------------------------------------
-- URLs Before a Tail
------------------------------------------------------------

theorem parseFile_plain
    {text : List Char}
    (h :
      ∀ a b rest, text = a :: b :: rest →
        (isSlash true a && isSlash true b) = false) :
    parseFile text =
      .ok (finishAfter "file" nowhere text) := by
  unfold parseFile
  split
  · next a b rest =>
      rw [h a b rest rfl, if_neg Bool.false_ne_true]
  · rfl

/- A file URL with two slashes is read before any tail. -/
theorem parseFile_slashes_tail
    {a b : Char}
    (hBoth : (isSlash true a && isSlash true b) = true)
    {rest tail : List Char}
    (hRest : Untailed rest)
    (hTail : Marks tail) :
    parseFile (a :: b :: (rest ++ tail)) =
      (parseFile (a :: b :: rest)).map
        (withTail (isSpecial "file") tail) := by
  rcases exists_inside true rest with
    ⟨host, after, hSplit, hInside, hEnds⟩
  subst hSplit
  have hMore : Ends true (after ++ tail) := by
    cases after with
    | nil => exact hTail.ends _
    | cons c more => exact ends_append hEnds (by simp) tail
  have hAfter : Untailed after := fun c hMem =>
    hRest c (List.mem_append_right _ hMem)
  have hTake := hInside.takeWhile hEnds
  have hTakeMore := hInside.takeWhile hMore
  unfold parseFile
  dsimp only
  rw [if_pos hBoth, if_pos hBoth, hTake, List.append_assoc,
    hTakeMore, List.drop_left, List.drop_left]
  split
  · rw [← List.append_assoc,
      finishAfter_tail _ _ hRest hTail]
    rfl
  · split
    · rw [finishAfter_tail _ _ hAfter hTail]
      rfl
    · cases Host.parseSpecial host with
      | error error => rfl
      | ok host =>
          have hFinish (authority : Authority) :=
            finishAfter_tail "file" authority hAfter hTail
          dsimp only [bind, Except.bind]
          rw [hFinish]
          -- Whether a drive is named depends on the path.
          change (if host == .name "localhost" ||
              (finishAfter "file"
                { nowhere with host := host }
                after).startsWithDrive then _ else _) =
            (if host == .name "localhost" ||
              (finishAfter "file"
                { nowhere with host := host }
                after).startsWithDrive then _
              else _ : Except UrlError Url).map _
          split
          · rfl
          · rfl

end

/- No tail makes two slashes of a text without them. -/
theorem not_slashes_append
    {text tail : List Char}
    (h :
      ∀ a b rest, text = a :: b :: rest →
        (isSlash true a && isSlash true b) = false)
    (hTail : Marks tail)
    (a b : Char)
    (rest : List Char)
    (hSplit : text ++ tail = a :: b :: rest) :
    (isSlash true a && isSlash true b) = false := by
  have hMark (c : Char) (hHead : tail.head? = some c) :
      isSlash true c = false := by
    rcases hTail c hHead with hMark | hMark
    · subst hMark
      rfl
    · subst hMark
      rfl
  match text with
  | [] =>
      cases hSplit
      rw [hMark a rfl, Bool.false_and]
  | [c] =>
      cases hSplit
      rw [hMark b rfl, Bool.and_false]
  | c :: d :: others =>
      cases hSplit
      exact h a b others rfl

variable [DomainNames]

/- A file URL is read in the same way before any tail. -/
theorem parseFile_tail
    {text tail : List Char}
    (hText : Untailed text)
    (hTail : Marks tail) :
    parseFile (text ++ tail) =
      (parseFile text).map
        (withTail (isSpecial "file") tail) := by
  by_cases hSlashes :
      ∃ a b rest, text = a :: b :: rest ∧
        (isSlash true a && isSlash true b) = true
  · rcases hSlashes with ⟨a, b, rest, hSplit, hBoth⟩
    subst hSplit
    have hRest : Untailed rest := fun c hMem =>
      hText c (List.mem_cons_of_mem _
        (List.mem_cons_of_mem _ hMem))
    exact parseFile_slashes_tail hBoth hRest hTail
  · have hNone (a b : Char) (rest : List Char)
        (hSplit : text = a :: b :: rest) :
        (isSlash true a && isSlash true b) = false := by
      rw [Bool.eq_false_iff]
      intro hBoth
      exact hSlashes ⟨a, b, rest, hSplit, hBoth⟩
    rw [parseFile_plain hNone,
      parseFile_plain (not_slashes_append hNone hTail),
      finishAfter_tail _ _ hText hTail]
    rfl

/- A text that ends with the mark of user information. -/
def OpenUser (scheme : String) (text : List Char) : Prop :=
  isSpecial scheme = false ∧ text = ['/', '/', '@']

theorem authority_tail
    {scheme : String}
    {text tail : List Char}
    (hText : Untailed text)
    (hTail : Marks tail)
    (hOpen : text ≠ ['@'] ∨ isSpecial scheme = true) :
    ((parseAuthority scheme (text ++ tail)).map
        fun (authority, left) =>
          finishAfter scheme authority left) =
      ((parseAuthority scheme text).map
        fun (authority, left) =>
          finishAfter scheme authority left).map
            (withTail (isSpecial scheme) tail) := by
  rw [parseAuthority_tail hTail hOpen]
  cases hRead : parseAuthority scheme text with
  | error error => rfl
  | ok parts =>
      have hLeft : Untailed parts.2 := fun c hMem =>
        hText c ((suffix_of_parseAuthority hRead).subset hMem)
      dsimp only [Except.map]
      rw [finishAfter_tail _ _ hLeft hTail]

------------------------------------------------------------
-- Schemes Before a Tail
------------------------------------------------------------

theorem parseAfterScheme_special
    {scheme : String}
    (hFile : (scheme == "file") = false)
    (hSpecial : isSpecial scheme = true)
    (text : List Char) :
    parseAfterScheme scheme text =
      (parseAuthority scheme
        (text.dropWhile (isSlash true))).map
          fun (authority, left) =>
            finishAfter scheme authority left := by
  unfold parseAfterScheme
  dsimp only
  rw [hFile, hSpecial, if_neg Bool.false_ne_true,
    if_pos rfl]
  cases parseAuthority scheme
      (text.dropWhile (isSlash true)) with
  | error error => rfl
  | ok parts => rfl

theorem parseAfterScheme_authority
    {scheme : String}
    (hSpecial : isSpecial scheme = false)
    (text : List Char) :
    parseAfterScheme scheme ('/' :: '/' :: text) =
      (parseAuthority scheme text).map
        fun (authority, left) =>
          finishAfter scheme authority left := by
  unfold parseAfterScheme
  dsimp only
  rw [not_file_of_not_special hSpecial, hSpecial,
    if_neg Bool.false_ne_true, if_neg Bool.false_ne_true]
  change (parseAuthority scheme text >>= _) = _
  cases parseAuthority scheme text with
  | error error => rfl
  | ok parts => rfl

theorem parseAfterScheme_root
    {scheme : String}
    (hSpecial : isSpecial scheme = false)
    {text : List Char}
    (h : text.head? ≠ some '/') :
    parseAfterScheme scheme ('/' :: text) =
      .ok (finish scheme none
        (fun front => .segments
          (parseSegments false false front)) text) := by
  unfold parseAfterScheme
  dsimp only
  rw [not_file_of_not_special hSpecial, hSpecial,
    if_neg Bool.false_ne_true, if_neg Bool.false_ne_true]
  split
  · next hSplit =>
      cases hSplit
      exact absurd rfl h
  · next hSplit =>
      cases hSplit
      rfl
  · next hOther => exact absurd rfl (hOther text)

theorem parseAfterScheme_verbatim
    {scheme : String}
    (hSpecial : isSpecial scheme = false)
    {text : List Char}
    (h : text.head? ≠ some '/') :
    parseAfterScheme scheme text =
      .ok (finish scheme none
        (fun front => .verbatim
          (escape Host.isControl front)) text) := by
  unfold parseAfterScheme
  dsimp only
  rw [not_file_of_not_special hSpecial, hSpecial,
    if_neg Bool.false_ne_true, if_neg Bool.false_ne_true]
  split
  · exact absurd rfl h
  · exact absurd rfl h
  · rfl

/- Before a tail a special scheme is read as without it. -/
theorem parseAfterScheme_special_tail
    {scheme : String}
    (hSpecial : isSpecial scheme = true)
    {text tail : List Char}
    (hText : Untailed text)
    (hTail : Marks tail) :
    parseAfterScheme scheme (text ++ tail) =
      (parseAfterScheme scheme text).map
        (withTail (isSpecial scheme) tail) := by
  cases hFile : scheme == "file" with
  | true =>
      rw [beq_iff_eq] at hFile
      subst hFile
      exact parseFile_tail hText hTail
  | false =>
      have hStops : Text.Stops (isSlash true) tail :=
        hTail.stops rfl rfl
      have hDrop :
          (text ++ tail).dropWhile (isSlash true) =
            text.dropWhile (isSlash true) ++ tail := by
        rw [List.dropWhile_append]
        split
        · next hNone =>
            rw [Text.dropWhile_stops hStops,
              List.isEmpty_iff.mp hNone, List.nil_append]
        · rfl
      have hLeft :
          Untailed (text.dropWhile (isSlash true)) :=
        fun c hMem => hText c
          ((List.dropWhile_suffix _).subset hMem)
      rw [parseAfterScheme_special hFile hSpecial,
        parseAfterScheme_special hFile hSpecial, hDrop]
      exact authority_tail hLeft hTail (.inr hSpecial)

/- Before a tail any other scheme is read as without it. -/
theorem parseAfterScheme_other_tail
    {scheme : String}
    (hSpecial : isSpecial scheme = false)
    {text tail : List Char}
    (hText : Untailed text)
    (hTail : Marks tail)
    (hOpen : text ≠ ['/', '/', '@']) :
    parseAfterScheme scheme (text ++ tail) =
      (parseAfterScheme scheme text).map
        (withTail (isSpecial scheme) tail) := by
  have hHead
      {front : List Char}
      (hFront : front.head? ≠ some '/') :
      (front ++ tail).head? ≠ some '/' := by
    cases front with
    | nil =>
        intro hSlash
        rcases hTail '/' hSlash with hMark | hMark
        · exact absurd hMark (by decide)
        · exact absurd hMark (by decide)
    | cons c rest => exact hFront
  by_cases hFirst : text.head? = some '/'
  · rcases List.head?_eq_some_iff.mp hFirst with
      ⟨rest, hSplit⟩
    subst hSplit
    have hRest : Untailed rest := fun c hMem =>
      hText c (List.mem_cons_of_mem _ hMem)
    by_cases hSecond : rest.head? = some '/'
    · rcases List.head?_eq_some_iff.mp hSecond with
        ⟨more, hSplit⟩
      subst hSplit
      have hMore : Untailed more := fun c hMem =>
        hRest c (List.mem_cons_of_mem _ hMem)
      rw [List.cons_append, List.cons_append,
        parseAfterScheme_authority hSpecial,
        parseAfterScheme_authority hSpecial]
      apply authority_tail hMore hTail
      refine .inl ?_
      intro hAt
      subst hAt
      exact hOpen rfl
    · rw [List.cons_append,
        parseAfterScheme_root hSpecial (hHead hSecond),
        parseAfterScheme_root hSpecial hSecond]
      exact congrArg Except.ok
        (finish_tail scheme none _ hRest hTail)
  · rw [parseAfterScheme_verbatim hSpecial (hHead hFirst),
      parseAfterScheme_verbatim hSpecial hFirst,
      finish_tail _ _ _ hText hTail]
    rfl

/- What follows a scheme is read the same before any tail. -/
theorem parseAfterScheme_tail
    {scheme : String}
    {text tail : List Char}
    (hText : Untailed text)
    (hTail : Marks tail)
    (hOpen : ¬OpenUser scheme text) :
    parseAfterScheme scheme (text ++ tail) =
      (parseAfterScheme scheme text).map
        (withTail (isSpecial scheme) tail) := by
  cases hSpecial : isSpecial scheme with
  | true =>
      rw [← hSpecial]
      exact parseAfterScheme_special_tail hSpecial hText
        hTail
  | false =>
      rw [← hSpecial]
      exact parseAfterScheme_other_tail hSpecial hText hTail
        fun hSame => hOpen ⟨hSpecial, hSame⟩

/- The mark of user information fails before a tail. -/
theorem parseAfterScheme_openUser
    {scheme : String}
    {text tail : List Char}
    (hOpen : OpenUser scheme text)
    (hTail : Marks tail)
    (hSome : tail ≠ []) :
    parseAfterScheme scheme (text ++ tail) =
      .error .emptyHost := by
  rw [hOpen.2]
  change parseAfterScheme scheme
    ('/' :: '/' :: '@' :: tail) = _
  rw [parseAfterScheme_authority hOpen.1,
    parseAuthority_at (hTail.ends _) (.inl hSome)]
  rfl

end Url

end ServiceCalls
