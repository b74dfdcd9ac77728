import ServiceCalls.Proofs.Text.Runs
import ServiceCalls.Template.Embedded
import ServiceCalls.Url.Parse

/-
  What cleaning leaves of a URL that continues another.

  Blanks at the end of a base are dropped when it stands
  alone, and not when a text follows.

  Key definitions include:
    * `Url.kept`
    * `Url.endsInBlank`

  Main declarations:
    * `Url.clean_eq`
    * `Url.exists_clean`
    * `Url.clean_joinUrl`
-/

namespace ServiceCalls

------------------------------------------------------------
-- Joined Texts
------------------------------------------------------------

/-
  A joined text is the first one up to its last slashes, a
  mark that ends an authority, and more.
-/
theorem exists_joinUrl
    {first second : List Char}
    (hFirst : first ≠ [])
    (hSecond : second ≠ []) :
    ∃ front slashes mark more,
      first = front ++ slashes ∧
      (∀ c ∈ slashes, c = '/') ∧
      (mark = '/' ∨ mark = '?') ∧
      joinUrl first second = front ++ mark :: more := by
  unfold joinUrl
  rw [if_neg (by simp [hFirst]), if_neg (by simp [hSecond])]
  split
  · next hQuery =>
      rcases List.isPrefixOf_iff_prefix.1 hQuery with
        ⟨more, hMore⟩
      refine ⟨first, [], '?', more, ?_, ?_, .inr rfl, ?_⟩
      · rw [List.append_nil]
      · intro c hMem
        cases hMem
      · rw [← hMore]
        rfl
  · rcases Text.exists_dropWhileEnd (p := (· == '/')) first
      with ⟨slashes, hSplit, hSlashes⟩
    refine ⟨_, slashes, '/', _, hSplit, ?_, .inl rfl, rfl⟩
    intro c hMem
    exact beq_iff_eq.1 (hSlashes c hMem)

namespace Url

------------------------------------------------------------
-- Kept Characters
------------------------------------------------------------

/- A text that loses nothing at its end. -/
def kept (text : List Char) : List Char :=
  (text.dropWhile isOuterBlank).filter fun c => !isDropped c

/- Whether a blank is left at the end of a base. -/
def endsInBlank (text : List Char) : Bool :=
  (text.filter fun c => !isDropped c).getLast?.any
    isOuterBlank

theorem isOuterBlank_of_isDropped
    {c : Char}
    (h : isDropped c = true) :
    isOuterBlank c = true := by
  simp only [isDropped, Bool.or_eq_true, beq_iff_eq] at h
  rcases h with (hTab | hLine) | hReturn
  · subst hTab
    rfl
  · subst hLine
    rfl
  · subst hReturn
    rfl

theorem clean_eq (text : List Char) :
    clean text = Text.dropWhileEnd isOuterBlank (kept text) := by
  unfold clean kept Text.stripWhile
  apply Text.filter_dropWhileEnd
  intro c hDropped
  apply isOuterBlank_of_isDropped
  rw [Bool.not_eq_false'] at hDropped
  exact hDropped

theorem not_isDropped_of_mem_kept
    {text : List Char}
    {c : Char}
    (h : c ∈ kept text) :
    isDropped c = false := by
  have hFilter := (List.mem_filter.1 h).2
  rw [Bool.not_eq_true'] at hFilter
  exact hFilter

theorem kept_append
    {front : List Char}
    (h : front.dropWhile isOuterBlank ≠ [])
    (rest : List Char) :
    kept (front ++ rest) =
      kept front ++ rest.filter fun c => !isDropped c := by
  have hSome :
      (front.dropWhile isOuterBlank).isEmpty = false :=
    List.isEmpty_eq_false_iff.2 h
  unfold kept
  rw [List.dropWhile_append, hSome]
  simp only [Bool.false_eq_true, if_false,
    List.filter_append]

/- Cleaning only takes a run of blanks from what is kept. -/
theorem exists_clean (text : List Char) :
    ∃ blanks,
      kept text = clean text ++ blanks ∧
      ∀ c ∈ blanks,
        isOuterBlank c = true ∧ isDropped c = false := by
  rcases Text.exists_dropWhileEnd (p := isOuterBlank)
    (kept text) with ⟨blanks, hSplit, hBlanks⟩
  rw [← clean_eq] at hSplit
  refine ⟨blanks, hSplit, ?_⟩
  intro c hMem
  have hKept : c ∈ kept text := by
    rw [hSplit]
    exact List.mem_append_right _ hMem
  exact ⟨hBlanks c hMem, not_isDropped_of_mem_kept hKept⟩

------------------------------------------------------------
-- Bases
------------------------------------------------------------

theorem alpha_of_splitScheme
    {c : Char}
    {more : List Char}
    {parts : String × List Char}
    (h : splitScheme (c :: more) = some parts) :
    c.isAlpha = true := by
  unfold splitScheme at h
  split at h
  · cases h
  · next hHead =>
      cases hHead
      split at h
      · cases h
      · next hAlpha =>
          rw [Bool.not_eq_true, Bool.not_eq_false'] at hAlpha
          exact hAlpha

theorem filter_slashes
    {slashes : List Char}
    (h : ∀ c ∈ slashes, c = '/') :
    (slashes.filter fun c => !isDropped c) = slashes := by
  apply List.filter_eq_self.2
  intro c hMem
  rw [h c hMem]
  rfl

/- A base with a scheme does not consist of slashes. -/
theorem not_blank_of_splitScheme
    {front slashes : List Char}
    (hSlashes : ∀ c ∈ slashes, c = '/')
    {parts : String × List Char}
    (hScheme :
      splitScheme (clean (front ++ slashes)) = some parts) :
    front.dropWhile isOuterBlank ≠ [] := by
  intro hNone
  have hStop : Text.Stops isOuterBlank slashes := by
    intro c hHead
    rw [hSlashes c (List.mem_of_head? hHead)]
    rfl
  have hKept : kept (front ++ slashes) = slashes := by
    unfold kept
    rw [List.dropWhile_append, hNone]
    simp only [List.isEmpty_nil, if_true]
    rw [Text.dropWhile_stops hStop, filter_slashes hSlashes]
  rcases exists_clean (front ++ slashes) with
    ⟨blanks, hSplit, _⟩
  rw [hKept] at hSplit
  cases hClean : clean (front ++ slashes) with
  | nil =>
      rw [hClean] at hScheme
      cases hScheme
  | cons c more =>
      rw [hClean] at hScheme hSplit
      have hAlpha := alpha_of_splitScheme hScheme
      have hMem : c ∈ slashes := by
        rw [hSplit]
        exact List.mem_cons_self
      rw [hSlashes c hMem] at hAlpha
      exact absurd hAlpha (by decide)

/- Blanks are left exactly when cleaning takes some. -/
theorem endsInBlank_iff
    {text blanks : List Char}
    (hKept : kept text ≠ [])
    (hSplit : kept text = clean text ++ blanks)
    (hBlanks : ∀ c ∈ blanks,
      isOuterBlank c = true ∧ isDropped c = false) :
    endsInBlank text = true ↔ blanks ≠ [] := by
  have hLast :
      (text.filter fun c => !isDropped c).getLast? =
        (kept text).getLast? := by
    have hParts := List.takeWhile_append_dropWhile
      (p := isOuterBlank) (l := text)
    conv => lhs; rw [← hParts]
    rw [List.filter_append, List.getLast?_append]
    change (kept text).getLast?.or _ = _
    rw [List.getLast?_eq_some_getLast hKept, Option.some_or]
  unfold endsInBlank
  rw [hLast]
  constructor
  · intro hBlank hNone
    rw [hNone, List.append_nil, clean_eq] at hSplit
    rw [hSplit] at hBlank
    cases hEnd : (Text.dropWhileEnd isOuterBlank
        (kept text)).getLast? with
    | none =>
        rw [hEnd] at hBlank
        cases hBlank
    | some c =>
        rw [hEnd] at hBlank
        have hNot := Text.getLast?_dropWhileEnd hEnd
        rw [Option.any_some, hNot] at hBlank
        cases hBlank
  · intro hSome
    rw [hSplit, List.getLast?_append,
      List.getLast?_eq_some_getLast hSome, Option.some_or]
    exact (hBlanks _ (List.getLast_mem hSome)).1

------------------------------------------------------------
-- Continued Bases
------------------------------------------------------------

/- A mark is not taken for a blank. -/
theorem clean_append_mark
    {front : List Char}
    (hFront : front.dropWhile isOuterBlank ≠ [])
    {mark : Char}
    (hMark : mark = '/' ∨ mark = '?')
    (more : List Char) :
    ∃ rest,
      clean (front ++ mark :: more) =
        kept front ++ mark :: rest := by
  have hBlank : isOuterBlank mark = false := by
    rcases hMark with hMark | hMark
    · subst hMark
      rfl
    · subst hMark
      rfl
  have hFilter :
      ((mark :: more).filter fun c => !isDropped c) =
        mark :: more.filter fun c => !isDropped c := by
    rcases hMark with hMark | hMark
    · subst hMark
      rfl
    · subst hMark
      rfl
  rw [clean_eq, kept_append hFront, hFilter,
    Text.dropWhileEnd_append_cons hBlank]
  exact ⟨_, rfl⟩

/-
  What is kept of a base up to its last slashes.  It is what
  cleaning leaves, unless blanks come at the end.
-/
theorem kept_front
    {front slashes : List Char}
    (hSlashes : ∀ c ∈ slashes, c = '/')
    {parts : String × List Char}
    (hScheme :
      splitScheme (clean (front ++ slashes)) = some parts) :
    (endsInBlank (front ++ slashes) = false ∧
        clean (front ++ slashes) = kept front ++ slashes) ∨
      (endsInBlank (front ++ slashes) = true ∧
        ∃ blanks,
          kept front = clean (front ++ slashes) ++ blanks ∧
          blanks ≠ [] ∧
          ∀ c ∈ blanks,
            isOuterBlank c = true ∧ isDropped c = false) := by
  have hFront := not_blank_of_splitScheme hSlashes hScheme
  rcases exists_clean (front ++ slashes) with
    ⟨blanks, hKept, hBlanks⟩
  have hEqual :
      kept front ++ slashes =
        clean (front ++ slashes) ++ blanks := by
    rw [← hKept, kept_append hFront,
      filter_slashes hSlashes]
  have hSome : kept (front ++ slashes) ≠ [] := by
    intro hNone
    rw [hNone] at hKept
    rw [(List.append_eq_nil_iff.1 hKept.symm).1] at hScheme
    cases hScheme
  have hEnds := endsInBlank_iff hSome hKept hBlanks
  by_cases hNone : blanks = []
  · refine .inl ⟨?_, ?_⟩
    · rw [Bool.eq_false_iff]
      intro hEnd
      exact hEnds.1 hEnd hNone
    · rw [hEqual, hNone, List.append_nil]
  · refine .inr ⟨hEnds.2 hNone, blanks, ?_, hNone, hBlanks⟩
    -- The last character is either a slash or a blank.
    have hNoSlash : slashes = [] := by
      apply Decidable.byContradiction
      intro hSlash
      have hEnd := congrArg List.getLast? hEqual
      rw [List.getLast?_append, List.getLast?_append,
        List.getLast?_eq_some_getLast hSlash,
        List.getLast?_eq_some_getLast hNone,
        Option.some_or, Option.some_or,
        Option.some.injEq] at hEnd
      have hBlank :=
        (hBlanks _ (List.getLast_mem hNone)).1
      rw [← hEnd, hSlashes _ (List.getLast_mem hSlash)]
        at hBlank
      exact absurd hBlank (by decide)
    rw [← hEqual, hNoSlash, List.append_nil]

/-
  A base and a text that continues it, after cleaning.  They
  agree up to the last slashes of the base, unless blanks
  come in between.
-/
theorem clean_joinUrl
    {base text : List Char}
    {parts : String × List Char}
    (hScheme : splitScheme (clean base) = some parts)
    (hText : text ≠ []) :
    ∃ front mark rest,
      (mark = '/' ∨ mark = '?') ∧
      clean (joinUrl base text) = front ++ mark :: rest ∧
      ((endsInBlank base = false ∧
          ∃ slashes, clean base = front ++ slashes ∧
            ∀ c ∈ slashes, c = '/') ∨
        (endsInBlank base = true ∧
          ∃ blanks, front = clean base ++ blanks ∧
            blanks ≠ [] ∧
            ∀ c ∈ blanks, isOuterBlank c = true ∧
              isDropped c = false)) := by
  have hBase : base ≠ [] := by
    intro hNone
    rw [hNone] at hScheme
    cases hScheme
  rcases exists_joinUrl hBase hText with
    ⟨front, slashes, mark, more, hSplit, hSlashes, hMark,
      hJoin⟩
  subst hSplit
  rcases clean_append_mark
      (not_blank_of_splitScheme hSlashes hScheme) hMark more
    with ⟨rest, hClean⟩
  refine ⟨kept front, mark, rest, hMark, ?_, ?_⟩
  · rw [hJoin, hClean]
  · rcases kept_front hSlashes hScheme with
      ⟨hEnd, hKept⟩ | hBlanks
    · exact .inl ⟨hEnd, slashes, hKept, hSlashes⟩
    · exact .inr hBlanks

end Url

end ServiceCalls
