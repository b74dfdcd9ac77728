import ServiceCalls.Text.Blank
import ServiceCalls.Text.Search

/-
  Runs of characters at the ends of texts, and splits.

  Main declarations:
    * `Text.takeWhile_append_stop`
    * `Text.mem_dropWhile_iff`
    * `Text.exists_dropWhileEnd`
    * `Text.dropWhileEnd_append_cons`
    * `Text.dropWhileEnd_append_run`
    * `Text.stripWhile_infix`
    * `Text.filter_dropWhileEnd`
    * `Text.splitOnce_eq_none_iff`
    * `Text.contains_iff_infix`
    * `Text.not_infix_of_splitOnce`
    * `Text.splitLast_append`
    * `Text.infix_append_cons_iff`
    * `Text.infix_concat_append_cons_iff`
    * `Text.splitOnce_eq_some_iff`
    * `Text.splitOnce_cons_iff`
-/

namespace ServiceCalls

namespace Text

variable {α : Type}
variable {p q : α → Bool}

------------------------------------------------------------
-- Runs at the Start
------------------------------------------------------------

/- A text that is empty or starts where a run ends. -/
def Stops (p : α → Bool) (rest : List α) : Prop :=
  ∀ x, rest.head? = some x → p x = false

theorem stops_nil : Stops p [] := by
  intro x h
  cases h

theorem stops_cons
    {x : α}
    (h : p x = false)
    (rest : List α) :
    Stops p (x :: rest) := by
  intro y hHead
  cases hHead
  exact h

theorem stops_dropWhile (xs : List α) :
    Stops p (xs.dropWhile p) := by
  intro x hHead
  have hNot := List.head?_dropWhile_not p xs
  rw [hHead] at hNot
  exact hNot

theorem takeWhile_stops
    {rest : List α}
    (h : Stops p rest) :
    rest.takeWhile p = [] := by
  cases rest with
  | nil => rfl
  | cons x more =>
      rw [List.takeWhile_cons_of_neg]
      rw [h x rfl]
      exact Bool.false_ne_true

theorem dropWhile_stops
    {rest : List α}
    (h : Stops p rest) :
    rest.dropWhile p = rest := by
  cases rest with
  | nil => rfl
  | cons x more =>
      rw [List.dropWhile_cons_of_neg]
      rw [h x rfl]
      exact Bool.false_ne_true

theorem takeWhile_append_stop
    {front rest : List α}
    (hFront : ∀ x ∈ front, p x = true)
    (hRest : Stops p rest) :
    (front ++ rest).takeWhile p = front := by
  rw [List.takeWhile_append_of_pos hFront,
    takeWhile_stops hRest, List.append_nil]

theorem dropWhile_append_stop
    {front rest : List α}
    (hFront : ∀ x ∈ front, p x = true)
    (hRest : Stops p rest) :
    (front ++ rest).dropWhile p = rest := by
  rw [List.dropWhile_append_of_pos hFront,
    dropWhile_stops hRest]

/- A run takes only what belongs to it. -/
theorem mem_dropWhile_iff
    {x : α}
    (h : p x = false)
    (xs : List α) :
    x ∈ xs.dropWhile p ↔ x ∈ xs := by
  constructor
  · exact fun hMem => (List.dropWhile_suffix _).subset hMem
  · intro hMem
    rw [← List.takeWhile_append_dropWhile (p := p)
      (l := xs)] at hMem
    rcases List.mem_append.mp hMem with hTaken | hLeft
    · have hAll := List.all_eq_true.mp List.all_takeWhile
        x hTaken
      rw [h] at hAll
      cases hAll
    · exact hLeft

------------------------------------------------------------
-- Runs at the End
------------------------------------------------------------

/- What is dropped at the end of a text is a run. -/
theorem exists_dropWhileEnd (xs : List α) :
    ∃ run, xs = dropWhileEnd p xs ++ run ∧
      ∀ x ∈ run, p x = true := by
  refine ⟨(xs.reverse.takeWhile p).reverse, ?_, ?_⟩
  · unfold dropWhileEnd
    rw [← List.reverse_append,
      List.takeWhile_append_dropWhile, List.reverse_reverse]
  · intro x hMem
    exact List.all_eq_true.1 List.all_takeWhile x
      (List.mem_reverse.1 hMem)

theorem mem_dropWhileEnd_iff
    {x : α}
    (h : p x = false)
    (xs : List α) :
    x ∈ dropWhileEnd p xs ↔ x ∈ xs := by
  unfold dropWhileEnd
  rw [List.mem_reverse, mem_dropWhile_iff h,
    List.mem_reverse]

/- A text stays when a run is dropped that it has none of. -/
theorem dropWhileEnd_append_cons
    {x : α}
    (h : p x = false)
    (front rest : List α) :
    dropWhileEnd p (front ++ x :: rest) =
      front ++ x :: dropWhileEnd p rest := by
  unfold dropWhileEnd
  have hLast : p x ≠ true := by
    rw [h]
    exact Bool.false_ne_true
  rw [List.reverse_append, List.reverse_cons,
    List.append_assoc, List.dropWhile_append]
  split
  · next hAll =>
      rw [List.isEmpty_iff] at hAll
      rw [List.singleton_append,
        List.dropWhile_cons_of_neg hLast, hAll]
      simp
  · simp

/- The last character of what is left ends no run. -/
theorem getLast?_dropWhileEnd
    {xs : List α}
    {x : α}
    (h : (dropWhileEnd p xs).getLast? = some x) :
    p x = false := by
  unfold dropWhileEnd at h
  rw [List.getLast?_reverse] at h
  exact stops_dropWhile xs.reverse x h

/- A run at the end of a text is dropped. -/
theorem dropWhileEnd_append_run
    {run : List α}
    (h : ∀ x ∈ run, p x = true)
    (xs : List α) :
    dropWhileEnd p (xs ++ run) = dropWhileEnd p xs := by
  unfold dropWhileEnd
  rw [List.reverse_append, List.dropWhile_append_of_pos]
  intro x hMem
  exact h x (List.mem_reverse.mp hMem)

theorem dropWhileEnd_idem (xs : List α) :
    dropWhileEnd p (dropWhileEnd p xs) =
      dropWhileEnd p xs := by
  unfold dropWhileEnd
  rw [List.reverse_reverse,
    dropWhile_stops (stops_dropWhile _)]

/- A text that is a run has nothing left at its end. -/
theorem dropWhileEnd_of_dropWhile
    {xs : List α}
    (h : xs.dropWhile p = []) :
    dropWhileEnd p xs = [] := by
  have hSplit := List.takeWhile_append_dropWhile
    (p := p) (l := xs)
  rw [h, List.append_nil] at hSplit
  rw [← hSplit, ← List.nil_append (xs.takeWhile p),
    dropWhileEnd_append_run
      (List.all_eq_true.mp List.all_takeWhile)]
  rfl

/- What is left between runs at both ends was there. -/
theorem stripWhile_infix (xs : List α) :
    stripWhile p xs <:+: xs := by
  rcases exists_dropWhileEnd (p := p) (xs.dropWhile p) with
    ⟨run, hRun, _⟩
  have hFront : stripWhile p xs <+: xs.dropWhile p :=
    ⟨run, hRun.symm⟩
  exact hFront.isInfix.trans
    (List.dropWhile_suffix p).isInfix

/- Whether characters go first or last is the same to runs. -/
theorem filter_dropWhile
    (h : ∀ x, q x = false → p x = true)
    (xs : List α) :
    (xs.dropWhile p).filter q =
      (xs.filter q).dropWhile p := by
  have hSame : (fun x => !q x || p x) = p := by
    funext x
    cases hx : q x with
    | false => rw [h x hx]; rfl
    | true => rfl
  rw [List.dropWhile_filter, hSame]

theorem filter_dropWhileEnd
    (h : ∀ x, q x = false → p x = true)
    (xs : List α) :
    (dropWhileEnd p xs).filter q =
      dropWhileEnd p (xs.filter q) := by
  unfold dropWhileEnd
  rw [List.filter_reverse, filter_dropWhile h,
    List.filter_reverse]

------------------------------------------------------------
-- Splitting
------------------------------------------------------------

/- What a split leaves out is the pattern. -/
theorem append_of_splitOnce
    {pattern text : List Char}
    {parts : List Char × List Char}
    (h : splitOnce pattern text = some parts) :
    text = parts.1 ++ pattern ++ parts.2 := by
  induction text generalizing parts with
  | nil =>
      unfold splitOnce at h
      split at h
      · next hEmpty =>
          rw [List.isEmpty_iff] at hEmpty
          cases h
          rw [hEmpty]
          rfl
      · cases h
  | cons c rest ih =>
      unfold splitOnce at h
      split at h
      · next hPrefix =>
          rw [List.isPrefixOf_iff_prefix] at hPrefix
          cases h
          rcases hPrefix with ⟨after, hAfter⟩
          rw [← hAfter, List.drop_left]
          rfl
      · rcases Option.map_eq_some_iff.1 h with
          ⟨found, hFound, hParts⟩
        subst hParts
        rw [ih hFound]
        rfl

theorem append_of_splitLast
    {pattern text : List Char}
    {parts : List Char × List Char}
    (h : splitLast pattern text = some parts) :
    text = parts.1 ++ pattern ++ parts.2 := by
  rcases Option.map_eq_some_iff.1 h with
    ⟨found, hFound, hParts⟩
  subst hParts
  have hSplit := congrArg List.reverse
    (append_of_splitOnce hFound)
  simp only [List.reverse_reverse, List.reverse_append]
    at hSplit
  rw [hSplit, List.append_assoc]

/- A text without a pattern is not split. -/
theorem splitOnce_eq_none_iff
    {pattern : List Char}
    (hSome : pattern ≠ [])
    (text : List Char) :
    splitOnce pattern text = none ↔ ¬ pattern <:+: text := by
  induction text with
  | nil =>
      unfold splitOnce
      rw [List.isEmpty_eq_false_iff.mpr hSome,
        List.infix_nil]
      exact ⟨fun _ => hSome, fun _ => rfl⟩
  | cons c rest ih =>
      unfold splitOnce
      rw [List.infix_cons_iff, not_or,
        ← List.isPrefixOf_iff_prefix]
      cases pattern.isPrefixOf (c :: rest) with
      | true => simp
      | false =>
          rw [if_neg Bool.false_ne_true, Option.map_eq_none_iff,
            ih]
          simp

theorem contains_iff_infix
    {pattern : List Char}
    (hSome : pattern ≠ [])
    (text : List Char) :
    contains pattern text = true ↔ pattern <:+: text := by
  have hNone := splitOnce_eq_none_iff hSome text
  unfold contains
  cases hSplit : splitOnce pattern text with
  | none => simpa using hNone.mp hSplit
  | some parts =>
      rw [hSplit] at hNone
      simpa using hNone

/- A split is at the first occurrence of its pattern. -/
theorem not_infix_of_splitOnce
    {pattern text : List Char}
    (hSome : pattern ≠ [])
    {parts : List Char × List Char}
    (h : splitOnce pattern text = some parts) :
    ¬ pattern <:+: parts.1 := by
  have hWhole := append_of_splitOnce h
  induction text generalizing parts with
  | nil =>
      unfold splitOnce at h
      rw [List.isEmpty_eq_false_iff.mpr hSome] at h
      cases h
  | cons c rest ih =>
      unfold splitOnce at h
      split at h
      · cases h
        rwa [List.infix_nil]
      · next hPrefix =>
          rcases Option.map_eq_some_iff.1 h with
            ⟨found, hFound, hParts⟩
          subst hParts
          rw [List.infix_cons_iff, not_or]
          constructor
          · intro hHead
            apply hPrefix
            rw [List.isPrefixOf_iff_prefix, hWhole,
              List.append_assoc]
            exact hHead.trans (List.prefix_append _ _)
          · exact ih hFound (append_of_splitOnce hFound)

/- Characters before the first split do not matter. -/
theorem splitOnce_append
    {c : Char}
    {front : List Char}
    (hFront : c ∉ front)
    (text : List Char) :
    splitOnce [c] (front ++ text) =
      (splitOnce [c] text).map fun (before, after) =>
        (front ++ before, after) := by
  induction front with
  | nil => simp
  | cons d rest ih =>
      rw [List.mem_cons, not_or] at hFront
      have hPrefix :
          [c].isPrefixOf (d :: (rest ++ text)) = false := by
        simp [List.isPrefixOf, hFront.1]
      rw [List.cons_append]
      conv => lhs; unfold splitOnce
      rw [hPrefix, ih hFront.2, Option.map_map]
      rfl

/- Characters after the last split do not matter. -/
theorem splitLast_append
    {c : Char}
    {rest : List Char}
    (hRest : c ∉ rest)
    (text : List Char) :
    splitLast [c] (text ++ rest) =
      (splitLast [c] text).map fun (before, after) =>
        (before, after ++ rest) := by
  have hReverse : c ∉ rest.reverse := by
    rw [List.mem_reverse]
    exact hRest
  unfold splitLast
  rw [List.reverse_append, List.reverse_singleton,
    splitOnce_append hReverse, Option.map_map,
    Option.map_map]
  congr 1
  funext parts
  simp

------------------------------------------------------------
-- Patterns Beside a Character
------------------------------------------------------------

/- What starts a text ends before a character it has not. -/
theorem prefix_append_cons_iff
    {x : α}
    {pattern : List α}
    (hPattern : x ∉ pattern)
    (front rest : List α) :
    pattern <+: front ++ x :: rest ↔ pattern <+: front := by
  constructor
  · intro hWhole
    have hFront : front ++ [x] <+: front ++ x :: rest :=
      ⟨rest, by simp⟩
    rcases List.prefix_or_prefix_of_prefix hWhole hFront
      with hShort | hLong
    · rcases List.prefix_concat_iff.mp hShort with
        hSame | hStart
      · refine absurd ?_ hPattern
        rw [hSame]
        exact List.mem_append_right _ List.mem_cons_self
      · exact hStart
    · exact absurd (hLong.subset
        (List.mem_append_right _ List.mem_cons_self))
        hPattern
  · exact fun hFront =>
      hFront.trans (List.prefix_append _ _)

/- What occurs in a text lies on one side of it. -/
theorem infix_append_cons_iff
    {x : α}
    {pattern : List α}
    (hPattern : x ∉ pattern)
    (hSome : pattern ≠ [])
    (front rest : List α) :
    pattern <:+: front ++ x :: rest ↔
      pattern <:+: front ∨ pattern <:+: rest := by
  induction front with
  | nil =>
      have hStart : ¬pattern <+: x :: rest := by
        intro hPrefix
        have hEmpty :=
          (prefix_append_cons_iff hPattern [] rest).mp
            hPrefix
        exact hSome (List.prefix_nil.mp hEmpty)
      rw [List.nil_append, List.infix_cons_iff,
        List.infix_nil]
      simp only [hStart, hSome, false_or]
  | cons c more ih =>
      have hStart :=
        prefix_append_cons_iff hPattern (c :: more) rest
      rw [List.cons_append] at hStart ⊢
      rw [List.infix_cons_iff, List.infix_cons_iff, hStart,
        ih, or_assoc]

/-
  What ends with a character that it has nowhere else ends
  at one of those in a text.
-/
theorem infix_concat_append_cons_iff
    {x : α}
    {word : List α}
    (hWord : x ∉ word)
    (front rest : List α) :
    word ++ [x] <:+: front ++ x :: rest ↔
      word ++ [x] <:+: front ∨ word <:+ front ∨
        word ++ [x] <:+: rest := by
  constructor
  · rintro ⟨before, after, hText⟩
    have hSame :
        (before ++ word) ++ x :: after =
          front ++ x :: rest := by
      rw [← hText]
      simp
    rcases List.append_eq_append_iff.mp hSame with
      ⟨more, hFront, hRest⟩ | ⟨more, hBefore, hRest⟩
    · cases more with
      | nil =>
          rw [List.append_nil] at hFront
          exact .inr (.inl ⟨before, hFront.symm⟩)
      | cons c others =>
          cases hRest
          refine .inl ⟨before, others, ?_⟩
          rw [hFront]
          simp
    · cases more with
      | nil =>
          rw [List.append_nil] at hBefore
          exact .inr (.inl ⟨before, hBefore⟩)
      | cons c others =>
          cases hRest
          -- The character comes before the word, not in it.
          rcases List.append_eq_append_iff.mp hBefore with
            ⟨inside, _, hInside⟩ | ⟨inside, _, hInside⟩
          · rw [hInside] at hWord
            exact absurd (List.mem_append_right _
              List.mem_cons_self) hWord
          · cases inside with
            | nil =>
                rw [List.nil_append] at hInside
                rw [← hInside] at hWord
                exact absurd List.mem_cons_self hWord
            | cons d between =>
                cases hInside
                refine .inr (.inr ⟨between, after, ?_⟩)
                simp
  · rintro (⟨before, after, hFront⟩ | ⟨before, hFront⟩ |
      ⟨before, after, hRest⟩)
    · refine ⟨before, after ++ x :: rest, ?_⟩
      rw [← hFront]
      simp
    · refine ⟨before, rest, ?_⟩
      rw [← hFront]
      simp
    · refine ⟨front ++ x :: before, after, ?_⟩
      rw [← hRest]
      simp

------------------------------------------------------------
-- First Places of a Pattern
------------------------------------------------------------

/- Where a pattern starts a text, it is split. -/
theorem splitOnce_pattern
    {pattern : List Char}
    (hSome : pattern ≠ [])
    (after : List Char) :
    splitOnce pattern (pattern ++ after) =
      some ([], after) := by
  cases pattern with
  | nil => exact absurd rfl hSome
  | cons c rest =>
      have hPrefix :
          (c :: rest).isPrefixOf (c :: rest ++ after) =
            true :=
        List.isPrefixOf_iff_prefix.mpr
          (List.prefix_append _ _)
      rw [List.cons_append] at hPrefix ⊢
      unfold splitOnce
      rw [if_pos hPrefix, ← List.cons_append,
        List.drop_left]

/-
  A split is where the pattern is complete for the first
  time.
-/
theorem splitOnce_append_pattern
    {pattern before : List Char}
    (hFirst : ¬ pattern <:+: before ++ pattern.dropLast)
    (after : List Char) :
    splitOnce pattern (before ++ pattern ++ after) =
      some (before, after) := by
  have hSome : pattern ≠ [] := by
    intro hNil
    apply hFirst
    rw [hNil]
    exact List.nil_infix
  induction before with
  | nil => exact splitOnce_pattern hSome after
  | cons c more ih =>
      rw [List.cons_append, List.infix_cons_iff,
        not_or] at hFirst
      have hPrefix :
          pattern.isPrefixOf
              (c :: (more ++ pattern ++ after)) =
            false := by
        rw [Bool.eq_false_iff, ne_eq,
          List.isPrefixOf_iff_prefix]
        intro hStart
        -- It is too short to reach the end of its last place.
        have hReach :
            c :: (more ++ pattern.dropLast) <+:
              c :: (more ++ pattern ++ after) := by
          rw [List.append_assoc, List.prefix_cons_inj,
            List.prefix_append_right_inj]
          exact (List.dropLast_prefix pattern).trans
            (List.prefix_append _ _)
        have hLength :
            pattern.length ≤
              (c :: (more ++ pattern.dropLast)).length := by
          rw [List.length_cons, List.length_append,
            List.length_dropLast]
          omega
        exact hFirst.1 (List.prefix_of_prefix_length_le
          hStart hReach hLength)
      rw [List.cons_append, List.cons_append]
      unfold splitOnce
      rw [hPrefix, if_neg Bool.false_ne_true, ih hFirst.2]
      rfl

/- Before its first place a pattern is not complete. -/
theorem not_infix_append_dropLast
    {pattern text : List Char}
    (hSome : pattern ≠ [])
    {parts : List Char × List Char}
    (h : splitOnce pattern text = some parts) :
    ¬ pattern <:+: parts.1 ++ pattern.dropLast := by
  have hWhole := append_of_splitOnce h
  induction text generalizing parts with
  | nil =>
      unfold splitOnce at h
      rw [List.isEmpty_eq_false_iff.mpr hSome] at h
      cases h
  | cons c rest ih =>
      unfold splitOnce at h
      split at h
      · cases h
        intro hInfix
        have hLength := hInfix.length_le
        have hPositive := List.length_pos_iff.mpr hSome
        rw [List.nil_append, List.length_dropLast] at hLength
        omega
      · next hPrefix =>
          rcases Option.map_eq_some_iff.1 h with
            ⟨found, hFound, hParts⟩
          subst hParts
          rw [List.cons_append, List.infix_cons_iff, not_or]
          constructor
          · intro hHead
            apply hPrefix
            rw [List.isPrefixOf_iff_prefix, hWhole,
              List.append_assoc, List.cons_append]
            refine hHead.trans ?_
            rw [List.prefix_cons_inj,
              List.prefix_append_right_inj]
            exact (List.dropLast_prefix pattern).trans
              (List.prefix_append _ _)
          · exact ih hFound (append_of_splitOnce hFound)

theorem splitOnce_eq_some_iff
    {pattern : List Char}
    (hSome : pattern ≠ [])
    (text before after : List Char) :
    splitOnce pattern text = some (before, after) ↔
      text = before ++ pattern ++ after ∧
        ¬ pattern <:+: before ++ pattern.dropLast := by
  constructor
  · exact fun h => ⟨append_of_splitOnce h,
      not_infix_append_dropLast hSome h⟩
  · rintro ⟨hText, hFirst⟩
    rw [hText]
    exact splitOnce_append_pattern hFirst after

/- A character ends what stands before it if it is new. -/
theorem splitOnce_cons_iff
    (c : Char)
    (before after : List Char) :
    splitOnce [c] (before ++ c :: after) =
        some (before, after) ↔
      c ∉ before := by
  rw [splitOnce_eq_some_iff (List.cons_ne_nil _ _)]
  have hText :
      before ++ c :: after = before ++ [c] ++ after := by
    rw [List.append_assoc]
    rfl
  have hMem : [c] <:+: before ↔ c ∈ before := by
    constructor
    · intro hInfix
      exact hInfix.subset List.mem_cons_self
    · intro hFound
      rcases List.append_of_mem hFound with
        ⟨front, rest, rfl⟩
      refine ⟨front, rest, ?_⟩
      rw [List.append_assoc]
      rfl
  rw [and_iff_right hText, List.dropLast_singleton,
    List.append_nil, hMem]

end Text

end ServiceCalls
