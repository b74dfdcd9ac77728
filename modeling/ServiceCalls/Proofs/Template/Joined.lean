import ServiceCalls.Proofs.Text.Runs
import ServiceCalls.Template.Embedded

/-
  Texts that are joined by a slash or a query.

  A joined text begins as its first text does and ends as
  its second one does, apart from the slashes between them.
  So joining is associative, and the empty text is its
  identity on both sides.

  Main declarations:
    * `joinUrl_query` and `joinUrl_slash`
    * `joinUrl_append`
    * `joinSlash_assoc`
    * `joinUrl_assoc`
-/

namespace ServiceCalls

------------------------------------------------------------
-- Joined URLs
------------------------------------------------------------

theorem joinUrl_nil (first : List Char) :
    joinUrl first [] = first := by
  unfold joinUrl
  split
  · next hNone => exact (List.isEmpty_iff.mp hNone).symm
  · rfl

/- A query follows as it is. -/
theorem joinUrl_query
    {first : List Char}
    (h : first ≠ [])
    (rest : List Char) :
    joinUrl first ('?' :: rest) = first ++ '?' :: rest := by
  simp [joinUrl, h]

/- Anything else follows one slash. -/
theorem joinUrl_slash
    {first second : List Char}
    (hFirst : first ≠ [])
    (hSecond : second ≠ [])
    (hQuery : second.head? ≠ some '?') :
    joinUrl first second = joinSlash first second := by
  cases second with
  | nil => exact absurd rfl hSecond
  | cons c rest =>
      have hOther : ¬ '?' = c := by
        intro hSame
        exact hQuery (congrArg some hSame.symm)
      simp [joinUrl, hFirst, hOther]

theorem joinUrl_ne_nil
    {first : List Char}
    (h : first ≠ [])
    (second : List Char) :
    joinUrl first second ≠ [] := by
  unfold joinUrl joinSlash
  split
  · next hNone => simp [h] at hNone
  · split
    · exact h
    · split
      · exact List.append_ne_nil_of_left_ne_nil h _
      · simp

/- What follows a mark stays at the end of a joined text. -/
theorem joinUrl_append
    {first second : List Char}
    (hFirst : first ≠ [])
    {mark : Char}
    (hMark : mark ≠ '/')
    (hSecond : second ≠ [] ∨ mark = '?')
    (text : List Char) :
    joinUrl first (second ++ mark :: text) =
      joinUrl first second ++ mark :: text := by
  cases second with
  | nil =>
      rcases hSecond with hSome | hQuery
      · exact absurd rfl hSome
      · rw [hQuery, List.nil_append, joinUrl_query hFirst,
          joinUrl_nil]
  | cons c rest =>
      by_cases hQuery : c = '?'
      · rw [hQuery, List.cons_append, joinUrl_query hFirst,
          joinUrl_query hFirst, List.append_assoc,
          List.cons_append]
      · have hOther (more : List Char) :
            (c :: more).head? ≠ some '?' :=
          fun hHead => hQuery (Option.some.inj hHead)
        have hStops :
            Text.Stops (· == '/') (mark :: text) :=
          Text.stops_cons (p := (· == '/'))
            (beq_false_of_ne hMark) text
        rw [List.cons_append,
          joinUrl_slash hFirst (List.cons_ne_nil _ _)
            (hOther _),
          joinUrl_slash hFirst (List.cons_ne_nil _ _)
            (hOther _)]
        unfold joinSlash
        rw [← List.cons_append, List.dropWhile_append]
        cases (c :: rest).dropWhile (· == '/') with
        | nil =>
            simp [Text.dropWhile_stops hStops]
        | cons d more => simp

/- A joined text has the characters of both, and a slash. -/
theorem mem_joinUrl_iff
    {c : Char}
    (h : c ≠ '/')
    (first second : List Char) :
    c ∈ joinUrl first second ↔ c ∈ first ∨ c ∈ second := by
  unfold joinUrl
  split
  · next hNone =>
      rw [List.isEmpty_iff.mp hNone]
      simp
  · split
    · next hNone =>
        rw [List.isEmpty_iff.mp hNone]
        simp
    · split
      · exact List.mem_append
      · have hSlash : (c == '/') = false :=
          beq_false_of_ne h
        unfold joinSlash
        rw [List.mem_append, List.mem_cons,
          Text.mem_dropWhileEnd_iff
            (p := (· == '/')) hSlash,
          Text.mem_dropWhile_iff (p := (· == '/')) hSlash]
        constructor
        · intro hMem
          rcases hMem with hFirst | hSame | hSecond
          · exact .inl hFirst
          · exact absurd hSame h
          · exact .inr hSecond
        · intro hMem
          rcases hMem with hFirst | hSecond
          · exact .inl hFirst
          · exact .inr (.inr hSecond)

------------------------------------------------------------
-- Joins of Joins
------------------------------------------------------------

/- A joined text loses its slashes at the end. -/
theorem dropWhileEnd_joinSlash
    (first second : List Char) :
    Text.dropWhileEnd (· == '/') (joinSlash first second) =
      match second.dropWhile (· == '/') with
      | [] => Text.dropWhileEnd (· == '/') first
      | rest =>
          Text.dropWhileEnd (· == '/') first ++
            '/' :: Text.dropWhileEnd (· == '/') rest := by
  have hStops := Text.stops_dropWhile
    (p := (· == '/')) second
  unfold joinSlash
  cases hRest : second.dropWhile (· == '/') with
  | nil =>
      have hSlash : ∀ c ∈ ['/'], (c == '/') = true := by
        simp
      rw [Text.dropWhileEnd_append_run hSlash,
        Text.dropWhileEnd_idem]
  | cons c more =>
      rw [hRest] at hStops
      have hOther := hStops c rfl
      have hFirst := Text.dropWhileEnd_append_cons
        (p := (· == '/')) hOther
        (Text.dropWhileEnd (· == '/') first ++ ['/']) more
      have hMore := Text.dropWhileEnd_append_cons
        (p := (· == '/')) hOther [] more
      rw [List.nil_append] at hMore
      simpa [hMore] using hFirst

/- A joined text loses its slashes at the start. -/
theorem dropWhile_joinSlash
    (first second : List Char) :
    (joinSlash first second).dropWhile (· == '/') =
      match first.dropWhile (· == '/') with
      | [] => second.dropWhile (· == '/')
      | rest => joinSlash rest second := by
  have hStops := Text.stops_dropWhile
    (p := (· == '/')) first
  have hSplit := List.takeWhile_append_dropWhile
    (p := (· == '/')) (l := first)
  unfold joinSlash
  cases hRest : first.dropWhile (· == '/') with
  | nil =>
      rw [Text.dropWhileEnd_of_dropWhile hRest]
      exact Text.dropWhile_stops
        (Text.stops_dropWhile second)
  | cons c more =>
      rw [hRest] at hStops hSplit
      have hOther := hStops c rfl
      have hRun :
          ∀ d ∈ first.takeWhile (· == '/'),
            (d == '/') = true :=
        List.all_eq_true.mp List.all_takeWhile
      have hFirst := Text.dropWhileEnd_append_cons
        (p := (· == '/')) hOther
        (first.takeWhile (· == '/')) more
      have hMore := Text.dropWhileEnd_append_cons
        (p := (· == '/')) hOther [] more
      simp only [List.nil_append] at hMore
      rw [hSplit] at hFirst
      rw [hFirst, List.append_assoc]
      simp only [hMore]
      exact Text.dropWhile_append_stop hRun
        (Text.stops_cons (p := (· == '/')) hOther _)

theorem joinSlash_assoc (first second third : List Char) :
    joinSlash (joinSlash first second) third =
      joinSlash first (joinSlash second third) := by
  calc
    _ = Text.dropWhileEnd (· == '/')
          (joinSlash first second) ++
        '/' :: third.dropWhile (· == '/') := rfl
    _ = Text.dropWhileEnd (· == '/') first ++
        '/' :: (joinSlash second third).dropWhile
          (· == '/') := by
      rw [dropWhileEnd_joinSlash, dropWhile_joinSlash]
      cases second.dropWhile (· == '/') with
      | nil => rfl
      | cons c more => simp [joinSlash]
    _ = joinSlash first (joinSlash second third) := rfl

/- What follows a slash opens no query. -/
theorem head?_joinSlash
    {first : List Char}
    (h : first.head? ≠ some '?')
    (second : List Char) :
    (joinSlash first second).head? ≠ some '?' := by
  unfold joinSlash
  rcases Text.exists_dropWhileEnd
    (p := (· == '/')) first with ⟨run, hSplit, _⟩
  cases hFront : Text.dropWhileEnd (· == '/') first with
  | nil => simp
  | cons c rest =>
      rw [hFront] at hSplit
      rw [hSplit] at h
      exact h

/- Prefixes are put together in any order. -/
theorem joinUrl_assoc (first second third : List Char) :
    joinUrl (joinUrl first second) third =
      joinUrl first (joinUrl second third) := by
  by_cases hFirst : first = []
  · rw [hFirst]
    rfl
  by_cases hSecond : second = []
  · rw [hSecond, joinUrl_nil]
    rfl
  by_cases hThird : third = []
  · simp [hThird, joinUrl_nil]
  have hBoth := joinUrl_ne_nil hFirst second
  have hLater := joinUrl_ne_nil hSecond third
  by_cases hLast : third.head? = some '?'
  · rcases List.head?_eq_some_iff.mp hLast with
      ⟨rest, hRest⟩
    rw [hRest, joinUrl_query hBoth, joinUrl_query hSecond,
      joinUrl_append hFirst (by decide) (.inl hSecond)]
  rw [joinUrl_slash hBoth hThird hLast,
    joinUrl_slash hSecond hThird hLast]
  by_cases hMiddle : second.head? = some '?'
  · -- The mark keeps the slashes apart from the first.
    rcases List.head?_eq_some_iff.mp hMiddle with
      ⟨rest, hRest⟩
    have hMark : ('?' == '/') = false := rfl
    have hDrop (front : List Char) :=
      Text.dropWhileEnd_append_cons
        (p := (· == '/')) hMark front rest
    have hOpens :
        joinSlash ('?' :: rest) third =
          '?' :: joinSlash rest third := by
      simpa [joinSlash] using
        congrArg (· ++ '/' :: third.dropWhile (· == '/'))
          (hDrop [])
    rw [hRest, hOpens, joinUrl_query hFirst,
      joinUrl_query hFirst]
    simp [joinSlash, hDrop]
  · rw [joinUrl_slash hFirst hSecond hMiddle,
      joinUrl_slash hFirst
        (by simp [joinSlash])
        (head?_joinSlash hMiddle third),
      joinSlash_assoc]

end ServiceCalls
