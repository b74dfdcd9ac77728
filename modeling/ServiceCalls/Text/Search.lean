/-
  Searching, splitting and joining lists of characters.

  Key definitions include:
    * `splitOnce`
    * `splitAll`
    * `contains`
    * `join`
-/

namespace ServiceCalls

namespace Text

------------------------------------------------------------
-- Searching
------------------------------------------------------------

/-
  The text before and after the first occurrence of a
  pattern.
-/
def splitOnce
    (pattern : List Char) :
    List Char → Option (List Char × List Char)
  | [] =>
      if pattern.isEmpty then some ([], []) else none
  | c :: rest =>
      if pattern.isPrefixOf (c :: rest) then
        some ([], (c :: rest).drop pattern.length)
      else
        (splitOnce pattern rest).map fun (before, after) =>
          (c :: before, after)

/- A split leaves out the pattern and nothing else. -/
theorem length_of_splitOnce
    {pattern text : List Char}
    {parts : List Char × List Char}
    (h : splitOnce pattern text = some parts) :
    parts.1.length + pattern.length + parts.2.length =
      text.length := by
  induction text generalizing parts with
  | nil =>
      unfold splitOnce at h
      split at h
      · next hEmpty =>
          simp only [List.isEmpty_iff] at hEmpty
          simp only [Option.some.injEq] at h
          subst h hEmpty
          simp
      · simp at h
  | cons c rest ih =>
      unfold splitOnce at h
      split at h
      · next hPrefix =>
          rw [List.isPrefixOf_iff_prefix] at hPrefix
          have hLength := hPrefix.length_le
          simp only [Option.some.injEq] at h
          subst h
          simp only [List.length_nil, List.length_drop]
          omega
      · obtain ⟨found, hFound, hParts⟩ :=
          Option.map_eq_some_iff.1 h
        have := ih hFound
        subst hParts
        simp only [List.length_cons]
        omega

/- Whether a pattern occurs in a text. -/
def contains (pattern text : List Char) : Bool :=
  (splitOnce pattern text).isSome

/-
  The text before and after the last occurrence of a
  pattern.
-/
def splitLast
    (pattern text : List Char) :
    Option (List Char × List Char) :=
  (splitOnce pattern.reverse text.reverse).map
    fun (after, before) => (before.reverse, after.reverse)

/- Whether a pattern ends a text. -/
def endsWith (pattern text : List Char) : Bool :=
  pattern.reverse.isPrefixOf text.reverse

------------------------------------------------------------
-- Splitting and Joining
------------------------------------------------------------

/- The pieces between the elements that satisfy a predicate. -/
def splitBy
    {α : Type}
    (p : α → Bool) :
    List α → List (List α)
  | [] => [[]]
  | x :: rest =>
      if p x then
        [] :: splitBy p rest
      else
        match splitBy p rest with
        | [] => [[x]]
        | piece :: pieces => (x :: piece) :: pieces

/- The pieces between occurrences of one character. -/
def splitAll (separator : Char) (text : List Char) :
    List (List Char) :=
  splitBy (· == separator) text

/- The texts with a separator between neighbours. -/
def join (separator : String) : List String → String
  | [] => ""
  | [text] => text
  | text :: rest => text ++ separator ++ join separator rest

/- Replace every occurrence of a character by a text. -/
def replaceChar
    (c : Char)
    (replacement : List Char)
    (text : List Char) :
    List Char :=
  text.flatMap fun d => if d == c then replacement else [d]

end Text

end ServiceCalls
