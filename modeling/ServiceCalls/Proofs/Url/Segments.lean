import ServiceCalls.Proofs.Text.Runs
import ServiceCalls.Url.Parse

/-
  Paths that are continued by segments.

  Segments that neither move nor name a drive are added to a
  path one by one, and what comes before them does not
  depend on them.

  Key definitions include:
    * `Url.takeSegment`
    * `Url.Settled`
    * `Url.Trails`
    * `Url.segmentNames`
    * `Url.stripped`
    * `Url.taken`

  Main declarations:
    * `Text.splitBy_append`
    * `Url.addSegments_append`
    * `Url.parsePath_append`
-/

namespace ServiceCalls

namespace Text

variable {α : Type}

theorem splitBy_cons_separator
    {p : α → Bool}
    {x : α}
    (hx : p x = true)
    (rest : List α) :
    splitBy p (x :: rest) = [] :: splitBy p rest := by
  unfold splitBy
  rw [if_pos hx]
  cases rest <;> rfl

theorem splitBy_cons
    {p : α → Bool}
    {x : α}
    (hx : p x = false)
    {rest piece : List α}
    {pieces : List (List α)}
    (h : splitBy p rest = piece :: pieces) :
    splitBy p (x :: rest) = (x :: piece) :: pieces := by
  unfold splitBy
  rw [hx, if_neg Bool.false_ne_true, h]

theorem exists_splitBy
    (p : α → Bool)
    (xs : List α) :
    ∃ piece pieces, splitBy p xs = piece :: pieces := by
  induction xs with
  | nil => exact ⟨[], [], rfl⟩
  | cons x rest ih =>
      rcases ih with ⟨piece, pieces, hRest⟩
      cases hx : p x with
      | true => exact ⟨_, _, splitBy_cons_separator hx rest⟩
      | false => exact ⟨_, _, splitBy_cons hx hRest⟩

/- Pieces on both sides of a separator. -/
theorem splitBy_append
    {p : α → Bool}
    {x : α}
    (hx : p x = true)
    (front rest : List α) :
    splitBy p (front ++ x :: rest) =
      splitBy p front ++ splitBy p rest := by
  induction front with
  | nil => exact splitBy_cons_separator hx rest
  | cons y more ih =>
      rw [List.cons_append]
      cases hy : p y with
      | true =>
          rw [splitBy_cons_separator hy,
            splitBy_cons_separator hy, ih, List.cons_append]
      | false =>
          rcases exists_splitBy p more with
            ⟨piece, pieces, hMore⟩
          rw [hMore, List.cons_append] at ih
          rw [splitBy_cons hy hMore, splitBy_cons hy ih,
            List.cons_append]

/- A text without separators is one piece. -/
theorem splitBy_of_none
    {p : α → Bool}
    {xs : List α}
    (h : ∀ x ∈ xs, p x = false) :
    splitBy p xs = [xs] := by
  induction xs with
  | nil => rfl
  | cons x rest ih =>
      apply splitBy_cons (h x List.mem_cons_self)
      exact ih fun y hy => h y (List.mem_cons_of_mem _ hy)

end Text

namespace Url

------------------------------------------------------------
-- Segments Before Others
------------------------------------------------------------

/- Take a segment into a path that is continued. -/
def takeSegment
    (file : Bool)
    (path : List String)
    (segment : List Char) :
    List String :=
  if isDoubleDot segment then shorten file path
  else if isSingleDot segment then path
  else addSegment file path segment

theorem addSegments_cons
    (file : Bool)
    (path : List String)
    (segment : List Char)
    {rest : List (List Char)}
    (h : rest ≠ []) :
    addSegments file path (segment :: rest) =
      addSegments file (takeSegment file path segment)
        rest := by
  cases rest with
  | nil => exact absurd rfl h
  | cons next more =>
      conv => lhs; unfold addSegments
      unfold takeSegment
      split
      · rfl
      · split
        · rfl
        · rfl

/- Segments before others are taken one by one. -/
theorem addSegments_append
    (file : Bool)
    (path : List String)
    (segments : List (List Char))
    {rest : List (List Char)}
    (h : rest ≠ []) :
    addSegments file path (segments ++ rest) =
      addSegments file
        (segments.foldl (takeSegment file) path) rest := by
  induction segments generalizing path with
  | nil => rfl
  | cons segment more ih =>
      rw [List.cons_append, addSegments_cons _ _ _
        (List.append_ne_nil_of_right_ne_nil _ h), ih]
      rfl

------------------------------------------------------------
-- Segments That Stay
------------------------------------------------------------

/- A segment that neither moves nor names a drive. -/
structure Settled (segment : List Char) : Prop where
  single : isSingleDot segment = false
  double : isDoubleDot segment = false
  drive : isDriveLetter segment = false

theorem addSegment_of_settled
    (file : Bool)
    (path : List String)
    {segment : List Char}
    (h : Settled segment) :
    addSegment file path segment =
      path ++ [escape escapedInPath segment] := by
  unfold addSegment
  rw [h.drive, Bool.and_false]
  rfl

theorem takeSegment_of_settled
    (file : Bool)
    (path : List String)
    {segment : List Char}
    (h : Settled segment) :
    takeSegment file path segment =
      path ++ [escape escapedInPath segment] := by
  unfold takeSegment
  rw [h.double, h.single, if_neg Bool.false_ne_true,
    if_neg Bool.false_ne_true,
    addSegment_of_settled file path h]

/- Segments that stay are added in order. -/
theorem addSegments_of_settled
    (file : Bool)
    (path : List String)
    {segments : List (List Char)}
    (h : ∀ segment ∈ segments, Settled segment) :
    addSegments file path segments =
      path ++ segments.map (escape escapedInPath) := by
  induction segments generalizing path with
  | nil =>
      rw [List.map_nil, List.append_nil]
      rfl
  | cons segment rest ih =>
      have hFirst := h segment List.mem_cons_self
      have hRest := ih
        (path ++ [escape escapedInPath segment])
        fun other hOther =>
          h other (List.mem_cons_of_mem _ hOther)
      cases rest with
      | nil =>
          unfold addSegments
          rw [hFirst.double, hFirst.single,
            if_neg Bool.false_ne_true,
            if_neg Bool.false_ne_true,
            addSegment_of_settled file path hFirst]
          rfl
      | cons next more =>
          rw [addSegments_cons _ _ _ (List.cons_ne_nil _ _),
            takeSegment_of_settled file path hFirst, hRest,
            List.map_cons, List.append_assoc]
          rfl

------------------------------------------------------------
-- Continued Paths
------------------------------------------------------------

/- A text of segments that stay; the first is not empty. -/
structure Trails (special : Bool) (text : List Char) :
    Prop where
  settled :
    ∀ segment ∈ Text.splitBy (isSlash special) text,
      Settled segment
  starts : Text.Stops (isSlash special) text

theorem settled_nil : Settled [] :=
  ⟨rfl, rfl, rfl⟩

theorem trails_nil (special : Bool) : Trails special [] := by
  refine ⟨?_, Text.stops_nil⟩
  intro segment hSegment
  rw [List.mem_singleton.mp hSegment]
  exact settled_nil

/- A segment with a character has a name with one. -/
theorem escape_isEmpty
    (escaped : Char → Bool)
    (c : Char)
    (rest : List Char) :
    (escape escaped (c :: rest)).isEmpty = false := by
  rw [Bool.eq_false_iff, Ne, String.isEmpty_iff]
  intro hEmpty
  have hNone := congrArg String.toList hEmpty
  unfold escape Text.escapeChars at hNone
  rw [String.toList_ofList, List.flatMap_cons,
    String.toList_empty, List.append_eq_nil_iff] at hNone
  have hFirst := hNone.1
  split at hFirst
  · have hOctets :
        String.utf8EncodeChar c = [] := by
      cases hMore : String.utf8EncodeChar c with
      | nil => rfl
      | cons b others =>
          rw [hMore] at hFirst
          cases hFirst
    have hLength := String.length_utf8EncodeChar c
    have hSome := Char.utf8Size_pos c
    rw [hOctets, List.length_nil] at hLength
    omega
  · cases hFirst

/- The names of what trails are not dropped from a path. -/
theorem Trails.dropWhile_names
    {special : Bool}
    {text : List Char}
    (h : Trails special text)
    (hSome : text ≠ []) :
    ((Text.splitBy (isSlash special) text).map
        (escape escapedInPath)).dropWhile (·.isEmpty) =
      (Text.splitBy (isSlash special) text).map
        (escape escapedInPath) := by
  cases text with
  | nil => exact absurd rfl hSome
  | cons c rest =>
      rcases Text.exists_splitBy (isSlash special) rest with
        ⟨piece, pieces, hRest⟩
      rw [Text.splitBy_cons (h.starts c rfl) hRest,
        List.map_cons, List.dropWhile_cons_of_neg]
      rw [escape_isEmpty]
      exact Bool.false_ne_true

/- The names of the segments of a text. -/
def segmentNames (special : Bool) (text : List Char) :
    List String :=
  (Text.splitBy (isSlash special) text).map
    (escape escapedInPath)

/- A path without the empty names that start a file path. -/
def withoutEmpty (file : Bool) (path : List String) :
    List String :=
  if file then
    match path.dropWhile (·.isEmpty) with
    | [] => [""]
    | names => names
  else path

/- The names that are left of a path that goes on. -/
def stripped (file : Bool) (path : List String) :
    List String :=
  if file then path.dropWhile (·.isEmpty) else path

/- What is dropped does not depend on what trails. -/
theorem withoutEmpty_append
    {special : Bool}
    {text : List Char}
    (h : Trails special text)
    (file : Bool)
    (taken : List String) :
    withoutEmpty file (taken ++ segmentNames special text) =
      stripped file taken ++ segmentNames special text := by
  cases file with
  | false => rfl
  | true =>
      unfold withoutEmpty stripped
      rw [if_pos rfl, if_pos rfl, List.dropWhile_append]
      cases hTaken : taken.dropWhile (·.isEmpty) with
      | cons first more => rfl
      | nil =>
          rw [List.isEmpty_nil, if_pos rfl]
          by_cases hNone : text = []
          · subst hNone
            rfl
          · unfold segmentNames
            rw [h.dropWhile_names hNone]
            rcases Text.exists_splitBy (isSlash special)
              text with ⟨piece, pieces, hPieces⟩
            rw [hPieces]
            rfl

/- The segments of a text that another follows. -/
def leadSegments (special : Bool) :
    List Char → List (List Char)
  | [] => []
  | c :: rest =>
      Text.splitBy (isSlash special)
        (if isSlash special c then rest else c :: rest)

/- The path of a text that another follows. -/
def taken (special file : Bool) (front : List Char) :
    List String :=
  (leadSegments special front).foldl (takeSegment file) []

theorem parsePath_of_ne_nil
    (special file : Bool)
    {text : List Char}
    (h : text ≠ []) :
    parsePath special file text =
      withoutEmpty file
        (addSegments file [] (leadSegments special text)) := by
  cases text with
  | nil => exact absurd rfl h
  | cons c rest =>
      unfold parsePath leadSegments
      dsimp only
      split
      · rfl
      · rfl

/- The slash belongs to the path if nothing comes before. -/
theorem leadSegments_append
    (special : Bool)
    (front text : List Char) :
    leadSegments special (front ++ '/' :: text) =
      leadSegments special front ++
        Text.splitBy (isSlash special) text := by
  have hSlash : isSlash special '/' = true := rfl
  cases front with
  | nil => rfl
  | cons c rest =>
      unfold leadSegments
      rw [List.cons_append]
      dsimp only
      split
      · rw [Text.splitBy_append hSlash]
      · rw [← List.cons_append, Text.splitBy_append hSlash]

/- The path of a text that is continued. -/
theorem parsePath_append
    {special : Bool}
    {text : List Char}
    (h : Trails special text)
    (file : Bool)
    (front : List Char) :
    parsePath special file (front ++ '/' :: text) =
      stripped file (taken special file front) ++
        segmentNames special text := by
  have hSome :
      Text.splitBy (isSlash special) text ≠ [] := by
    rcases Text.exists_splitBy (isSlash special) text with
      ⟨piece, pieces, hPieces⟩
    rw [hPieces]
    exact List.cons_ne_nil _ _
  rw [parsePath_of_ne_nil _ _ (by simp),
    leadSegments_append, addSegments_append _ _ _ hSome,
    addSegments_of_settled _ _ h.settled,
    ← withoutEmpty_append h]
  rfl

theorem exists_parsePath
    (special file : Bool)
    (front : List Char) :
    ∃ before, ∀ text, Trails special text →
      parsePath special file (front ++ '/' :: text) =
        before ++ segmentNames special text :=
  ⟨_, fun _ hText => parsePath_append hText file front⟩

end Url

end ServiceCalls
