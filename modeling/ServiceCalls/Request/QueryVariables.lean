import ServiceCalls.Assoc
import ServiceCalls.Text.Percent
import ServiceCalls.Text.Search

/-
  Query parameters of a URI template.

  Each parameter is added to the template as an encoded name
  and a placeholder for its value.  The variables of these
  placeholders are numbered; a number is passed over when
  the variable is bound already or occurs in the template.

  Key definitions include:
    * `queryVariable`
    * `firstFree`
    * `appendQuery`
-/

namespace ServiceCalls

------------------------------------------------------------
-- Free Variables
------------------------------------------------------------

/- The variable with a number. -/
def queryVariable (n : Nat) : String :=
  String.ofList ("__qp".toList ++ Nat.toDigits 10 n)

/- Whether a number is in use. -/
def isTaken
    (template : List Char)
    (uriVariables : List (String × String))
    (n : Nat) :
    Bool :=
  uriVariables.any (·.1 == queryVariable n) ||
    Text.contains (queryVariable n).toList template

/- The length of all names together. -/
def totalLength (uriVariables : List (String × String)) :
    Nat :=
  uriVariables.foldr
    (fun entry total => entry.1.length + total) 0

/- No name in use is longer than this. -/
def longestName
    (template : List Char)
    (uriVariables : List (String × String)) :
    Nat :=
  template.length + totalLength uriVariables

theorem length_queryVariable (n : Nat) :
    (queryVariable n).length =
      4 + (Nat.toDigits 10 n).length := by
  unfold queryVariable
  rw [String.length_ofList, List.length_append]
  rfl

theorem length_le_totalLength
    (uriVariables : List (String × String))
    (entry : String × String)
    (h : entry ∈ uriVariables) :
    entry.1.length ≤ totalLength uriVariables := by
  induction uriVariables with
  | nil => simp at h
  | cons first rest ih =>
      simp only [totalLength, List.foldr_cons] at ih ⊢
      rcases List.mem_cons.1 h with rfl | h
      · omega
      · have := ih h
        omega

/- A number in use is bounded by the names in use. -/
theorem lt_of_isTaken
    (template : List Char)
    (uriVariables : List (String × String))
    (n : Nat)
    (h : isTaken template uriVariables n = true) :
    n < Nat.pow 10 (longestName template uriVariables + 1) := by
  have hLength :
      (queryVariable n).length ≤
        longestName template uriVariables := by
    simp only [isTaken, Bool.or_eq_true] at h
    rcases h with h | h
    · obtain ⟨entry, hMem, hName⟩ := List.any_eq_true.1 h
      have := length_le_totalLength uriVariables entry hMem
      simp only [beq_iff_eq] at hName
      simp only [longestName, ← hName]
      omega
    · obtain ⟨parts, hParts⟩ := Option.isSome_iff_exists.1 h
      have := Text.length_of_splitOnce hParts
      simp only [String.length_toList] at this
      simp only [longestName]
      omega
  rw [length_queryVariable] at hLength
  exact (Nat.length_toDigits_le_iff (by omega)
    (by omega)).1 (by omega)

/- The first number from a given one on that is free. -/
def firstFree
    (template : List Char)
    (uriVariables : List (String × String))
    (n : Nat) :
    Nat :=
  if h : isTaken template uriVariables n = true then
    firstFree template uriVariables (n + 1)
  else
    n
termination_by
  Nat.pow 10 (longestName template uriVariables + 1) - n
decreasing_by
  have := lt_of_isTaken template uriVariables n h
  omega

------------------------------------------------------------
-- Adding Parameters
------------------------------------------------------------

/- What comes before the next parameter. -/
def querySeparator (template : List Char) : Char :=
  if template.contains '?' then '&' else '?'

/- A parameter as it is added to a template. -/
def queryPiece
    (template : List Char)
    (name key : String) :
    List Char :=
  querySeparator template ::
    (Text.encodeComponent name.toList ++
      '=' :: '\x7b' :: (key.toList ++ ['\x7d']))

/- Add parameters to a template and its variables. -/
def appendQuery
    (template : List Char)
    (uriVariables : List (String × String))
    (next : Nat) :
    List (String × String) →
      List Char × List (String × String)
  | [] => (template, uriVariables)
  | (name, value) :: rest =>
      let n := firstFree template uriVariables next
      let key := queryVariable n
      appendQuery
        (template ++ queryPiece template name key)
        (Assoc.insert key value uriVariables)
        (n + 1) rest

end ServiceCalls
