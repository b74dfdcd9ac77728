/-
  Blank characters and trimming.

  A character is blank when it has the Unicode property
  White_Space.

  Key definitions include:
    * `isBlank`
    * `trim`
-/

namespace ServiceCalls

namespace Text

------------------------------------------------------------
-- Blank Characters
------------------------------------------------------------

/- The characters with the property White_Space. -/
def isBlank (c : Char) : Bool :=
  let n := c.toNat
  (9 ≤ n && n ≤ 13) || n == 0x20 || n == 0x85 ||
    n == 0xA0 || n == 0x1680 ||
    (0x2000 ≤ n && n ≤ 0x200A) ||
    n == 0x2028 || n == 0x2029 || n == 0x202F ||
    n == 0x205F || n == 0x3000

------------------------------------------------------------
-- Trimming
------------------------------------------------------------

/- Drop the last elements that satisfy a predicate. -/
def dropWhileEnd
    {α : Type}
    (p : α → Bool)
    (xs : List α) :
    List α :=
  (xs.reverse.dropWhile p).reverse

/- Drop the elements that satisfy a predicate at both ends. -/
def stripWhile
    {α : Type}
    (p : α → Bool)
    (xs : List α) :
    List α :=
  dropWhileEnd p (xs.dropWhile p)

/- Drop blank characters at both ends. -/
def trim (s : String) : String :=
  String.ofList (stripWhile isBlank s.toList)

end Text

end ServiceCalls
