import ServiceCalls.Text.Printable
import ServiceCalls.Text.Search

/-
  Values shown to a person.

  Texts are shown in double quotes with escapes; records,
  lists and optional values are shown on one line.

  Key definitions include:
    * `quoted`
    * `showRecord`
    * `showList`
    * `showOption`
-/

namespace ServiceCalls

namespace Text

------------------------------------------------------------
-- Quoted Texts
------------------------------------------------------------

/- The lower case hexadecimal digits of a number. -/
def hexDigits (n : Nat) : List Char :=
  Nat.toDigits 16 n

/- A character inside of double quotes. -/
def escapeQuoted (c : Char) : List Char :=
  if c == '"' then ['\\', '"']
  else if c == '\\' then ['\\', '\\']
  else if c == '\n' then ['\\', 'n']
  else if c == '\r' then ['\\', 'r']
  else if c == '\t' then ['\\', 't']
  else if c == '\x00' then ['\\', '0']
  else if extendsGrapheme c || !isPrintable c then
    ['\\', 'u', '\x7b'] ++ hexDigits c.toNat ++ ['\x7d']
  else
    [c]

/- A text in double quotes. -/
def quoted (s : String) : String :=
  String.ofList
    ('"' :: (s.toList.flatMap escapeQuoted ++ ['"']))

------------------------------------------------------------
-- Compound Values
------------------------------------------------------------

/- A constructor with named fields. -/
def showRecord
    (name : String)
    (fields : List (String × String)) :
    String :=
  if fields.isEmpty then name
  else
    name ++ " \x7b " ++
      join ", " (fields.map fun (key, text) =>
        key ++ ": " ++ text) ++
      " \x7d"

/- A constructor with one argument. -/
def showApplied (name argument : String) : String :=
  name ++ "(" ++ argument ++ ")"

/- A list of shown values. -/
def showList (items : List String) : String :=
  "[" ++ join ", " items ++ "]"

/- A map of shown keys and values. -/
def showMap (entries : List (String × String)) : String :=
  "\x7b" ++
    join ", " (entries.map fun (key, value) =>
      key ++ ": " ++ value) ++
    "\x7d"

/- An optional shown value. -/
def showOption : Option String → String
  | none => "None"
  | some text => showApplied "Some" text

/- A truth value. -/
def showBool (b : Bool) : String :=
  if b then "true" else "false"

end Text

end ServiceCalls
