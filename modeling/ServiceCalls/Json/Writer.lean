import ServiceCalls.Decimal.Notation
import ServiceCalls.Json.Value
import ServiceCalls.Text.Quoted

/-
  JSON text.

  Key definitions include:
    * `Json.floatLayout`
    * `Json.Number.render`
    * `Json.render`
-/

namespace ServiceCalls

namespace Json

------------------------------------------------------------
-- Numbers
------------------------------------------------------------

/-
  Numbers have a point or an exponent, which is written with
  its sign, and are positional from 0.00001 up to sixteen
  digits before the point.
-/
def floatLayout : Layout where
  positionalAbove := -5
  positionalUpTo := 16
  wholeSuffix := ".0"
  exponentMark := "e"
  positiveMark := "+"
  negativeMark := "-"

/- The text of a number. -/
def Number.render : Number → String
  | .int n => toString n
  | .float x => Binary64.render floatLayout x

------------------------------------------------------------
-- Strings
------------------------------------------------------------

/- Four hexadecimal digits. -/
def fourDigits (n : Nat) : List Char :=
  let digits := Text.hexDigits n
  List.replicate (4 - digits.length) '0' ++ digits

/- A character inside of a JSON string. -/
def escapeChar (c : Char) : List Char :=
  if c == '"' then ['\\', '"']
  else if c == '\\' then ['\\', '\\']
  else if c == '\n' then ['\\', 'n']
  else if c == '\r' then ['\\', 'r']
  else if c == '\t' then ['\\', 't']
  else if c == '\x08' then ['\\', 'b']
  else if c == '\x0c' then ['\\', 'f']
  else if c.toNat < 0x20 then
    ['\\', 'u'] ++ fourDigits c.toNat
  else
    [c]

/- A JSON string. -/
def renderString (s : String) : String :=
  String.ofList
    ('"' :: (s.toList.flatMap escapeChar ++ ['"']))

------------------------------------------------------------
-- Values
------------------------------------------------------------

mutual

/- The text of a value, without blanks. -/
def render : Json → String
  | .null => "null"
  | .bool true => "true"
  | .bool false => "false"
  | .number n => n.render
  | .string s => renderString s
  | .array items =>
      "[" ++ Text.join "," (renderItems items) ++ "]"
  | .object fields =>
      "\x7b" ++ Text.join "," (renderFields fields) ++ "\x7d"

/- The texts of the items of an array. -/
def renderItems : List Json → List String
  | [] => []
  | item :: rest => render item :: renderItems rest

/- The texts of the fields of an object. -/
def renderFields : List (String × Json) → List String
  | [] => []
  | (key, value) :: rest =>
      (renderString key ++ ":" ++ render value) ::
        renderFields rest

end

end Json

end ServiceCalls
