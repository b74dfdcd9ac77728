import ServiceCalls.Decimal.Binary64

/-
  JSON values.

  The fields of an object are kept in ascending order of
  their keys, each key once.

  Key definitions include:
    * `Json`
    * `Json.Number`
    * `Json.insertField`
    * `Json.ofFields`
-/

namespace ServiceCalls

------------------------------------------------------------
-- Values
------------------------------------------------------------

/-
  A number is a whole number of 64 bits, signed or unsigned,
  or a binary floating point number.
-/
inductive Json.Number where
| int
    (value : Int)
| float
    (value : Binary64)
deriving DecidableEq, Repr

/- A JSON value. -/
inductive Json where
| null
| bool
    (value : Bool)
| number
    (value : Json.Number)
| string
    (value : String)
| array
    (items : List Json)
| object
    (fields : List (String × Json))
deriving Repr

namespace Json

/- A whole number. -/
def int (n : Int) : Json :=
  .number (.int n)

/- A natural number. -/
def nat (n : Nat) : Json :=
  .number (.int n)

/- An optional text, null when absent. -/
def ofString? : Option String → Json
  | none => .null
  | some text => .string text

------------------------------------------------------------
-- Fields
------------------------------------------------------------

/- Put a field in place; the new value replaces the old. -/
def insertField
    {α : Type}
    (key : String)
    (value : α) :
    List (String × α) → List (String × α)
  | [] => [(key, value)]
  | (k, v) :: rest =>
      if key < k then (key, value) :: (k, v) :: rest
      else if key = k then (key, value) :: rest
      else (k, v) :: insertField key value rest

/- Put fields in order; of equal keys the last one wins. -/
def sortFields
    {α : Type}
    (fields : List (String × α)) :
    List (String × α) :=
  fields.foldl
    (fun sorted (key, value) => insertField key value sorted)
    []

/- An object with the given fields. -/
def ofFields (fields : List (String × Json)) : Json :=
  .object (sortFields fields)

------------------------------------------------------------
-- Contents
------------------------------------------------------------

/- Whether a value is null. -/
def isNull : Json → Bool
  | .null => true
  | _ => false

/- Whether a value is true. -/
def isTrue : Json → Bool
  | .bool b => b
  | _ => false

/- The text of a text. -/
def text? : Json → Option String
  | .string text => some text
  | _ => none

/- The number of a natural number. -/
def nat? : Json → Option Nat
  | .number (.int (.ofNat n)) => some n
  | _ => none

/- The items of an array; other values have none. -/
def items : Json → List Json
  | .array items => items
  | _ => []

/- The fields of an object; other values have none. -/
def fields : Json → List (String × Json)
  | .object fields => fields
  | _ => []

/- The value of a field. -/
def field? (key : String) (value : Json) : Option Json :=
  value.fields.lookup key

end Json

end ServiceCalls
