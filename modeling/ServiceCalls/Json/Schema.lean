import ServiceCalls.Json.Writer

/-
  Shapes that a JSON value is expected to have.

  A schema is met by a value directly, or by the text of a
  document (see `ServiceCalls.Json.Reader`).  The result is
  the value in the form of the schema: whole numbers become
  floating point ones where those are asked for, unknown
  fields are dropped, absent fields get their defaults.

  Key definitions include:
    * `Schema`
    * `Mismatch`
    * `Schema.conform`
-/

namespace ServiceCalls

------------------------------------------------------------
-- Mismatches
------------------------------------------------------------

/- What was found in place of the expected value. -/
inductive Found where
| null
| bool
    (value : Bool)
| number
    (value : Json.Number)
| string
    (value : String)
| sequence
| map
deriving DecidableEq, Repr

/- Why a value does not meet a schema. -/
inductive Mismatch where
| wrongType
    (found : Found)
    (expected : String)
| wrongValue
    (found : Found)
    (expected : String)
| wrongLength
    (length : Nat)
    (expected : String)
| missingField
    (name : String)
| duplicateField
    (name : String)
deriving DecidableEq, Repr

namespace Found

/- What a value looks like from outside. -/
def ofJson : Json → Found
  | .null => .null
  | .bool b => .bool b
  | .number n => .number n
  | .string s => .string s
  | .array _ => .sequence
  | .object _ => .map

/- The words for what was found. -/
def message : Found → String
  | .null => "null"
  | .bool b => "boolean `" ++ Text.showBool b ++ "`"
  | .number (.int n) => "integer `" ++ toString n ++ "`"
  | .number (.float x) =>
      "floating point `" ++
        Json.Number.render (.float x) ++ "`"
  | .string s => "string " ++ Text.quoted s
  | .sequence => "sequence"
  | .map => "map"

end Found

/- The words for a mismatch. -/
def Mismatch.message : Mismatch → String
  | .wrongType found expected =>
      "invalid type: " ++ found.message ++ ", expected " ++
        expected
  | .wrongValue found expected =>
      "invalid value: " ++ found.message ++ ", expected " ++
        expected
  | .wrongLength length expected =>
      "invalid length " ++ toString length ++
        ", expected " ++ expected
  | .missingField name => "missing field `" ++ name ++ "`"
  | .duplicateField name =>
      "duplicate field `" ++ name ++ "`"

------------------------------------------------------------
-- Schemas
------------------------------------------------------------

/-
  The shape of a value.

  A field of a record comes with the value it has when it is
  absent; without one it is required.
-/
inductive Schema where
| any
| unit
| bool
| string
| float
| unsigned
    (bits : Nat)
| signed
    (bits : Nat)
| optional
    (inner : Schema)
| list
    (inner : Schema)
| map
    (inner : Schema)
| record
    (name : String)
    (fields : List (String × Schema × Option Json))

namespace Schema

/- The words for what a schema expects. -/
def expectation : Schema → String
  | .any => "any valid JSON value"
  | .unit => "unit"
  | .bool => "a boolean"
  | .string => "a string"
  | .float => "f64"
  | .unsigned bits => "u" ++ toString bits
  | .signed bits => "i" ++ toString bits
  | .optional inner => expectation inner
  | .list _ => "a sequence"
  | .map _ => "a map"
  | .record name _ => "struct " ++ name

/- The words for a record read from a list. -/
def recordLength (name : String) (fields : Nat) : String :=
  "struct " ++ name ++ " with " ++ toString fields ++
    (if fields = 1 then " element" else " elements")

/- Meet a schema of whole numbers. -/
def conformInt
    (low high : Int)
    (expected : String) :
    Json.Number → Except Mismatch Json
  | .int n =>
      if low ≤ n ∧ n ≤ high then .ok (.int n)
      else .error (.wrongValue (.number (.int n)) expected)
  | .float x =>
      .error (.wrongType (.number (.float x)) expected)

/- Meet a schema with a number. -/
def conformNumber
    (schema : Schema)
    (number : Json.Number) :
    Except Mismatch Json :=
  match schema with
  | .any => .ok (.number number)
  | .float =>
      match number with
      | .float x => .ok (.number (.float x))
      | .int n =>
          .ok (match Binary64.ofInt n with
            | some x => .number (.float x)
            | none => .null)
  | .unsigned bits =>
      conformInt 0 (Int.pow 2 bits - 1)
        schema.expectation number
  | .signed bits =>
      let limit := Int.pow 2 (bits - 1)
      conformInt (-limit) (limit - 1) schema.expectation
        number
  | _ =>
      .error
        (.wrongType (.number number) schema.expectation)

/- A field with its schema turned into a reader. -/
structure Member where
  name : String
  read : Json → Except Mismatch Json
  fallback : Option Json

/- A record with its absent fields filled in. -/
def fillRecord
    (fields : List (String × Option Json))
    (known : List (String × Json)) :
    Except Mismatch Json := do
  let values ← fields.mapM fun (name, fallback) =>
    match (known.lookup name).or fallback with
    | some value => .ok (name, value)
    | none => .error (.missingField name)
  return Json.ofFields values

/- A record given as an object; unknown fields are dropped. -/
def fromEntries
    (members : List Member)
    (entries : List (String × Json)) :
    Except Mismatch Json := do
  let known ← entries.mapM fun (key, value) =>
    match members.find? (·.name == key) with
    | none => .ok none
    | some member =>
        (member.read value).map fun v => some (key, v)
  fillRecord
    (members.map fun m => (m.name, m.fallback))
    (known.filterMap id)

/- The fields of a record given in order. -/
def fromPositions
    (expected : String)
    (position : Nat) :
    List Member → List Json →
      Except Mismatch (List (String × Json))
  | [], _ => .ok []
  | member :: rest, value :: values => do
      let v ← member.read value
      return (member.name, v) ::
        (← fromPositions expected (position + 1) rest values)
  | member :: rest, [] =>
      match member.fallback with
      | some v => do
          return (member.name, v) ::
            (← fromPositions expected (position + 1) rest [])
      | none => .error (.wrongLength position expected)

/- A record given as a list of its fields. -/
def fromItems
    (name : String)
    (members : List Member)
    (items : List Json) :
    Except Mismatch Json := do
  let values ←
    fromPositions (recordLength name members.length) 0
      members items
  if members.length < items.length then
    throw (.wrongLength items.length
      "fewer elements in array")
  return Json.ofFields values

mutual

/- Meet a schema with a value. -/
def conform (schema : Schema) (value : Json) :
    Except Mismatch Json :=
  match schema, value with
  | .any, value => .ok value
  | .unit, .null => .ok .null
  | .bool, .bool b => .ok (.bool b)
  | .string, .string s => .ok (.string s)
  | .float, .number n => conformNumber .float n
  | .unsigned bits, .number n =>
      conformNumber (.unsigned bits) n
  | .signed bits, .number n => conformNumber (.signed bits) n
  | .optional _, .null => .ok .null
  | .optional inner, value => conform inner value
  | .list inner, .array items =>
      (items.mapM fun item => conform inner item).map .array
  | .map inner, .object fields =>
      (fields.mapM fun (field : String × Json) =>
        (conform inner field.2).map
          fun v => (field.1, v)).map .object
  | .record _ fields, .object entries =>
      fromEntries (members fields) entries
  | .record name fields, .array items =>
      fromItems name (members fields) items
  | schema, value =>
      .error
        (.wrongType (.ofJson value) schema.expectation)

/- The fields of a record as readers. -/
def members
    (fields : List (String × Schema × Option Json)) :
    List Member :=
  match fields with
  | [] => []
  | (name, schema, fallback) :: rest =>
      ⟨name, fun value => conform schema value, fallback⟩ ::
        members rest

end

end Schema

end ServiceCalls
