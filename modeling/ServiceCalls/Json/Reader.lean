import ServiceCalls.Json.Cursor

/-
  Reading JSON documents.

  A document is read against a schema, so that the first
  fault in reading order is reported, whether it is a fault
  of the text or a mismatch.  Values of unknown fields are
  only checked for balance.

  Key definitions include:
    * `Schema.readDocument`
    * `Json.read`
-/

namespace ServiceCalls

namespace Json

/- How deep lists and objects may be nested. -/
def depthLimit : Nat :=
  127

namespace Cursor

------------------------------------------------------------
-- Lists and Objects
------------------------------------------------------------

/- Whether a list goes on; the cursor at its next item. -/
def nextItem (first : Bool) (cursor : Cursor) :
    Except ReadFault (Bool × Cursor) :=
  let cursor := cursor.skipSpace
  match cursor.peek with
  | none => .error (cursor.peekFault .endOfList)
  | some ']' => .ok (false, cursor)
  | some c =>
      if first then .ok (true, cursor)
      else if c == ',' then
        let cursor := cursor.advance.skipSpace
        match cursor.peek with
        | some ']' => .error (cursor.peekFault .trailingComma)
        | some _ => .ok (true, cursor)
        | none => .error (cursor.peekFault .endOfValue)
      else .error (cursor.peekFault .expectedListEnd)

/- Whether an object goes on; the cursor at its next key. -/
def nextKey (first : Bool) (cursor : Cursor) :
    Except ReadFault (Bool × Cursor) :=
  let cursor := cursor.skipSpace
  match cursor.peek with
  | none => .error (cursor.peekFault .endOfObject)
  | some '\x7d' => .ok (false, cursor)
  | some c =>
      if first then
        if c == '"' then .ok (true, cursor)
        else .error (cursor.peekFault .keyNotString)
      else if c == ',' then
        let cursor := cursor.advance.skipSpace
        match cursor.peek with
        | some '"' => .ok (true, cursor)
        | some '\x7d' =>
            .error (cursor.peekFault .trailingComma)
        | some _ => .error (cursor.peekFault .keyNotString)
        | none => .error (cursor.peekFault .endOfValue)
      else .error (cursor.peekFault .expectedObjectEnd)

/- Read the colon after a key. -/
def readColon (cursor : Cursor) : Except ReadFault Cursor :=
  let cursor := cursor.skipSpace
  match cursor.peek with
  | some ':' => .ok cursor.advance
  | some _ => .error (cursor.peekFault .expectedColon)
  | none => .error (cursor.peekFault .endOfObject)

/- Read the end of a list. -/
def endList (cursor : Cursor) : Except ReadFault Cursor :=
  let cursor := cursor.skipSpace
  match cursor.peek with
  | some ']' => .ok cursor.advance
  | some ',' =>
      let cursor := cursor.advance.skipSpace
      match cursor.peek with
      | some ']' => .error (cursor.peekFault .trailingComma)
      | _ => .error (cursor.peekFault .trailingCharacters)
  | some _ => .error (cursor.peekFault .trailingCharacters)
  | none => .error (cursor.peekFault .endOfList)

/- Read the end of an object. -/
def endObject (cursor : Cursor) : Except ReadFault Cursor :=
  let cursor := cursor.skipSpace
  match cursor.peek with
  | some '\x7d' => .ok cursor.advance
  | some ',' => .error (cursor.peekFault .trailingComma)
  | some _ => .error (cursor.peekFault .trailingCharacters)
  | none => .error (cursor.peekFault .endOfObject)

/-
  The place of a mismatch that concerns a whole record: the
  end of the record if it is well formed up to there.
-/
def placeAtEnd
    (close : Cursor → Except ReadFault Cursor)
    (cursor : Cursor)
    (mismatch : Mismatch) :
    ReadFault :=
  match close cursor with
  | .ok after => after.mismatchAt mismatch
  | .error _ => cursor.skipSpace.mismatchAt mismatch

------------------------------------------------------------
-- Ignored Values
------------------------------------------------------------

/- Skip an exponent, the cursor being at its letter. -/
def ignoreExponent (cursor : Cursor) :
    Except ReadFault Cursor :=
  let cursor := cursor.advance
  let cursor := match cursor.peek with
    | some '+' => cursor.advance
    | some '-' => cursor.advance
    | _ => cursor
  match cursor.digit? with
  | some _ => .ok cursor.skipDigits
  | none => .error (cursor.advance.fault .invalidNumber)

/- Skip a number after its sign. -/
def ignoreNumber (cursor : Cursor) :
    Except ReadFault Cursor :=
  match cursor.digit? with
  | none => .error (cursor.advance.fault .invalidNumber)
  | some first =>
      if first = 0 ∧ (cursor.advance.digit?).isSome then
        .error (cursor.advance.peekFault .invalidNumber)
      else
        let cursor := cursor.skipDigits
        match cursor.peek with
        | some '.' =>
            let fraction := cursor.advance
            match fraction.digit? with
            | none =>
                .error (fraction.peekFault .invalidNumber)
            | some _ =>
                let cursor := fraction.skipDigits
                match cursor.peek with
                | some 'e' => ignoreExponent cursor
                | some 'E' => ignoreExponent cursor
                | _ => .ok cursor
        | some 'e' => ignoreExponent cursor
        | some 'E' => ignoreExponent cursor
        | _ => .ok cursor

/- Skip a string after its opening quote. -/
def ignoreString : Nat → Cursor → Except ReadFault Cursor
  | 0, cursor => .error (cursor.fault .endOfString)
  | fuel + 1, cursor =>
      match cursor.peek with
      | none => .error (cursor.fault .endOfString)
      | some '"' => .ok cursor.advance
      | some '\\' =>
          let cursor := cursor.advance
          match cursor.peek with
          | none => .error (cursor.fault .endOfString)
          | some 'u' => do
              let (_, cursor) ← cursor.advance.readHex
              ignoreString fuel cursor
          | some c =>
              if "\"\\/bfnrt".toList.contains c then
                ignoreString fuel cursor.advance
              else
                .error (cursor.advance.fault .invalidEscape)
      | some c =>
          if c.toNat < 0x20 then
            .error (cursor.advance.fault .controlCharacter)
          else ignoreString fuel cursor.advance

/-
  Skip a value; `open` holds the closing characters of the
  lists and objects around the cursor.
-/
def ignoreValue :
    Nat → List Char → Cursor → Except ReadFault Cursor
  | 0, _, cursor => .error (cursor.fault .endOfValue)
  | fuel + 1, around, cursor => do
      let cursor := cursor.skipSpace
      match cursor.peek with
      | none => throw (cursor.peekFault .endOfValue)
      | some '[' =>
          closeOrGoOn fuel false ']' around cursor.advance
      | some '\x7b' =>
          closeOrGoOn fuel false '\x7d' around
            cursor.advance
      | some c =>
          let after ← ignoreScalar c cursor
          match around with
          | [] => return after
          | close :: outer =>
              closeOrGoOn fuel true close outer after
where
  ignoreScalar (c : Char) (cursor : Cursor) :
      Except ReadFault Cursor :=
    if c == 'n' then cursor.readWord "null".toList
    else if c == 't' then cursor.readWord "true".toList
    else if c == 'f' then cursor.readWord "false".toList
    else if c == '-' then cursor.advance.ignoreNumber
    else if c.isDigit then cursor.ignoreNumber
    else if c == '"' then
      ignoreString (cursor.rest.length + 1) cursor.advance
    else .error (cursor.peekFault .expectedValue)
  closeOrGoOn (fuel : Nat) (comma : Bool) (close : Char)
      (outer : List Char) (cursor : Cursor) :
      Except ReadFault Cursor := do
    match fuel with
    | 0 => throw (cursor.fault .endOfValue)
    | fuel + 1 =>
    let cursor := cursor.skipSpace
    let isList := close == ']'
    match cursor.peek with
    | none =>
        throw (cursor.peekFault
          (if isList then .endOfList else .endOfObject))
    | some c =>
        if comma && c == ',' then
          enter fuel close outer cursor.advance
        else if c == close then
          match outer with
          | [] => return cursor.advance
          | next :: outer =>
              closeOrGoOn fuel true next outer cursor.advance
        else if comma then
          throw (cursor.peekFault
            (if isList then .expectedListEnd
              else .expectedObjectEnd))
        else
          enter fuel close outer cursor
  enter (fuel : Nat) (close : Char) (outer : List Char)
      (cursor : Cursor) : Except ReadFault Cursor := do
    match fuel with
    | 0 => throw (cursor.fault .endOfValue)
    | fuel + 1 =>
    if close == ']' then
      ignoreValue fuel (close :: outer) cursor
    else
      let cursor := cursor.skipSpace
      match cursor.peek with
      | some '"' =>
          let after ←
            ignoreString (cursor.rest.length + 1)
              cursor.advance
          let after ← after.readColon
          ignoreValue fuel (close :: outer) after
      | some _ => throw (cursor.peekFault .keyNotString)
      | none => throw (cursor.peekFault .endOfObject)

/- Skip one value. -/
def ignore (cursor : Cursor) : Except ReadFault Cursor :=
  ignoreValue (3 * cursor.rest.length + 3) [] cursor

------------------------------------------------------------
-- Values
------------------------------------------------------------

/- The mismatch of the value at the cursor. -/
def wrongType (expected : String) (cursor : Cursor) :
    ReadFault :=
  let mismatch (found : Found) (after : Cursor) : ReadFault :=
    after.mismatchAt (.wrongType found expected)
  let word (letters : String) (found : Found) : ReadFault :=
    match cursor.readWord letters.toList with
    | .ok after => mismatch found after
    | .error fault => fault
  let number (negative : Bool) (start : Cursor) : ReadFault :=
    match start.readNumber negative with
    | .ok (n, after) => mismatch (.number n) after
    | .error fault => fault
  match cursor.peek with
  | some 'n' => word "null" .null
  | some 't' => word "true" (.bool true)
  | some 'f' => word "false" (.bool false)
  | some '-' => number true cursor.advance
  | some '"' =>
      match cursor.advance.readString with
      | .ok (s, after) => mismatch (.string s) after
      | .error fault => fault
  | some '[' => mismatch .sequence cursor
  | some '\x7b' => mismatch .map cursor
  | some c =>
      if c.isDigit then number false cursor
      else cursor.peekFault .expectedValue
  | none => cursor.peekFault .expectedValue

/- Read a number against a schema. -/
def readNumberAs
    (schema : Schema)
    (negative : Bool)
    (cursor : Cursor) :
    Except ReadFault (Json × Cursor) := do
  let (n, after) ← cursor.readNumber negative
  match schema.conformNumber n with
  | .ok value => return (value, after)
  | .error mismatch => throw (after.mismatchAt mismatch)

/- Schemas that a number may meet. -/
def wantsNumber : Schema → Bool
  | .any => true
  | .float => true
  | .unsigned _ => true
  | .signed _ => true
  | _ => false

/- Schemas that a truth value may meet. -/
def wantsBool : Schema → Bool
  | .any => true
  | .bool => true
  | _ => false

/- Schemas that a string may meet. -/
def wantsString : Schema → Bool
  | .any => true
  | .string => true
  | _ => false

/- Schemas that null may meet. -/
def wantsNull : Schema → Bool
  | .any => true
  | .unit => true
  | .optional _ => true
  | _ => false

/- The fields of a record, named and with defaults. -/
abbrev Fields :=
  List (String × Schema × Option Json)

mutual

/- Read a value against a schema. -/
def readValue (fuel depth : Nat) (schema : Schema)
    (start : Cursor) : Except ReadFault (Json × Cursor) :=
  match fuel with
  | 0 => .error (start.fault .endOfValue)
  | fuel + 1 =>
    let cursor := start.skipSpace
    let word (letters : String) (value : Json) :
        Except ReadFault (Json × Cursor) :=
      (cursor.readWord letters.toList).map
        fun after => (value, after)
    match cursor.peek with
    | none => .error (cursor.peekFault .endOfValue)
    | some c =>
        if c == 'n' && wantsNull schema then
          word "null" .null
        else
          match schema with
          | .optional inner =>
              readValue fuel depth inner cursor
          | schema =>
              if c == 't' && wantsBool schema then
                word "true" (.bool true)
              else if c == 'f' && wantsBool schema then
                word "false" (.bool false)
              else if c == '-' && wantsNumber schema then
                readNumberAs schema true cursor.advance
              else if c.isDigit && wantsNumber schema then
                readNumberAs schema false cursor
              else if c == '"' && wantsString schema then do
                let (s, after) ← cursor.advance.readString
                return (.string s, after)
              else if c == '[' then
                readList fuel depth schema cursor
              else if c == '\x7b' then
                readObject fuel depth schema cursor
              else
                .error
                  (wrongType schema.expectation cursor)

/- Read a list against a schema. -/
def readList (fuel depth : Nat) (schema : Schema)
    (cursor : Cursor) : Except ReadFault (Json × Cursor) :=
  match fuel with
  | 0 => .error (cursor.fault .endOfValue)
  | fuel + 1 =>
    let items (inner : Schema) : Except ReadFault (Json × Cursor) :=
      match depth with
      | 0 => .error (cursor.peekFault .tooDeep)
      | depth + 1 => do
          let (values, after) ←
            readItems fuel depth inner true cursor.advance
          return (.array values, ← after.endList)
    match schema with
    | .any => items .any
    | .list inner => items inner
    | .record name fields =>
        match depth with
        | 0 => .error (cursor.peekFault .tooDeep)
        | depth + 1 => do
            let (values, after) ←
              readPositions fuel depth
                (Schema.recordLength name fields.length) 0
                fields true cursor.advance
            return (Json.ofFields values, ← after.endList)
    | schema =>
        .error (wrongType schema.expectation cursor)

/- Read an object against a schema. -/
def readObject (fuel depth : Nat) (schema : Schema)
    (cursor : Cursor) : Except ReadFault (Json × Cursor) :=
  match fuel with
  | 0 => .error (cursor.fault .endOfValue)
  | fuel + 1 =>
    let entries (inner : Schema) : Except ReadFault (Json × Cursor) :=
      match depth with
      | 0 => .error (cursor.peekFault .tooDeep)
      | depth + 1 => do
          let (values, after) ←
            readEntries fuel depth inner true cursor.advance
          return (Json.ofFields values, ← after.endObject)
    match schema with
    | .any => entries .any
    | .map inner => entries inner
    | .record _ fields =>
        match depth with
        | 0 => .error (cursor.peekFault .tooDeep)
        | depth + 1 => do
            let (values, after) ←
              readKnown fuel depth fields [] true
                cursor.advance
            let members := fields.map
              fun (name, _, fallback) => (name, fallback)
            match Schema.fillRecord members values with
            | .ok value => return (value, ← after.endObject)
            | .error mismatch =>
                throw (placeAtEnd endObject after mismatch)
    | schema =>
        .error (wrongType schema.expectation cursor)

/- Read the items of a list. -/
def readItems (fuel depth : Nat) (inner : Schema)
    (first : Bool) (cursor : Cursor) :
    Except ReadFault (List Json × Cursor) :=
  match fuel with
  | 0 => .error (cursor.fault .endOfValue)
  | fuel + 1 => do
      let (more, cursor) ← nextItem first cursor
      if !more then
        return ([], cursor)
      let (value, cursor) ←
        readValue fuel depth inner cursor
      let (values, cursor) ←
        readItems fuel depth inner false cursor
      return (value :: values, cursor)

/- Read the fields of a record given in order. -/
def readPositions (fuel depth : Nat) (expected : String)
    (position : Nat) (fields : Fields) (first : Bool)
    (cursor : Cursor) : Except ReadFault (List (String × Json) × Cursor) :=
  match fuel, fields with
  | 0, _ => .error (cursor.fault .endOfValue)
  | _ + 1, [] => .ok ([], cursor)
  | fuel + 1, (name, schema, fallback) :: rest => do
      let (more, cursor) ← nextItem first cursor
      if more then
        let (value, cursor) ←
          readValue fuel depth schema cursor
        let (values, cursor) ←
          readPositions fuel depth expected (position + 1)
            rest false cursor
        return ((name, value) :: values, cursor)
      else
        match fallback with
        | some value =>
            let (values, cursor) ←
              readPositions fuel depth expected
                (position + 1) rest first cursor
            return ((name, value) :: values, cursor)
        | none =>
            throw (placeAtEnd endList cursor
              (.wrongLength position expected))

/- Read the entries of an object. -/
def readEntries (fuel depth : Nat) (inner : Schema)
    (first : Bool) (cursor : Cursor) :
    Except ReadFault (List (String × Json) × Cursor) :=
  match fuel with
  | 0 => .error (cursor.fault .endOfValue)
  | fuel + 1 => do
      let (more, cursor) ← nextKey first cursor
      if !more then
        return ([], cursor)
      let (key, cursor) ← cursor.advance.readString
      let cursor ← cursor.readColon
      let (value, cursor) ←
        readValue fuel depth inner cursor
      let (values, cursor) ←
        readEntries fuel depth inner false cursor
      return ((key, value) :: values, cursor)

/- Read the known fields of a record given as an object. -/
def readKnown (fuel depth : Nat) (fields : Fields)
    (sofar : List (String × Json)) (first : Bool)
    (cursor : Cursor) : Except ReadFault (List (String × Json) × Cursor) :=
  match fuel with
  | 0 => .error (cursor.fault .endOfValue)
  | fuel + 1 => do
      let (more, cursor) ← nextKey first cursor
      if !more then
        return (sofar, cursor)
      let (key, cursor) ← cursor.advance.readString
      match fields.lookup key with
      | none =>
          let cursor ← cursor.readColon
          let cursor ← cursor.ignore
          readKnown fuel depth fields sofar false cursor
      | some (schema, _) =>
          if (sofar.lookup key).isSome then
            throw (placeAtEnd endObject cursor
              (.duplicateField key))
          let cursor ← cursor.readColon
          let (value, cursor) ←
            readValue fuel depth schema cursor
          readKnown fuel depth fields
            (sofar ++ [(key, value)]) false cursor

end

end Cursor

end Json

------------------------------------------------------------
-- Documents
------------------------------------------------------------

/- Read a document against a schema. -/
def Schema.readDocument (schema : Schema) (bytes : Bytes) :
    Except Json.ReadFault Json := do
  let (value, cursor) ←
    Json.Cursor.readValue (3 * bytes.length + 5)
      Json.depthLimit schema (.ofBytes bytes)
  let cursor := cursor.skipSpace
  match cursor.peek with
  | none => return value
  | some _ => throw (cursor.peekFault .trailingCharacters)

/- Read a document of any shape. -/
def Json.read (bytes : Bytes) : Except Json.ReadFault Json :=
  Schema.any.readDocument bytes

end ServiceCalls
