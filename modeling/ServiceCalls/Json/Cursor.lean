import ServiceCalls.Json.Schema
import ServiceCalls.Text.Percent

/-
  Reading the tokens of a JSON document.

  A cursor is the rest of the document with the line and
  column reached.  A fault is placed either after the octets
  read so far or after the octet that was looked at next.

  Key definitions include:
    * `Cursor`
    * `ReadFault`
    * `Cursor.readString`
    * `Cursor.readNumber`
-/

namespace ServiceCalls

namespace Json

------------------------------------------------------------
-- Cursors and Faults
------------------------------------------------------------

/- The rest of a document, and where it starts. -/
structure Cursor where
  rest : Bytes
  line : Nat
  column : Nat
deriving DecidableEq, Repr

/- Why a text is no JSON document. -/
inductive SyntaxFault where
| endOfList
| endOfObject
| endOfString
| endOfValue
| expectedColon
| expectedListEnd
| expectedObjectEnd
| expectedWord
| expectedValue
| invalidEscape
| invalidNumber
| numberOutOfRange
| invalidCodePoint
| controlCharacter
| keyNotString
| loneSurrogate
| endOfEscape
| trailingComma
| trailingCharacters
| tooDeep
deriving DecidableEq, Repr

/- The words for a fault of the text. -/
def SyntaxFault.message : SyntaxFault → String
  | .endOfList => "EOF while parsing a list"
  | .endOfObject => "EOF while parsing an object"
  | .endOfString => "EOF while parsing a string"
  | .endOfValue => "EOF while parsing a value"
  | .expectedColon => "expected `:`"
  | .expectedListEnd => "expected `,` or `]`"
  | .expectedObjectEnd => "expected `,` or `\x7d`"
  | .expectedWord => "expected ident"
  | .expectedValue => "expected value"
  | .invalidEscape => "invalid escape"
  | .invalidNumber => "invalid number"
  | .numberOutOfRange => "number out of range"
  | .invalidCodePoint => "invalid unicode code point"
  | .controlCharacter =>
      "control character (\\u0000-\\u001F) found while " ++
        "parsing a string"
  | .keyNotString => "key must be a string"
  | .loneSurrogate => "lone leading surrogate in hex escape"
  | .endOfEscape => "unexpected end of hex escape"
  | .trailingComma => "trailing comma"
  | .trailingCharacters => "trailing characters"
  | .tooDeep => "recursion limit exceeded"

/- Why a document could not be read. -/
inductive FaultCause where
| badSyntax
    (fault : SyntaxFault)
| mismatch
    (mismatch : Mismatch)
deriving DecidableEq, Repr

/- Why and where a document could not be read. -/
structure ReadFault where
  cause : FaultCause
  line : Nat
  column : Nat
deriving DecidableEq, Repr

/- The words for a fault. -/
def ReadFault.message (fault : ReadFault) : String :=
  let cause := match fault.cause with
    | .badSyntax f => f.message
    | .mismatch m => m.message
  cause ++ " at line " ++ toString fault.line ++
    " column " ++ toString fault.column

namespace Cursor

/- The start of a document. -/
def ofBytes (bytes : Bytes) : Cursor :=
  ⟨bytes, 1, 0⟩

/- The cursor after one octet. -/
def advance (cursor : Cursor) : Cursor :=
  match cursor.rest with
  | [] => cursor
  | b :: rest =>
      if b == 0x0A then ⟨rest, cursor.line + 1, 0⟩
      else ⟨rest, cursor.line, cursor.column + 1⟩

/- The cursor after a number of octets. -/
def skip (cursor : Cursor) : Nat → Cursor
  | 0 => cursor
  | n + 1 => skip cursor.advance n

/- The next character of the document. -/
def peek (cursor : Cursor) : Option Char :=
  cursor.rest.head?.map fun b => Char.ofNat b.toNat

/- A fault placed after the octets read. -/
def fault (cursor : Cursor) (cause : SyntaxFault) :
    ReadFault :=
  ⟨.badSyntax cause, cursor.line, cursor.column⟩

/- A fault placed after the next octet. -/
def peekFault (cursor : Cursor) (cause : SyntaxFault) :
    ReadFault :=
  cursor.advance.fault cause

/- A mismatch placed after the octets read. -/
def mismatchAt (cursor : Cursor) (mismatch : Mismatch) :
    ReadFault :=
  ⟨.mismatch mismatch, cursor.line, cursor.column⟩

/- Octets that separate tokens. -/
def isSpace (b : UInt8) : Bool :=
  b == 0x20 || b == 0x0A || b == 0x09 || b == 0x0D

/- The cursor at the next token. -/
def skipSpace (cursor : Cursor) : Cursor :=
  cursor.skip (cursor.rest.takeWhile isSpace).length

------------------------------------------------------------
-- Words
------------------------------------------------------------

/- Read the letters of a word. -/
def readWord (cursor : Cursor) :
    List Char → Except ReadFault Cursor
  | [] => .ok cursor
  | c :: letters =>
      match cursor.peek with
      | none => .error (cursor.fault .endOfValue)
      | some d =>
          if d == c then readWord cursor.advance letters
          else .error (cursor.advance.fault .expectedWord)

------------------------------------------------------------
-- Strings
------------------------------------------------------------

/- Read four hexadecimal digits. -/
def readHex (cursor : Cursor) : Except ReadFault (Nat × Cursor) :=
  let digits := cursor.rest.take 4
  let after := cursor.skip digits.length
  if digits.length < 4 then
    .error (after.fault .endOfString)
  else
    match digits.mapM fun b =>
        Text.hexValue? (Char.ofNat b.toNat) with
    | some values =>
        .ok (values.foldl (fun n d => n * 16 + d) 0, after)
    | none => .error (after.fault .invalidEscape)

/- Read the part of an escape after the letter u. -/
def readUnicode (cursor : Cursor) : Except ReadFault (Char × Cursor) := do
  let (n, cursor) ← cursor.readHex
  if 0xDC00 ≤ n ∧ n ≤ 0xDFFF then
    throw (cursor.fault .loneSurrogate)
  if n < 0xD800 ∨ 0xDBFF < n then
    return (Char.ofNat n, cursor)
  match cursor.peek with
  | none => throw (cursor.fault .endOfString)
  | some '\\' => pure ()
  | some _ => throw (cursor.advance.fault .endOfEscape)
  let cursor := cursor.advance
  match cursor.peek with
  | none => throw (cursor.fault .endOfString)
  | some 'u' => pure ()
  | some _ => throw (cursor.advance.fault .endOfEscape)
  let (m, cursor) ← cursor.advance.readHex
  if m < 0xDC00 ∨ 0xDFFF < m then
    throw (cursor.fault .loneSurrogate)
  let point := (n - 0xD800) * 1024 + (m - 0xDC00) + 0x10000
  return (Char.ofNat point, cursor)

/- Read an escape after its backslash. -/
def readEscape (cursor : Cursor) : Except ReadFault (Char × Cursor) :=
  match cursor.peek with
  | none => .error (cursor.fault .endOfString)
  | some '"' => .ok ('"', cursor.advance)
  | some '\\' => .ok ('\\', cursor.advance)
  | some '/' => .ok ('/', cursor.advance)
  | some 'b' => .ok ('\x08', cursor.advance)
  | some 'f' => .ok ('\x0c', cursor.advance)
  | some 'n' => .ok ('\n', cursor.advance)
  | some 'r' => .ok ('\r', cursor.advance)
  | some 't' => .ok ('\t', cursor.advance)
  | some 'u' => cursor.advance.readUnicode
  | some _ => .error (cursor.advance.fault .invalidEscape)

/- Read octets up to the closing quote. -/
def readQuoted : Nat → Cursor → Bytes → Except ReadFault (Bytes × Cursor)
  | 0, cursor, _ => .error (cursor.fault .endOfString)
  | fuel + 1, cursor, sofar =>
      match cursor.rest with
      | [] => .error (cursor.fault .endOfString)
      | b :: _ =>
          if b == 0x22 then .ok (sofar.reverse, cursor)
          else if b == 0x5C then do
            let (c, cursor) ← cursor.advance.readEscape
            readQuoted fuel cursor
              ((String.utf8EncodeChar c).reverse ++ sofar)
          else if b < 0x20 then
            .error (cursor.advance.fault .controlCharacter)
          else
            readQuoted fuel cursor.advance (b :: sofar)

/- Read a string after its opening quote. -/
def readString (cursor : Cursor) : Except ReadFault (String × Cursor) := do
  let (bytes, cursor) ←
    readQuoted (cursor.rest.length + 1) cursor []
  match Text.decode? bytes with
  | some s => return (s, cursor.advance)
  | none => throw (cursor.fault .invalidCodePoint)

------------------------------------------------------------
-- Numbers
------------------------------------------------------------

/- The greatest whole number kept exactly. -/
def wordLimit : Nat :=
  Nat.pow 2 64

/- The digit under the cursor. -/
def digit? (cursor : Cursor) : Option Nat :=
  match cursor.peek with
  | some c =>
      if c.isDigit then some (c.toNat - 48) else none
  | none => none

/- The cursor after the digits that follow. -/
def skipDigits (cursor : Cursor) : Cursor :=
  cursor.skip
    (cursor.rest.takeWhile fun b => 48 ≤ b && b ≤ 57).length

/-
  Read digits while the number they make fits 64 bits.

  The result is the number, how many digits were read, and
  whether another digit follows.
-/
def readDigits :
    Nat → Cursor → Nat → Nat → Nat × Nat × Bool × Cursor
  | 0, cursor, n, count => (n, count, false, cursor)
  | fuel + 1, cursor, n, count =>
      match cursor.digit? with
      | none => (n, count, false, cursor)
      | some d =>
          if wordLimit ≤ n * 10 + d then
            (n, count, true, cursor)
          else
            readDigits fuel cursor.advance (n * 10 + d)
              (count + 1)

/- A power of ten as a binary number. -/
def powerOfTen (n : Nat) : Binary64 :=
  (Binary64.ofNat (Nat.pow 10 n)).getD (Binary64.zero false)

/-
  Scale a binary number by a power of ten, in one rounded
  step, or in steps of 308 places for small results.
-/
def scaleByTen :
    Nat → Binary64 → Int → Option Binary64
  | 0, x, _ => some x
  | fuel + 1, x, e =>
      if e.natAbs ≤ 308 then
        if 0 ≤ e then Binary64.mul x (powerOfTen e.toNat)
        else Binary64.div x (powerOfTen (-e).toNat)
      else if x.isZero then some x
      else if 0 ≤ e then none
      else
        match Binary64.div x (powerOfTen 308) with
        | some y => scaleByTen fuel y (e + 308)
        | none => none

/- The number `± n * 10 ^ e`. -/
def makeFloat
    (negative : Bool)
    (n : Nat)
    (e : Int)
    (cursor : Cursor) :
    Except ReadFault (Number × Cursor) :=
  let scaled := do
    let x ← Binary64.ofNat n
    scaleByTen (e.natAbs + 1) x e
  match scaled with
  | some x =>
      .ok (.float (if negative then x.neg else x), cursor)
  | none => .error (cursor.fault .numberOutOfRange)

/- The greatest exponent that is counted. -/
def exponentLimit : Nat :=
  Nat.pow 2 31

/- Read the digits of an exponent. -/
def readExponentDigits :
    Nat → Cursor → Nat → Nat × Bool × Cursor
  | 0, cursor, n => (n, false, cursor)
  | fuel + 1, cursor, n =>
      match cursor.digit? with
      | none => (n, false, cursor)
      | some d =>
          if exponentLimit ≤ n * 10 + d then
            (n, true, cursor.advance)
          else
            readExponentDigits fuel cursor.advance
              (n * 10 + d)

/- Keep an exponent within 32 bits. -/
def clampExponent (e : Int) : Int :=
  let limit : Int := exponentLimit
  max (-limit) (min (limit - 1) e)

/- Read an exponent, the cursor being at its letter. -/
def readExponent
    (negative : Bool)
    (n : Nat)
    (e : Int)
    (cursor : Cursor) :
    Except ReadFault (Number × Cursor) :=
  let cursor := cursor.advance
  let (down, cursor) := match cursor.peek with
    | some '+' => (false, cursor.advance)
    | some '-' => (true, cursor.advance)
    | _ => (false, cursor)
  match cursor.peek, cursor.digit? with
  | none, _ => .error (cursor.fault .endOfValue)
  | some _, none =>
      .error (cursor.advance.fault .invalidNumber)
  | some _, some _ =>
      let (x, overflow, after) :=
        readExponentDigits cursor.rest.length cursor 0
      if overflow then
        if n ≠ 0 ∧ ¬ down then
          .error (after.fault .numberOutOfRange)
        else
          .ok (.float (Binary64.zero negative),
            after.skipDigits)
      else
        makeFloat negative n
          (clampExponent (if down then e - x else e + x))
          after

/- Go on after the digits of a number with a fraction. -/
def finishNumber
    (negative : Bool)
    (n : Nat)
    (e : Int)
    (cursor : Cursor) :
    Except ReadFault (Number × Cursor) :=
  match cursor.peek with
  | some 'e' => readExponent negative n e cursor
  | some 'E' => readExponent negative n e cursor
  | _ => makeFloat negative n e cursor

/- Read a fraction, the cursor being at its point. -/
def readFraction
    (negative : Bool)
    (n : Nat)
    (e : Int)
    (cursor : Cursor) :
    Except ReadFault (Number × Cursor) :=
  let cursor := cursor.advance
  let (m, count, more, after) :=
    readDigits cursor.rest.length cursor n 0
  if more then
    finishNumber negative m (e - count) after.skipDigits
  else if count = 0 then
    match after.peek with
    | some _ => .error (after.peekFault .invalidNumber)
    | none => .error (after.peekFault .endOfValue)
  else
    finishNumber negative m (e - count) after

/- A whole number, or a float if it is out of range. -/
def makeInt
    (negative : Bool)
    (n : Nat)
    (cursor : Cursor) :
    Except ReadFault (Number × Cursor) :=
  if ¬ negative then .ok (.int n, cursor)
  else if n ≠ 0 ∧ n ≤ Nat.pow 2 63 then
    .ok (.int (-n), cursor)
  else makeFloat true n 0 cursor

/- Read a number after its sign. -/
def readNumber (negative : Bool) (cursor : Cursor) :
    Except ReadFault (Number × Cursor) :=
  match cursor.peek, cursor.digit? with
  | none, _ => .error (cursor.fault .endOfValue)
  | some _, none =>
      .error (cursor.advance.fault .invalidNumber)
  | some _, some first =>
      if first = 0 ∧ (cursor.advance.digit?).isSome then
        .error (cursor.advance.peekFault .invalidNumber)
      else
        let (n, _, more, after) :=
          readDigits cursor.rest.length cursor 0 0
        let rest := if more then after.skipDigits else after
        let e : Int :=
          if more then
            (after.rest.length : Int) - rest.rest.length
          else 0
        match rest.peek with
        | some '.' => readFraction negative n e rest
        | some 'e' => readExponent negative n e rest
        | some 'E' => readExponent negative n e rest
        | _ =>
            if more then makeFloat negative n e rest
            else makeInt negative n rest

end Cursor

end Json

end ServiceCalls
