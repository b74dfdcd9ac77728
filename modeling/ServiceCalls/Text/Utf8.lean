/-
  UTF-8.

  Octets are read as a list of chunks: characters, and
  maximal broken pieces.  A strict reader reports the first
  broken piece; a lenient one puts U+FFFD in its place.

  Key definitions include:
    * `encode`
    * `chunks`
    * `decode`
    * `decodeLenient`
-/

namespace ServiceCalls

/- Octets as they are sent and received. -/
abbrev Bytes :=
  List UInt8

namespace Text

------------------------------------------------------------
-- Encoding
------------------------------------------------------------

/- The octets of a list of characters. -/
def encodeChars (cs : List Char) : Bytes :=
  cs.flatMap String.utf8EncodeChar

/- The octets of a text. -/
def encode (s : String) : Bytes :=
  encodeChars s.toList

------------------------------------------------------------
-- Chunks
------------------------------------------------------------

/-
  A piece of an octet sequence.

  A broken piece is cut short by the end of the input when
  `cut` is set, and by an octet that does not fit otherwise.
-/
inductive Chunk where
| char
    (c : Char)
| broken
    (octets : Nat)
    (cut : Bool)
deriving DecidableEq, Repr

/- Octets that continue a character. -/
def isContinuation (b : UInt8) : Bool :=
  0x80 ≤ b && b ≤ 0xBF

/- Second octets allowed after a three octet lead. -/
def fitsThree (lead second : UInt8) : Bool :=
  if lead == 0xE0 then 0xA0 ≤ second && second ≤ 0xBF
  else if lead == 0xED then 0x80 ≤ second && second ≤ 0x9F
  else isContinuation second

/- Second octets allowed after a four octet lead. -/
def fitsFour (lead second : UInt8) : Bool :=
  if lead == 0xF0 then 0x90 ≤ second && second ≤ 0xBF
  else if lead == 0xF4 then 0x80 ≤ second && second ≤ 0x8F
  else isContinuation second

/- The payload of a continuation octet. -/
def payload (b : UInt8) : Nat :=
  b.toNat % 64

/- The first chunk of a sequence, and how long it is. -/
def firstChunk (lead : UInt8) (rest : Bytes) : Chunk × Nat :=
  if lead < 0x80 then
    (.char (Char.ofNat lead.toNat), 1)
  else if 0xC2 ≤ lead && lead ≤ 0xDF then
    match rest with
    | [] => (.broken 1 true, 1)
    | b :: _ =>
        if isContinuation b then
          (.char (Char.ofNat
            (lead.toNat % 32 * 64 + payload b)), 2)
        else
          (.broken 1 false, 1)
  else if 0xE0 ≤ lead && lead ≤ 0xEF then
    match rest with
    | [] => (.broken 1 true, 1)
    | [b] =>
        if fitsThree lead b then (.broken 2 true, 2)
        else (.broken 1 false, 1)
    | b :: c :: _ =>
        if !fitsThree lead b then (.broken 1 false, 1)
        else if isContinuation c then
          (.char (Char.ofNat
            (lead.toNat % 16 * 4096 + payload b * 64 +
              payload c)), 3)
        else
          (.broken 2 false, 2)
  else if 0xF0 ≤ lead && lead ≤ 0xF4 then
    match rest with
    | [] => (.broken 1 true, 1)
    | [b] =>
        if fitsFour lead b then (.broken 2 true, 2)
        else (.broken 1 false, 1)
    | [b, c] =>
        if !fitsFour lead b then (.broken 1 false, 1)
        else if isContinuation c then (.broken 3 true, 3)
        else (.broken 2 false, 2)
    | b :: c :: d :: _ =>
        if !fitsFour lead b then (.broken 1 false, 1)
        else if !isContinuation c then (.broken 2 false, 2)
        else if isContinuation d then
          (.char (Char.ofNat
            (lead.toNat % 8 * 262144 + payload b * 4096 +
              payload c * 64 + payload d)), 4)
        else
          (.broken 3 false, 3)
  else
    (.broken 1 false, 1)

/- Read octets as chunks. -/
def chunks : Bytes → List Chunk
  | [] => []
  | lead :: rest =>
      let (chunk, size) := firstChunk lead rest
      chunk :: chunks (rest.drop (size - 1))
termination_by bytes => bytes.length
decreasing_by
  simp only [List.length_drop, List.length_cons]
  omega

------------------------------------------------------------
-- Decoding
------------------------------------------------------------

/- Where a sequence stops being UTF-8, and how. -/
structure Utf8Fault where
  validUpTo : Nat
  octets : Nat
  cut : Bool
deriving DecidableEq, Repr

/- Collect characters up to the first broken chunk. -/
def collect
    (position : Nat) :
    List Chunk → Except Utf8Fault (List Char)
  | [] => .ok []
  | .char c :: rest =>
      (collect (position + c.utf8Size) rest).map (c :: ·)
  | .broken octets cut :: _ =>
      .error ⟨position, octets, cut⟩

/- Read octets as text, or say where they are no text. -/
def decode (bytes : Bytes) : Except Utf8Fault String :=
  (collect 0 (chunks bytes)).map String.ofList

/- Read octets as text if they are text. -/
def decode? (bytes : Bytes) : Option String :=
  (decode bytes).toOption

/- Read octets as text, with U+FFFD for each broken piece. -/
def decodeLenient (bytes : Bytes) : String :=
  String.ofList ((chunks bytes).map fun chunk =>
    match chunk with
    | .char c => c
    | .broken _ _ => '\uFFFD')

/- The words for a fault. -/
def Utf8Fault.message (fault : Utf8Fault) : String :=
  if fault.cut then
    "incomplete utf-8 byte sequence from index " ++
      toString fault.validUpTo
  else
    "invalid utf-8 sequence of " ++ toString fault.octets ++
      " bytes from index " ++ toString fault.validUpTo

end Text

end ServiceCalls
