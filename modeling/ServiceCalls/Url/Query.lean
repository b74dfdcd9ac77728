import ServiceCalls.Url.Parse

/-
  Form encoding, and queries made of pairs.

  A space is written as a plus sign, and every octet but
  letters, digits and four marks in percent form.

  Key definitions include:
    * `formEncode`
    * `appendPair`
    * `Url.appendPairs`
    * `formDecode`
-/

namespace ServiceCalls

namespace Url

------------------------------------------------------------
-- Encoding
------------------------------------------------------------

/- Octets that form encoding writes plainly. -/
def isFormPlain (b : UInt8) : Bool :=
  (0x41 ≤ b && b ≤ 0x5A) || (0x61 ≤ b && b ≤ 0x7A) ||
    (0x30 ≤ b && b ≤ 0x39) || b == 0x2A || b == 0x2D ||
    b == 0x2E || b == 0x5F

/- A text in form encoding. -/
def formEncode (s : String) : List Char :=
  (Text.encode s).flatMap fun b =>
    if b == 0x20 then ['+']
    else if isFormPlain b then [Char.ofNat b.toNat]
    else Text.encodeOctet b

/- A pair in form encoding. -/
def formPair (pair : String × String) : List Char :=
  formEncode pair.1 ++ '=' :: formEncode pair.2

/- A query with one more pair. -/
def appendPair (query : List Char) (pair : String × String) :
    List Char :=
  if query.isEmpty then formPair pair
  else query ++ '&' :: formPair pair

/- A URL with pairs added to its query. -/
def appendPairs (url : Url) (pairs : List (String × String)) :
    Url :=
  { url with
    query := some (String.ofList
      (pairs.foldl appendPair
        ((url.query.getD "").toList))) }

------------------------------------------------------------
-- Decoding
------------------------------------------------------------

/- A text in form encoding, read back. -/
def formDecodeText (cs : List Char) : String :=
  let plain := cs.map fun c => if c == '+' then ' ' else c
  Text.decodeLenient
    (Text.percentDecode (Text.encodeChars plain))

/- A pair in form encoding, read back. -/
def formDecodePair (cs : List Char) : String × String :=
  let name := cs.takeWhile (· != '=')
  (formDecodeText name,
    formDecodeText (cs.drop (name.length + 1)))

/- The pairs of a query. -/
def formDecode (query : List Char) :
    List (String × String) :=
  ((Text.splitAll '&' query).filter
    fun piece => !piece.isEmpty).map formDecodePair

end Url

end ServiceCalls
