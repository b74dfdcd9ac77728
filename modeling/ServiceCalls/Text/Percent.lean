import ServiceCalls.Text.Utf8

/-
  Percent encoding.

  An octet is written as a percent sign and two upper case
  hexadecimal digits.  Which octets are written plainly is
  the choice of the caller.

  Key definitions include:
    * `encodeOctet`
    * `percentEncode`
    * `percentDecode`
-/

namespace ServiceCalls

namespace Text

------------------------------------------------------------
-- Hexadecimal Digits
------------------------------------------------------------

/- The upper case hexadecimal digit of a number below 16. -/
def hexDigit (n : Nat) : Char :=
  if n < 10 then Char.ofNat (48 + n)
  else Char.ofNat (55 + n)

/- The number of a hexadecimal digit of either case. -/
def hexValue? (c : Char) : Option Nat :=
  if '0' ≤ c ∧ c ≤ '9' then some (c.toNat - 48)
  else if 'A' ≤ c ∧ c ≤ 'F' then some (c.toNat - 55)
  else if 'a' ≤ c ∧ c ≤ 'f' then some (c.toNat - 87)
  else none

------------------------------------------------------------
-- Encoding
------------------------------------------------------------

/- An octet in percent form. -/
def encodeOctet (b : UInt8) : List Char :=
  ['%', hexDigit (b.toNat / 16), hexDigit (b.toNat % 16)]

/- Write octets, some of them plainly. -/
def percentEncode
    (plain : UInt8 → Bool)
    (bytes : Bytes) :
    List Char :=
  bytes.flatMap fun b =>
    if plain b then [Char.ofNat b.toNat] else encodeOctet b

/- Letters, digits, hyphen, period, underscore and tilde. -/
def isUnreserved (b : UInt8) : Bool :=
  (0x41 ≤ b && b ≤ 0x5A) || (0x61 ≤ b && b ≤ 0x7A) ||
    (0x30 ≤ b && b ≤ 0x39) || b == 0x2D || b == 0x2E ||
    b == 0x5F || b == 0x7E

/- Write a text with only unreserved characters plain. -/
def encodeComponent (cs : List Char) : List Char :=
  percentEncode isUnreserved (encodeChars cs)

/-
  Write a text with the given ASCII characters in percent
  form.  Characters outside of ASCII always take that form.
-/
def escapeChars
    (escaped : Char → Bool)
    (cs : List Char) :
    List Char :=
  cs.flatMap fun c =>
    if escaped c || 0x80 ≤ c.toNat then
      (String.utf8EncodeChar c).flatMap encodeOctet
    else
      [c]

------------------------------------------------------------
-- Decoding
------------------------------------------------------------

/-
  Octets of a text in percent form.  A percent sign without
  two digits after it stands for itself.
-/
def percentDecode : Bytes → Bytes
  | [] => []
  | 0x25 :: high :: low :: rest =>
      match hexValue? (Char.ofNat high.toNat),
          hexValue? (Char.ofNat low.toNat) with
      | some h, some l =>
          UInt8.ofNat (h * 16 + l) :: percentDecode rest
      | _, _ => 0x25 :: percentDecode (high :: low :: rest)
  | b :: rest => b :: percentDecode rest

end Text

end ServiceCalls
