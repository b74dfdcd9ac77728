import ServiceCalls.Text.Utf8

/-
  Base64 with the standard alphabet and padding.

  Key definitions include:
    * `base64Digit`
    * `base64Encode`
-/

namespace ServiceCalls

namespace Text

/- The digit of a number below 64. -/
def base64Digit (n : Nat) : Char :=
  if n < 26 then Char.ofNat (65 + n)
  else if n < 52 then Char.ofNat (71 + n)
  else if n < 62 then Char.ofNat (n - 4)
  else if n = 62 then '+'
  else '/'

/- Octets in groups of three, the last group padded. -/
def base64Encode : Bytes → List Char
  | [] => []
  | [a] =>
      let n := a.toNat * 65536
      [base64Digit (n / 262144),
        base64Digit (n / 4096 % 64), '=', '=']
  | [a, b] =>
      let n := a.toNat * 65536 + b.toNat * 256
      [base64Digit (n / 262144),
        base64Digit (n / 4096 % 64),
        base64Digit (n / 64 % 64), '=']
  | a :: b :: c :: rest =>
      let n := a.toNat * 65536 + b.toNat * 256 + c.toNat
      base64Digit (n / 262144) ::
        base64Digit (n / 4096 % 64) ::
        base64Digit (n / 64 % 64) ::
        base64Digit (n % 64) ::
        base64Encode rest

end Text

end ServiceCalls
