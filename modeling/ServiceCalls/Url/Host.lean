import ServiceCalls.Url.Basic
import ServiceCalls.Url.Error

/-
  Reading hosts.

  A host in brackets is an IPv6 address.  The host of a
  special scheme is decoded and taken as a domain name; it
  is an IPv4 address when its last label is a number.  Every
  other host is kept as it is written.

  A domain name in ASCII is put in lower case.  A name with
  other characters, or with a label that is in Punycode, is
  mapped, normalised and checked by the tables of UTS #46.
  These tables are not modelled.  `DomainNames` stands for
  what is read of such names, and what is proved about URLs
  holds for every one of its instances.

  Key definitions include:
    * `DomainNames`
    * `Host.domain?`
    * `Host.parseSpecial`
    * `Host.parsePlain`
-/

namespace ServiceCalls

/-
  The domain in ASCII of a name that is not plain, if the
  name is one.
-/
class DomainNames where
  toAscii? : String → Option String

namespace PlainNames

/- No names but plain ones are known. -/
scoped instance plainNames : DomainNames where
  toAscii? _ := none

end PlainNames

namespace Host

------------------------------------------------------------
-- IPv4 Addresses
------------------------------------------------------------

/- A number in some base, if all its digits fit the base. -/
def number? (base : Nat) (digits : List Char) : Option Nat :=
  digits.foldl (fun sofar c =>
    sofar.bind fun n =>
      (Text.hexValue? c).bind fun d =>
        if d < base then some (n * base + d) else none)
    (some 0)

/-
  A label as a number: hexadecimal after 0x, octal after
  another leading zero, decimal otherwise.
-/
def labelNumber? : List Char → Option Nat
  | [] => none
  | '0' :: 'x' :: digits => number? 16 digits
  | '0' :: 'X' :: digits => number? 16 digits
  | '0' :: d :: digits => number? 8 (d :: digits)
  | digits => number? 10 digits

/- The labels of a host, without an empty last one. -/
def labels (host : List Char) : List (List Char) :=
  let parts := Text.splitAll '.' host
  match parts.getLast? with
  | some [] => parts.dropLast
  | _ => parts

/- Whether the last label of a host is a number. -/
def endsInNumber (host : List Char) : Bool :=
  match (labels host).getLast? with
  | none => false
  | some [] => false
  | some last =>
      last.all Char.isDigit || (labelNumber? last).isSome

/- The greatest value of a part of 32 bits. -/
def maxWord : Nat :=
  Nat.pow 2 32 - 1

/-
  An address of up to four parts; all but the last are
  octets, and the last one fills the octets that are left.
-/
def parseIpv4 (host : List Char) : Except UrlError Nat :=
  let parts := labels host
  if 4 < parts.length then .error .invalidIpv4
  else
    match parts.mapM labelNumber? with
    | none => .error .invalidIpv4
    | some numbers =>
        match numbers.getLast? with
        | none => .error .invalidIpv4
        | some last =>
            let front := numbers.dropLast
            if maxWord / Nat.pow 256 front.length < last
            then
              .error .invalidIpv4
            else if front.any (255 < ·) then
              .error .invalidIpv4
            else
              .ok (front.zipIdx.foldr
                (fun (n, i) total =>
                  n * Nat.pow 256 (3 - i) + total)
                last)

------------------------------------------------------------
-- IPv6 Addresses
------------------------------------------------------------

/- A group of one to four hexadecimal digits. -/
def group? (digits : List Char) : Option Nat :=
  if digits.isEmpty || 4 < digits.length then none
  else number? 16 digits

/- An octet in decimal digits without a leading zero. -/
def octet? (digits : List Char) : Option Nat :=
  match digits with
  | [] => none
  | '0' :: _ :: _ => none
  | digits =>
      if digits.all Char.isDigit then
        (number? 10 digits).filter (· ≤ 255)
      else none

/- Four octets with points between them, as two groups. -/
def dotted? (digits : List Char) : Option (List Nat) :=
  match (Text.splitAll '.' digits).mapM octet? with
  | some [a, b, c, d] => some [a * 256 + b, c * 256 + d]
  | _ => none

/- Groups with colons between them. -/
def groups? : List (List Char) → Option (List Nat)
  | [] => some []
  | [last] =>
      match group? last with
      | some n => some [n]
      | none => dotted? last
  | first :: rest => do
      let n ← group? first
      let ns ← groups? rest
      return n :: ns

/- The groups of one side of an address. -/
def side? (text : List Char) : Option (List Nat) :=
  if text.isEmpty then some []
  else groups? (Text.splitAll ':' text)

/- The eight pieces of an address. -/
def ipv6? (text : List Char) : Option (List Nat) :=
  match Text.splitOnce "::".toList text with
  | none =>
      (side? text).filter fun pieces => pieces.length == 8
  | some (before, after) => do
      let high ← side? before
      let low ← side? after
      if before.contains '.' then none
      else if 7 < high.length + low.length then none
      else
        some (high ++
          List.replicate (8 - high.length - low.length) 0 ++
          low)

/- An address between brackets. -/
def parseBracketed (host : List Char) :
    Except UrlError Host :=
  match host with
  | '[' :: rest =>
      if rest.getLast? = some ']' then
        match ipv6? rest.dropLast with
        | some pieces => .ok (.ipv6 pieces)
        | none => .error .invalidIpv6
      else .error .invalidIpv6
  | _ => .error .invalidIpv6

------------------------------------------------------------
-- Names
------------------------------------------------------------

/- Characters that no host holds. -/
def isForbidden (c : Char) : Bool :=
  "\x00\t\n\r #/:<>?@[\\]^|".toList.contains c

/- Characters that no domain name holds. -/
def isForbiddenInDomain (c : Char) : Bool :=
  isForbidden c || c.toNat < 0x20 || c == '%' ||
    0x7F ≤ c.toNat

/-
  Characters that no domain name holds and that stay as they
  are in a name, whatever is next to them.  Of < and > a
  mark can make another character.
-/
def staysForbidden (c : Char) : Bool :=
  isForbiddenInDomain c && c.toNat < 0x80 &&
    c != '<' && c != '>'

/- Whether a label is in Punycode. -/
def isPunycode (label : List Char) : Bool :=
  "xn--".toList.isPrefixOf (label.map Char.toLower)

/- Whether a name is in ASCII and has no Punycode. -/
def isPlainName (name : List Char) : Bool :=
  name.all (·.toNat < 0x80) &&
    (Text.splitAll '.' name).all (!isPunycode ·)

/- The domain that a name stands for, if it is one. -/
def domain? [DomainNames] (name : List Char) :
    Option (List Char) :=
  if name.any staysForbidden then none
  else if isPlainName name then some (name.map Char.toLower)
  else
    (DomainNames.toAscii? (String.ofList name)).map
      String.toList

/- The host of a special scheme. -/
def parseSpecial [DomainNames] (host : List Char) :
    Except UrlError Host :=
  if host.head? = some '[' then parseBracketed host
  else
    let decoded? := Text.decode?
      (Text.percentDecode (Text.encodeChars host))
    match decoded?.bind fun name => domain? name.toList with
    | none => .error .invalidDomainName
    | some domain =>
        if domain.any isForbiddenInDomain then
          .error .invalidDomainName
        else if domain.isEmpty then .error .emptyHost
        else if endsInNumber domain then
          (parseIpv4 domain).map .ipv4
        else .ok (.name (String.ofList domain))

/- Characters of a host that take percent form. -/
def isControl (c : Char) : Bool :=
  c.toNat < 0x20 || c.toNat == 0x7F

/- The host of any other scheme. -/
def parsePlain (host : List Char) : Except UrlError Host :=
  if host.head? = some '[' then parseBracketed host
  else if host.any isForbidden then
    .error .invalidDomainCharacter
  else if host.isEmpty then .ok .empty
  else
    .ok (.name
      (String.ofList (Text.escapeChars isControl host)))

end Host

end ServiceCalls
