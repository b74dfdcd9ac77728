import ServiceCalls.Text.Percent
import ServiceCalls.Text.Search

/-
  Absolute URLs.

  A URL is kept as its components, in the form in which they
  are written.  A path is a list of segments, or a text of
  its own when no segment structure exists.

  Key definitions include:
    * `Url`
    * `Host`
    * `Url.Path`
    * `Url.render`
-/

namespace ServiceCalls

------------------------------------------------------------
-- Hosts
------------------------------------------------------------

/- The host of a URL. -/
inductive Host where
| empty
| name
    (text : String)
| ipv4
    (address : Nat)
| ipv6
    (pieces : List Nat)
deriving DecidableEq, Repr

namespace Host

/- A number as decimal digits. -/
def decimal (n : Nat) : String :=
  toString n

/- The four octets of an address. -/
def renderIpv4 (address : Nat) : String :=
  Text.join "."
    [decimal (address / 16777216 % 256),
      decimal (address / 65536 % 256),
      decimal (address / 256 % 256),
      decimal (address % 256)]

/- The length of the run of zeros at the start. -/
def zeroRun (pieces : List Nat) : Nat :=
  (pieces.takeWhile (· == 0)).length

/-
  Where the first longest run of zeros starts and how long
  it is.
-/
def longestRun : Nat → List Nat → Nat × Nat
  | _, [] => (0, 0)
  | place, pieces@(_ :: rest) =>
      let here := zeroRun pieces
      let (start, length) := longestRun (place + 1) rest
      if here ≠ 0 ∧ length ≤ here then (place, here)
      else (start, length)

/- Pieces in hexadecimal with colons between them. -/
def renderPieces (pieces : List Nat) : String :=
  Text.join ":" (pieces.map fun piece =>
    String.ofList (Nat.toDigits 16 piece))

/- The pieces with the longest run of zeros left out. -/
def renderIpv6 (pieces : List Nat) : String :=
  let (start, length) := longestRun 0 pieces
  if length < 2 then renderPieces pieces
  else
    renderPieces (pieces.take start) ++ "::" ++
      renderPieces (pieces.drop (start + length))

/- A host as it is written in a URL. -/
def render : Host → String
  | .empty => ""
  | .name text => text
  | .ipv4 address => renderIpv4 address
  | .ipv6 pieces => "[" ++ renderIpv6 pieces ++ "]"

end Host

------------------------------------------------------------
-- URLs
------------------------------------------------------------

/- The path of a URL. -/
inductive Url.Path where
| verbatim
    (text : String)
| segments
    (names : List String)
deriving DecidableEq, Repr

/- User information, host and port. -/
structure Url.Authority where
  username : String
  password : Option String
  host : Host
  port : Option Nat
deriving DecidableEq, Repr

/- An absolute URL. -/
structure Url where
  scheme : String
  authority : Option Url.Authority
  path : Url.Path
  query : Option String
  fragment : Option String
deriving DecidableEq, Repr

namespace Url

/- The host, if there is one with a text. -/
def host? (url : Url) : Option Host :=
  match url.authority with
  | none => none
  | some authority =>
      match authority.host with
      | .empty => none
      | host => some host

/- Whether there is a host with a text. -/
def hasHost (url : Url) : Bool :=
  url.host?.isSome

/- The port, unless it is the usual one. -/
def port? (url : Url) : Option Nat :=
  url.authority.bind (·.port)

------------------------------------------------------------
-- Rendering
------------------------------------------------------------

/- User information as it is written before a host. -/
def Authority.renderUser (authority : Authority) : String :=
  match authority.password with
  | some password =>
      authority.username ++ ":" ++ password ++ "@"
  | none =>
      if authority.username.isEmpty then ""
      else authority.username ++ "@"

/- An authority as it is written in a URL. -/
def Authority.render (authority : Authority) : String :=
  authority.renderUser ++ authority.host.render ++
    match authority.port with
    | none => ""
    | some port => ":" ++ toString port

/- A path as it is written in a URL. -/
def Path.render : Path → String
  | .verbatim text => text
  | .segments names =>
      String.join (names.map fun name => "/" ++ name)

/- What keeps a path apart from an authority. -/
def guard (url : Url) : String :=
  match url.authority, url.path with
  | none, .segments ("" :: _ :: _) => "/."
  | _, _ => ""

/- The text of a URL. -/
def render (url : Url) : String :=
  url.scheme ++ ":" ++
    (match url.authority with
      | none => ""
      | some authority => "//" ++ authority.render) ++
    url.guard ++ url.path.render ++
    (match url.query with
      | none => ""
      | some query => "?" ++ query) ++
    (match url.fragment with
      | none => ""
      | some fragment => "#" ++ fragment)

/- The URL without user information. -/
def withoutUser (url : Url) : Url :=
  { url with
    authority := url.authority.map fun authority =>
      { authority with username := "", password := none } }

end Url

end ServiceCalls
