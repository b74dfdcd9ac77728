import ServiceCalls.Text.Blank
import ServiceCalls.Url.Host

/-
  Reading absolute URLs.

  Key definitions include:
    * `Url.splitScheme`
    * `Url.parsePath`
    * `Url.parse`
-/

namespace ServiceCalls

namespace Url

------------------------------------------------------------
-- Schemes
------------------------------------------------------------

/- The usual port of a scheme. -/
def defaultPort? (scheme : String) : Option Nat :=
  if scheme == "http" || scheme == "ws" then some 80
  else if scheme == "https" || scheme == "wss" then some 443
  else if scheme == "ftp" then some 21
  else none

/- Schemes whose URLs have hosts and paths of segments. -/
def isSpecial (scheme : String) : Bool :=
  scheme == "file" || (defaultPort? scheme).isSome

/- Characters of a scheme after the first one. -/
def isSchemeChar (c : Char) : Bool :=
  c.isAlphanum || c == '+' || c == '-' || c == '.'

/- The scheme in lower case and the text after its colon. -/
def splitScheme (text : List Char) :
    Option (String × List Char) :=
  match text with
  | [] => none
  | first :: _ =>
      if !first.isAlpha then none
      else
        match text.dropWhile isSchemeChar with
        | ':' :: rest =>
            some (String.ofList
              ((text.takeWhile isSchemeChar).map
                Char.toLower), rest)
        | _ => none

------------------------------------------------------------
-- Characters in Percent Form
------------------------------------------------------------

/- Characters of a fragment that take percent form. -/
def escapedInFragment (c : Char) : Bool :=
  Host.isControl c || " \"<>`".toList.contains c

/- Characters of a path that take percent form. -/
def escapedInPath (c : Char) : Bool :=
  escapedInFragment c || c == '#' || c == '?' ||
    c == '\x7b' || c == '\x7d'

/- Characters of user information that take percent form. -/
def escapedInUser (c : Char) : Bool :=
  escapedInPath c || "/:;=@[\\]^|".toList.contains c

/- Characters of a query that take percent form. -/
def escapedInQuery (special : Bool) (c : Char) : Bool :=
  Host.isControl c || " \"#<>".toList.contains c ||
    (special && c == '\'')

/- A text with some characters in percent form. -/
def escape (escaped : Char → Bool) (text : List Char) :
    String :=
  String.ofList (Text.escapeChars escaped text)

------------------------------------------------------------
-- Paths
------------------------------------------------------------

/- What ends a path segment. -/
def isSlash (special : Bool) (c : Char) : Bool :=
  c == '/' || (special && c == '\\')

/- Segments that stay where they are. -/
def isSingleDot (segment : List Char) : Bool :=
  [".", "%2e"].contains
    (String.ofList (segment.map Char.toLower))

/- Segments that go one level up. -/
def isDoubleDot (segment : List Char) : Bool :=
  ["..", ".%2e", "%2e.", "%2e%2e"].contains
    (String.ofList (segment.map Char.toLower))

/- A letter and a colon or a bar. -/
def isDriveLetter : List Char → Bool
  | [letter, mark] =>
      letter.isAlpha && (mark == ':' || mark == '|')
  | _ => false

/- A letter and a colon. -/
def isNormalDrive (segment : String) : Bool :=
  match segment.toList with
  | [letter, ':'] => letter.isAlpha
  | _ => false

/- A path without its last segment. -/
def shorten (file : Bool) (path : List String) :
    List String :=
  match path with
  | [only] =>
      if file && isNormalDrive only then [only] else []
  | path => path.dropLast

/- Put a segment at the end of a path. -/
def addSegment (file : Bool) (path : List String)
    (segment : List Char) : List String :=
  let drive :=
    file && path.isEmpty && isDriveLetter segment
  let written :=
    if drive then segment.take 1 ++ [':'] else segment
  path ++ [escape escapedInPath written]

/- Take the segments of a text into a path. -/
def addSegments (file : Bool) :
    List String → List (List Char) → List String
  | path, [] => path
  | path, [last] =>
      if isDoubleDot last then shorten file path ++ [""]
      else if isSingleDot last then path ++ [""]
      else addSegment file path last
  | path, segment :: rest =>
      if isDoubleDot segment then
        addSegments file (shorten file path) rest
      else if isSingleDot segment then
        addSegments file path rest
      else
        addSegments file (addSegment file path segment) rest

/- The segments of a text that follows a slash. -/
def parseSegments (special file : Bool) (text : List Char) :
    List String :=
  let path := addSegments file []
    (Text.splitBy (isSlash special) text)
  if file then
    match path.dropWhile (·.isEmpty) with
    | [] => [""]
    | names => names
  else path

/- The path of a URL with an authority. -/
def parsePath (special file : Bool) (text : List Char) :
    List String :=
  match text with
  | [] => if special then [""] else []
  | c :: rest =>
      if isSlash special c then parseSegments special file rest
      else parseSegments special file text

------------------------------------------------------------
-- Authorities
------------------------------------------------------------

/- Where an authority ends. -/
def endsAuthority (special : Bool) (c : Char) : Bool :=
  c == '/' || c == '?' || c == '#' ||
    (special && c == '\\')

/- Name and password of user information. -/
def parseUser (text : List Char) : String × Option String :=
  let name := text.takeWhile (· != ':')
  let password := text.drop (name.length + 1)
  (escape escapedInUser name,
    if password.isEmpty then none
    else some (escape escapedInUser password))

/-
  The user information of a text that starts with an
  authority, and the text after it.
-/
def splitUser (special : Bool) (text : List Char) :
    Except UrlError
      ((String × Option String) × List Char) :=
  let authority :=
    text.takeWhile fun c => !endsAuthority special c
  match Text.splitLast ['@'] authority with
  | none => .ok (("", none), text)
  | some ([], _) =>
      match text.drop 1 with
      | [] => .ok (("", none), [])
      | c :: rest =>
          if endsAuthority special c then .error .emptyHost
          else .ok (("", none), c :: rest)
  | some (user, _) =>
      .ok (parseUser user, text.drop (user.length + 1))

/- The length of the host at the start of a text. -/
def hostLength (special : Bool) :
    Bool → List Char → Nat
  | _, [] => 0
  | bracketed, c :: rest =>
      if (c == ':' && !bracketed) ||
          endsAuthority special c then 0
      else
        1 + hostLength special
          (if c == '[' then true
            else if c == ']' then false
            else bracketed) rest

/- The greatest port. -/
def maxPort : Nat :=
  65535

/- Read a port after its colon. -/
def parsePort (sofar : Option Nat) :
    List Char → Except UrlError (Option Nat × List Char)
  | [] => .ok (sofar, [])
  | c :: rest =>
      if c.isDigit then
        let port := sofar.getD 0 * 10 + (c.toNat - 48)
        if maxPort < port then .error .invalidPort
        else parsePort (some port) rest
      else if "/\\?#".toList.contains c then
        .ok (sofar, c :: rest)
      else .error .invalidPort

variable [DomainNames]

/- Read an authority after its two slashes. -/
def parseAuthority (scheme : String) (text : List Char) :
    Except UrlError (Authority × List Char) := do
  let special := isSpecial scheme
  let ((username, password), text) ← splitUser special text
  let hostText := text.take (hostLength special false text)
  let rest := text.drop hostText.length
  if special && hostText.isEmpty then
    throw .emptyHost
  let host ←
    if special then Host.parseSpecial hostText
    else Host.parsePlain hostText
  if host == .empty && rest.head? == some ':' then
    throw .emptyHost
  let (port, rest) ←
    match rest with
    | ':' :: digits => parsePort none digits
    | rest => pure (none, rest)
  let named := !username.isEmpty || password.isSome
  if host == .empty && named then
    throw .emptyHost
  let port := if port == defaultPort? scheme then none
    else port
  return (⟨username, password, host, port⟩, rest)

------------------------------------------------------------
-- Queries and Fragments
------------------------------------------------------------

/- A text before and after the start of its query. -/
def splitTail (text : List Char) : List Char × List Char :=
  (text.takeWhile fun c => c != '?' && c != '#',
    text.dropWhile fun c => c != '?' && c != '#')

/- The query and the fragment at the end of a URL. -/
def parseTail (special : Bool) (text : List Char) :
    Option String × Option String :=
  let fragmentOf (text : List Char) : Option String :=
    match text with
    | '#' :: fragment =>
        some (escape escapedInFragment fragment)
    | _ => none
  match text with
  | '?' :: rest =>
      (some (escape (escapedInQuery special)
          (rest.takeWhile (· != '#'))),
        fragmentOf (rest.dropWhile (· != '#')))
  | text => (none, fragmentOf text)

------------------------------------------------------------
-- URLs
------------------------------------------------------------

/- Characters dropped at both ends. -/
def isOuterBlank (c : Char) : Bool :=
  c.toNat ≤ 0x20

/- Characters dropped everywhere. -/
def isDropped (c : Char) : Bool :=
  c == '\t' || c == '\n' || c == '\r'

/- A text without the characters that are dropped. -/
def clean (text : List Char) : List Char :=
  (Text.stripWhile isOuterBlank text).filter
    fun c => !isDropped c

/- An authority without a host. -/
def nowhere : Authority :=
  ⟨"", none, .empty, none⟩

/- A URL whose path comes next, followed by its tail. -/
def finish
    (scheme : String)
    (authority : Option Authority)
    (path : List Char → Path)
    (text : List Char) :
    Url :=
  let (front, tail) := splitTail text
  let (query, fragment) := parseTail (isSpecial scheme) tail
  ⟨scheme, authority, path front, query, fragment⟩

/- A URL with an authority and a path of segments. -/
def finishAfter
    (scheme : String)
    (authority : Authority)
    (text : List Char) :
    Url :=
  finish scheme (some authority)
    (fun front => .segments
      (parsePath (isSpecial scheme) (scheme == "file") front))
    text

/- Read a file URL after its scheme. -/
def parseFile (text : List Char) : Except UrlError Url :=
  match text with
  | a :: b :: rest =>
      if isSlash true a && isSlash true b then
        let hostText := rest.takeWhile fun c =>
          !endsAuthority true c
        let after := rest.drop hostText.length
        if isDriveLetter hostText then
          .ok (finishAfter "file" nowhere rest)
        else if hostText.isEmpty then
          .ok (finishAfter "file" nowhere after)
        else do
          let host ← Host.parseSpecial hostText
          let url :=
            finishAfter "file"
              { nowhere with host := host } after
          let drive := match url.path with
            | .segments (first :: _) => isNormalDrive first
            | _ => false
          if host == .name "localhost" || drive then
            return { url with authority := some nowhere }
          else
            return url
      else .ok (finishAfter "file" nowhere text)
  | text => .ok (finishAfter "file" nowhere text)

/- Read the part of a URL after its scheme. -/
def parseAfterScheme (scheme : String) (text : List Char) :
    Except UrlError Url :=
  let withAuthority (rest : List Char) :
      Except UrlError Url := do
    let (authority, rest) ← parseAuthority scheme rest
    return finishAfter scheme authority rest
  if scheme == "file" then parseFile text
  else if isSpecial scheme then
    withAuthority (text.dropWhile (isSlash true))
  else
    match text with
    | '/' :: '/' :: rest => withAuthority rest
    | '/' :: rest =>
        .ok (finish scheme none
          (fun front => .segments
            (parseSegments false false front)) rest)
    | text =>
        .ok (finish scheme none
          (fun front => .verbatim
            (escape Host.isControl front)) text)

/- Read an absolute URL. -/
def parseChars (text : List Char) : Except UrlError Url :=
  match splitScheme (clean text) with
  | none => .error .relativeWithoutBase
  | some (scheme, rest) => parseAfterScheme scheme rest

/- Read an absolute URL. -/
def parse (text : String) : Except UrlError Url :=
  parseChars text.toList

end Url

end ServiceCalls
