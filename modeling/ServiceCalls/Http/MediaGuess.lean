import ServiceCalls.Http.MediaType
import ServiceCalls.Text.Utf8

/-
  Guessing the media type of content.

  What content reveals comes first, then what its file name
  suggests.  Which types are known by the octets of content
  and which by a file name is up to the libraries in use.
  Their tables are long and are not modelled.  `KnownMedia`
  stands for them, and what is proved about parts holds for
  every one of its instances.

  `CommonMedia` is one instance.  It has the signatures and
  extensions that are met most often and knows no others.

  Key definitions include:
    * `KnownMedia`
    * `MediaType.guess`
    * `CommonMedia.ofContent?`
    * `CommonMedia.ofFileName?`
-/

namespace ServiceCalls

------------------------------------------------------------
-- Guesses
------------------------------------------------------------

/- The media types that are known. -/
class KnownMedia where
  ofContent? : Bytes → Option String
  ofFileName? : String → Option String

/- The media type of content with a file name, if any. -/
def MediaType.guess
    [KnownMedia]
    (content : Option Bytes)
    (fileName : Option String) :
    String :=
  ((content.bind KnownMedia.ofContent?).or
    (fileName.bind KnownMedia.ofFileName?)).getD octetStream

namespace CommonMedia

------------------------------------------------------------
-- Signatures
------------------------------------------------------------

/-
  Octets found at fixed places of some kind of content that
  is longer than a number of octets.
-/
structure Signature where
  mediaType : String
  longerThan : Nat
  marks : List (Nat × Bytes)
deriving DecidableEq, Repr

/- Whether content has a mark at a place. -/
def hasMark (content : Bytes) (place : Nat) (mark : Bytes) :
    Bool :=
  mark.isPrefixOf (content.drop place)

/- Whether content bears a signature. -/
def Signature.matches
    (signature : Signature)
    (content : Bytes) :
    Bool :=
  signature.longerThan < content.length &&
    signature.marks.all fun (place, mark) =>
      hasMark content place mark

/- A signature that is a text at the start. -/
def textSignature
    (mediaType : String)
    (longerThan : Nat)
    (mark : String) :
    Signature :=
  ⟨mediaType, longerThan, [(0, Text.encode mark)]⟩

/- Brands of MP4 containers. -/
def mp4Brands : List String :=
  ["avc1", "dash", "iso2", "iso3", "iso4", "iso5", "iso6",
    "isom", "mmp4", "mp41", "mp42", "mp4v", "mp71", "MSNV",
    "NDAS", "NDSC", "NSDC", "NDSH", "NDSM", "NDSP", "NDSS",
    "NDXC", "NDXH", "NDXM", "NDXP", "NDXS", "F4V ", "F4P "]

/- Signatures in the order they are tried. -/
def signatures : List Signature :=
  [⟨"application/wasm", 7,
      [(0, [0x00, 0x61, 0x73, 0x6D, 0x01, 0, 0, 0])]⟩,
    ⟨"application/x-executable", 52,
      [(0, [0x7F, 0x45, 0x4C, 0x46])]⟩,
    textSignature
      "application/vnd.microsoft.portable-executable" 1
      "MZ",
    ⟨"image/jpeg", 2, [(0, [0xFF, 0xD8, 0xFF])]⟩,
    ⟨"image/png", 3, [(0, [0x89, 0x50, 0x4E, 0x47])]⟩,
    textSignature "image/gif" 2 "GIF",
    ⟨"image/webp", 11, [(8, Text.encode "WEBP")]⟩,
    textSignature "image/bmp" 1 "BM"] ++
  (mp4Brands.map fun brand =>
    ⟨"video/mp4", 11,
      [(4, Text.encode "ftyp"), (8, Text.encode brand)]⟩) ++
  [textSignature "audio/mpeg" 2 "ID3",
    ⟨"audio/mpeg", 2, [(0, [0xFF, 0xFB])]⟩,
    textSignature "audio/ogg" 3 "OggS",
    textSignature "audio/x-flac" 3 "fLaC"] ++
  ([0x03, 0x05, 0x07].flatMap fun (third : UInt8) =>
    [0x04, 0x06, 0x08].map fun (fourth : UInt8) =>
      ⟨"application/zip", 3,
        [(0, [0x50, 0x4B, third, fourth])]⟩) ++
  ([0x00, 0x01].map fun (last : UInt8) =>
    ⟨"application/vnd.rar", 6,
      [(0, [0x52, 0x61, 0x72, 0x21, 0x1A, 0x07, last])]⟩) ++
  [⟨"application/gzip", 2, [(0, [0x1F, 0x8B, 0x08])]⟩,
    ⟨"application/x-7z-compressed", 5,
      [(0, [0x37, 0x7A, 0xBC, 0xAF, 0x27, 0x1C])]⟩,
    textSignature "application/pdf" 3 "%PDF",
    textSignature "application/rtf" 4 "\x7b\\rtf"]

------------------------------------------------------------
-- Markup
------------------------------------------------------------

/- Octets skipped at the start of markup. -/
def isMarkupSpace (b : UInt8) : Bool :=
  b == 0x09 || b == 0x0A || b == 0x0C || b == 0x0D ||
    b == 0x20

/- An octet with an ASCII letter in upper case. -/
def upperOctet (b : UInt8) : UInt8 :=
  if 0x61 ≤ b && b ≤ 0x7A then b - 0x20 else b

/- Whether markup starts with a mark, in any case. -/
def startsMarkup (mark : String) (content : Bytes) : Bool :=
  let n := (Text.encode mark).length
  (content.take n).map upperOctet ==
    (Text.encode mark).map upperOctet

/- How HTML documents start. -/
def htmlMarks : List String :=
  ["<!DOCTYPE HTML", "<HTML", "<HEAD", "<SCRIPT",
    "<IFRAME", "<H1", "<DIV", "<FONT", "<TABLE", "<A",
    "<STYLE", "<TITLE", "<B", "<BODY", "<BR", "<P", "<!--"]

/- Whether a mark is followed by a blank or a bracket. -/
def isTag (mark : String) (content : Bytes) : Bool :=
  startsMarkup mark content &&
    match content[(Text.encode mark).length]? with
    | some b => b == 0x20 || b == 0x3E
    | none => false

/- The media type of markup and scripts. -/
def ofMarkup? (content : Bytes) : Option String :=
  let trimmed := content.dropWhile isMarkupSpace
  if htmlMarks.any fun mark => isTag mark trimmed then
    some "text/html"
  else if startsMarkup "<?xml" trimmed then
    some "text/xml"
  else if (textSignature "" 2 "#!").matches content then
    some "text/x-shellscript"
  else
    none

------------------------------------------------------------
-- File Names
------------------------------------------------------------

/- Media types by extension. -/
def extensions : List (String × String) :=
  [("txt", "text/plain"), ("json", "application/json"),
    ("html", "text/html"), ("htm", "text/html"),
    ("png", "image/png"), ("jpg", "image/jpeg"),
    ("jpeg", "image/jpeg"), ("gif", "image/gif"),
    ("pdf", "application/pdf"), ("csv", "text/csv"),
    ("xml", "text/xml"), ("svg", "image/svg+xml"),
    ("js", "text/javascript"), ("css", "text/css"),
    ("zip", "application/zip"), ("mp4", "video/mp4"),
    ("mp3", "audio/mpeg"), ("gz", "application/gzip"),
    ("tar", "application/x-tar"),
    ("wasm", "application/wasm"), ("webp", "image/webp"),
    ("md", "text/markdown"), ("t", "text/troff"),
    ("bin", "application/octet-stream")]

/- The last name of a path. -/
def lastName? (path : List Char) : Option (List Char) :=
  let names := (Text.splitAll '/' path).filter
    fun name => !name.isEmpty && name != ['.']
  match names.getLast? with
  | some ['.', '.'] => none
  | name => name

/- The extension of a file name, unless it is hidden. -/
def extension? (name : List Char) : Option (List Char) :=
  match Text.splitLast ['.'] name with
  | some (_ :: _, after) => some after
  | _ => none

/- The media type that a file name suggests. -/
def ofFileName? (fileName : String) : Option String := do
  let name ← lastName? fileName.toList
  let ext ← extension? name
  extensions.lookup (lowerAscii (String.ofList ext))

/- The media type that content reveals. -/
def ofContent? (content : Bytes) : Option String :=
  match signatures.find? (·.matches content) with
  | some signature => some signature.mediaType
  | none => ofMarkup? content

scoped instance commonMedia : KnownMedia where
  ofContent? := ofContent?
  ofFileName? := ofFileName?

end CommonMedia

end ServiceCalls
