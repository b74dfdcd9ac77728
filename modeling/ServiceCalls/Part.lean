import ServiceCalls.Argument
import ServiceCalls.Http.HeaderText

/-
  Parts of a multipart body.

  A part is a named value with headers of its own.  Files
  become resources that carry the media type and the name of
  the file; the headers of an entity become those of the
  part; deferred values stay deferred.

  Key definitions include:
    * `Part`
    * `contentDisposition`
    * `dispositionFileName?`
    * `Part.ofArgument`
-/

namespace ServiceCalls

------------------------------------------------------------
-- Content Dispositions
------------------------------------------------------------

namespace Disposition

/- A character inside of a quoted parameter. -/
def escapeChar (c : Char) : List Char :=
  if c == '\\' then ['\\', '\\']
  else if c == '"' then ['\\', '"']
  else [c]

/- A quoted parameter. -/
def quote (s : String) : List Char :=
  '"' :: (s.toList.flatMap escapeChar ++ ['"'])

/- The start of a file name parameter. -/
def fileNameMark : List Char :=
  "filename=\"".toList

/-
  The text up to the closing quote; a backslash stands
  before a character that is taken as it is.
-/
def unquote? : List Char → Option (List Char)
  | [] => none
  | '"' :: _ => some []
  | '\\' :: c :: rest => (unquote? rest).map (c :: ·)
  | ['\\'] => none
  | c :: rest => (unquote? rest).map (c :: ·)

end Disposition

/- The disposition of a part with a name. -/
def contentDisposition
    (name : String)
    (fileName : Option String) :
    String :=
  String.ofList
    ("form-data; name=".toList ++ Disposition.quote name ++
      match fileName with
      | none => []
      | some file =>
          "; filename=".toList ++ Disposition.quote file)

/- The quoted file name of a disposition. -/
def dispositionFileName? (disposition : String) :
    Option String := do
  let (_, after) ←
    Text.splitOnce Disposition.fileNameMark
      disposition.toList
  let name ← Disposition.unquote? after
  return String.ofList name

------------------------------------------------------------
-- Parts
------------------------------------------------------------

/- One part of a multipart body. -/
structure Part where
  name : String
  headers : Headers
  content : Argument

namespace Part

/- A part without headers. -/
def bare (name : String) (content : Argument) : Part :=
  ⟨name, .empty, content⟩

/- Set a header; a value it had is replaced. -/
def setHeader (part : Part) (name value : String) :
    Except ServiceError Part :=
  (part.headers.insertText name value).map fun headers =>
    { part with headers := headers }

/- Set the media type. -/
def setContentType (part : Part) (mediaType : String) :
    Except ServiceError Part :=
  part.setHeader HeaderName.contentType.text mediaType

/- Set the file name. -/
def setFileName (part : Part) (fileName : String) :
    Except ServiceError Part :=
  part.setHeader HeaderName.contentDisposition.text
    (contentDisposition part.name (some fileName))

------------------------------------------------------------
-- Parts From Arguments
------------------------------------------------------------

/- A file as the resource it holds. -/
def fileToResource : Argument → Argument
  | .file f => .resource f.resource
  | argument => argument

/- An entity inside of an entity. -/
def nestedEntity : ServiceError :=
  .invalidArgument
    "Nested entity is not a valid part value"

/- The content of an entity in a part. -/
def ofEntityBody : Argument → Except ServiceError Argument
  | .entity _ _ => .error nestedEntity
  | .file f => .ok (.resource f.resource)
  | argument => .ok (argument.mapElements fileToResource)

/- A file as a part. -/
def ofFile (name : String) (f : UploadFile) :
    Except ServiceError Part := do
  let part := bare name (.resource f.resource)
  let part ← match f.mediaType with
    | none => pure part
    | some mediaType => part.setContentType mediaType
  match f.fileName with
  | none => return part
  | some fileName => part.setFileName fileName

/- An argument as a part, before it gets a file name. -/
def convert (name : String) :
    Argument → Except ServiceError Part
  | .entity body headers => do
      let content ← ofEntityBody body
      return ⟨name, headers, content⟩
  | .file f => ofFile name f
  | argument =>
      .ok (bare name (argument.mapElements fileToResource))

/- Take over the file name of a resource. -/
def nameFile (part : Part) : Except ServiceError Part :=
  match part.content with
  | .resource resource =>
      if part.headers.contains .contentDisposition then
        .ok part
      else
        match resource.fileName with
        | none => .ok part
        | some fileName => part.setFileName fileName
  | _ => .ok part

/- An argument as a part. -/
def ofArgument (name : String) (argument : Argument) :
    Except ServiceError Part :=
  (convert name argument).bind nameFile

------------------------------------------------------------
-- Changes to a Part
------------------------------------------------------------

/- A change to a part that was added. -/
inductive Change where
| header
    (name : String)
    (value : String)
| contentType
    (mediaType : String)
| fileName
    (name : String)
deriving DecidableEq, Repr

/- Make one change. -/
def change (part : Part) : Change → Except ServiceError Part
  | .header name value => part.setHeader name value
  | .contentType mediaType => part.setContentType mediaType
  | .fileName name => part.setFileName name

/-
  Make changes in order until one fails; those before it
  stay.
-/
def changeAll (part : Part) :
    List Change → Part × Except ServiceError Unit
  | [] => (part, .ok ())
  | c :: rest =>
      match part.change c with
      | .ok changed => changed.changeAll rest
      | .error error => (part, .error error)

end Part

------------------------------------------------------------
-- Part Lists
------------------------------------------------------------

/-
  Add a part to those there are and change it.  A value that
  makes no part leaves the list as it was.
-/
def addPart
    (parts : List Part)
    (name : String)
    (value : Argument)
    (changes : List Part.Change) :
    List Part × Except ServiceError Unit :=
  match Part.ofArgument name value with
  | .error error => (parts, .error error)
  | .ok part =>
      let (changed, result) := part.changeAll changes
      (parts ++ [changed], result)

end ServiceCalls
