import ServiceCalls.Error
import ServiceCalls.Http.Header
import ServiceCalls.Http.MediaGuess
import ServiceCalls.Json.Writer
import ServiceCalls.Url.Parse

/-
  Values passed to a declared call.

  A deferred value yields one argument or a failure; a
  stream yields a finite list of them.

  Key definitions include:
    * `Resource`
    * `UploadFile`
    * `Argument`
    * `Argument.toText`
    * `Argument.elements?`
-/

namespace ServiceCalls

------------------------------------------------------------
-- Content With a Name
------------------------------------------------------------

/- Content with the name of the file it comes from. -/
structure Resource where
  content : Bytes
  fileName : Option String
deriving DecidableEq, Repr

namespace Resource

/- The media type that content and name suggest. -/
def mediaType [KnownMedia] (resource : Resource) : String :=
  MediaType.guess (some resource.content) resource.fileName

/-
  Whether a path is made of separators and dots, so that it
  is a directory wherever it is looked up.
-/
def isDirectoryPath (path : String) : Bool :=
  !path.isEmpty &&
    path.toList.all (fun c => c == '/' || c == '.')

/- Why there is no file at a path. -/
def missingReason (path : String) : String :=
  if isDirectoryPath path then "Is a directory (os error 21)"
  else "No such file or directory (os error 2)"

/- A path without a file. -/
def missing (path : String) : ServiceError :=
  .invalidArgument
    ("Failed to read resource '" ++ path ++ "': " ++
      missingReason path)

end Resource

/- A file as it is sent by a form. -/
structure UploadFile where
  name : String
  fileName : Option String
  mediaType : Option String
  content : Bytes
deriving DecidableEq, Repr

namespace UploadFile

/- The content of a file with the name it came with. -/
def resource (file : UploadFile) : Resource :=
  ⟨file.content, file.fileName⟩

end UploadFile

------------------------------------------------------------
-- Arguments
------------------------------------------------------------

/- A value passed to a declared call. -/
inductive Argument where
| null
| text
    (value : String)
| json
    (value : Json)
| bytes
    (value : Bytes)
| list
    (items : List Argument)
| map
    (entries : List (String × Argument))
| uri
    (value : Url)
| method
    (value : Method)
| file
    (value : UploadFile)
| resource
    (value : Resource)
| entity
    (body : Argument)
    (headers : Headers)
| deferred
    (result : Except ServiceError Argument)
| stream
    (results : List (Except ServiceError Argument))

namespace Argument

/- The words for a kind of argument. -/
def kind : Argument → String
  | .null => "null"
  | .text _ => "text"
  | .json _ => "json"
  | .bytes _ => "bytes"
  | .list _ => "list"
  | .map _ => "map"
  | .uri _ => "uri"
  | .method _ => "http method"
  | .file _ => "multipart file"
  | .resource _ => "resource"
  | .entity _ _ => "entity"
  | .deferred _ => "publisher"
  | .stream _ => "publisher"

/- Whether an argument stands for no value. -/
def isNull : Argument → Bool
  | .null => true
  | .json .null => true
  | _ => false

/- Octets that should have been text. -/
def notUtf8 (fault : Text.Utf8Fault) : ServiceError :=
  .invalidArgument
    ("Bytes are not valid UTF-8: " ++ fault.message)

/- An argument that has no text. -/
def noText (argument : Argument) : ServiceError :=
  .invalidArgument
    ("Cannot convert " ++ argument.kind ++
      " argument to a string value")

/- The text of a scalar argument. -/
def toText : Argument → Except ServiceError String
  | .text s => .ok s
  | .json (.string s) => .ok s
  | .json (.number n) => .ok n.render
  | .json (.bool b) => .ok (Text.showBool b)
  | .uri url => .ok url.render
  | .method m => .ok m.name
  | .bytes bs => (Text.decode bs).mapError notUtf8
  | argument => .error argument.noText

/- What a deferred argument yields, in order. -/
def elements? :
    Argument → Option (List (Except ServiceError Argument))
  | .deferred result => some [result]
  | .stream results => some results
  | _ => none

/- All values yielded, or the first failure. -/
def gather :
    List (Except ServiceError Argument) →
      Except ServiceError (List Argument)
  | [] => .ok []
  | .ok value :: rest => (gather rest).map (value :: ·)
  | .error error :: _ => .error error

/- Change every value that a deferred argument yields. -/
def mapElements (f : Argument → Argument) :
    Argument → Argument
  | .deferred result => .deferred (result.map f)
  | .stream results => .stream (results.map (·.map f))
  | argument => argument

/- A deferred argument as it is shown. -/
def displayDeferred? : Argument → Option String
  | .deferred _ => some "Publisher::Single(..)"
  | .stream _ => some "Publisher::Multi(..)"
  | _ => none

------------------------------------------------------------
-- Plain Values as Arguments
------------------------------------------------------------

/- A truth value. -/
def ofBool (b : Bool) : Argument :=
  .json (.bool b)

/- A whole number. -/
def ofInt (n : Int) : Argument :=
  .json (.int n)

/- A binary number, or null in place of no finite one. -/
def ofFloat : Option Binary64 → Argument
  | some x => .json (.number (.float x))
  | none => .json .null

/- An optional text. -/
def ofText? : Option String → Argument
  | some s => .text s
  | none => .null

/- Some texts. -/
def ofTexts (texts : List String) : Argument :=
  .list (texts.map .text)

/- An object needs texts for keys. -/
def keyNotText : ServiceError :=
  .json "key must be a string"

end Argument

end ServiceCalls
