import ServiceCalls.Log
import ServiceCalls.Part
import ServiceCalls.Request.QueryVariables
import ServiceCalls.Url.Query

/-
  Requests under construction.

  A draft is edited step by step.  An edit may fail; what it
  did before the failure stays.  A draft has one target, set
  last, and one kind of body: a value, or parts.

  Key definitions include:
    * `RequestDraft`
    * `Edit`
    * `RequestEdit`
    * `RequestValues`
    * `RequestDraft.build`
-/

namespace ServiceCalls

------------------------------------------------------------
-- Targets and Bodies
------------------------------------------------------------

/- Where a request goes. -/
inductive Target where
| absolute
    (url : Url)
| template
    (text : String)
deriving DecidableEq, Repr

/- The body of a request under construction. -/
inductive DraftBody where
| empty
| value
    (argument : Argument)
| parts
    (items : List Part)

/- A request under construction. -/
structure RequestDraft where
  method : Option Method
  target : Option Target
  «variables» : List (String × String)
  headers : Headers
  cookies : List (String × String)
  attributes : List (String × Json)
  parameters : List (String × String)
  body : DraftBody

namespace RequestDraft

/- The draft of a request about which nothing is known. -/
def empty : RequestDraft where
  method := none
  target := none
  «variables» := []
  headers := .empty
  cookies := []
  attributes := []
  parameters := []
  body := .empty

/- Whether a body value was set. -/
def hasBody (draft : RequestDraft) : Bool :=
  match draft.body with
  | .value _ => true
  | _ => false

end RequestDraft

------------------------------------------------------------
-- Edits
------------------------------------------------------------

/- What came of an edit. -/
structure Edited (α : Type) where
  draft : RequestDraft
  records : List LogRecord
  result : Except ServiceError α

/- A step that reads and changes a draft, and may fail. -/
def Edit (α : Type) : Type :=
  RequestDraft → Edited α

namespace Edit

/- Do nothing. -/
def pure {α : Type} (a : α) : Edit α :=
  fun draft => ⟨draft, [], .ok a⟩

/- Go on after a step unless it failed. -/
def bind
    {α β : Type}
    (first : Edit α)
    (next : α → Edit β) :
    Edit β :=
  fun draft =>
    let a := first draft
    match a.result with
    | .error error => ⟨a.draft, a.records, .error error⟩
    | .ok value =>
        let b := next value a.draft
        ⟨b.draft, a.records ++ b.records, b.result⟩

instance : Monad Edit where
  pure := Edit.pure
  bind := Edit.bind

/- Fail. -/
def fail {α : Type} (error : ServiceError) : Edit α :=
  fun draft => ⟨draft, [], .error error⟩

/- Go on with a result, or fail as it failed. -/
def lift {α : Type} (result : Except ServiceError α) :
    Edit α :=
  fun draft => ⟨draft, [], result⟩

/- Change the draft. -/
def modify (f : RequestDraft → RequestDraft) : Edit Unit :=
  fun draft => ⟨f draft, [], .ok ()⟩

/- Read the draft. -/
def get : Edit RequestDraft :=
  fun draft => ⟨draft, [], .ok draft⟩

/- Write a record. -/
def record (entry : LogRecord) : Edit Unit :=
  fun draft => ⟨draft, [entry], .ok ()⟩

/- Take steps in order until one fails. -/
def all : List (Edit Unit) → Edit Unit
  | [] => Edit.pure ()
  | step :: rest => Edit.bind step fun _ => all rest

end Edit

------------------------------------------------------------
-- Single Edits
------------------------------------------------------------

namespace RequestDraft

def setMethod (method : Method) : Edit Unit :=
  Edit.modify fun draft =>
    { draft with method := some method }

/- An absolute target needs no variables. -/
def setUri (url : Url) : Edit Unit :=
  Edit.modify fun draft =>
    { draft with
      target := some (.absolute url), «variables» := [] }

def setTemplate (text : String) : Edit Unit :=
  Edit.modify fun draft =>
    { draft with target := some (.template text) }

def setVariable (name value : String) : Edit Unit :=
  Edit.modify fun draft =>
    { draft with
      «variables» :=
        Assoc.insert name value draft.variables }

/- Make a value the only one of a header. -/
def insertHeader (name : HeaderName) (value : String) :
    Edit Unit := do
  let v ← Edit.lift (HeaderValue.read value)
  Edit.modify fun draft =>
    { draft with headers := draft.headers.insert name v }

/- Add a value to a header. -/
def appendHeader (name : HeaderName) (value : String) :
    Edit Unit := do
  let v ← Edit.lift (HeaderValue.read value)
  Edit.modify fun draft =>
    { draft with headers := draft.headers.append name v }

/- Without media types the header is dropped. -/
def setAccept (mediaTypes : List String) : Edit Unit :=
  if mediaTypes.isEmpty then
    Edit.modify fun draft =>
      { draft with headers := draft.headers.remove .accept }
  else
    insertHeader .accept (Text.join ", " mediaTypes)

def setContentType (mediaType : String) : Edit Unit :=
  insertHeader .contentType mediaType

/- Values before one that is not accepted stay. -/
def addHeader (name : String) (values : List String) :
    Edit Unit := do
  let header ← Edit.lift (HeaderName.read name)
  Edit.all (values.map (appendHeader header))

def addCookie (name : String) (values : List String) :
    Edit Unit :=
  Edit.modify fun draft =>
    { draft with
      cookies := draft.cookies ++
        values.map fun value => (name, value) }

def addAttribute (name : String) (value : Json) :
    Edit Unit :=
  Edit.modify fun draft =>
    { draft with
      attributes :=
        Assoc.insert name value draft.attributes }

def addParameter (name : String) (values : List String) :
    Edit Unit :=
  Edit.modify fun draft =>
    { draft with
      parameters := draft.parameters ++
        values.map fun value => (name, value) }

/- A body and parts exclude each other. -/
def bodyAndParts : ServiceError :=
  .bodyConflict "Expected body or request parts, not both"

/- Add a part and change it. -/
def addPart
    (name : String)
    (value : Argument)
    (changes : List Part.Change) :
    Edit Unit :=
  fun draft =>
    let add (items : List Part) : Edited Unit :=
      match ServiceCalls.addPart items name value changes with
      | ([], result) => ⟨draft, [], result⟩
      | (items, result) =>
          ⟨{ draft with body := .parts items }, [], result⟩
    match draft.body with
    | .value _ => ⟨draft, [], .error bodyAndParts⟩
    | .empty => add []
    | .parts items => add items

/- Set the body; a value that was set is replaced. -/
def setBody (value : Argument) : Edit Unit := do
  let draft ← Edit.get
  match draft.body with
  | .parts _ => Edit.fail bodyAndParts
  | _ =>
      Edit.modify fun draft =>
        { draft with body := .value value }

end RequestDraft

------------------------------------------------------------
-- Edits as Data
------------------------------------------------------------

/- One edit of a draft. -/
inductive RequestEdit where
| setMethod
    (method : Method)
| setUri
    (url : Url)
| setTemplate
    (text : String)
| setVariable
    (name : String)
    (value : String)
| setAccept
    (mediaTypes : List String)
| setContentType
    (mediaType : String)
| addHeader
    (name : String)
    (values : List String)
| addCookie
    (name : String)
    (values : List String)
| addAttribute
    (name : String)
    (value : Json)
| addParameter
    (name : String)
    (values : List String)
| addPart
    (name : String)
    (value : Argument)
    (changes : List Part.Change)
| setBody
    (value : Argument)

namespace RequestEdit

/- What an edit does. -/
def run : RequestEdit → Edit Unit
  | .setMethod method => RequestDraft.setMethod method
  | .setUri url => RequestDraft.setUri url
  | .setTemplate text => RequestDraft.setTemplate text
  | .setVariable name value =>
      RequestDraft.setVariable name value
  | .setAccept mediaTypes =>
      RequestDraft.setAccept mediaTypes
  | .setContentType mediaType =>
      RequestDraft.setContentType mediaType
  | .addHeader name values =>
      RequestDraft.addHeader name values
  | .addCookie name values =>
      RequestDraft.addCookie name values
  | .addAttribute name value =>
      RequestDraft.addAttribute name value
  | .addParameter name values =>
      RequestDraft.addParameter name values
  | .addPart name value changes =>
      RequestDraft.addPart name value changes
  | .setBody value => RequestDraft.setBody value

/- The draft after edits, whether they fail or not. -/
def runAll (draft : RequestDraft) :
    List RequestEdit → RequestDraft
  | [] => draft
  | edit :: rest => runAll (edit.run draft).draft rest

end RequestEdit

------------------------------------------------------------
-- Finished Requests
------------------------------------------------------------

/- The body of a finished request. -/
inductive RequestBody where
| empty
| value
    (argument : Argument)
| form
    (fields : List (String × String))
| parts
    (items : List Part)

namespace RequestBody

/- Whether there is no body. -/
def isEmpty : RequestBody → Bool
  | .empty => true
  | _ => false

end RequestBody

/- Everything there is to say about one request. -/
structure RequestValues where
  method : Method
  target : Option Target
  «variables» : List (String × String)
  headers : Headers
  cookies : List (String × String)
  attributes : List (String × Json)
  body : RequestBody

namespace RequestDraft

/- A request needs a method. -/
def methodRequired : ServiceError :=
  .configuration "HTTP method is required"

/- Form fields need a body of their own. -/
def formAndBody : ServiceError :=
  .bodyConflict
    "Form data parameters conflict with the request body"

/- Whether the media type declared first is that of forms. -/
def isForm (headers : Headers) : Bool :=
  match headers.text? .contentType with
  | some mediaType => MediaType.isForm mediaType
  | none => false

/- The body as it was drafted. -/
def draftedBody : DraftBody → RequestBody
  | .empty => .empty
  | .value argument => .value argument
  | .parts items => .parts items

/- A target with query parameters added. -/
def withQuery
    (target : Option Target)
    (uriVariables : List (String × String))
    (parameters : List (String × String)) :
    Target × List (String × String) :=
  match target with
  | some (.absolute url) =>
      (.absolute (url.appendPairs parameters), uriVariables)
  | some (.template text) =>
      let (text, uriVariables) :=
        appendQuery text.toList uriVariables 0 parameters
      (.template (String.ofList text), uriVariables)
  | none =>
      let (text, uriVariables) :=
        appendQuery [] uriVariables 0 parameters
      (.template (String.ofList text), uriVariables)

/-
  The finished request.  Parameters become form fields when
  the media type is that of forms, and are added to the
  target otherwise.
-/
def build (draft : RequestDraft) :
    Except ServiceError RequestValues :=
  match draft.method with
  | none => .error methodRequired
  | some method =>
      let values : RequestValues :=
        { method := method
          target := draft.target
          «variables» := draft.variables
          headers := draft.headers
          cookies := draft.cookies
          attributes := draft.attributes
          body := draftedBody draft.body }
      if draft.parameters.isEmpty then .ok values
      else if isForm draft.headers then
        if values.body.isEmpty then
          .ok { values with body := .form draft.parameters }
        else .error formAndBody
      else
        let (target, uriVariables) :=
          withQuery draft.target draft.variables
            draft.parameters
        .ok { values with
          target := some target
          «variables» := uriVariables }

end RequestDraft

end ServiceCalls
