import ServiceCalls.Exchange.Message
import ServiceCalls.Request.Draft

/-
  Bodies in encoded form.

  Deferred values are awaited first.  A value is encoded as
  its shape suggests; a declared media type takes the place
  of the one that goes with the shape.  A map declared as a
  form becomes form fields.

  Key definitions include:
    * `Argument.toJson`
    * `formFields`
    * `encodeBytes`
    * `encodeValue`
    * `encodeParts`
    * `encodeBody`
-/

namespace ServiceCalls

------------------------------------------------------------
-- Arguments as JSON
------------------------------------------------------------

/- An argument that has no JSON form. -/
def notEncodable (argument : Argument) : ServiceError :=
  .invalidArgument
    ("Cannot encode " ++ argument.kind ++ " as JSON")

mutual

/- The JSON form of an argument. -/
def Argument.toJson : Argument → Except ServiceError Json
  | .null => .ok .null
  | .text s => .ok (.string s)
  | .json value => .ok value
  | .uri url => .ok (.string url.render)
  | .method m => .ok (.string m.name)
  | .list items => (itemsToJson items).map .array
  | .map entries => (entriesToJson entries).map .ofFields
  | argument => .error (notEncodable argument)

/- The JSON forms of arguments. -/
def itemsToJson :
    List Argument → Except ServiceError (List Json)
  | [] => .ok []
  | item :: rest => do
      let value ← Argument.toJson item
      let values ← itemsToJson rest
      return value :: values

/- The JSON forms of named arguments. -/
def entriesToJson :
    List (String × Argument) →
      Except ServiceError (List (String × Json))
  | [] => .ok []
  | (key, item) :: rest => do
      let value ← Argument.toJson item
      let fields ← entriesToJson rest
      return (key, value) :: fields

end

------------------------------------------------------------
-- Form Fields
------------------------------------------------------------

/- A value that cannot be that of a form field. -/
def notScalar (name : String) (value : Json) :
    ServiceError :=
  .invalidArgument
    ("Form field '" ++ name ++
      "' must be a scalar, got " ++ value.render)

/- The text of a field; a null value makes no field. -/
def fieldText? (name : String) :
    Json → Except ServiceError (Option String)
  | .null => .ok none
  | .string s => .ok (some s)
  | .number n => .ok (some n.render)
  | .bool b => .ok (some (Text.showBool b))
  | value => .error (notScalar name value)

/- The items of an array, or the value by itself. -/
def fieldItems : Json → List Json
  | .array items => items
  | value => [value]

/- The fields of one name. -/
def fieldsNamed (name : String) (values : List Json) :
    Except ServiceError (List (String × String)) := do
  let texts ← values.mapM (fieldText? name)
  return texts.filterMap fun text? =>
    text?.map fun text => (name, text)

/- The form fields of an object. -/
def formFields (fields : List (String × Json)) :
    Except ServiceError (List (String × String)) := do
  let groups ← fields.mapM fun (name, value) =>
    fieldsNamed name (fieldItems value)
  return groups.flatten

------------------------------------------------------------
-- Values
------------------------------------------------------------

/-
  An encoded body and the media type to send it with.  The
  media type of parts is written together with what divides
  them.
-/
structure EncodedBody where
  mediaType : Option String
  body : MessageBody
deriving DecidableEq, Repr

/- Form fields as a body. -/
def encodeForm
    (declared : Option String)
    (fields : List (String × String)) :
    EncodedBody :=
  ⟨some (declared.getD MediaType.form), .form fields⟩

/- An argument that is no body. -/
def notBody (argument : Argument) : ServiceError :=
  .invalidArgument
    ("Cannot encode " ++ argument.kind ++
      " as a request body")

variable [KnownMedia]

/-
  The octets of a value and the media type that goes with
  its shape.  Null has none.
-/
def shapeBytes :
    Argument → Except ServiceError (Option (String × Bytes))
  | .null => .ok none
  | .text s =>
      .ok (some (MediaType.plainText, Text.encode s))
  | .uri url =>
      .ok (some
        (MediaType.plainText, Text.encode url.render))
  | .method m =>
      .ok (some (MediaType.plainText, Text.encode m.name))
  | .bytes content =>
      .ok (some (MediaType.octetStream, content))
  | .resource resource =>
      .ok (some (resource.mediaType, resource.content))
  | .file f =>
      .ok (some
        (f.mediaType.getD f.resource.mediaType, f.content))
  | .entity body headers =>
      .error (notBody (.entity body headers))
  | .deferred result => .error (notBody (.deferred result))
  | .stream results => .error (notBody (.stream results))
  | argument => do
      let value ← argument.toJson
      return some
        (MediaType.json, Text.encode value.render)

/- The octets of a value and their media type. -/
def encodeBytes
    (declared : Option String)
    (argument : Argument) :
    Except ServiceError (Option (String × Bytes)) := do
  let shaped ← shapeBytes argument
  return shaped.map fun (mediaType, content) =>
    (declared.getD mediaType, content)

/- The fields of an argument that has some. -/
def fieldsOf? :
    Argument →
      Option (Except ServiceError (List (String × Json)))
  | .map entries =>
      some ((entriesToJson entries).map Json.sortFields)
  | .json (.object fields) => some (.ok fields)
  | _ => none

/- Whether form fields are declared. -/
def declaresForm : Option String → Bool
  | none => false
  | some mediaType => MediaType.isForm mediaType

/- The fields of an argument declared as a form. -/
def declaredFields?
    (declared : Option String)
    (argument : Argument) :
    Option (Except ServiceError (List (String × Json))) :=
  if declaresForm declared then fieldsOf? argument else none

/- One value as a body; null has none. -/
def encodeValue
    (declared : Option String)
    (argument : Argument) :
    Except ServiceError (Option EncodedBody) :=
  match declaredFields? declared argument with
  | some fields => do
      let texts ← formFields (← fields)
      return some (encodeForm declared texts)
  | none => do
      let encoded ← encodeBytes declared argument
      return encoded.map fun (mediaType, content) =>
        ⟨some mediaType, .bytes content⟩

------------------------------------------------------------
-- Parts
------------------------------------------------------------

/- The parts of the values that a part yields. -/
def awaitPart (part : Part) :
    Except ServiceError (List Part) :=
  match part.content.elements? with
  | none => .ok [part]
  | some results => do
      let values ← Argument.gather results
      return values.map fun value =>
        { part with content := value }

/- The file name that comes with a value. -/
def ownFileName? : Argument → Option String
  | .resource resource => resource.fileName
  | .file f => f.fileName
  | _ => none

/- The file name that the headers of a part give. -/
def headerFileName? (headers : Headers) : Option String :=
  (headers.text? .contentDisposition).bind
    dispositionFileName?

/- The headers that are not written by other means. -/
def extraHeaders (headers : Headers) : Headers :=
  ((headers.remove .contentDisposition).remove
    .contentType).remove .contentLength

/- One part, unless its value is null. -/
def encodePart (part : Part) :
    Except ServiceError (Option FormPart) := do
  let encoded ← encodeBytes
    (part.headers.text? .contentType) part.content
  return encoded.map fun (mediaType, content) =>
    { name := part.name
      fileName := ownFileName? part.content <|>
        headerFileName? part.headers
      mediaType := mediaType
      headers := extraHeaders part.headers
      content := content }

/- All parts, after everything they wait for. -/
def encodeParts (parts : List Part) :
    Except ServiceError (List FormPart) := do
  let awaited ← parts.mapM awaitPart
  let encoded ← awaited.flatten.mapM encodePart
  return encoded.filterMap id

------------------------------------------------------------
-- Bodies
------------------------------------------------------------

/- The value that an argument yields. -/
def await : Argument → Except ServiceError Argument
  | .deferred result => result
  | .stream results => (Argument.gather results).map .list
  | argument => .ok argument

/- A body in encoded form. -/
def encodeBody (declared : Option String) :
    RequestBody → Except ServiceError (Option EncodedBody)
  | .empty => .ok none
  | .value argument => do
      let value ← await argument
      encodeValue declared value
  | .form fields => .ok (some (encodeForm declared fields))
  | .parts items => do
      let encoded ← encodeParts items
      return some ⟨none, .parts encoded⟩

end ServiceCalls
