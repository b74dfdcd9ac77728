import ServiceCalls.Descriptor
import ServiceCalls.Request.Draft

/-
  How named values enter a request.

  Every role has a rule: what its values are called in
  messages, whether a name may have several values, how one
  value is added, and how several become one.

  Key definitions include:
    * `ValueRule`
    * `attributeValue`
    * `Role.rule`
    * `ValueRule.file`
-/

namespace ServiceCalls

/- How the values of one kind are added to a request. -/
structure ValueRule where
  label : String
  repeatable : Bool
  add : String → Argument → Edit Unit
  collapse : List Argument → Except ServiceError Argument

------------------------------------------------------------
-- Texts
------------------------------------------------------------

/- Several scalars become one text with commas between. -/
def joinScalars (items : List Argument) :
    Except ServiceError Argument :=
  (items.mapM Argument.toText).map fun texts =>
    .text (Text.join "," texts)

/- Add a scalar by its text. -/
def addText
    (add : String → String → Edit Unit)
    (name : String)
    (argument : Argument) :
    Edit Unit := do
  let text ← Edit.lift argument.toText
  add name text

------------------------------------------------------------
-- Attributes
------------------------------------------------------------

/- An argument that is no attribute. -/
def notAttribute (argument : Argument) : ServiceError :=
  .invalidArgument
    ("Unsupported request attribute value: " ++
      argument.kind)

mutual

/- An argument as the value of an attribute. -/
def attributeValue : Argument → Except ServiceError Json
  | .json value => .ok value
  | .text s => .ok (.string s)
  | .uri url => .ok (.string url.render)
  | .list items => (attributeItems items).map .array
  | .map entries => (attributeEntries entries).map .ofFields
  | argument => .error (notAttribute argument)

/- Arguments as the items of an attribute. -/
def attributeItems :
    List Argument → Except ServiceError (List Json)
  | [] => .ok []
  | item :: rest => do
      let value ← attributeValue item
      let values ← attributeItems rest
      return value :: values

/- Named arguments as the fields of an attribute. -/
def attributeEntries :
    List (String × Argument) →
      Except ServiceError (List (String × Json))
  | [] => .ok []
  | (key, item) :: rest => do
      let value ← attributeValue item
      let fields ← attributeEntries rest
      return (key, value) :: fields

end

/- Add an attribute. -/
def addAttributeValue (name : String) (argument : Argument) :
    Edit Unit := do
  let value ← Edit.lift (attributeValue argument)
  RequestDraft.addAttribute name value

/- Several arguments become one array. -/
def collapseToArray (items : List Argument) :
    Except ServiceError Argument :=
  (attributeItems items).map fun values =>
    .json (.array values)

------------------------------------------------------------
-- Rules
------------------------------------------------------------

/- Add a part without changing it. -/
def addPlainPart (name : String) (argument : Argument) :
    Edit Unit :=
  RequestDraft.addPart name argument []

/- An argument that is no file. -/
def notFile (name : String) (argument : Argument) :
    ServiceError :=
  .invalidArgument
    ("Expected a multipart file for '" ++ name ++
      "', got " ++ argument.kind)

/- Add a part that has to be a file. -/
def addFile (name : String) : Argument → Edit Unit
  | .file f => addPlainPart name (.file f)
  | argument => Edit.fail (notFile name argument)

/- The rule of a role. -/
def Role.rule : Role → ValueRule
  | .header =>
      { label := "request header"
        repeatable := true
        add := addText fun name text =>
          RequestDraft.addHeader name [text]
        collapse := joinScalars }
  | .parameter =>
      { label := "request param"
        repeatable := true
        add := addText fun name text =>
          RequestDraft.addParameter name [text]
        collapse := joinScalars }
  | .part =>
      { label := "request part"
        repeatable := true
        add := addPlainPart
        collapse := joinScalars }
  | .cookie =>
      { label := "cookie value"
        repeatable := true
        add := addText fun name text =>
          RequestDraft.addCookie name [text]
        collapse := joinScalars }
  | .pathVariable =>
      { label := "path variable"
        repeatable := false
        add := addText RequestDraft.setVariable
        collapse := joinScalars }
  | .attribute =>
      { label := "request attribute"
        repeatable := false
        add := addAttributeValue
        collapse := collapseToArray }

/- The rule of files. -/
def ValueRule.file : ValueRule :=
  { label := "multipart file"
    repeatable := true
    add := addFile
    collapse := joinScalars }

end ServiceCalls
