import ServiceCalls.Http.Token
import ServiceCalls.Response

/-
  Declared services.

  A service declares methods; a method declares what every
  call of it sends, the parameters whose arguments complete
  the request, and the shape of what comes back.

  Key definitions include:
    * `ParameterType`
    * `Binding`
    * `Parameter`
    * `ReturnShape`
    * `MethodDescriptor`
    * `ServiceDescriptor`
-/

namespace ServiceCalls

------------------------------------------------------------
-- Types of Parameters
------------------------------------------------------------

/- The declared type of a parameter. -/
inductive ParameterType where
| value
| map
| uri
| method
| file
| resource
| deferred
    (element : ParameterType)
| stream
    (element : ParameterType)
deriving DecidableEq, Repr

namespace ParameterType

/- Whether values of the type arrive later. -/
def isDeferred : ParameterType → Bool
  | .deferred _ => true
  | .stream _ => true
  | _ => false

/- The type of what arrives at last. -/
def nested : ParameterType → ParameterType
  | .deferred element => element.nested
  | .stream element => element.nested
  | type => type

/- A type of values that arrive later, as it is shown. -/
def displayDeferred (many : Bool) (element : String) :
    String :=
  Text.showRecord "Publisher"
    [("multi_value", Text.showBool many),
      ("element", element)]

/- A type as it is shown. -/
def display : ParameterType → String
  | .value => "Value"
  | .map => "Map"
  | .uri => "Uri"
  | .method => "HttpMethod"
  | .file => "MultipartFile"
  | .resource => "Resource"
  | .deferred element => displayDeferred false element.display
  | .stream element => displayDeferred true element.display

end ParameterType

------------------------------------------------------------
-- Bindings
------------------------------------------------------------

/-
  What a named value is called, whether there has to be one,
  and what stands for a value that is not there.  Without a
  name of its own it is called as the parameter is.
-/
structure NamedValue where
  name : String
  required : Bool
  default? : Option String
deriving DecidableEq, Repr

namespace NamedValue

/- A required value called as the parameter is. -/
def unnamed : NamedValue :=
  ⟨"", true, none⟩

/- A value that may be left out. -/
def optional (value : NamedValue) : NamedValue :=
  { value with required := false }

/- A value that may be left out because there is a default. -/
def withDefault (value : NamedValue) (text : String) :
    NamedValue :=
  { value with default? := some text, required := false }

/- A named value as it is shown. -/
def display (value : NamedValue) : String :=
  Text.showRecord "NamedValueSpec"
    [("name", Text.quoted value.name),
      ("required", Text.showBool value.required),
      ("default_value",
        Text.showOption (value.default?.map Text.quoted))]

end NamedValue

/- The place in a request that a named value goes to. -/
inductive Role where
| pathVariable
| parameter
| header
| cookie
| attribute
| part
deriving DecidableEq, Repr

namespace Role

/- A role as it is shown. -/
def display : Role → String
  | .pathVariable => "PathVariable"
  | .parameter => "RequestParam"
  | .header => "RequestHeader"
  | .cookie => "CookieValue"
  | .attribute => "RequestAttribute"
  | .part => "RequestPart"

end Role

/- What the argument of a parameter is used for. -/
inductive Binding where
| named
    (role : Role)
    (value : NamedValue)
| body
    (required : Bool)
deriving DecidableEq, Repr

namespace Binding

/- The named value of a binding. -/
def namedValue? : Binding → Option NamedValue
  | .named _ value => some value
  | .body _ => none

/- Change the named value of a binding. -/
def mapNamedValue (f : NamedValue → NamedValue) :
    Binding → Binding
  | .named role value => .named role (f value)
  | .body required => .body required

/- A binding as it is shown. -/
def display : Binding → String
  | .named role value =>
      Text.showApplied role.display value.display
  | .body required =>
      Text.showRecord "RequestBody"
        [("required", Text.showBool required)]

end Binding

------------------------------------------------------------
-- Parameters
------------------------------------------------------------

/- A parameter of a declared method. -/
structure Parameter where
  index : Nat
  name : Option String
  type : ParameterType
  binding : Option Binding
deriving DecidableEq, Repr

namespace Parameter

/- A parameter with a name. -/
def named (name : String) (type : ParameterType) :
    Parameter :=
  ⟨0, some name, type, none⟩

/- A parameter whose name is not known. -/
def unnamed (type : ParameterType) : Parameter :=
  ⟨0, none, type, none⟩

/- Declare what the argument is used for. -/
def withBinding (parameter : Parameter) (binding : Binding) :
    Parameter :=
  { parameter with binding := some binding }

/- Declare the type; name and binding are kept. -/
def ofType (parameter : Parameter) (type : ParameterType) :
    Parameter :=
  { parameter with type := type }

/- Change the named value, if the binding has one. -/
def mapNamedValue
    (parameter : Parameter)
    (f : NamedValue → NamedValue) :
    Parameter :=
  { parameter with
    binding := parameter.binding.map (·.mapNamedValue f) }

/- The named value of the binding. -/
def namedValue? (parameter : Parameter) :
    Option NamedValue :=
  parameter.binding.bind Binding.namedValue?

/- A parameter bound in a role, called as it is named. -/
def ofRole (role : Role) (name : String) : Parameter :=
  (named name .value).withBinding (.named role .unnamed)

/- A parameter that is the body. -/
def ofBody (name : String) : Parameter :=
  (named name .value).withBinding (.body true)

/- The words for a parameter in a message. -/
def describe (parameter : Parameter) : String :=
  let position := "[" ++ toString parameter.index ++ "]"
  match parameter.name with
  | some name => position ++ " '" ++ name ++ "'"
  | none => position

end Parameter

------------------------------------------------------------
-- Methods and Services
------------------------------------------------------------

/- What a call gives back. -/
inductive ReturnShape where
| nothing
| headers
| body
    (type : BodyType)
| entity
    (type : BodyType)
| bodilessEntity
deriving DecidableEq, Repr

namespace ReturnShape

/- A shape as it is shown. -/
def display : ReturnShape → String
  | .nothing => "Unit"
  | .headers => "Headers"
  | .body type => Text.showApplied "Body" type.display
  | .entity type => Text.showApplied "Entity" type.display
  | .bodilessEntity => "BodilessEntity"

end ReturnShape

/- A declared method. -/
structure MethodDescriptor where
  name : String
  method : Option Method
  url : Option String
  contentType : Option String
  accept : List String
  parameters : List Parameter
  returns : ReturnShape
deriving DecidableEq, Repr

namespace MethodDescriptor

/-
  A method of which only the name is known; request method
  and URL may come with the arguments.
-/
def bare (name : String) : MethodDescriptor :=
  ⟨name, none, none, none, [], [], .nothing⟩

/- A method with a request method and a URL, unless empty. -/
def exchange (name : String) (method : Method) (url : String) :
    MethodDescriptor :=
  { bare name with
    method := some method
    url := if url.isEmpty then none else some url }

/- Add a parameter; its index is its position. -/
def addParameter
    (descriptor : MethodDescriptor)
    (parameter : Parameter) :
    MethodDescriptor :=
  { descriptor with
    parameters := descriptor.parameters ++
      [{ parameter with
        index := descriptor.parameters.length }] }

/-
  Whether calls have a request method: one is declared, or
  an argument brings it.
-/
def declaresExchange (descriptor : MethodDescriptor) : Bool :=
  descriptor.method.isSome ||
    descriptor.parameters.any (·.type == .method)

end MethodDescriptor

/- A declared service. -/
structure ServiceDescriptor where
  url : Option String
  contentType : Option String
  accept : List String
  methods : List MethodDescriptor
deriving DecidableEq, Repr

namespace ServiceDescriptor

/- A service that declares nothing. -/
def empty : ServiceDescriptor :=
  ⟨none, none, [], []⟩

/- Whether some method can be called. -/
def hasExchanges (descriptor : ServiceDescriptor) : Bool :=
  descriptor.methods.any (·.declaresExchange)

end ServiceDescriptor

end ServiceCalls
