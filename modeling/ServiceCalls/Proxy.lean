import ServiceCalls.Exchange.Adapter
import ServiceCalls.ServiceMethod

/-
  Proxies turn calls into exchanges.

  A call is completed with default headers, then handed to
  the processors and then to the adapter, by the function
  for the shape that the method is declared to return.

  Key definitions include:
    * `Processor`
    * `Proxy`
    * `Proxy.prepare`
    * `Proxy.invoke`
    * `Invocation`
-/

namespace ServiceCalls

/- Edits the requests of all methods, which it is told. -/
abbrev Processor : Type :=
  String → Edit Unit

/- Turns calls of the methods of a service into exchanges. -/
structure Proxy where
  service : String
  methods : List ServiceMethod
  adapter : Adapter
  processors : List Processor
  defaultHeaders : Headers

/- What a call gives back. -/
inductive Invocation where
| nothing
| headers
    (headers : Headers)
| body
    (body : Option ResponseBody)
| entity
    (entity : ResponseEntity ResponseBody)
| bodilessEntity
    (entity : ResponseEntity Unit)

namespace Proxy

------------------------------------------------------------
-- Methods
------------------------------------------------------------

/- The names of the methods in ascending order. -/
def methodNames (proxy : Proxy) : List String :=
  (proxy.methods.map ServiceMethod.name).mergeSort
    fun a b => decide (a ≤ b)

/- A proxy as it is shown. -/
def display (proxy : Proxy) : String :=
  Text.showRecord "ServiceProxy"
    [("service", Text.quoted proxy.service),
      ("methods", Text.showList
        (proxy.methodNames.map Text.quoted))]

/- A method that the service does not have. -/
def unknownMethod (proxy : Proxy) (name : String) :
    ServiceError :=
  .invalidArgument
    ("No HTTP exchange method '" ++ name ++ "' on " ++
      proxy.service)

/- The method with a name. -/
def method (proxy : Proxy) (name : String) :
    Except ServiceError ServiceMethod :=
  match proxy.methods.find? (·.name == name) with
  | some m => .ok m
  | none => .error (proxy.unknownMethod name)

------------------------------------------------------------
-- Requests
------------------------------------------------------------

/- Add a default header to a request without it. -/
def addDefault (name : HeaderName) (values : List String) :
    Edit Unit := do
  let draft ← Edit.get
  if draft.headers.contains name then Edit.pure ()
  else RequestDraft.addHeader name.text values

/- Add the default headers; only readable values count. -/
def addDefaults (headers : Headers) : Edit Unit :=
  Edit.all (headers.grouped.map fun (name, values) =>
    addDefault name (values.filterMap HeaderValue.text?))

/- All edits of one call, in order. -/
def edits
    (proxy : Proxy)
    (method : ServiceMethod)
    (arguments : List Argument) :
    Edit Unit := do
  method.call arguments
  addDefaults proxy.defaultHeaders
  Edit.all (proxy.processors.map fun process =>
    process method.name)

/- The finished request of one call. -/
def prepare
    (proxy : Proxy)
    (method : ServiceMethod)
    (arguments : List Argument) :
    Run RequestValues := do
  let draft ← Run.edit (proxy.edits method arguments) .empty
  Run.lift draft.build

/- The record of a request that is about to be performed. -/
def invokingRecord
    (proxy : Proxy)
    (name : String)
    (values : RequestValues) :
    LogRecord :=
  .debug LogRecord.calls "invoking http exchange"
    [("service", proxy.service), ("method", name),
      ("http_method", values.method.name)]

/- The finished request of one call, about to be performed. -/
def start
    (proxy : Proxy)
    (method : ServiceMethod)
    (arguments : List Argument) :
    Run RequestValues := do
  let values ← proxy.prepare method arguments
  Run.write (proxy.invokingRecord method.name values)
  return values

------------------------------------------------------------
-- Calls
------------------------------------------------------------

/- Call a method for what it is declared to return. -/
def invoke
    (proxy : Proxy)
    (name : String)
    (arguments : List Argument) :
    Run Invocation := do
  let method ← Run.lift (proxy.method name)
  let values ← proxy.start method arguments
  match method.returns with
  | .nothing =>
      proxy.adapter.exchange values
      return .nothing
  | .headers =>
      return .headers (← proxy.adapter.headers values)
  | .body type =>
      return .body (← proxy.adapter.body type values)
  | .entity type =>
      return .entity (← proxy.adapter.entity type values)
  | .bodilessEntity =>
      return .bodilessEntity
        (← proxy.adapter.bodilessEntity values)

/- A method that is declared to return something else. -/
def notReturned (proxy : Proxy) (name expected : String) :
    ServiceError :=
  .configuration
    ("Method " ++ proxy.service ++ "." ++ name ++
      " is not declared to return " ++ expected)

/- Call a method that returns nothing. -/
def exchange
    (proxy : Proxy)
    (name : String)
    (arguments : List Argument) :
    Run Unit := do
  let method ← Run.lift (proxy.method name)
  match method.returns with
  | .nothing =>
      let values ← proxy.start method arguments
      proxy.adapter.exchange values
  | _ => Run.fail (proxy.notReturned name "nothing")

/- Call a method that returns headers. -/
def exchangeForHeaders
    (proxy : Proxy)
    (name : String)
    (arguments : List Argument) :
    Run Headers := do
  let method ← Run.lift (proxy.method name)
  match method.returns with
  | .headers =>
      let values ← proxy.start method arguments
      proxy.adapter.headers values
  | _ => Run.fail (proxy.notReturned name "headers")

/- Call a method that returns a body, in a given form. -/
def exchangeForBody
    (proxy : Proxy)
    (schema : Schema)
    (name : String)
    (arguments : List Argument) :
    Run (Option Json) := do
  let method ← Run.lift (proxy.method name)
  match method.returns with
  | .body type =>
      let values ← proxy.start method arguments
      let body? ← proxy.adapter.body type values
      match body? with
      | none => return none
      | some body =>
          let value ← Run.lift (body.conform schema)
          return some value
  | _ => Run.fail (proxy.notReturned name "a body")

/- Call a method that returns an entity, in a given form. -/
def exchangeForEntity
    (proxy : Proxy)
    (schema : Schema)
    (name : String)
    (arguments : List Argument) :
    Run (ResponseEntity Json) := do
  let method ← Run.lift (proxy.method name)
  match method.returns with
  | .entity type =>
      let values ← proxy.start method arguments
      let entity ← proxy.adapter.entity type values
      Run.lift (entity.mapBody (·.conform schema))
  | _ => Run.fail (proxy.notReturned name "an entity")

/- Call a method that returns an entity without a body. -/
def exchangeForBodilessEntity
    (proxy : Proxy)
    (name : String)
    (arguments : List Argument) :
    Run (ResponseEntity Unit) := do
  let method ← Run.lift (proxy.method name)
  match method.returns with
  | .bodilessEntity =>
      let values ← proxy.start method arguments
      proxy.adapter.bodilessEntity values
  | _ =>
      Run.fail (proxy.notReturned name "a bodiless entity")

end Proxy

end ServiceCalls
