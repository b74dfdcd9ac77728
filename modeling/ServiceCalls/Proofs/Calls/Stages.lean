import ServiceCalls.Proxy

/-
  The stages of a call before its request is sent.

  Whatever function of a proxy is called, the call passes
  the same stages.  Each of them may fail, and the first
  that does gives the failure of the call.  What the stages
  come to is defined here without the network.

  Key definitions include:
    * `ProxyFunction`
    * `Stage`
    * `Proxy.drafted`
    * `Client.encoded`
    * `Client.prepared`
    * `ProxyFunction.request`
-/

namespace ServiceCalls

------------------------------------------------------------
-- Functions of a Proxy
------------------------------------------------------------

/- The functions by which a method can be called. -/
inductive ProxyFunction where
| invoke
| exchange
| headers
| body
    (schema : Schema)
| entity
    (schema : Schema)
| bodilessEntity

namespace ProxyFunction

/- What a function gives back. -/
def Result : ProxyFunction → Type
  | .invoke => Invocation
  | .exchange => Unit
  | .headers => Headers
  | .body _ => Option Json
  | .entity _ => ResponseEntity Json
  | .bodilessEntity => ResponseEntity Unit

/- Call a method by a function. -/
def run :
    (function : ProxyFunction) → Proxy → String →
      List Argument → Run function.Result
  | .invoke => Proxy.invoke
  | .exchange => Proxy.exchange
  | .headers => Proxy.exchangeForHeaders
  | .body schema => fun proxy => proxy.exchangeForBody schema
  | .entity schema =>
      fun proxy => proxy.exchangeForEntity schema
  | .bodilessEntity => Proxy.exchangeForBodilessEntity

/- The words for what a function asks a method to return. -/
def expected : ProxyFunction → String
  | .invoke => "anything"
  | .exchange => "nothing"
  | .headers => "headers"
  | .body _ => "a body"
  | .entity _ => "an entity"
  | .bodilessEntity => "a bodiless entity"

/- Whether a function can be used with a declared shape. -/
def accepts : ProxyFunction → ReturnShape → Bool
  | .invoke, _ => true
  | .exchange, .nothing => true
  | .headers, .headers => true
  | .body _, .body _ => true
  | .entity _, .entity _ => true
  | .bodilessEntity, .bodilessEntity => true
  | _, _ => false

/- Check the declared shape of a method. -/
def checkReturns
    (function : ProxyFunction)
    (proxy : Proxy)
    (name : String)
    (method : ServiceMethod) :
    Except ServiceError Unit :=
  if function.accepts method.returns then .ok ()
  else .error (proxy.notReturned name function.expected)

end ProxyFunction

/- Check that a call has as many arguments as parameters. -/
def ServiceMethod.checkCount
    (method : ServiceMethod)
    (arguments : List Argument) :
    Except ServiceError Unit :=
  if arguments.length = method.binders.length then .ok ()
  else .error (method.wrongCount arguments.length)

------------------------------------------------------------
-- Stages
------------------------------------------------------------

/- What has to succeed before a request is sent, in order. -/
inductive Stage where
| lookup
| returnShape
| argumentCount
| metadata
| contribution
| defaultHeaders
| processor
| build
| target
| cookies
| encoding
| beforeSend
deriving DecidableEq, Repr

/- A failure and the stage that it comes from. -/
structure Failure where
  stage : Stage
  error : ServiceError

/- The draft that an edit leaves, unless it fails. -/
def Edit.apply (edit : Edit Unit) (draft : RequestDraft) :
    Except ServiceError RequestDraft :=
  (edit draft).result.map fun _ => (edit draft).draft

namespace Stage

/- A result of a stage. -/
def run
    {α : Type}
    (stage : Stage)
    (result : Except ServiceError α) :
    Except Failure α :=
  result.mapError fun error => ⟨stage, error⟩

/- The draft after the edits of a stage. -/
def edit
    (stage : Stage)
    (edits : List (Edit Unit))
    (draft : RequestDraft) :
    Except Failure RequestDraft :=
  edits.foldlM
    (fun draft edit => stage.run (edit.apply draft)) draft

end Stage

------------------------------------------------------------
-- Requests
------------------------------------------------------------

/- The draft of a call with the right number of arguments. -/
def Proxy.drafted
    (proxy : Proxy)
    (method : ServiceMethod)
    (arguments : List Argument) :
    Except Failure RequestDraft := do
  let draft ← Stage.metadata.edit [method.declared] .empty
  let draft ← Stage.contribution.edit
    (List.zipWith (fun binder argument => binder argument)
      method.binders arguments) draft
  let draft ← Stage.defaultHeaders.edit
    [Proxy.addDefaults proxy.defaultHeaders] draft
  Stage.processor.edit
    (proxy.processors.map fun process =>
      process method.name) draft

variable [DomainNames] [KnownMedia]

/- The encoded form of a finished request. -/
def Client.encoded
    (client : Client)
    (values : RequestValues) :
    Except Failure Request := do
  let url ← Stage.target.run (client.resolveTarget values)
  let headers ← Stage.cookies.run
    (Client.addCookies
      (Client.mergeCookies client.defaultCookies
        values.cookies)
      (Client.mergeHeaders client.defaultHeaders
        values.headers))
  let (headers, body) ← Stage.encoding.run
    (Client.assembleBody values.body headers)
  return ⟨values.method, url, headers, body⟩

/- What hooks make of a request, when each is told of it. -/
def Interceptor.hooked
    (context : RequestContext)
    (interceptors : List Interceptor)
    (request : Request) :
    Except Failure Request :=
  interceptors.foldlM
    (fun changed interceptor =>
      Stage.beforeSend.run
        (interceptor.beforeSend context changed))
    request

/- The request of finished values after all hooks. -/
def Client.prepared
    (client : Client)
    (values : RequestValues) :
    Except Failure Request := do
  let request ← client.encoded values
  Interceptor.hooked (Client.contextOf request)
    client.interceptors request

/- The request of a call as it is sent, or the failure. -/
def ProxyFunction.request
    (function : ProxyFunction)
    (client : Client)
    (proxy : Proxy)
    (name : String)
    (arguments : List Argument) :
    Except Failure Request := do
  let method ← Stage.lookup.run (proxy.method name)
  Stage.returnShape.run
    (function.checkReturns proxy name method)
  Stage.argumentCount.run (method.checkCount arguments)
  let draft ← proxy.drafted method arguments
  let values ← Stage.build.run draft.build
  client.prepared values

end ServiceCalls
