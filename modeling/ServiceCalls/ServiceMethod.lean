import ServiceCalls.Binding.Resolver
import ServiceCalls.Template.Embedded

/-
  Methods that are ready to be called.

  Everything about a declared method that does not depend on
  a call is worked out once: how each argument is used, and
  the URL, which continues that of the service.

  Key definitions include:
    * `ServiceMethod`
    * `ServiceMethod.ofDescriptor`
    * `ServiceMethod.call`
-/

namespace ServiceCalls

/- A method of a service with its arguments bound. -/
structure ServiceMethod where
  service : String
  name : String
  method : Option Method
  url : String
  contentType : Option String
  accept : List String
  binders : List Binder
  returns : ReturnShape

namespace ServiceMethod

------------------------------------------------------------
-- Preparation
------------------------------------------------------------

/- A method whose calls would have no request method. -/
def noRequestMethod (service name : String) : ServiceError :=
  .configuration
    ("No HTTP method declared for " ++ service ++ "." ++
      name)

/- A parameter that no resolver accepts. -/
def unresolved
    (service name : String)
    (parameter : Parameter) :
    ServiceError :=
  .configuration
    ("Could not resolve parameter " ++
      parameter.describe ++ " in " ++ service ++ "." ++
      name ++ ": no suitable resolver")

/- How the argument of a parameter is used. -/
def findBinder
    (resolvers : List Resolver)
    (service name : String)
    (parameter : Parameter) :
    Except ServiceError Binder :=
  match Resolver.firstOf resolvers parameter with
  | .error error => .error error
  | .ok (some binder) => .ok binder
  | .ok none => .error (unresolved service name parameter)

/- The URL of a method, continuing that of its service. -/
def fullUrl
    (values? : Option EmbeddedValues)
    (service method : Option String) :
    Except ServiceError String := do
  let first ← resolveEmbedded values? service
  let second ← resolveEmbedded values? method
  return String.ofList (joinUrl first.toList second.toList)

/-
  Prepare a method.  What it does not declare itself is
  taken from the service.
-/
def ofDescriptor
    (resolvers : List Resolver)
    (values? : Option EmbeddedValues)
    (serviceName : String)
    (service : ServiceDescriptor)
    (descriptor : MethodDescriptor) :
    Except ServiceError ServiceMethod :=
  if descriptor.declaresExchange then do
    let binders ← descriptor.parameters.mapM
      (findBinder resolvers serviceName descriptor.name)
    let url ← fullUrl values? service.url descriptor.url
    return {
      service := serviceName
      name := descriptor.name
      method := descriptor.method
      url := url
      contentType :=
        descriptor.contentType <|> service.contentType
      accept :=
        if descriptor.accept.isEmpty then service.accept
        else descriptor.accept
      binders := binders
      returns := descriptor.returns }
  else .error (noRequestMethod serviceName descriptor.name)

------------------------------------------------------------
-- Calls
------------------------------------------------------------

/- A call with too few or too many arguments. -/
def wrongCount (method : ServiceMethod) (count : Nat) :
    ServiceError :=
  .invalidArgument
    ("Method " ++ method.service ++ "." ++ method.name ++
      " expects " ++ toString method.binders.length ++
      " argument(s), got " ++ toString count)

/- What every call of a method sends. -/
def declared (method : ServiceMethod) : Edit Unit := do
  match method.method with
  | some m => RequestDraft.setMethod m
  | none => Edit.pure ()
  RequestDraft.setTemplate method.url
  match method.contentType with
  | some mediaType =>
      RequestDraft.setContentType mediaType
  | none => Edit.pure ()
  if method.accept.isEmpty then Edit.pure ()
  else RequestDraft.setAccept method.accept

/- What arguments add, in the order of the parameters. -/
def contributions
    (method : ServiceMethod)
    (arguments : List Argument) :
    Edit Unit :=
  Edit.all (List.zipWith (fun binder argument =>
    binder argument) method.binders arguments)

/- What one call adds to a draft. -/
def call
    (method : ServiceMethod)
    (arguments : List Argument) :
    Edit Unit :=
  if arguments.length = method.binders.length then
    Edit.bind method.declared fun _ =>
      method.contributions arguments
  else Edit.fail (method.wrongCount arguments.length)

end ServiceMethod

end ServiceCalls
