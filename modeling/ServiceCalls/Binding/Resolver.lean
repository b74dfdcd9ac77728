import ServiceCalls.Binding.NamedArgument
import ServiceCalls.Url.Error

/-
  Resolvers decide how the argument of a parameter is used.

  A resolver binds a parameter, declines it, or fails.  In a
  chain of resolvers the first that does not decline a
  parameter decides.

  Key definitions include:
    * `Resolver`
    * `Resolver.ofRole`
    * `Resolver.chain`
    * `Resolver.firstOf`
-/

namespace ServiceCalls

/- Binds a parameter, declines it, or fails. -/
abbrev Resolver : Type :=
  Parameter → Except ServiceError (Option Binder)

namespace Resolver

------------------------------------------------------------
-- Named Values
------------------------------------------------------------

/- The named value of a parameter bound in a role. -/
def valueInRole? (role : Role) (parameter : Parameter) :
    Option NamedValue :=
  match parameter.binding with
  | some (.named r value) =>
      if r = role then some value else none
  | _ => none

/- Binds the parameters of a role. -/
def ofRole (role : Role) : Resolver :=
  fun parameter =>
    match valueInRole? role parameter with
    | none => .ok none
    | some value =>
        (role.rule.bind value parameter).map some

/- Binds parameters whose type is that of a file. -/
def file : Resolver :=
  fun parameter =>
    if parameter.type = .file then
      (ValueRule.file.bind .unnamed parameter).map some
    else .ok none

------------------------------------------------------------
-- Bodies
------------------------------------------------------------

/- Set the body, unless there is nothing to set. -/
def contributeBody
    (required : Bool)
    (name : String) :
    Binder :=
  fun argument =>
    if argument.isNull then
      if required then
        Edit.fail (.missingValue "request body" name)
      else Edit.pure ()
    else RequestDraft.setBody argument

/- Binds the parameter that is the body. -/
def body : Resolver :=
  fun parameter =>
    match parameter.binding with
    | some (.body required) =>
        .ok (some (contributeBody required
          (parameter.name.getD "body")))
    | _ => .ok none

------------------------------------------------------------
-- Targets
------------------------------------------------------------

/- A text that is no URL. -/
def badUri (text : String) (error : UrlError) :
    ServiceError :=
  .invalidArgument
    ("Invalid URI argument '" ++ text ++ "': " ++
      error.message)

/- An argument that is no URL. -/
def notUri (argument : Argument) : ServiceError :=
  .invalidArgument
    ("Expected a URI argument, got " ++ argument.kind)

section

variable [DomainNames]

/- Replace the target; null keeps it. -/
def contributeUri : Binder
  | .null => Edit.pure ()
  | .uri url => RequestDraft.setUri url
  | .text s =>
      match Url.parse s with
      | .ok url => RequestDraft.setUri url
      | .error error => Edit.fail (badUri s error)
  | argument => Edit.fail (notUri argument)

/- Binds parameters whose type is that of a URL. -/
def uri : Resolver :=
  fun parameter =>
    if parameter.type = .uri then .ok (some contributeUri)
    else .ok none

------------------------------------------------------------
-- Request Methods
------------------------------------------------------------

/- A text that is no request method. -/
def badMethod (text : String) : ServiceError :=
  .invalidArgument
    ("Invalid HTTP method '" ++ text ++
      "': invalid HTTP method")

/- An argument that is no request method. -/
def notMethod (argument : Argument) : ServiceError :=
  .invalidArgument
    ("Expected an HTTP method argument, got " ++
      argument.kind)

/- Replace the request method; null keeps it. -/
def contributeMethod : Binder
  | .null => Edit.pure ()
  | .method m => RequestDraft.setMethod m
  | .text s =>
      match Method.parse? (upperAscii s) with
      | some m => RequestDraft.setMethod m
      | none => Edit.fail (badMethod s)
  | argument => Edit.fail (notMethod argument)

/- Binds parameters whose type is that of a method. -/
def method : Resolver :=
  fun parameter =>
    if parameter.type = .method then
      .ok (some contributeMethod)
    else .ok none

------------------------------------------------------------
-- Chains
------------------------------------------------------------

/-
  Resolvers in the order they are asked.  Those of the
  caller come first; attributes are bound only where they
  are supported.
-/
def chain
    (custom : List Resolver)
    (supportsAttributes : Bool) :
    List Resolver :=
  custom ++
    [ofRole .header, body, ofRole .pathVariable,
      ofRole .parameter, ofRole .part, ofRole .cookie] ++
    (if supportsAttributes then [ofRole .attribute]
      else []) ++
    [uri, method, file]

end

/- The decision of the first that does not decline. -/
def firstOf : List Resolver → Resolver
  | [], _ => .ok none
  | resolver :: rest, parameter =>
      match resolver parameter with
      | .ok none => firstOf rest parameter
      | decision => decision

end Resolver

end ServiceCalls
