import ServiceCalls.Error
import ServiceCalls.Http.Header
import ServiceCalls.Http.MediaGrammar
import ServiceCalls.Url.Basic

/-
  Encoded requests and their responses.

  Key definitions include:
    * `FormPart`
    * `MessageBody`
    * `Request`
    * `Response`
-/

namespace ServiceCalls

------------------------------------------------------------
-- Bodies
------------------------------------------------------------

/- An encoded part of a multipart body. -/
structure FormPart where
  name : String
  fileName : Option String
  mediaType : String
  headers : Headers
  content : Bytes
deriving DecidableEq, Repr

namespace FormPart

/- A part whose media type cannot be written. -/
def badMediaType (part : FormPart) : ServiceError :=
  .invalidArgument
    ("Invalid media type '" ++ part.mediaType ++
      "' for part '" ++ part.name ++ "': builder error")

/- Check that a part can be written. -/
def check (part : FormPart) : Except ServiceError Unit :=
  if MediaType.isValid part.mediaType then .ok ()
  else .error part.badMediaType

/- Check that all parts can be written. -/
def checkAll (parts : List FormPart) :
    Except ServiceError Unit :=
  parts.forM check

end FormPart

/- The body of an encoded request. -/
inductive MessageBody where
| bytes
    (content : Bytes)
| form
    (fields : List (String × String))
| parts
    (items : List FormPart)
deriving DecidableEq, Repr

namespace MessageBody

/- The word for the kind of a body. -/
def kind : MessageBody → String
  | .bytes _ => "bytes"
  | .form _ => "form"
  | .parts _ => "multipart"

/- The word for the kind of a body, if there is one. -/
def kindOf : Option MessageBody → String
  | none => "none"
  | some body => body.kind

end MessageBody

------------------------------------------------------------
-- Requests and Responses
------------------------------------------------------------

/- An encoded request. -/
structure Request where
  method : Method
  url : Url
  headers : Headers
  body : Option MessageBody
deriving DecidableEq, Repr

/- A response with all of its body. -/
structure Response where
  status : Nat
  headers : Headers
  body : Bytes
deriving DecidableEq, Repr

namespace Response

/- Whether the status tells of a failure. -/
def isFailure (response : Response) : Bool :=
  400 ≤ response.status && response.status < 600

/- The failure that a response tells of. -/
def failure (response : Response) : ServiceError :=
  .api response.status (Text.decodeLenient response.body)

end Response

end ServiceCalls
