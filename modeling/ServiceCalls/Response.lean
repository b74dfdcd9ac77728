import ServiceCalls.Error
import ServiceCalls.Http.Header
import ServiceCalls.Json.Reader

/-
  What a call gives back.

  Key definitions include:
    * `BodyType`
    * `ResponseBody.decode`
    * `ResponseBody.conform`
    * `ResponseEntity`
-/

namespace ServiceCalls

------------------------------------------------------------
-- Bodies
------------------------------------------------------------

/- How the body of a response is read. -/
inductive BodyType where
| text
| json
| bytes
deriving DecidableEq, Repr

namespace BodyType

/- A body type as it is shown. -/
def display : BodyType → String
  | .text => "Text"
  | .json => "Json"
  | .bytes => "Bytes"

end BodyType

/- The body of a response. -/
inductive ResponseBody where
| text
    (value : String)
| json
    (value : Json)
| bytes
    (value : Bytes)

namespace ResponseBody

/- A body that is no text. -/
def notText (fault : Text.Utf8Fault) : ServiceError :=
  .parse ("Body is not UTF-8: " ++ fault.message)

/- A body that is no JSON. -/
def notJson (fault : Json.ReadFault) : ServiceError :=
  .parse ("Invalid JSON body: " ++ fault.message)

/- Read a body. -/
def decode (bodyType : BodyType) (content : Bytes) :
    Except ServiceError ResponseBody :=
  match bodyType with
  | .text =>
      ((Text.decode content).map .text).mapError notText
  | .json =>
      ((Json.read content).map .json).mapError notJson
  | .bytes => .ok (.bytes content)

/- A body as a JSON value; octets become numbers. -/
def toJson : ResponseBody → Json
  | .text s => .string s
  | .json value => value
  | .bytes bs => .array (bs.map fun b => .nat b.toNat)

/- A body as octets. -/
def toBytes : ResponseBody → Bytes
  | .text s => Text.encode s
  | .json value => Text.encode value.render
  | .bytes bs => bs

/- A body in the form that a schema asks for. -/
def conform (schema : Schema) (body : ResponseBody) :
    Except ServiceError Json :=
  (schema.conform body.toJson).mapError
    fun mismatch => .parse mismatch.message

end ResponseBody

------------------------------------------------------------
-- Entities
------------------------------------------------------------

/- Status, headers and body of a response. -/
structure ResponseEntity (α : Type) where
  status : Nat
  headers : Headers
  body : Option α

namespace ResponseEntity

/- Change the body, if there is one. -/
def mapBody
    {α β : Type}
    (f : α → Except ServiceError β)
    (entity : ResponseEntity α) :
    Except ServiceError (ResponseEntity β) :=
  match entity.body with
  | none => .ok ⟨entity.status, entity.headers, none⟩
  | some body =>
      (f body).map fun b =>
        ⟨entity.status, entity.headers, some b⟩

end ResponseEntity

end ServiceCalls
