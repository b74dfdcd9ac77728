import ServiceCalls.Http.Token
import ServiceCalls.Text.Blank
import ServiceCalls.Text.Search

/-
  Media types.

  The essence of a media type is what is left without its
  parameters, in lower case.

  Key definitions include:
    * `MediaType.essence`
    * `MediaType.sameEssence`
-/

namespace ServiceCalls

namespace MediaType

------------------------------------------------------------
-- Known Types
------------------------------------------------------------

def plainText : String := "text/plain;charset=UTF-8"

def json : String := "application/json"

def octetStream : String := "application/octet-stream"

def form : String := "application/x-www-form-urlencoded"

------------------------------------------------------------
-- Essence
------------------------------------------------------------

/- A media type without its parameters, in lower case. -/
def essence (mediaType : String) : String :=
  let before := mediaType.toList.takeWhile (· != ';')
  lowerAscii (Text.trim (String.ofList before))

/- Whether two media types differ in parameters only. -/
def sameEssence (a b : String) : Bool :=
  essence a == essence b

/- Whether a media type denotes form fields. -/
def isForm (mediaType : String) : Bool :=
  sameEssence mediaType form

/- Whether a media type denotes some kind of JSON. -/
def isJson (mediaType : String) : Bool :=
  let e := essence mediaType
  e == json || Text.endsWith "+json".toList e.toList

end MediaType

end ServiceCalls
