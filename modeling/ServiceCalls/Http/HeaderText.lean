import ServiceCalls.Error
import ServiceCalls.Http.Header

/-
  Header fields given as texts.

  Key definitions include:
    * `HeaderName.read`
    * `HeaderValue.read`
    * `Headers.appendText`
    * `Headers.insertText`
    * `Headers.appendDefaults`
-/

namespace ServiceCalls

/- A header name as it is given, or the failure. -/
def HeaderName.read (name : String) :
    Except ServiceError HeaderName :=
  match HeaderName.parse? name with
  | some header => .ok header
  | none => .error .badHeaderName

/- A header value as it is given, or the failure. -/
def HeaderValue.read (value : String) :
    Except ServiceError HeaderValue :=
  match HeaderValue.ofText? value with
  | some v => .ok v
  | none => .error .badHeaderValue

namespace Headers

/- Add a value to a header. -/
def appendText (h : Headers) (name value : String) :
    Except ServiceError Headers := do
  let header ← HeaderName.read name
  let v ← HeaderValue.read value
  return h.append header v

/- Make a value the only one of a header. -/
def insertText (h : Headers) (name value : String) :
    Except ServiceError Headers := do
  let header ← HeaderName.read name
  let v ← HeaderValue.read value
  return h.insert header v

/- A default header whose name is none. -/
def badDefaultName (name : String) : ServiceError :=
  .configuration
    ("Invalid default header name '" ++ name ++
      "': invalid HTTP header name")

/-
  Default headers after those there are.  How a value that
  is none is reported depends on whose default it is.
-/
def appendDefaults
    (badValue : String → ServiceError)
    (h : Headers) :
    List (String × String) → Except ServiceError Headers
  | [] => .ok h
  | (name, value) :: rest =>
      match HeaderName.parse? name with
      | none => .error (badDefaultName name)
      | some header =>
          match HeaderValue.ofText? value with
          | none => .error (badValue name)
          | some v =>
              appendDefaults badValue (h.append header v) rest

end Headers

end ServiceCalls
