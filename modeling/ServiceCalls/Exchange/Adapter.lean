import ServiceCalls.Exchange.Client
import ServiceCalls.Exchange.Encoding
import ServiceCalls.Response

/-
  Adapters perform finished requests.

  An adapter has one function for each shape of what comes
  back.  The adapter of a client resolves the target, merges
  what the client sends by default, and encodes the body;
  what a request sets itself takes the place of defaults.

  Key definitions include:
    * `Adapter`
    * `Adapter.ofClient`
    * `Client.assemble`
    * `Client.send`
-/

namespace ServiceCalls

/- Performs finished requests. -/
structure Adapter where
  supportsAttributes : Bool
  exchange : RequestValues → Run Unit
  headers : RequestValues → Run Headers
  body : BodyType → RequestValues →
    Run (Option ResponseBody)
  entity : BodyType → RequestValues →
    Run (ResponseEntity ResponseBody)
  bodilessEntity : RequestValues →
    Run (ResponseEntity Unit)

namespace Client

------------------------------------------------------------
-- Targets
------------------------------------------------------------

/- A request that goes nowhere. -/
def noTarget : ServiceError :=
  .configuration "Neither full URL nor URI template"

variable [DomainNames]

/- The URL of a request. -/
def resolveTarget (client : Client) (values : RequestValues) :
    Except ServiceError Url :=
  match values.target with
  | some (.absolute url) => .ok url
  | some (.template text) =>
      UriTemplate.expand client.base? text values.variables
  | none => .error noTarget

------------------------------------------------------------
-- Headers and Cookies
------------------------------------------------------------

/- Defaults for names that are not set, then what is set. -/
def mergeHeaders (defaults requested : Headers) : Headers :=
  (requested.names.foldl Headers.remove defaults).appendAll
    requested

/- Defaults for names that are not set, then what is set. -/
def mergeCookies
    (defaults requested : List (String × String)) :
    List (String × String) :=
  defaults.filter (fun (name, _) =>
    !requested.any (·.1 == name)) ++ requested

/- Cookies as they are sent. -/
def cookieText (cookies : List (String × String)) : String :=
  Text.join "; " (cookies.map fun (name, value) =>
    name ++ "=" ++ value)

/- Add cookies to headers. -/
def addCookies
    (cookies : List (String × String))
    (headers : Headers) :
    Except ServiceError Headers :=
  if cookies.isEmpty then .ok headers
  else
    (HeaderValue.read (cookieText cookies)).map
      (headers.append .cookie)

/- Set the media type that an encoded body comes with. -/
def setMediaType (encoded : EncodedBody) (headers : Headers) :
    Except ServiceError Headers :=
  match encoded.mediaType with
  | none => .ok (headers.remove .contentType)
  | some mediaType =>
      (HeaderValue.read mediaType).map
        (headers.insert .contentType)

------------------------------------------------------------
-- Assembly
------------------------------------------------------------

/- The record of attributes, which are not sent. -/
def attributesRecord : LogRecord :=
  { target := LogRecord.sending
    level := .trace
    message := "request attributes"
    fields := [] }

/- Record attributes, if there are any. -/
def noteAttributes (values : RequestValues) : Run Unit :=
  if values.attributes.isEmpty then Run.pure ()
  else Run.write attributesRecord

/- URL and headers, before the body is encoded. -/
def assembleHead (client : Client) (values : RequestValues) :
    Except ServiceError (Url × Headers) := do
  let url ← client.resolveTarget values
  let headers ← addCookies
    (mergeCookies client.defaultCookies values.cookies)
    (mergeHeaders client.defaultHeaders values.headers)
  return (url, headers)

/- Encode a body and say so in the headers. -/
def assembleBody
    [KnownMedia]
    (body : RequestBody) (headers : Headers) :
    Except ServiceError (Headers × Option MessageBody) := do
  let encoded? ← encodeBody (headers.text? .contentType) body
  match encoded? with
  | none => return (headers, none)
  | some encoded =>
      let headers ← setMediaType encoded headers
      return (headers, some encoded.body)

/- The request in encoded form. -/
def assemble
    [KnownMedia]
    (client : Client) (values : RequestValues) :
    Run Request := do
  let (url, headers) ← Run.lift (client.assembleHead values)
  noteAttributes values
  let (headers, body) ← Run.lift
    (assembleBody values.body headers)
  return ⟨values.method, url, headers, body⟩

/- Perform a request. -/
def send
    [KnownMedia]
    (client : Client) (values : RequestValues) :
    Run Response := do
  let request ← client.assemble values
  client.execute request

end Client

------------------------------------------------------------
-- Adapters of Clients
------------------------------------------------------------

namespace Adapter

/- The body of a response; an empty one is none. -/
def decode (type : BodyType) (response : Response) :
    Except ServiceError (Option ResponseBody) :=
  if response.body.isEmpty then .ok none
  else (ResponseBody.decode type response.body).map some

/- Performs requests by a client. -/
def ofClient
    [DomainNames]
    [KnownMedia]
    (client : Client) : Adapter where
  supportsAttributes := true
  exchange := fun values => do
    let _ ← client.send values
    return ()
  headers := fun values => do
    let response ← client.send values
    return response.headers
  body := fun type values => do
    let response ← client.send values
    Run.lift (decode type response)
  entity := fun type values => do
    let response ← client.send values
    let body ← Run.lift (decode type response)
    return ⟨response.status, response.headers, body⟩
  bodilessEntity := fun values => do
    let response ← client.send values
    return ⟨response.status, response.headers, none⟩

end Adapter

end ServiceCalls
