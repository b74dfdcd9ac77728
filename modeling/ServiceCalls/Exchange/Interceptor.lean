import ServiceCalls.Exchange.Run
import ServiceCalls.Text.Base64

/-
  Interceptors of encoded requests.

  An interceptor may change a request before it is sent, may
  refuse a request or its response, and is told of errors.
  Interceptors act in order, and the first that refuses ends
  the run.

  Key definitions include:
    * `Interceptor`
    * `Interceptor.logging`
    * `Interceptor.basicAuth`
    * `Interceptor.prepareAll`
-/

namespace ServiceCalls

/- What is done with requests and responses on the way. -/
structure Interceptor where
  beforeSend : RequestContext → Request →
    Except ServiceError Request
  onResponse : RequestContext → Response →
    Except ServiceError Unit
  records : RequestContext → Notice → List LogRecord

namespace Interceptor

/- An interceptor that does nothing. -/
def idle : Interceptor where
  beforeSend := fun _ request => .ok request
  onResponse := fun _ _ => .ok ()
  records := fun _ _ => []

------------------------------------------------------------
-- Logging
------------------------------------------------------------

/- The record of what an interceptor is told. -/
def loggingRecord (context : RequestContext) :
    Notice → LogRecord
  | .beforeSend request =>
      .debug LogRecord.sending "sending request"
        [("method", context.method.name),
          ("url", context.url),
          ("body", MessageBody.kindOf request.body)]
  | .response response =>
      .debug LogRecord.sending "response received"
        [("method", context.method.name),
          ("url", context.url),
          ("status", toString response.status)]
  | .error error =>
      .debug LogRecord.sending "request error"
        [("method", context.method.name),
          ("url", context.url),
          ("err", error.message)]

/- Records everything it is told. -/
def logging : Interceptor :=
  { idle with
    records := fun context notice =>
      [loggingRecord context notice] }

------------------------------------------------------------
-- Basic Authentication
------------------------------------------------------------

/- A user name and a password. -/
structure Credentials where
  username : String
  password : String

namespace Credentials

/- The text that proves who is asking. -/
def text (credentials : Credentials) : String :=
  String.ofList ("Basic ".toList ++
    Text.base64Encode (Text.encode
      (credentials.username ++ ":" ++
        credentials.password)))

/- Credentials as they are shown: without the password. -/
def display (credentials : Credentials) : String :=
  Text.showRecord "BasicAuthInterceptor"
    [("username", Text.quoted credentials.username),
      ("password", Text.quoted "[REDACTED]")]

end Credentials

/- Add credentials to headers that have none. -/
def authorize (credentials : Credentials) (headers : Headers) :
    Except ServiceError Headers :=
  if headers.contains .authorization then .ok headers
  else
    (HeaderValue.read credentials.text).map
      (headers.insert .authorization)

/- Adds credentials to requests that have none. -/
def basicAuth (credentials : Credentials) : Interceptor :=
  { idle with
    beforeSend := fun _ request =>
      (authorize credentials request.headers).map
        fun headers => { request with headers := headers } }

------------------------------------------------------------
-- Interceptors in Order
------------------------------------------------------------

/- Tell an interceptor. -/
def notify
    (interceptor : Interceptor)
    (index : Nat)
    (context : RequestContext)
    (notice : Notice) :
    Run Unit :=
  Run.emit (.notified index context notice ::
    (interceptor.records context notice).map .wrote)

/- The request that all interceptors make of a request. -/
def prepareAll (context : RequestContext) :
    Nat → List Interceptor → Request → Run Request
  | _, [], request => Run.pure request
  | index, interceptor :: rest, request => do
      interceptor.notify index context (.beforeSend request)
      let changed ← Run.lift
        (interceptor.beforeSend context request)
      prepareAll context (index + 1) rest changed

/- Let all interceptors accept a response. -/
def acceptAll (context : RequestContext)
    (response : Response) :
    Nat → List Interceptor → Run Unit
  | _, [] => Run.pure ()
  | index, interceptor :: rest => do
      interceptor.notify index context (.response response)
      Run.lift (interceptor.onResponse context response)
      acceptAll context response (index + 1) rest

/- Tell all interceptors of an error. -/
def notifyAll (context : RequestContext)
    (error : ServiceError) :
    Nat → List Interceptor → Run Unit
  | _, [] => Run.pure ()
  | index, interceptor :: rest => do
      interceptor.notify index context (.error error)
      notifyAll context error (index + 1) rest

end Interceptor

end ServiceCalls
