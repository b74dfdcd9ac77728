import ServiceCalls.Exchange.Interceptor
import ServiceCalls.Exchange.Settings
import ServiceCalls.Template.Expansion

/-
  Clients.

  A client sends encoded requests, lets interceptors see
  them, and turns responses that tell of a failure into
  errors.

  Key definitions include:
    * `ClientConfig`
    * `ClientConfig.build`
    * `Client`
    * `Client.execute`
-/

namespace ServiceCalls

------------------------------------------------------------
-- Clients
------------------------------------------------------------

/- Sends requests. -/
structure Client [DomainNames] where
  base? : Option BaseUrl
  defaultHeaders : Headers
  defaultCookies : List (String × String)
  interceptors : List Interceptor
  transport : Transport

namespace Client

variable [DomainNames]

/- The text of the base URL. -/
def baseUrl? (client : Client) : Option String :=
  client.base?.map BaseUrl.text

/- A client as it is shown. -/
def display (client : Client) : String :=
  Text.showRecord "HttpClient"
    [("base_url", Text.showOption
        (client.baseUrl?.map Text.quoted)),
      ("default_headers",
        toString client.defaultHeaders.size),
      ("default_cookies",
        toString client.defaultCookies.length),
      ("interceptors",
        toString client.interceptors.length)]

/- Fail after the interceptors were told. -/
def failWith
    {α : Type}
    (client : Client)
    (context : RequestContext)
    (error : ServiceError) :
    Run α := do
  Interceptor.notifyAll context error 0 client.interceptors
  Run.fail error

/- The request that interceptors are told about. -/
def contextOf (request : Request) : RequestContext :=
  ⟨request.method, request.url.render⟩

/-
  Send a request.  Interceptors see it, and then its
  response.  A status that tells of a failure is one.
-/
def execute (client : Client) (request : Request) :
    Run Response := do
  let context := contextOf request
  let prepared ← Interceptor.prepareAll context 0
    client.interceptors request
  match ← Run.attempt (Run.send client.transport prepared) with
  | .error error => client.failWith context error
  | .ok response =>
      Interceptor.acceptAll context response 0
        client.interceptors
      if response.isFailure then
        client.failWith context response.failure
      else Run.pure response

end Client

------------------------------------------------------------
-- Configurations
------------------------------------------------------------

/-
  What a client is made from.  A transport of one's own
  makes the settings needless, and so does a connection
  that was made elsewhere.
-/
structure ClientConfig where
  baseUrl : Option String
  defaultHeaders : List (String × String)
  defaultCookies : List (String × String)
  settings : Settings
  interceptors : List Interceptor
  logging : Bool
  transport : Option Transport
  connected : Bool

namespace ClientConfig

/- A configuration with the given settings only. -/
def ofSettings (settings : Settings) : ClientConfig where
  baseUrl := none
  defaultHeaders := []
  defaultCookies := []
  settings := settings
  interceptors := []
  logging := false
  transport := none
  connected := false

def withBaseUrl (config : ClientConfig) (url : String) :
    ClientConfig :=
  { config with baseUrl := some url }

/- Add a header for requests that do not set it. -/
def addHeader (config : ClientConfig) (name value : String) :
    ClientConfig :=
  { config with
    defaultHeaders :=
      config.defaultHeaders ++ [(name, value)] }

/- Add a cookie for requests that do not set it. -/
def addCookie (config : ClientConfig) (name value : String) :
    ClientConfig :=
  { config with
    defaultCookies :=
      config.defaultCookies ++ [(name, value)] }

/- Add an interceptor after those there are. -/
def addInterceptor
    (config : ClientConfig)
    (interceptor : Interceptor) :
    ClientConfig :=
  { config with
    interceptors := config.interceptors ++ [interceptor] }

/- Add credentials to requests that have none. -/
def basicAuth
    (config : ClientConfig)
    (username password : String) :
    ClientConfig :=
  config.addInterceptor
    (.basicAuth ⟨username, password⟩)

def withSettings
    (config : ClientConfig)
    (settings : Settings) :
    ClientConfig :=
  { config with settings := settings }

def withTimeout (config : ClientConfig) (time : Duration) :
    ClientConfig :=
  { config with
    settings :=
      { config.settings with timeout := some time } }

def withConnectTimeout
    (config : ClientConfig)
    (time : Duration) :
    ClientConfig :=
  { config with
    settings :=
      { config.settings with connectTimeout := some time } }

def withUserAgent (config : ClientConfig) (name : String) :
    ClientConfig :=
  { config with
    settings :=
      { config.settings with userAgent := some name } }

def withLogging (config : ClientConfig) (enabled : Bool) :
    ClientConfig :=
  { config with logging := enabled }

def withTransport
    (config : ClientConfig)
    (transport : Transport) :
    ClientConfig :=
  { config with transport := some transport }

/- Use a connection that was made elsewhere. -/
def withConnection (config : ClientConfig) : ClientConfig :=
  { config with connected := true }

/- A configuration as it is shown. -/
def display (config : ClientConfig) : String :=
  Text.showRecord "HttpClientBuilder"
    [("base_url", Text.showOption
        (config.baseUrl.map Text.quoted)),
      ("default_headers",
        toString config.defaultHeaders.length),
      ("default_cookies",
        toString config.defaultCookies.length),
      ("http_config", config.settings.display),
      ("interceptors", toString config.interceptors.length),
      ("http_debug", Text.showBool config.logging)]

------------------------------------------------------------
-- Building a Client
------------------------------------------------------------

/- A default header whose value is none. -/
def badHeaderValue (name : String) : ServiceError :=
  .configuration
    ("Invalid value for default header '" ++ name ++
      "': failed to parse header value")

/- The transport of a client. -/
def chooseTransport [DomainNames] (config : ClientConfig) :
    Except ServiceError Transport :=
  match config.transport with
  | some transport => .ok transport
  | none =>
      if config.connected then .ok .web
      else config.settings.check.map fun _ => .web

/- The interceptors of a client; logging comes last. -/
def allInterceptors (config : ClientConfig) :
    List Interceptor :=
  config.interceptors ++
    if config.logging then [.logging] else []

/- Make a client. -/
def build [DomainNames] (config : ClientConfig) :
    Except ServiceError Client := do
  let base? ← BaseUrl.parse? config.baseUrl
  let headers ← Headers.appendDefaults badHeaderValue
    .empty config.defaultHeaders
  let transport ← config.chooseTransport
  return {
    base? := base?
    defaultHeaders := headers
    defaultCookies := config.defaultCookies
    interceptors := config.allInterceptors
    transport := transport }

end ClientConfig

end ServiceCalls
