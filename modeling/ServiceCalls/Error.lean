import ServiceCalls.Text.Quoted

/-
  Failures of declared calls.

  Key definitions include:
    * `ServiceError`
    * `ServiceError.message`
    * `ServiceError.category`
-/

namespace ServiceCalls

------------------------------------------------------------
-- Causes
------------------------------------------------------------

/- Why a call, or the preparation of one, failed. -/
inductive ServiceError where
| configuration
    (detail : String)
| ambiguousClient
    (serviceType : String)
    (groups : List String)
| missingValue
    (label : String)
    (name : String)
| invalidArgument
    (detail : String)
| bodyConflict
    (detail : String)
| uriTemplate
    (detail : String)
| transport
    (detail : String)
| api
    (code : Nat)
    (text : String)
| parse
    (detail : String)
| json
    (detail : String)
deriving DecidableEq, Repr

/- What kind of failure it is. -/
inductive ErrorCategory where
| configuration
| binding
| transport
| server
| client
| parsing
deriving DecidableEq, Repr

/- A category as it is shown. -/
def ErrorCategory.display : ErrorCategory → String
  | .configuration => "Configuration"
  | .binding => "Binding"
  | .transport => "Transport"
  | .server => "Server"
  | .client => "Client"
  | .parsing => "Parsing"

namespace ServiceError

/- The words for a failure. -/
def message : ServiceError → String
  | .configuration detail =>
      "Configuration error: " ++ detail
  | .ambiguousClient serviceType groups =>
      "More than one proxy for service type " ++
        serviceType ++ " in groups " ++
        Text.showList (groups.map Text.quoted)
  | .missingValue label name =>
      "Missing " ++ label ++ " value '" ++ name ++ "'"
  | .invalidArgument detail => "Invalid argument: " ++ detail
  | .bodyConflict detail =>
      "Conflicting request body: " ++ detail
  | .uriTemplate detail => "URI template error: " ++ detail
  | .transport detail => "HTTP error: " ++ detail
  | .api code text =>
      "API error " ++ toString code ++ ": " ++ text
  | .parse detail => "Parse error: " ++ detail
  | .json detail => "JSON error: " ++ detail

/- The category of a failure. -/
def category : ServiceError → ErrorCategory
  | .configuration _ => .configuration
  | .ambiguousClient _ _ => .configuration
  | .missingValue _ _ => .binding
  | .invalidArgument _ => .binding
  | .bodyConflict _ => .binding
  | .uriTemplate _ => .binding
  | .transport _ => .transport
  | .api code _ => if 500 ≤ code then .server else .client
  | .parse _ => .parsing
  | .json _ => .parsing

/- The status of a response that was a failure. -/
def status? : ServiceError → Option Nat
  | .api code _ => some code
  | _ => none

/- Whether the fault lies in how things were set up. -/
def isConfiguration (error : ServiceError) : Bool :=
  error.category == .configuration

/- Whether the same call may succeed later. -/
def isRetryable : ServiceError → Bool
  | .transport _ => true
  | .api code _ => 500 ≤ code || code == 429
  | _ => false

/- The name of what failed. -/
def kind : ServiceError → String
  | .configuration _ => "ConfigurationError"
  | .ambiguousClient _ _ => "AmbiguousClient"
  | .missingValue _ _ => "MissingValue"
  | .invalidArgument _ => "InvalidArgument"
  | .bodyConflict _ => "BodyConflict"
  | .uriTemplate _ => "UriTemplateError"
  | .transport _ => "HttpError"
  | .api _ _ => "ApiError"
  | .parse _ => "ParseError"
  | .json _ => "JsonError"

/- A failure with its cause shown. -/
def display (error : ServiceError) : String :=
  match error with
  | .ambiguousClient serviceType groups =>
      Text.showRecord error.kind
        [("service_type", Text.quoted serviceType),
          ("groups",
            Text.showList (groups.map Text.quoted))]
  | .missingValue label name =>
      Text.showRecord error.kind
        [("label", Text.quoted label),
          ("name", Text.quoted name)]
  | .api code text =>
      Text.showRecord error.kind
        [("code", toString code),
          ("message", Text.quoted text)]
  | .configuration detail =>
      Text.showApplied error.kind (Text.quoted detail)
  | .invalidArgument detail =>
      Text.showApplied error.kind (Text.quoted detail)
  | .bodyConflict detail =>
      Text.showApplied error.kind (Text.quoted detail)
  | .uriTemplate detail =>
      Text.showApplied error.kind (Text.quoted detail)
  | .transport detail =>
      Text.showApplied error.kind (Text.quoted detail)
  | .parse detail =>
      Text.showApplied error.kind (Text.quoted detail)
  | .json detail =>
      Text.showApplied error.kind (Text.quoted detail)

------------------------------------------------------------
-- Header Faults
------------------------------------------------------------

/- A text that is no header name. -/
def badHeaderName : ServiceError :=
  .invalidArgument
    "Invalid header name: invalid HTTP header name"

/- A text that is no header value. -/
def badHeaderValue : ServiceError :=
  .invalidArgument
    "Invalid header value: failed to parse header value"

end ServiceError

end ServiceCalls
