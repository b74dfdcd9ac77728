import ServiceCalls.Error
import ServiceCalls.Http.Header
import ServiceCalls.Json.Reader
import ServiceCalls.Json.Schema
import ServiceCalls.Text.Blank
import ServiceCalls.Url.Error
import ServiceCalls.Url.Parse

/-
  Settings of a connection.

  What is not set has no limit, or is left to the
  connection.  Standard settings have limits, and name a
  user agent that the environment may replace.

  Key definitions include:
    * `Duration`
    * `Settings`
    * `Settings.read`
    * `Settings.check`
-/

namespace ServiceCalls

------------------------------------------------------------
-- Durations
------------------------------------------------------------

/- A length of time. -/
structure Duration where
  milliseconds : Nat
deriving DecidableEq, Repr

namespace Duration

/- A length of time in seconds. -/
def ofSeconds (n : Nat) : Duration :=
  ⟨1000 * n⟩

/- The whole seconds of a length of time. -/
def seconds (d : Duration) : Nat :=
  d.milliseconds / 1000

/- Thousandths as digits after the point, none if zero. -/
def fraction (n : Nat) : String :=
  if n = 0 then ""
  else
    let digits := Nat.toDigits 10 n
    let padded := List.replicate (3 - digits.length) '0' ++
      digits
    String.ofList
      ('.' :: Text.dropWhileEnd (· == '0') padded)

/- A length of time as it is shown. -/
def display (d : Duration) : String :=
  if d.milliseconds = 0 then "0ns"
  else if d.seconds = 0 then
    toString d.milliseconds ++ "ms"
  else
    toString d.seconds ++ fraction (d.milliseconds % 1000) ++
      "s"

end Duration

------------------------------------------------------------
-- Settings
------------------------------------------------------------

/- How connections are made. -/
structure Settings where
  timeout : Option Duration
  connectTimeout : Option Duration
  proxy : Option String
  userAgent : Option String
deriving DecidableEq, Repr

namespace Settings

/- The user agent, unless the environment names another. -/
def userAgentName (environment : Option String) : String :=
  match environment.map Text.trim with
  | none => "siumai-exchange/0.1.0"
  | some "" => "siumai-exchange/0.1.0"
  | some name => name

/- The settings used where nothing else is asked for. -/
def standard (environment : Option String) : Settings where
  timeout := some (.ofSeconds 60)
  connectTimeout := some (.ofSeconds 10)
  proxy := none
  userAgent := some (userAgentName environment)

/- Settings with standard ones in place of those not set. -/
def orStandard
    (settings : Settings)
    (environment : Option String) :
    Settings :=
  let base := standard environment
  { timeout := settings.timeout <|> base.timeout
    connectTimeout :=
      settings.connectTimeout <|> base.connectTimeout
    proxy := settings.proxy
    userAgent := settings.userAgent <|> base.userAgent }

/- Settings as they are shown. -/
def display (settings : Settings) : String :=
  Text.showRecord "HttpConfig"
    [("timeout", Text.showOption
        (settings.timeout.map Duration.display)),
      ("connect_timeout", Text.showOption
        (settings.connectTimeout.map Duration.display)),
      ("proxy", Text.showOption
        (settings.proxy.map Text.quoted)),
      ("user_agent", Text.showOption
        (settings.userAgent.map Text.quoted))]

------------------------------------------------------------
-- Settings as JSON
------------------------------------------------------------

/- The shape of settings; times are whole seconds. -/
def schema : Schema :=
  .record "HttpConfig"
    [("timeout", .optional (.unsigned 64), some .null),
      ("connect_timeout",
        .optional (.unsigned 64), some .null),
      ("proxy", .optional .string, some .null),
      ("user_agent", .optional .string, some .null)]

/- A number of seconds. -/
def durationOf? (value : Json) : Option Duration :=
  value.nat?.map Duration.ofSeconds

/- Settings from a value that meets the schema. -/
def ofJson (json : Json) : Settings where
  timeout := (json.field? "timeout").bind durationOf?
  connectTimeout :=
    (json.field? "connect_timeout").bind durationOf?
  proxy := (json.field? "proxy").bind Json.text?
  userAgent := (json.field? "user_agent").bind Json.text?

/- Settings from a value, if it meets the schema. -/
def conform (json : Json) : Except ServiceError Settings :=
  match schema.conform json with
  | .error mismatch => .error (.json mismatch.message)
  | .ok json => .ok (ofJson json)

/- Read settings. -/
def read (document : String) :
    Except ServiceError Settings :=
  match schema.readDocument (Text.encode document) with
  | .error fault => .error (.json fault.message)
  | .ok json => .ok (ofJson json)

/- A duration as whole seconds. -/
def durationToJson : Option Duration → Json
  | none => .null
  | some d => .nat d.seconds

/- Settings as a value that meets the schema. -/
def toJson (settings : Settings) : Json :=
  .ofFields
    [("timeout", durationToJson settings.timeout),
      ("connect_timeout",
        durationToJson settings.connectTimeout),
      ("proxy", .ofString? settings.proxy),
      ("user_agent", .ofString? settings.userAgent)]

------------------------------------------------------------
-- Checks
------------------------------------------------------------

/- A proxy that cannot be used. -/
def badProxy : ServiceError :=
  .configuration "Invalid proxy URL: builder error"

/- Settings that cannot be used. -/
def badSettings : ServiceError :=
  .configuration "Failed to build HTTP client: builder error"

variable [DomainNames]

/- Whether a text names a place to connect to. -/
def namesHost (text : String) : Bool :=
  match Url.parse text with
  | .ok url => url.hasHost
  | .error _ => false

/-
  Whether a text names a proxy.  One without a scheme is
  taken as the rest of a URL.
-/
def isProxy (text : String) : Bool :=
  match Url.parse text with
  | .ok url => url.hasHost || namesHost ("http://" ++ text)
  | .error .relativeWithoutBase =>
      namesHost ("http://" ++ text)
  | .error _ => false

/- Check that connections can be made. -/
def check (settings : Settings) : Except ServiceError Unit :=
  if settings.proxy.all isProxy then
    match settings.userAgent.map HeaderValue.ofText? with
    | some none => .error badSettings
    | _ => .ok ()
  else .error badProxy

end Settings

end ServiceCalls
