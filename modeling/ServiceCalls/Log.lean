/-
  Records of what the library did.

  Key definitions include:
    * `LogRecord`
-/

namespace ServiceCalls

/- How much detail a record is. -/
inductive LogLevel where
| debug
| trace
deriving DecidableEq, Repr

/- A level as it is shown. -/
def LogLevel.display : LogLevel → String
  | .debug => "DEBUG"
  | .trace => "TRACE"

/- One record: who wrote it, and a message with fields. -/
structure LogRecord where
  target : String
  level : LogLevel
  message : String
  fields : List (String × String)
deriving DecidableEq, Repr

namespace LogRecord

/- The part of the library that turns calls into requests. -/
def calls : String :=
  "siumai_exchange::invoker"

/- The part of the library that sends requests. -/
def sending : String :=
  "siumai_exchange::http"

/- The part of the library that groups services. -/
def grouping : String :=
  "siumai_exchange::registry"

/- A record of ordinary detail. -/
def debug
    (target message : String)
    (fields : List (String × String)) :
    LogRecord :=
  ⟨target, .debug, message, fields⟩

end LogRecord

end ServiceCalls
