import ServiceCalls.Exchange.Transport
import ServiceCalls.Log
import ServiceCalls.Request.Draft

/-
  Runs of calls.

  A run depends on how the network answers.  It yields a
  result, or the failure that ended it, and leaves behind
  everything that happened, in order.

  Key definitions include:
    * `Event`
    * `Run`
    * `Run.send`
-/

namespace ServiceCalls

------------------------------------------------------------
-- Events
------------------------------------------------------------

/- The request that an interceptor is told about. -/
structure RequestContext where
  method : Method
  url : String
deriving DecidableEq, Repr

/- What an interceptor is told. -/
inductive Notice where
| beforeSend
    (request : Request)
| response
    (response : Response)
| error
    (error : ServiceError)
deriving DecidableEq, Repr

/- What happens in a run. -/
inductive Event where
| wrote
    (record : LogRecord)
| notified
    (interceptor : Nat)
    (context : RequestContext)
    (notice : Notice)
| sent
    (transport : Transport)
    (request : Request)
deriving DecidableEq, Repr

namespace Event

/- The record that was written. -/
def record? : Event → Option LogRecord
  | .wrote record => some record
  | _ => none

/- The request that was handed to a transport. -/
def request? : Event → Option Request
  | .sent _ request => some request
  | _ => none

end Event

------------------------------------------------------------
-- Runs
------------------------------------------------------------

/- What happened, and what came of it. -/
structure Outcome (α : Type) where
  events : List Event
  result : Except ServiceError α

/- Something that is done while the network answers. -/
def Run (α : Type) : Type :=
  Network → Outcome α

namespace Run

/- Do nothing. -/
def pure {α : Type} (a : α) : Run α :=
  fun _ => ⟨[], .ok a⟩

/- Go on after a step unless it failed. -/
def bind
    {α β : Type}
    (first : Run α)
    (next : α → Run β) :
    Run β :=
  fun network =>
    let a := first network
    match a.result with
    | .error error => ⟨a.events, .error error⟩
    | .ok value =>
        let b := next value network
        ⟨a.events ++ b.events, b.result⟩

instance : Monad Run where
  pure := Run.pure
  bind := Run.bind

/- Fail. -/
def fail {α : Type} (error : ServiceError) : Run α :=
  fun _ => ⟨[], .error error⟩

/- Go on with a result, or fail as it failed. -/
def lift {α : Type} (result : Except ServiceError α) :
    Run α :=
  fun _ => ⟨[], result⟩

/- Let something happen. -/
def emit (events : List Event) : Run Unit :=
  fun _ => ⟨events, .ok ()⟩

/- Write a record. -/
def write (record : LogRecord) : Run Unit :=
  emit [.wrote record]

/- Go on after a step with what came of it. -/
def attempt {α : Type} (step : Run α) :
    Run (Except ServiceError α) :=
  fun network =>
    let a := step network
    ⟨a.events, .ok a.result⟩

/- Hand a request to a transport. -/
def send (transport : Transport) (request : Request) :
    Run Response :=
  fun network =>
    ⟨[.sent transport request],
      (transport.check request).bind fun _ =>
        network transport request⟩

/- Edit a draft. -/
def edit (step : Edit Unit) (draft : RequestDraft) :
    Run RequestDraft :=
  fun _ =>
    let edited := step draft
    ⟨edited.records.map .wrote,
      edited.result.map fun _ => edited.draft⟩

end Run

end ServiceCalls
