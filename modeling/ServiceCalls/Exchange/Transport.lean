import ServiceCalls.Exchange.Message

/-
  Transports of encoded requests.

  Key definitions include:
    * `Transport`
    * `Transport.check`
    * `Network`
-/

namespace ServiceCalls

------------------------------------------------------------
-- Transports
------------------------------------------------------------

/-
  How requests reach the network: by a transport that was
  given, which takes all requests as they are, or by a web
  connection, which has to write them down first.
-/
inductive Transport where
| given
| web
deriving DecidableEq, Repr

namespace Transport

/- A URL with another scheme than that of a web server. -/
def badScheme (url : Url) : ServiceError :=
  .transport
    ("builder error for url (" ++
      url.withoutUser.render ++ ")")

/- Check that the parts of a body can be written. -/
def checkBody : Option MessageBody → Except ServiceError Unit
  | some (.parts items) => FormPart.checkAll items
  | _ => .ok ()

/- Check that a web server can be asked. -/
def checkUrl (url : Url) : Except ServiceError Unit :=
  if url.scheme = "http" ∨ url.scheme = "https" then .ok ()
  else .error (badScheme url)

/- Check a request. -/
def check (transport : Transport) (request : Request) :
    Except ServiceError Unit :=
  match transport with
  | .given => .ok ()
  | .web => do
      checkBody request.body
      checkUrl request.url

end Transport

------------------------------------------------------------
-- Networks
------------------------------------------------------------

/- What comes back for a request, or why nothing does. -/
abbrev Network : Type :=
  Transport → Request → Except ServiceError Response

namespace Network

/- A request to which there was no connection. -/
def notConnected (request : Request) : ServiceError :=
  .transport
    ("error sending request for url (" ++
      request.url.withoutUser.render ++ ")")

/- A network that nothing can be reached in. -/
def unreachable : Network :=
  fun _ request => .error (notConnected request)

end Network

end ServiceCalls
