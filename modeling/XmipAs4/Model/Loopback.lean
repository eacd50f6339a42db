import XmipAs4.Model.Transport

/-!
# The loopback

`loopback.rs`: a far end that takes the one message posted to it, and a near end that posts
it, both of them twins of one transport.

`Transport::send` of the `transport` crate hands its payload to `send_from` without a key, so
what the near end sends is a `post`.  The listener, and what binds it, are not here: the far
end is given the connection it accepts, and the near end the address that was bound.
-/

namespace As4

open Multipart (Bytes)

/-- The party both ends of a loopback are (`PARTY` in the source). -/
def loopbackParty : String := "Xmip"

namespace As4Transport

/-- Both ends on this machine: one party sending to itself under the test service. -/
def loopback (now : Moment) : As4Transport :=
  new now "as4://127.0.0.1:0/msh" loopbackParty loopbackParty

variable (L : Estate) (t : As4Transport)

/-- This party at an endpoint, unsigned, unchecked and with nothing seen. -/
def twin (endpoint : String) : As4Transport where
  endpoint := endpoint
  template := t.template
  receipting := Receipting.new unsigned
  check := none

/-- What the far end, once bound, makes of the one connection it accepts. -/
def farEnd (now : Moment) (connection : Connection) : Result Taken :=
  match ((t.twin t.endpoint).acceptOne L now connection).1.1 with
  | .ok (some (_, arrived)) => .ok arrived
  | .ok none => .error (L.protocolError "a message seen before: receipted, not delivered")
  | .error error => .error error

/-- Post the payload to the far end at the address it was bound at. -/
def sendTo (now later : Moment) (exchange : Endpoint → Request → Result Response)
    (address : String) (payload : Bytes) : Result Unit := do
  let endpoint ← L.parseUnder t.endpoint schemes
  (t.twin ("as4://" ++ address ++ endpoint.path)).post L now later exchange "" payload none

end As4Transport

end As4
