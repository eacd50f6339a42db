import XmipAs4.Model.Mime
import XmipAs4.Model.Signal

/-!
# What a Party is answered

`receipting.rs`: the answer a verdict earns a message, and the message ids taken.  The
ids stand behind a lock that every clone shares, so a function that changes them
returns the `Receipting` that all of them see from then on.
-/

namespace As4

/-- How many message ids are remembered before the oldest is forgotten. -/
@[irreducible] def remembered : ℕ := 1024

/-- What the Error a failed cycle answers says. -/
def sendAgain : String := "the message was not taken into custody; send it again"

/-- What the Error a refused cycle answers says. -/
def refusedText : String := "the message was refused; do not send it again"

/-- The signer Receipts are signed with and the message ids taken (`seen` in the source). -/
structure Receipting where
  signer : Signer
  ids : List String

/-- The ebMS Error a refusal is answered with. -/
def code : Refusal → String
  | .Unidentified => failedAuthentication
  | .Forbidden => other
  | .Unacceptable => other

variable (L : Estate)

/-- The envelope as the answer with the status. -/
def soap (now : Moment) (status : ℕ) (envelope : String) : Response :=
  let (contentType, body) := Mime.pack L now envelope []
  ((Response.new status).header "Content-Type" contentType).withBody body

namespace Receipting

/-- Signing with the signer, nothing seen. -/
def new (signer : Signer) : Receipting := ⟨signer, []⟩

/-- Whether the message id was taken before. -/
def seen (r : Receipting) (messageId : String) : Bool :=
  r.ids.any fun id => id == messageId

/-- The message id taken, the oldest forgotten where the store is full. -/
def remember (r : Receipting) (messageId : String) : Receipting :=
  if r.ids.any fun id => id == messageId then r
  else if r.ids.length == remembered then { r with ids := r.ids.drop 1 ++ [messageId] }
  else { r with ids := r.ids ++ [messageId] }

/-- The message's signed Receipt, answered `200`. -/
def receipt (r : Receipting) (now : Moment) (message : UserMessage) : Result Response := do
  let envelope ← r.signer.sign now (Signal.receipt L now message) []
  .ok (soap L now 200 envelope)

/-- The answer the verdict earns the message, and what is remembered after it. -/
def answer (r : Receipting) (now : Moment) (message : UserMessage) :
    Verdict → Result Response × Receipting
  | .Accepted =>
    match r.receipt L now message with
    | .ok receipt => (.ok receipt, r.remember message.messageId)
    | .error e => (.error e, r)
  | .Refused why =>
    (.ok (soap L now (L.refused why)
      (Signal.error L now (some message.messageId) (code why) refusedText)), r)
  | .Failed =>
    (.ok (soap L now L.failed (Signal.error L now (some message.messageId) other sendAgain)), r)

end Receipting

end As4
