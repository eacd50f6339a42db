import XmipAs4.Model.Receipting

/-!
# The transport

`lib.rs` and `hearing.rs`: what one POST is heard as, the two ways a far end receives,
and the one way a near end sends.

What carries the exchange is not here: `server::serve_one_from`, `Inbound::next` and
`Connections::exchange` are arguments, each as what it hands to the transport's own
code or makes of what that code returns.
-/

namespace As4

open Multipart (Bytes)

/-- What a message and its payload must satisfy beyond being addressed to this party. -/
abbrev Check := Moment → UserMessage → Bytes → Result Unit

/-- The transport, less what only its carriers read (timeout, connections, listener). -/
structure As4Transport where
  endpoint : String
  /-- The message every send is a fresh copy of. -/
  template : UserMessage
  receipting : Receipting
  check : Option Check

/-- A new message heard: the message, its origin, its payload and its sender. -/
abbrev Held := UserMessage × String × Bytes × Sender

/-- What one POST is heard as. -/
abbrev Hearing := Heard (Result (Option Held))

/-- A Stream taken whole, with what the request said of its sender. -/
structure Taken where
  originUri : String
  bytes : Bytes
  sender : Sender
  deriving DecidableEq

/-- A Stream whose Party waits; `answered` is the message its acknowledgement answers. -/
structure Arrived where
  originUri : String
  bytes : Bytes
  sender : Sender
  answered : UserMessage
  deriving DecidableEq

/-- The schemes a Party's endpoint is written in. -/
def schemes : Schemes where
  plain := ["http", "as4"]
  secure := ["https", "as4s"]

variable (L : Estate)

/-- A message refused as it was read, with the Error that says why. -/
def refused (now : Moment) (refTo : Option String) (code : String) (error : TransportError) :
    Hearing :=
  let (status, code) := if error.retryable then (503, other) else (400, code)
  let fault := Signal.error L now refTo code error.message
  .Answered (.error error) (soap L now status fault)

/-- The origin URI of a message heard. -/
def originOf (request : Request) (peer : SocketAddr) (message : UserMessage) : String :=
  "as4://" ++ peer ++ request.path ++ "?from=" ++ message.fromParty ++ "&message-id=" ++
    message.messageId ++ "&action=" ++ message.action

namespace As4Transport

/-! ## Configuration -/

/-- Speak as one party to another at the endpoint, under the test service and unsigned. -/
def new (now : Moment) (endpoint me party : String) : As4Transport where
  endpoint := endpoint
  template := UserMessage.new now me party testService testAction
  receipting := Receipting.new unsigned
  check := none

/-- Send under the service and action. -/
def under (t : As4Transport) (service action : String) : As4Transport :=
  { t with template := { t.template with service := service, action := action } }

/-- Send every message as a fresh copy of the template. -/
def shaped (t : As4Transport) (template : UserMessage) : As4Transport :=
  { t with template := template }

/-- Refuse any message the check refuses. -/
def checking (t : As4Transport) (check : Check) : As4Transport :=
  { t with check := some check }

/-- Sign with this, and verify with it. -/
def signingWith (t : As4Transport) (signer : Signer) : As4Transport :=
  { t with receipting := Receipting.new signer }

/-! ## Hearing -/

variable (t : As4Transport)

/-- The User Message a request carries and its payload, the signature verified. -/
def unpack (now : Moment) (request : Request) : Result (UserMessage × Bytes) :=
  if request.method ≠ "POST" then
    .error (L.protocolError ("an AS4 message is a POST, not a " ++ request.method))
  else do
    let contentType := (L.headerValue request.headers "Content-Type").getD ""
    let (envelope, attachments) ← Mime.unpack L contentType request.body
    t.receipting.signer.verify now envelope attachments
    let message ← UserMessage.fromEnvelope L envelope
    let bytes ← okOr ((attachments.find? fun a => a.1 == message.payloadCid).map Prod.snd)
      (L.protocolError ("a message whose payload cid:" ++ message.payloadCid ++
        " is not attached"))
    .ok (message, bytes)

/-- Whether this party takes the message: addressed to it, and what the profile checks
(`admit` in the source). -/
def admits (now : Moment) (message : UserMessage) (payload : Bytes) : Result Unit :=
  if message.toParty ≠ t.template.fromParty then
    .error (L.protocolError ("a message for " ++ message.toParty ++ ", and this party is " ++
      t.template.fromParty))
  else
    match t.check with
    | some check => check now message payload
    | none => .ok ()

/-- What one POST from a peer is. -/
def hear (now : Moment) (request : Request) (peer : SocketAddr) : Hearing :=
  match t.unpack L now request with
  | .error error => refused L now none valueNotRecognized error
  | .ok (message, bytes) =>
    match t.admits L now message bytes with
    | .error error => refused L now (some message.messageId) policyNoncompliance error
    | .ok () =>
      if t.receipting.seen message.messageId then
        match t.receipting.receipt L now message with
        | .ok receipt => .Answered (.ok none) receipt
        | .error error => .Answered (.error error) (Response.new 500)
      else
        .Waiting (.ok (some (message, originOf request peer message, bytes,
          ⟨request, peer⟩)))

/-! ## Receiving -/

/-- The closure `accept_one` serves a request with: what it hands to its caller, the answer
for the wire, and the transport after it. -/
def serve (now : Moment) (request : Request) (peer : SocketAddr) :
    (Result (Option (UserMessage × Taken)) × Response) × As4Transport :=
  match t.hear L now request peer with
  | .Answered said answer =>
    (((match said with | .ok _ => .ok none | .error e => .error e), answer), t)
  | .Waiting (.ok (some (message, origin, bytes, sender))) =>
    match t.receipting.answer L now message .Accepted with
    | (.ok receipt, receipting) =>
      ((.ok (some (message, ⟨origin, bytes, sender⟩)), receipt), { t with receipting })
    | (.error error, receipting) => ((.error error, Response.new 500), { t with receipting })
  | .Waiting (.ok none) => ((.ok none, Response.new 500), t)
  | .Waiting (.error error) => ((.error error, Response.new 500), t)

end As4Transport

/-- What `server::serve_one_from` does with a connection: it breaks before a request is
read off it, or a request is read and served and the answer is written, or is not. -/
inductive Connection where
  | broken (error : TransportError)
  | read (request : Request) (peer : SocketAddr) (written : Result Unit)

namespace As4Transport

variable (t : As4Transport)

/-- Accept one message and answer its Receipt at once: what the caller is told, what was
answered, and the transport after it. -/
def acceptOne (now : Moment) :
    Connection → (Result (Option (UserMessage × Taken)) × Option Response) × As4Transport
  | .broken error => ((.error error, none), t)
  | .read request peer written =>
    match t.serve L now request peer with
    | ((said, answer), t') =>
      match written with
      | .ok () => ((said, some answer), t')
      | .error error => ((.error error, some answer), t')

end As4Transport

/-- What `Inbound::next` hands on: nothing arrived, or a request did. -/
inductive Arrival where
  | failed (error : TransportError)
  | posted (request : Request) (peer : SocketAddr)

namespace As4Transport

variable (t : As4Transport)

/-- The next message from whichever Party posts first, and what its POST was answered at
once, if it was.  `Inbound::next` writes an answer given at once and keeps the reply of a
request that waits, so a reply is there exactly where the message is handed up. -/
def takeNext (now : Moment) : Arrival → Result (Option (UserMessage × Arrived)) × Option Response
  | .failed error => (.error error, none)
  | .posted request peer =>
    match t.hear L now request peer with
    | .Answered (.error error) answer => (.error error, some answer)
    | .Answered (.ok none) answer => (.ok none, some answer)
    | .Answered (.ok (some _)) answer =>
      (.error (L.protocolError "a message answered unheard"), some answer)
    | .Waiting (.error error) => (.error error, none)
    | .Waiting (.ok none) => (.ok none, none)
    | .Waiting (.ok (some (message, origin, bytes, sender))) =>
      (.ok (some (message, ⟨origin, bytes, sender, message⟩)), none)

/-- The deferred acknowledgement of an arrival: what its giver is told, the answer that goes
on the reply, if one could be made, and the transport after it. -/
def acknowledge (now : Moment) (arrived : Arrived) (reply : Response → Result Unit)
    (verdict : Verdict) : (Result Unit × Option Response) × As4Transport :=
  match t.receipting.answer L now arrived.answered verdict with
  | (.ok answer, receipting) => ((reply answer, some answer), { t with receipting })
  | (.error error, receipting) => ((.error error, none), { t with receipting })

/-! ## Sending -/

/-- Where a target names the Party's endpoint itself, or is empty and means the one
configured. -/
def resolve (target : String) : String :=
  if target = "" then t.endpoint else target

/-- The Signal the Party answered, held against what was sent. -/
def verifyReceipt (now : Moment) (response : Response) (sent : UserMessage) : Result Unit :=
  let contentType := (L.headerValue response.headers "Content-Type").getD ""
  let signal : Result Signal := do
    let (envelope, attachments) ← Mime.unpack L contentType response.body
    t.receipting.signer.verify now envelope attachments
    Signal.fromEnvelope L envelope
  if ¬ (200 ≤ response.status ∧ response.status < 300) then
    let why := match signal with
      | .ok (.Error _ code description) => code ++ ": " ++ description
      | _ => "no signal in the answer"
    .error ⟨"the Party answered " ++ toString response.status ++ " — " ++ why,
      L.retryable response.status⟩
  else
    match signal with
    | .error error => .error error
    | .ok (.Receipt refTo _) =>
      if refTo = sent.messageId then .ok ()
      else .error (L.protocolError ("a receipt for " ++ refTo ++ ", not for " ++ sent.messageId))
    | .ok (.Error _ code description) =>
      .error (L.protocolError ("the Party refused the message: " ++ code ++ ": " ++ description))

/-- What one send puts on the wire: where to, the message, and the request that carries it. -/
def posting (now : Moment) (target : String) (bytes : Bytes) (key : Option String) :
    Result (Endpoint × UserMessage × Request) := do
  let endpoint ← L.parseUnder (t.resolve target) schemes
  let message := (t.template.fresh now).keyed key
  let attachments := [(message.payloadCid, bytes)]
  let envelope ← t.receipting.signer.sign now (message.envelope L) attachments
  let (contentType, body) := Mime.pack L now envelope attachments
  .ok (endpoint, message,
    (((Request.new "POST" endpoint.path).header "Host" endpoint.authority).header
      "Content-Type" contentType).withBody body)

/-- The one send: one User Message posted, at the moment `now`, and its Receipt verified, at
the moment `later`. -/
def post (now later : Moment) (exchange : Endpoint → Request → Result Response)
    (target : String) (bytes : Bytes) (key : Option String) : Result Unit := do
  let (endpoint, message, request) ← t.posting L now target bytes key
  let response ← exchange endpoint request
  t.verifyReceipt L later response message

end As4Transport

end As4
