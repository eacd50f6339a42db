import XmipAs4.Model.Estate

/-!
# SOAP with attachments

`mime.rs`: an envelope and its attachments as one body and the content type that
describes it, and what is read off such a body.
-/

namespace As4

open Multipart (Bytes Part asBytes fromUtf8)

/-- The media type of the envelope part. -/
def soapType : String := "application/soap+xml"

/-- The content id the envelope part carries. -/
def rootCid : String := "envelope@xmip"

/-- The media types a Party may write the envelope part in. -/
def envelopeTypes : List String := [soapType, "text/xml", "application/xml"]

/-- The parts beside the envelope: each a content id and its bytes. -/
abbrev Attachments := List (String × Bytes)

variable (L : Estate)

namespace Mime

/-- One part: its type, written `binary`, and its content id. -/
def part (cid contentType : String) (bytes : Bytes) : Part :=
  (((Part.new bytes).header "Content-Type" contentType).header
    "Content-Transfer-Encoding" "binary").header "Content-ID" ("<" ++ cid ++ ">")

/-- The content type of an envelope that travels alone. -/
def soap : String := soapType ++ "; charset=utf-8"

/-- The content type of an envelope with attachments. -/
def related (boundary : String) : String :=
  "multipart/related; boundary=\"" ++ boundary ++ "\"; type=\"" ++ soapType ++ "\"; start=\"<" ++
    rootCid ++ ">\""

/-- The parts of an envelope with attachments, the envelope first. -/
def parts (envelope : String) (attachments : Attachments) : List Part :=
  part rootCid soap (asBytes envelope) ::
    attachments.map fun a => part a.1 "application/octet-stream" a.2

/-- The envelope and the attachments as one body, and the content type that describes it. -/
def pack (now : Moment) (envelope : String) (attachments : Attachments) : String × Bytes :=
  if attachments.isEmpty then (soap, asBytes envelope)
  else (related now.boundary, L.mime.write now.boundary (parts envelope attachments))

/-- Whether the content type is one an envelope part is written in. -/
def isEnvelope (contentType : String) : Bool :=
  envelopeTypes.contains (L.mime.mediaType contentType)

/-- The envelope's bytes as the UTF-8 text SOAP writes it in, or refused. -/
def envelopeText (bytes : Bytes) : Result String :=
  okOr (fromUtf8 bytes)
    (L.protocolError ("a SOAP envelope that is not UTF-8 text: " ++ L.utf8Error bytes))

/-- The loop over the parts: the first of an envelope's type is the envelope, every other
one an attachment. -/
def sort : Option String → Attachments → List Part → Result (Option String × Attachments)
  | envelope, attachments, [] => .ok (envelope, attachments)
  | envelope, attachments, p :: ps =>
    if envelope.isNone && isEnvelope L ((L.mime.contentType p).getD "") then do
      let text ← envelopeText L p.body
      sort (some text) attachments ps
    else sort envelope (attachments ++ [((L.mime.contentId p).getD "", p.body)]) ps

/-- The envelope and the attachments a body carries, read by its content type. -/
def unpack (contentType : String) (body : Bytes) : Result (String × Attachments) :=
  match L.mime.parameter contentType "boundary" with
  | none =>
    if isEnvelope L contentType then do
      let text ← envelopeText L body
      .ok (text, [])
    else
      .error (L.protocolError
        ("a body that is neither SOAP nor multipart/related: " ++ contentType))
  | some boundary => do
    let parts ← match L.mime.read body boundary with
      | .ok parts => .ok parts
      | .error refusal => .error (L.protocolError refusal)
    let (envelope, attachments) ← sort L none [] parts
    let envelope ← okOr envelope (L.protocolError "a multipart with no SOAP envelope in it")
    .ok (envelope, attachments)

end Mime

/-! ## Signers -/

/-- `signer.rs`: what signs an envelope on the way out and verifies it on the way in.
Either may come out otherwise at another moment. -/
structure Signer where
  sign : Moment → String → Attachments → Result String
  verify : Moment → String → Attachments → Result Unit

/-- No certificate: the envelope travels as it is. -/
def unsigned : Signer where
  sign _ envelope _ := .ok envelope
  verify _ _ _ := .ok ()

end As4
