import XmipAs4.Reference.Bench

/-!
# What is written is what is read

A User Message and a Signal read back off the envelopes they wrote, an envelope and its
attachments off the body they were packed into, and what is posted is what is handed up.
-/

namespace As4

open Multipart (Bytes isContentId Absent)

/-! ## The envelope -/

/-- A User Message that names itself, its service and its action, and whose content id does
not begin with `cid:`, reads back off its envelope as it is. -/
theorem userMessage_roundTrip {L : Estate} (hX : L.xml.Lawful) (m : UserMessage)
    (hid : m.messageId ≠ "") (hservice : m.service ≠ "") (haction : m.action ≠ "")
    (hcid : ¬ "cid:".toList <+: m.payloadCid.toList) :
    UserMessage.fromEnvelope L (m.envelope L) = .ok m := by
  rw [m.fromEnvelope_envelope hX hid hservice haction, UserMessage.readBack_of_clean hcid]

/-- A message with markup and quotation marks in its texts, an empty text, and every
optional part present. -/
def shapedOrder : UserMessage :=
  { order with
    fromParty := "Buyer & <Co>"
    toParty := ""
    partyType := some "urn:\"type\""
    serviceType := some ""
    agreement := some "</eb:UserMessage>"
    properties := [("a", "1"), ("a", ""), ("", "'")] }

/-- The shaped message reads back as it is. -/
theorem userMessage_roundTrip_shaped :
    UserMessage.fromEnvelope bench (shapedOrder.envelope bench) = .ok shapedOrder :=
  userMessage_roundTrip bench_lawful.xml shapedOrder (by decide) (by decide) (by decide)
    (by decide)

/-! ## The Signal -/

/-- The Signal on an answer: its body unpacked, and the Signal read off the envelope. -/
def signalOf (L : Estate) (response : Response) : Result Signal := do
  let contentType := (L.headerValue response.headers "Content-Type").getD ""
  let (envelope, _) ← Mime.unpack L contentType response.body
  Signal.fromEnvelope L envelope

/-- The Signal on an answer made by `soap` is that of the envelope it was made of. -/
theorem signalOf_soap {L : Estate} (hL : L.Lawful) (now : Moment) (status : ℕ)
    (envelope : String) :
    signalOf L (soap L now status envelope) = Signal.fromEnvelope L envelope := by
  unfold signalOf
  simp only
  rw [unpack_answer hL, ok_bind]

/-- The Signal on an Error that was written is the Error. -/
theorem signalOf_error {L : Estate} (hL : L.Lawful) (now written : Moment) (status : ℕ)
    (refTo : Option String) (code description : String) :
    signalOf L (soap L written status (Signal.error L now refTo code description)) =
      .ok (.Error refTo code description) := by
  rw [signalOf_soap hL, Signal.fromEnvelope_error hL.xml]

/-- Whatever the texts of the message it answers, a Receipt reads back as a Receipt of that
message's id and of its own, and an Error as it is; off the envelope, and off an answer of
any status that the envelope was made. -/
theorem signal_roundTrip {L : Estate} (hL : L.Lawful) :
    (∀ (now : Moment) (m : UserMessage),
      Signal.fromEnvelope L (Signal.receipt L now m) = .ok (.Receipt m.messageId (nextId now)) ∧
      ∀ written status, signalOf L (soap L written status (Signal.receipt L now m)) =
        .ok (.Receipt m.messageId (nextId now))) ∧
    ∀ (now : Moment) (refTo : Option String) (code description : String),
      Signal.fromEnvelope L (Signal.error L now refTo code description) =
        .ok (.Error refTo code description) ∧
      ∀ written status, signalOf L (soap L written status
          (Signal.error L now refTo code description)) = .ok (.Error refTo code description) := by
  constructor
  · intro now m
    have hread := Signal.fromEnvelope_receipt hL.xml now m
    refine ⟨hread, ?_⟩
    intro written status
    rw [signalOf_soap hL, hread]
  · intro now refTo code description
    refine ⟨Signal.fromEnvelope_error hL.xml now refTo code description, ?_⟩
    intro written status
    exact signalOf_error hL now written status refTo code description

/-- On the bench, the Receipt of a message full of markup, and an Error whose description is
the text of a Receipt. -/
theorem signal_roundTrip_shaped :
    signalOf bench (soap bench (moment 1) 200 (Signal.receipt bench (moment 0) shapedOrder)) =
      .ok (.Receipt order.messageId (nextId (moment 0))) ∧
    signalOf bench (soap bench (moment 1) 400 (Signal.error bench (moment 0) none "</eb:Error>"
        (Signal.receipt bench (moment 0) order))) =
      .ok (.Error none "</eb:Error>" (Signal.receipt bench (moment 0) order)) :=
  ⟨((signal_roundTrip bench_lawful).1 (moment 0) shapedOrder).2 (moment 1) 200,
    ((signal_roundTrip bench_lawful).2 (moment 0) none _ _).2 (moment 1) 400⟩

/-! ## The body -/

/-- An envelope and its attachments read back off the body they are packed into, in order
and with nothing lost, whatever their bytes: where there are none the envelope travels
alone, and where there are the boundary must occur in none of the parts. -/
theorem mime_roundTrip {L : Estate} (hL : L.Lawful) (now : Moment) (envelope : String)
    (attachments : Attachments) (hids : ∀ a ∈ attachments, isContentId a.1 = true)
    (habsent : attachments ≠ [] → Absent now.boundary (Mime.parts envelope attachments)) :
    Mime.unpack L (Mime.pack L now envelope attachments).1
      (Mime.pack L now envelope attachments).2 = .ok (envelope, attachments) := by
  by_cases hnone : attachments = []
  · have hpack : Mime.pack L now envelope [] = (Mime.soap, Multipart.asBytes envelope) := rfl
    rw [hnone, hpack]
    exact unpack_soap hL envelope
  · obtain ⟨carry, hcarry, hpack⟩ := exists_carry hL
    rw [hpack now envelope attachments hnone (habsent hnone), received_of_ids hL hcarry hids,
      ok_bind]

/-- On the bench, the order's envelope alone, and with the goods beside it. -/
theorem mime_roundTrip_order :
    Mime.unpack bench (Mime.pack bench (moment 0) (order.envelope bench) []).1
        (Mime.pack bench (moment 0) (order.envelope bench) []).2 =
      .ok (order.envelope bench, []) ∧
    Mime.unpack bench
        (Mime.pack bench (moment 0) (order.envelope bench) [(order.payloadCid, goods)]).1
        (Mime.pack bench (moment 0) (order.envelope bench) [(order.payloadCid, goods)]).2 =
      .ok (order.envelope bench, [(order.payloadCid, goods)]) :=
  ⟨mime_roundTrip bench_lawful (moment 0) _ [] (by simp) (fun h => absurd rfl h),
    mime_roundTrip bench_lawful (moment 0) _ _ (by decide) (fun _ => order_absent 0)⟩

/-! ## The request -/

section Posted

variable {L : Estate} (hL : L.Lawful) {near : As4Transport} {now : Moment} {target : String}
  {bytes : Bytes} {key : Option String} {message : UserMessage} {signed : String}
  {request : Request}
include hL

/-- What is posted is what is handed up.  The message differs from the template in its id,
its conversation and its timestamp only; the far end verifies exactly the envelope that was
signed and the attachments it was signed with; and where that verifies, a far end whose
party id is the template's receiver, whose check takes the message and which has not seen
its id hands up the message and the payload as they were posted. -/
theorem posted_is_handed_up (hpost : Posts L near now target bytes key message signed request)
    (hsigner : near.receipting.signer.Leaves L "UserMessage")
    (hservice : near.template.service ≠ "") (haction : near.template.action ≠ "")
    (hid : isContentId near.template.payloadCid = true)
    (hcid : ¬ "cid:".toList <+: near.template.payloadCid.toList) :
    (message = { near.template with
      messageId := message.messageId
      conversationId := message.conversationId
      timestamp := message.timestamp }) ∧
    ∀ (far : As4Transport) (later : Moment) (peer : SocketAddr),
      far.unpack L later request =
        (far.receipting.signer.verify later signed [(message.payloadCid, bytes)] >>= fun _ =>
          .ok (message, bytes)) ∧
      (far.receipting.signer.verify later signed [(message.payloadCid, bytes)] = .ok () →
        far.template.fromParty = near.template.toParty →
        (∀ check, far.check = some check → check later message bytes = .ok ()) →
        far.receipting.seen message.messageId = false →
        far.hear L later request peer = .Waiting
          (.ok (some (message, originOf request peer message, bytes, ⟨request, peer⟩)))) := by
  have hshape := near.template.keyed_fresh now key
  constructor
  · rw [hpost.message_eq, hshape]
  · intro far later peer
    have hunpack := unpack_posted_clean hL hpost hsigner hservice haction hid hcid far later
    refine ⟨hunpack, ?_⟩
    intro hverify hparty hcheck hnew
    rw [hverify, ok_bind] at hunpack
    have hto : message.toParty = far.template.fromParty := by
      rw [hpost.message_eq, hshape, hparty]
    have hadmits := (far.admits_eq_ok L).mpr ⟨hto, hcheck⟩
    refine (Hears.new hunpack hadmits ?_).eq_hear
    exact far.receipting.seen_eq_false_iff.mp hnew

/-- A profile shapes what one end sends and checks what the other takes.  What is posted under
its template, verified there and new, is handed up where its check takes that message with that
payload, and is answered an Error with the check's own words where it does not. -/
theorem hear_profile {template : UserMessage}
    (hpost : Posts L (near.shaped template) now target bytes key message signed request)
    (hsigner : near.receipting.signer.Leaves L "UserMessage")
    (hservice : template.service ≠ "") (haction : template.action ≠ "")
    (hid : isContentId template.payloadCid = true)
    (hcid : ¬ "cid:".toList <+: template.payloadCid.toList)
    {far : As4Transport} (hparty : far.template.fromParty = template.toParty)
    (hnew : message.messageId ∉ far.receipting.ids) {later : Moment}
    (hverify : far.receipting.signer.verify later signed [(message.payloadCid, bytes)] = .ok ())
    (check : Check) (peer : SocketAddr) :
    (check later message bytes = .ok () →
      (far.checking check).hear L later request peer = .Waiting
        (.ok (some (message, originOf request peer message, bytes, ⟨request, peer⟩)))) ∧
    ∀ e, check later message bytes = .error e →
      (far.checking check).hear L later request peer = .Answered (.error e)
        (refusal L later (some message.messageId) policyNoncompliance e) := by
  have hunpack := unpack_posted_clean hL hpost hsigner hservice haction hid hcid
    (far.checking check) later
  have hverified : (far.checking check).receipting.signer.verify later signed
      [(message.payloadCid, bytes)] = .ok () := hverify
  rw [hverified, ok_bind] at hunpack
  have hto : message.toParty = (far.checking check).template.fromParty := by
    rw [hpost.message_eq, UserMessage.keyed_fresh]
    exact hparty.symm
  constructor
  · intro htakes
    have hadmits : (far.checking check).admits L later message bytes = .ok () := by
      refine ((far.checking check).admits_eq_ok L).mpr ⟨hto, ?_⟩
      rintro _ ⟨⟩
      exact htakes
    exact (Hears.new hunpack hadmits hnew).eq_hear
  · intro e hrefuses
    have hadmits : (far.checking check).admits L later message bytes = .error e := by
      unfold As4Transport.admits
      rw [if_neg (not_not.mpr hto)]
      exact hrefuses
    exact (Hears.unadmitted hunpack hadmits).eq_hear

end Posted

/-- The order is handed up by the seller as the buyer posted it. -/
theorem posted_is_handed_up_order :
    seller.hear bench (moment 1) orderRequest "peer" = .Waiting
      (.ok (some (order, originOf orderRequest "peer" order, goods, ⟨orderRequest, "peer"⟩))) :=
  ((posted_is_handed_up bench_lawful order_posts (unsigned_leaves bench "UserMessage") (by decide)
    (by decide) (by decide) (by decide)).2 seller (moment 1) "peer").2 rfl rfl
    (fun _ h => absurd h (by simp [seller, As4Transport.new])) rfl

end As4
