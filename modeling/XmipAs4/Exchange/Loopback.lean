import XmipAs4.Model.Loopback
import XmipAs4.Exchange.Receipts

/-!
# What the loopback returns

Both ends of a loopback are twins of one transport: they sign nothing, check nothing and
remember nothing, but each has the template the transport was given.  So the near end posts to
the party the template is for, and the far end takes what is for the party the template is
from.
-/

namespace As4

open Multipart (Bytes isContentId)

/-- `send_to` puts the request on the wire: the transport's endpoint reads as one, and the near
end posts the payload to its path at the address. -/
def SendsTo (L : Estate) (t : As4Transport) (now : Moment) (address : String) (payload : Bytes)
    (message : UserMessage) (signed : String) (request : Request) : Prop :=
  ∃ bound, L.parseUnder t.endpoint schemes = .ok bound ∧
    Posts L (t.twin ("as4://" ++ address ++ bound.path)) now "" payload none message signed request

section Round

variable {L : Estate} {t : As4Transport} {now taking : Moment} {address : String}
  {payload : Bytes} {message : UserMessage} {signed : String} {request : Request}
  {peer : SocketAddr} {exchange : Endpoint → Request → Result Response}

/-- The message sent is the template's, fresh. -/
theorem SendsTo.message_eq (h : SendsTo L t now address payload message signed request) :
    message = t.template.fresh now := by
  obtain ⟨bound, -, hpost⟩ := h
  exact hpost.message_eq

/-- What a send comes to is what the near end makes of the answer to the request it posts. -/
theorem SendsTo.sendTo_eq (h : SendsTo L t now address payload message signed request)
    (later : Moment) {answer : Response}
    (hexchange : ∀ endpoint, exchange endpoint request = .ok answer) :
    ∃ near : As4Transport, near.receipting.signer = unsigned ∧
      t.sendTo L now later exchange address payload =
        near.verifyReceipt L later answer message := by
  obtain ⟨bound, hbound, hpost⟩ := h
  obtain ⟨endpoint, hposting⟩ := hpost.posting
  refine ⟨t.twin ("as4://" ++ address ++ bound.path), rfl, ?_⟩
  rw [As4Transport.sendTo, hbound, ok_bind, As4Transport.post, hposting, ok_bind]
  simp only
  rw [hexchange, ok_bind]

variable (hL : L.Lawful) (h : SendsTo L t now address payload message signed request)
  (hservice : t.template.service ≠ "") (haction : t.template.action ≠ "")
  (hid : isContentId t.template.payloadCid = true)
  (hcid : ¬ "cid:".toList <+: t.template.payloadCid.toList)
include hL h hservice haction hid hcid

/-- The far end reads the message and the payload as they were posted. -/
theorem far_unpacks (taking : Moment) :
    (t.twin t.endpoint).unpack L taking request = .ok (message, payload) := by
  obtain ⟨bound, -, hpost⟩ := h
  rw [unpack_posted_clean hL hpost (unsigned_leaves L "UserMessage") hservice haction hid hcid
    (t.twin t.endpoint) taking]
  rfl

/-- Where the template is for the party it is from, the far end hands the payload back, and
the send comes to a Receipt. -/
theorem returned_of_same (later : Moment) (hexchange : ∀ endpoint, exchange endpoint request =
      .ok ((t.twin t.endpoint).serve L taking request peer).1.2)
    (hsame : t.template.toParty = t.template.fromParty) :
    t.farEnd L taking (.read request peer (.ok ())) =
        .ok ⟨originOf request peer message, payload, ⟨request, peer⟩⟩ ∧
      t.sendTo L now later exchange address payload = .ok () := by
  have hunpack := far_unpacks hL h hservice haction hid hcid taking
  have hto : message.toParty = (t.twin t.endpoint).template.fromParty := by
    rw [h.message_eq]
    exact hsame
  have hadmits : (t.twin t.endpoint).admits L taking message payload = .ok () :=
    (t.twin t.endpoint).admits_unchecked L hto rfl
  have hreceipt : (t.twin t.endpoint).receipting.receipt L taking message =
      .ok (soap L taking 200 (Signal.receipt L taking message)) := rfl
  have hserve := As4Transport.serve_new peer hunpack hadmits List.not_mem_nil hreceipt
  rw [hserve] at hexchange
  constructor
  · rw [As4Transport.farEnd, As4Transport.acceptOne, hserve]
  · obtain ⟨near, hunsigned, hsend⟩ := h.sendTo_eq later hexchange
    obtain ⟨signed', -, hiff⟩ : ∃ signed, _ ∧ (near.verifyReceipt L later _ message = .ok () ↔ _) :=
      verifyReceipt_receipt hL (unsigned_leaves L "SignalMessage") hreceipt
    rw [hsend, hiff, hunsigned]
    exact ⟨rfl, rfl⟩

/-- Where the template is for another party, the far end refuses the message, and the send
fails. -/
theorem refused_of_other (later : Moment) (hexchange : ∀ endpoint, exchange endpoint request =
      .ok ((t.twin t.endpoint).serve L taking request peer).1.2)
    (hother : t.template.toParty ≠ t.template.fromParty) :
    (∃ e, t.farEnd L taking (.read request peer (.ok ())) = .error e) ∧
      ∃ e, t.sendTo L now later exchange address payload = .error e := by
  have hunpack := far_unpacks hL h hservice haction hid hcid taking
  have hadmits : ∃ e, (t.twin t.endpoint).admits L taking message payload = .error e := by
    have hto : message.toParty ≠ (t.twin t.endpoint).template.fromParty := by
      rw [h.message_eq]
      exact hother
    rw [As4Transport.admits, if_pos hto]
    exact ⟨_, rfl⟩
  obtain ⟨e, hadmits⟩ := hadmits
  have hserve : (t.twin t.endpoint).serve L taking request peer =
      ((.error e, refusal L taking (some message.messageId) policyNoncompliance e),
        t.twin t.endpoint) := by
    rw [As4Transport.serve, (Hears.unadmitted hunpack hadmits).eq_hear]
  rw [hserve] at hexchange
  constructor
  · rw [As4Transport.farEnd, As4Transport.acceptOne, hserve]
    exact ⟨e, rfl⟩
  · obtain ⟨near, -, hsend⟩ := h.sendTo_eq later hexchange
    obtain ⟨text, herror⟩ := verifyReceipt_of_status
      (refusal_range L taking (some message.messageId) policyNoncompliance e)
    rw [hsend, herror]
    exact ⟨_, rfl⟩

/-- A loopback returns the payload, taken and receipted, exactly where its template is for the
party it is from. -/
theorem loopback_returns_iff (later : Moment) (hexchange : ∀ endpoint, exchange endpoint request =
      .ok ((t.twin t.endpoint).serve L taking request peer).1.2) :
    ((∃ taken, t.farEnd L taking (.read request peer (.ok ())) = .ok taken ∧
        taken.bytes = payload) ∧
      t.sendTo L now later exchange address payload = .ok ()) ↔
      t.template.toParty = t.template.fromParty := by
  constructor
  · rintro ⟨-, hsent⟩
    by_contra hother
    obtain ⟨-, e, herror⟩ :=
      refused_of_other hL h hservice haction hid hcid later hexchange hother
    rw [hsent] at herror
    cases herror
  · intro hsame
    obtain ⟨htaken, hsent⟩ :=
      returned_of_same hL h hservice haction hid hcid later hexchange hsame
    exact ⟨⟨_, htaken, rfl⟩, hsent⟩

end Round

/-! ## On the bench -/

/-- The request that the near end of a loopback posts on the bench. -/
def loopRequest (t : As4Transport) : Request :=
  packed bench (moment 0) ⟨"/msh", "as4://" ++ "127.0.0.1:1" ++ "/msh"⟩
    ((t.template.fresh (moment 0)).envelope bench) [(t.template.payloadCid, goods)]

/-- The network of the bench carries every request to the far end, and its answer back. -/
def carriedTo (t : As4Transport) (taking : Moment) : Endpoint → Request → Result Response :=
  fun _ request => .ok ((t.twin t.endpoint).serve bench taking request "peer").1.2

theorem carriedTo_eq (t : As4Transport) (taking : Moment) (request : Request)
    (endpoint : Endpoint) : carriedTo t taking endpoint request =
      .ok ((t.twin t.endpoint).serve bench taking request "peer").1.2 := rfl

/-- On the bench, what is posted is the template, fresh. -/
theorem sendsTo_bench {t : As4Transport}
    (hunmarked : unmarked (t.template.fresh (moment 0)).forest = true)
    (hattachment : unmarkedAttachment (t.template.payloadCid, goods) = true) :
    SendsTo bench t (moment 0) "127.0.0.1:1" goods (t.template.fresh (moment 0))
      ((t.template.fresh (moment 0)).envelope bench) (loopRequest t) := by
  refine ⟨⟨"/msh", t.endpoint⟩, rfl, ⟨⟨"/msh", "as4://" ++ "127.0.0.1:1" ++ "/msh"⟩, rfl⟩, rfl, ?_⟩
  exact message_absent hunmarked (List.forall_mem_singleton.mpr hattachment) 0

/-- One party sending to itself. -/
def mirror : As4Transport :=
  (As4Transport.loopback (moment 0)).under "urn:svc" "Submit"

/-- The goods come back from the loopback of one party. -/
theorem loopback_returns_mirror :
    (∃ taken, mirror.farEnd bench (moment 1) (.read (loopRequest mirror) "peer" (.ok ())) =
        .ok taken ∧ taken.bytes = goods) ∧
      mirror.sendTo bench (moment 0) (moment 2) (carriedTo mirror (moment 1)) "127.0.0.1:1"
        goods = .ok () := by
  have hsends := sendsTo_bench (t := mirror) (unmarked_message (by decide)) (by decide)
  exact (loopback_returns_iff bench_lawful hsends (by decide) (by decide) (by decide) (by decide)
    (moment 2) (carriedTo_eq mirror (moment 1) _)).mpr rfl

/-- A transport of the buyer to the seller is no loopback: its far end, which is the buyer's,
refuses what its near end posts, which is for the seller. -/
theorem loopback_refuses :
    buyer.template.toParty ≠ buyer.template.fromParty ∧
    SendsTo bench buyer (moment 0) "127.0.0.1:1" goods (buyer.template.fresh (moment 0))
      ((buyer.template.fresh (moment 0)).envelope bench) (loopRequest buyer) ∧
    (∃ e, buyer.farEnd bench (moment 1) (.read (loopRequest buyer) "peer" (.ok ())) =
      .error e) ∧
    ∃ e, buyer.sendTo bench (moment 0) (moment 2) (carriedTo buyer (moment 1)) "127.0.0.1:1"
      goods = .error e := by
  have hother : buyer.template.toParty ≠ buyer.template.fromParty := by decide
  have hsends := sendsTo_bench (t := buyer) (unmarked_message (by decide)) (by decide)
  exact ⟨hother, hsends, refused_of_other bench_lawful hsends (by decide) (by decide) (by decide)
    (by decide) (moment 2) (carriedTo_eq buyer (moment 1) _) hother⟩

end As4
