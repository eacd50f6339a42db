import XmipAs4.Exchange.Signals
import XmipAs4.Exchange.FarEnd

/-!
# What a POST must pass

Every gate that stands between a POST and its being handed up or receipted: the method, the
body, the signature, the User Message, its payload, its receiver and the profile's check.
`Passed` says that one request passed them all, and of which envelope, attachments, message
and bytes; `hear` hands up or receipts exactly what passed, and answers an Error to the rest.
Over the runs of a far end, every message handed up passed.
-/

namespace As4

open Delivery (run)
open Multipart (Bytes)

/-- The POST passed every gate.  All that is asked is asked of one envelope, one list of
attachments, one message and one payload: those the body was read into. -/
structure Passed (L : Estate) (t : As4Transport) (now : Moment) (request : Request)
    (envelope : String) (attachments : Attachments) (m : UserMessage) (bytes : Bytes) :
    Prop where
  carries : Carries L request envelope attachments
  verified : t.receipting.signer.verify now envelope attachments = .ok ()
  read : UserMessage.fromEnvelope L envelope = .ok m
  attached : attachments.find? (fun a => a.1 == m.payloadCid) = some (m.payloadCid, bytes)
  addressed : m.toParty = t.template.fromParty
  checked : ∀ check, t.check = some check → check now m bytes = .ok ()

variable {L : Estate} {t : As4Transport} {now : Moment} {request : Request} {peer : SocketAddr}

/-! ## Reading -/

/-- A request is read as a message and its payload where it is a POST whose body unpacks,
the signature verifies over what was unpacked, the message reads off that envelope, and its
payload is among those attachments. -/
theorem unpack_eq_ok_iff {m : UserMessage} {bytes : Bytes} :
    t.unpack L now request = .ok (m, bytes) ↔
      ∃ envelope attachments, Carries L request envelope attachments ∧
        t.receipting.signer.verify now envelope attachments = .ok () ∧
        UserMessage.fromEnvelope L envelope = .ok m ∧
        attachments.find? (fun a => a.1 == m.payloadCid) = some (m.payloadCid, bytes) := by
  constructor
  · intro h
    have hmethod : request.method = "POST" := by
      by_contra hne
      rw [As4Transport.unpack, if_pos hne] at h
      cases h
    cases hbody : Mime.unpack L ((L.headerValue request.headers "Content-Type").getD "")
        request.body with
    | error e =>
      rw [t.unpack_of_error now hmethod hbody] at h
      cases h
    | ok body =>
      obtain ⟨envelope, attachments⟩ := body
      have hcarries : Carries L request envelope attachments := ⟨hmethod, hbody⟩
      rw [t.unpack_of_carries now hcarries] at h
      obtain ⟨_, hverify, h⟩ := bind_eq_ok h
      obtain ⟨read, hread, h⟩ := bind_eq_ok h
      obtain ⟨rfl, hfind⟩ := payloadOf_eq_ok_iff.mp h
      exact ⟨envelope, attachments, hcarries, hverify, hread, hfind⟩
  · rintro ⟨envelope, attachments, hcarries, hverify, hread, hfind⟩
    rw [t.unpack_of_carries now hcarries, hverify, ok_bind, hread, ok_bind]
    exact payloadOf_eq_ok_iff.mpr ⟨rfl, hfind⟩

/-- What is read and admitted is what passed. -/
theorem passed_iff {m : UserMessage} {bytes : Bytes} :
    (∃ envelope attachments, Passed L t now request envelope attachments m bytes) ↔
      t.unpack L now request = .ok (m, bytes) ∧ t.admits L now m bytes = .ok () := by
  rw [unpack_eq_ok_iff, t.admits_eq_ok L]
  constructor
  · rintro ⟨envelope, attachments, h⟩
    exact ⟨⟨envelope, attachments, h.carries, h.verified, h.read, h.attached⟩, h.addressed,
      h.checked⟩
  · rintro ⟨⟨envelope, attachments, hcarries, hverify, hread, hfind⟩, hto, hcheck⟩
    exact ⟨envelope, attachments, hcarries, hverify, hread, hfind, hto, hcheck⟩

/-! ## Hearing -/

/-- What becomes of a POST that passed: it is handed up with the bytes that were checked
where its id is new, and receipted where it is not. -/
inductive LetThrough (L : Estate) (t : As4Transport) (now : Moment) (request : Request)
    (peer : SocketAddr) (m : UserMessage) (bytes : Bytes) : Hearing → Prop where
  | handedUp (hnew : m.messageId ∉ t.receipting.ids) :
      LetThrough L t now request peer m bytes
        (.Waiting (.ok (some (m, originOf request peer m, bytes, ⟨request, peer⟩))))
  | receipted {signed : String} (hseen : m.messageId ∈ t.receipting.ids)
      (hsign : t.receipting.signer.sign now (Signal.receipt L now m) [] = .ok signed) :
      LetThrough L t now request peer m bytes (.Answered (.ok none) (soap L now 200 signed))

/-- What becomes of any other POST: an Error is answered; or the bare `500`, to a message
that passed and is remembered and whose Receipt could not be signed. -/
inductive HeldBack (L : Estate) (t : As4Transport) (now : Moment) (request : Request) :
    Hearing → Prop where
  | refused (refTo : Option String) (kind : String) (e : TransportError) :
      HeldBack L t now request (.Answered (.error e)
        (soap L now (if e.retryable then 503 else 400)
          (Signal.error L now refTo (if e.retryable then other else kind) e.message)))
  | unsigned {envelope : String} {attachments : Attachments} {m : UserMessage} {bytes : Bytes}
      {e : TransportError} (hpassed : Passed L t now request envelope attachments m bytes)
      (hseen : m.messageId ∈ t.receipting.ids)
      (hsign : t.receipting.signer.sign now (Signal.receipt L now m) [] = .error e) :
      HeldBack L t now request (.Answered (.error e) (Response.new 500))

/-- What is taken for a User Message passed every gate, and is handed up or receipted. -/
theorem letThrough_of_taken (h : takenForMessage (t.hear L now request peer)) :
    ∃ envelope attachments m bytes, Passed L t now request envelope attachments m bytes ∧
      LetThrough L t now request peer m bytes (t.hear L now request peer) := by
  have hh := t.hears L now request peer
  generalize t.hear L now request peer = heard at hh h
  cases hh with
  | unread _ => exact absurd h (refusal_status L _ _ _ _)
  | unadmitted _ _ => exact absurd h (refusal_status L _ _ _ _)
  | again hunpack hadmits hseen hreceipt =>
    obtain ⟨envelope, attachments, hpassed⟩ := passed_iff.mpr ⟨hunpack, hadmits⟩
    obtain ⟨signed, hsign, rfl⟩ := Receipting.receipt_eq_ok.mp hreceipt
    exact ⟨envelope, attachments, _, _, hpassed, .receipted hseen hsign⟩
  | unsigned _ _ _ _ => exact absurd h unsigned_status
  | new hunpack hadmits hnew =>
    obtain ⟨envelope, attachments, hpassed⟩ := passed_iff.mpr ⟨hunpack, hadmits⟩
    exact ⟨envelope, attachments, _, _, hpassed, .handedUp hnew⟩

/-- What is not taken for a User Message is answered an Error or the bare `500`. -/
theorem heldBack_of_not_taken (h : ¬ takenForMessage (t.hear L now request peer)) :
    HeldBack L t now request (t.hear L now request peer) := by
  have hh := t.hears L now request peer
  generalize t.hear L now request peer = heard at hh h
  cases hh with
  | unread _ => exact .refused _ _ _
  | unadmitted _ _ => exact .refused _ _ _
  | again _ _ _ hreceipt =>
    obtain ⟨signed, -, rfl⟩ := Receipting.receipt_eq_ok.mp hreceipt
    exact absurd rfl h
  | unsigned hunpack hadmits hseen hreceipt =>
    obtain ⟨envelope, attachments, hpassed⟩ := passed_iff.mpr ⟨hunpack, hadmits⟩
    exact .unsigned hpassed hseen (Receipting.receipt_eq_error.mp hreceipt)
  | new _ _ _ => exact absurd trivial h

/-- A POST that waits or is answered a Receipt passed every gate, with the message and the
bytes it is handed up with; every other POST is answered an Error or the bare `500`, and
nothing of it is handed up. -/
theorem hear_gated (L : Estate) (t : As4Transport) (now : Moment) (request : Request)
    (peer : SocketAddr) :
    (takenForMessage (t.hear L now request peer) ∧
      ∃ envelope attachments m bytes, Passed L t now request envelope attachments m bytes ∧
        LetThrough L t now request peer m bytes (t.hear L now request peer)) ∨
    (¬ takenForMessage (t.hear L now request peer) ∧
      HeldBack L t now request (t.hear L now request peer)) := by
  by_cases htaken : takenForMessage (t.hear L now request peer)
  · exact .inl ⟨htaken, letThrough_of_taken htaken⟩
  · exact .inr ⟨htaken, heldBack_of_not_taken htaken⟩

/-! ## Whole runs -/

/-- The message was handed up of a POST that passed every gate, with the payload that
passed. -/
def HandUp.OfPassed (L : Estate) (t : As4Transport) (u : HandUp) : Prop :=
  ∃ now envelope attachments, Passed L t now u.arrived.sender.request envelope attachments
    u.arrived.answered u.arrived.bytes

/-- What is handed up by a step of a far end was handed up before or passed every gate. -/
theorem Steps.ofPassed {ids : List String} {s s' : FarEnd} {e : Event} {told : Told}
    {answer : Option Response} (h : Steps L s e s' told answer)
    (ht : s.transport = t.remembering ids) (hs : ∀ u ∈ s.handed, u.OfPassed L t) :
    ∀ u ∈ s'.handed, u.OfPassed L t := by
  -- A verdict changes nothing of what arrived.
  have hset : ∀ k arrived v, s.handed[k]? = some ⟨arrived, none⟩ →
      ∀ u ∈ s.handed.set k ⟨arrived, v⟩, u.OfPassed L t := by
    intro k arrived v hk u hu
    rcases List.mem_or_eq_of_mem_set hu with hu | rfl
    · exact hs u hu
    · exact hs ⟨arrived, none⟩ (List.mem_of_getElem? hk)
  have hnew : ∀ {now request m bytes}, s.transport.unpack L now request = .ok (m, bytes) →
      s.transport.admits L now m bytes = .ok () →
      ∃ now envelope attachments, Passed L t now request envelope attachments m bytes := by
    intro now request m bytes hunpack hadmits
    rw [ht] at hunpack hadmits
    exact ⟨now, passed_iff.mpr ⟨hunpack, hadmits⟩⟩
  cases h with
  | handedUp hunpack hadmits _ =>
    intro u hu
    rcases List.mem_append.mp hu with hu | hu
    · exact hs u hu
    · rw [List.mem_singleton.mp hu]
      exact hnew hunpack hadmits
  | receipted hwaits _ => exact hset _ _ _ hwaits
  | unsigned hwaits _ => exact hset _ _ _ hwaits
  | declined hwaits _ => exact hset _ _ _ hwaits
  | served hserves =>
    intro u hu
    rcases List.mem_append.mp hu with hbefore | hserved
    · exact hs u hbefore
    · cases hserves with
      | refused _ => exact absurd hserved List.not_mem_nil
      | again _ _ _ _ => exact absurd hserved List.not_mem_nil
      | unsigned _ _ _ => exact absurd hserved List.not_mem_nil
      | accepted hunpack hadmits _ _ =>
        rw [List.mem_singleton.mp hserved]
        exact hnew hunpack hadmits
  | failed => exact hs
  | answered _ _ => exact hs
  | nothing _ => exact hs
  | broken => exact hs

/-- Every message that a far end has handed up, over any run, passed every gate. -/
theorem ofPassed_run (es : List Event) :
    ∀ u ∈ (run (FarEnd.step L) (.fresh t) es).handed, u.OfPassed L t := by
  have hfresh : (∃ ids, (FarEnd.fresh t).transport = t.remembering ids) ∧
      ∀ u ∈ (FarEnd.fresh t).handed, u.OfPassed L t :=
    ⟨⟨t.receipting.ids, rfl⟩, fun u hu => absurd hu List.not_mem_nil⟩
  refine (Delivery.run_invariant (fun s : FarEnd => (∃ ids, s.transport = t.remembering ids) ∧
    ∀ u ∈ s.handed, u.OfPassed L t) ?_ hfresh es).2
  rintro s e ⟨⟨ids, ht⟩, hs⟩
  have hstep := steps (L := L) s e
  obtain ⟨ids', hids'⟩ := hstep.transport_eq
  refine ⟨⟨ids', ?_⟩, hstep.ofPassed ht hs⟩
  rw [hids', ht, remembering_remembering]

end As4
