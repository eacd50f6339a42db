import XmipAs4.Reference.Bench

/-!
# Signals that are posted

What `hear` makes of a POST whose envelope is a Signal's.  An Error is always refused:
there is no User Message in it.  A Receipt holds a copy of the message it answers, and the
scan for a User Message finds it there; so a Receipt is refused unless everything `unpack`
and `admits` ask of a User Message holds of the copy.
-/

namespace As4

open Multipart (Bytes)

/-- The POST was taken for a User Message: it waits for a verdict, or is answered `200`. -/
def takenForMessage : Hearing → Prop
  | .Waiting _ => True
  | .Answered _ answer => answer.status = 200

/-- All that `hear` asks of a User Message holds of the copy that a Receipt posted with the
attachments carries: the signature verifies, the copy names itself, its service and its
action, its payload is attached, it is for this party, the check takes it, and where its id
is remembered the Receipt for it can be signed. -/
structure Mistakable (L : Estate) (t : As4Transport) (now : Moment) (envelope : String)
    (attachments : Attachments) (m : UserMessage) (bytes : Bytes) : Prop where
  verified : t.receipting.signer.verify now envelope attachments = .ok ()
  named : m.messageId ≠ "" ∧ m.service ≠ "" ∧ m.action ≠ ""
  attached : (attachments.find? fun a => a.1 == withoutCid m.payloadCid).map Prod.snd = some bytes
  addressed : m.toParty = t.template.fromParty
  checked : ∀ check, t.check = some check → check now m.readBack bytes = .ok ()
  signs : t.receipting.seen m.messageId = true →
    ∃ signed, t.receipting.signer.sign now (Signal.receipt L now m.readBack) [] = .ok signed

variable {L : Estate} {t : As4Transport} {now : Moment} {request : Request} {peer : SocketAddr}

/-- A POST is taken for a User Message where it is read and admitted, and its Receipt can be
signed if its id is remembered. -/
theorem takenForMessage_hear_iff :
    takenForMessage (t.hear L now request peer) ↔
      ∃ m bytes, t.unpack L now request = .ok (m, bytes) ∧ t.admits L now m bytes = .ok () ∧
        (t.receipting.seen m.messageId = true → ∃ a, t.receipting.receipt L now m = .ok a) := by
  constructor
  · intro htaken
    have hh := t.hears L now request peer
    generalize t.hear L now request peer = h at hh htaken
    cases hh with
    | unread _ => exact absurd htaken (refusal_status L _ _ _ _)
    | unadmitted _ _ => exact absurd htaken (refusal_status L _ _ _ _)
    | again hunpack hadmits hseen hreceipt => exact ⟨_, _, hunpack, hadmits, fun _ => ⟨_, hreceipt⟩⟩
    | unsigned hunpack hadmits hseen hreceipt => exact absurd htaken unsigned_status
    | new hunpack hadmits hnew =>
      refine ⟨_, _, hunpack, hadmits, ?_⟩
      intro hseen
      exact absurd (t.receipting.seen_iff.mp hseen) hnew
  · rintro ⟨m, bytes, hunpack, hadmits, hsign⟩
    by_cases hseen : m.messageId ∈ t.receipting.ids
    · obtain ⟨a, ha⟩ := hsign (t.receipting.seen_iff.mpr hseen)
      have hagain : t.hear L now request peer = .Answered (.ok none) a :=
        (Hears.again hunpack hadmits hseen ha).eq_hear
      rw [hagain]
      obtain ⟨signed, -, rfl⟩ := Receipting.receipt_eq_ok.mp ha
      rfl
    · have hnew : t.hear L now request peer = _ := (Hears.new hunpack hadmits hseen).eq_hear
      rw [hnew]
      trivial

/-! ## Receipts and Errors -/

/-- What is read of a Receipt that is posted: the copy in it, where the signature verifies,
the copy names what must be named and its payload is attached. -/
theorem unpack_receipt_iff (hX : L.xml.Lawful) {written : Moment} {m read : UserMessage}
    {attachments : Attachments} {bytes : Bytes}
    (hcarries : Carries L request (Signal.receipt L written m) attachments) :
    t.unpack L now request = .ok (read, bytes) ↔
      t.receipting.signer.verify now (Signal.receipt L written m) attachments = .ok () ∧
      (m.messageId ≠ "" ∧ m.service ≠ "" ∧ m.action ≠ "") ∧ read = m.readBack ∧
      (attachments.find? fun a => a.1 == withoutCid m.payloadCid).map Prod.snd = some bytes := by
  have hread : UserMessage.fromEnvelope L (Signal.receipt L written m) = _ :=
    (UserMessage.fromEnvelope_of_content (UserMessage.content_receipt hX written m)).trans
      (m.fromElement_inner hX)
  rw [t.unpack_of_carries now hcarries]
  cases hverify : t.receipting.signer.verify now (Signal.receipt L written m) attachments with
  | error e => simp
  | ok u =>
    rw [ok_bind, hread]
    by_cases hid : m.messageId = ""
    · simp [hid]
    by_cases hservice : m.service = ""
    · simp [hid, hservice]
    by_cases haction : m.action = ""
    · simp [hid, hservice, haction]
    rw [if_neg hid, if_neg hservice, if_neg haction, ok_bind, payloadOf]
    have hcid : m.readBack.payloadCid = withoutCid m.payloadCid := rfl
    rw [hcid]
    cases (attachments.find? fun a => a.1 == withoutCid m.payloadCid).map Prod.snd with
    | none => simp
    | some b =>
      rw [okOr_some, ok_bind, Except.ok.injEq, Prod.mk.injEq, Option.some.injEq]
      constructor
      · rintro ⟨rfl, rfl⟩
        exact ⟨rfl, ⟨hid, hservice, haction⟩, rfl, rfl⟩
      · rintro ⟨-, -, rfl, rfl⟩
        exact ⟨rfl, rfl⟩

/-- A Receipt that is posted is taken for a User Message exactly where all that is asked of
one holds of the copy in it. -/
theorem takenForMessage_receipt_iff (hX : L.xml.Lawful) {written : Moment} {m : UserMessage}
    {attachments : Attachments}
    (hcarries : Carries L request (Signal.receipt L written m) attachments) :
    takenForMessage (t.hear L now request peer) ↔
      ∃ bytes, Mistakable L t now (Signal.receipt L written m) attachments m bytes := by
  rw [takenForMessage_hear_iff]
  constructor
  · rintro ⟨read, bytes, hunpack, hadmits, hsign⟩
    obtain ⟨hverify, hnamed, rfl, hattached⟩ := (unpack_receipt_iff hX hcarries).mp hunpack
    obtain ⟨hto, hcheck⟩ := (t.admits_eq_ok L).mp hadmits
    refine ⟨bytes, hverify, hnamed, hattached, hto, hcheck, ?_⟩
    intro hseen
    obtain ⟨a, ha⟩ := hsign hseen
    obtain ⟨signed, hsigned, -⟩ := Receipting.receipt_eq_ok.mp ha
    exact ⟨signed, hsigned⟩
  · rintro ⟨bytes, hm⟩
    refine ⟨m.readBack, bytes, ?_, ?_, ?_⟩
    · exact (unpack_receipt_iff hX hcarries).mpr ⟨hm.verified, hm.named, rfl, hm.attached⟩
    · exact (t.admits_eq_ok L).mpr ⟨hm.addressed, hm.checked⟩
    · intro hseen
      obtain ⟨signed, hsigned⟩ := hm.signs hseen
      exact ⟨_, Receipting.receipt_eq_ok.mpr ⟨signed, hsigned, rfl⟩⟩

/-- An Error that is posted is never taken for a User Message. -/
theorem not_takenForMessage_error (hX : L.xml.Lawful) {written : Moment}
    {refTo : Option String} {kind description : String} {attachments : Attachments}
    (hcarries : Carries L request (Signal.error L written refTo kind description) attachments) :
    ¬ takenForMessage (t.hear L now request peer) := by
  rw [takenForMessage_hear_iff]
  rintro ⟨read, bytes, hunpack, -⟩
  have hnone := UserMessage.content_error hX written refTo kind description
  rw [t.unpack_of_carries now hcarries, UserMessage.fromEnvelope, hnone, okOr_none, error_bind,
    error_bind] at hunpack
  obtain ⟨_, -, hunpack⟩ := bind_eq_ok hunpack
  cases hunpack

/-- No User Message's envelope is read as a Signal. -/
theorem fromEnvelope_userMessage (hX : L.xml.Lawful) (m : UserMessage) :
    Signal.fromEnvelope L (m.envelope L) =
      .error (L.protocolError "an answer with no SignalMessage in it") := by
  rw [Signal.fromEnvelope, Signal.content_envelope hX, okOr_none, error_bind]

/-- Signals and User Messages, each taken for the other: an Error never is, a User Message
never is, and a Receipt is exactly where all that is asked of a User Message holds of the
copy it carries. -/
theorem signal_mistaken_iff (hX : L.xml.Lawful) :
    (∀ (t : As4Transport) (now written : Moment) (request : Request) (peer : SocketAddr)
      (m : UserMessage) (attachments : Attachments),
      Carries L request (Signal.receipt L written m) attachments →
      (¬ takenForMessage (t.hear L now request peer) ↔
        ¬ ∃ bytes, Mistakable L t now (Signal.receipt L written m) attachments m bytes)) ∧
    (∀ (t : As4Transport) (now written : Moment) (request : Request) (peer : SocketAddr)
      (refTo : Option String) (kind description : String) (attachments : Attachments),
      Carries L request (Signal.error L written refTo kind description) attachments →
      ¬ takenForMessage (t.hear L now request peer)) ∧
    ∀ m : UserMessage, ∃ e, Signal.fromEnvelope L (m.envelope L) = .error e := by
  refine ⟨?_, ?_, ?_⟩
  · intro t now written request peer m attachments hcarries
    exact not_congr (takenForMessage_receipt_iff hX hcarries)
  · intro t now written request peer refTo kind description attachments hcarries
    exact not_takenForMessage_error hX hcarries
  · intro m
    exact ⟨_, fromEnvelope_userMessage hX m⟩

/-! ## Signals on the bench -/

/-- The Receipt of the order, posted to the seller with the order's payload attached. -/
def receiptRequest : Request :=
  packed bench (moment 0) ⟨"/msh", "as4://bench/msh"⟩ (Signal.receipt bench (moment 0) order)
    [(order.payloadCid, goods)]

/-- There is no mark in the information of a signal about the order. -/
theorem unmarked_info : unmarked (infoForest (moment 0) (some order.messageId)) = true := by
  decide +kernel

/-- The request carries the Receipt and the payload. -/
theorem receiptRequest_carries :
    Carries bench receiptRequest (Signal.receipt bench (moment 0) order)
      [(order.payloadCid, goods)] := by
  have hinner : unmarked (receiptInner (moment 0) order) = true :=
    unmarked_append unmarked_info (unmarked_node (by decide) unmarked_order)
  rw [receiptRequest, Signal.receipt_eq bench_lawful.xml]
  exact carries_unmarked (unmarked_wrapForest (unmarked_node (by decide) hinner)) (by simp)
    (by decide) 0 _

/-- An Error about the order, posted to the seller with the order's payload attached. -/
def errorRequest : Request :=
  packed bench (moment 0) ⟨"/msh", "as4://bench/msh"⟩
    (Signal.error bench (moment 0) (some order.messageId) other sendAgain)
    [(order.payloadCid, goods)]

/-- The request carries the Error and the payload. -/
theorem errorRequest_carries :
    Carries bench errorRequest
      (Signal.error bench (moment 0) (some order.messageId) other sendAgain)
      [(order.payloadCid, goods)] := by
  have herror : unmarked (node "Error" [("category", "Content"), ("errorCode", other),
      ("origin", "ebMS"), ("severity", "failure")]
        (leaf "Description" [("xml:lang", "en")] sendAgain)) = true := by decide +kernel
  have hinner : unmarked (errorInner (moment 0) (some order.messageId) other sendAgain) = true :=
    unmarked_append unmarked_info herror
  rw [errorRequest, Signal.error_eq bench_lawful.xml]
  exact carries_unmarked (unmarked_wrapForest (unmarked_node (by decide) hinner)) (by simp)
    (by decide) 0 _

/-- On the bench each of the three is settled for the order. -/
theorem signal_mistaken_iff_order :
    (¬ takenForMessage (seller.hear bench (moment 1) receiptRequest "peer") ↔
      ¬ ∃ bytes, Mistakable bench seller (moment 1) (Signal.receipt bench (moment 0) order)
        [(order.payloadCid, goods)] order bytes) ∧
    ¬ takenForMessage (seller.hear bench (moment 1) errorRequest "peer") ∧
    ∃ e, Signal.fromEnvelope bench (order.envelope bench) = .error e :=
  ⟨(signal_mistaken_iff bench_lawful.xml).1 seller _ _ _ _ order _ receiptRequest_carries,
    (signal_mistaken_iff bench_lawful.xml).2.1 seller _ _ _ _ _ _ _ _ errorRequest_carries,
    (signal_mistaken_iff bench_lawful.xml).2.2 order⟩

/-- The seller hands the Receipt up as the order. -/
theorem receipt_handed_up :
    Carries bench receiptRequest (Signal.receipt bench (moment 0) order)
      [(order.payloadCid, goods)] ∧
    seller.hear bench (moment 1) receiptRequest "peer" = .Waiting (.ok (some (order,
      originOf receiptRequest "peer" order, goods, ⟨receiptRequest, "peer"⟩))) := by
  have hback : order = order.readBack := by decide
  have hread : seller.unpack bench (moment 1) receiptRequest = .ok (order, goods) :=
    (unpack_receipt_iff bench_lawful.xml receiptRequest_carries).mpr
      ⟨rfl, by decide, hback, by decide⟩
  refine ⟨receiptRequest_carries, ?_⟩
  exact (Hears.new hread rfl (List.not_mem_nil)).eq_hear

end As4
