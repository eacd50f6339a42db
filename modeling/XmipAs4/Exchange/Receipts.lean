import XmipAs4.Exchange.FarEnd
import XmipAs4.Reference.Bench

/-!
# Receipts and what a sender makes of them

`verify_receipt` on each kind of answer a far end gives.  It takes an answer for a delivery
only where the answer is a signed Receipt naming the message sent, which over the runs of a
far end means that a message of that id was accepted and its Receipt signed; and of any
other answer it says whether to send again, as the far end means it.
-/

namespace As4

open Delivery (run)
open Multipart (Bytes)

/-! ## What is read of an answer -/

section Verify

variable {L : Estate} {t : As4Transport} {now later : Moment} {sent : UserMessage}

/-- An answer that is not `2xx` is never a delivery, and its status alone says whether to
send again. -/
theorem verifyReceipt_of_status {response : Response}
    (h : ¬ (200 ≤ response.status ∧ response.status < 300)) :
    ∃ text, t.verifyReceipt L later response sent = .error ⟨text, L.retryable response.status⟩ := by
  unfold As4Transport.verifyReceipt
  simp only
  rw [if_pos h]
  exact ⟨_, rfl⟩

variable (hL : L.Lawful)
include hL

/-- What is said of an answer made by `soap` depends on its status, on whether its envelope
verifies, and on the Signal read off it. -/
theorem verifyReceipt_soap (status : ℕ) (envelope : String) :
    t.verifyReceipt L later (soap L now status envelope) sent = .ok () ↔
      (200 ≤ status ∧ status < 300) ∧ t.receipting.signer.verify later envelope [] = .ok () ∧
        ∃ id, Signal.fromEnvelope L envelope = .ok (.Receipt sent.messageId id) := by
  have hbody := unpack_answer hL now status envelope
  have hstatus : (soap L now status envelope).status = status := rfl
  unfold As4Transport.verifyReceipt
  simp only
  rw [hbody, ok_bind, hstatus]
  by_cases h : 200 ≤ status ∧ status < 300
  · rw [if_neg (not_not.mpr h)]
    cases hv : t.receipting.signer.verify later envelope [] with
    | error e => simp
    | ok _ =>
      simp only [ok_bind, h, and_self, true_and]
      cases hs : Signal.fromEnvelope L envelope with
      | error e => simp
      | ok signal =>
        cases signal with
        | Receipt refTo id =>
          by_cases hid : refTo = sent.messageId
          · simp [hid]
          · simp [hid]
        | Error refTo kind description => simp
  · rw [if_pos h]
    simp [h]

/-- An Error is never taken for a delivery, whatever its status and its texts. -/
theorem verifyReceipt_error_ne (status : ℕ) (refTo : Option String) (kind description : String) :
    t.verifyReceipt L later (soap L now status (Signal.error L now refTo kind description)) sent ≠
      .ok () := by
  rw [Ne, verifyReceipt_soap hL]
  rintro ⟨-, -, id, hsignal⟩
  rw [Signal.fromEnvelope_error hL.xml] at hsignal
  cases hsignal

/-- A signed Receipt names the message it was made for. -/
theorem fromEnvelope_signed {r : Receipting} {m : UserMessage} {a : Response}
    (hsigner : r.signer.Leaves L "SignalMessage") (h : r.receipt L now m = .ok a) :
    ∃ signed, r.signer.sign now (Signal.receipt L now m) [] = .ok signed ∧
      a = soap L now 200 signed ∧
      Signal.fromEnvelope L signed = .ok (.Receipt m.messageId (nextId now)) := by
  obtain ⟨signed, hsigned, rfl⟩ := Receipting.receipt_eq_ok.mp h
  refine ⟨signed, hsigned, rfl, ?_⟩
  have hleft := hsigner now _ [] signed hsigned
  have hcontent := (hleft.trans (Signal.content_receipt hL.xml now m))
  rw [Signal.fromEnvelope_of_content hcontent, Signal.fromElement_receipt hL.xml]

/-- A signed Receipt is a delivery of the message it was made for, where it verifies, and of
no other. -/
theorem verifyReceipt_receipt {r : Receipting} {m : UserMessage} {a : Response}
    (hsigner : r.signer.Leaves L "SignalMessage") (h : r.receipt L now m = .ok a) :
    ∃ signed, r.signer.sign now (Signal.receipt L now m) [] = .ok signed ∧
      (t.verifyReceipt L later a sent = .ok () ↔
        t.receipting.signer.verify later signed [] = .ok () ∧ m.messageId = sent.messageId) := by
  obtain ⟨signed, hsigned, rfl, hsignal⟩ := fromEnvelope_signed hL hsigner h
  refine ⟨signed, hsigned, ?_⟩
  rw [verifyReceipt_soap hL, hsignal]
  constructor
  · rintro ⟨-, hverify, id, hid⟩
    rw [Except.ok.injEq, Signal.Receipt.injEq] at hid
    exact ⟨hverify, hid.1⟩
  · rintro ⟨hverify, hid⟩
    refine ⟨⟨by omega, by omega⟩, hverify, nextId now, ?_⟩
    rw [hid]

/-- A signed Receipt that is taken for a delivery was made for a message of the id sent. -/
theorem messageId_of_verify {r : Receipting} {m : UserMessage} {a : Response}
    (hsigner : r.signer.Leaves L "SignalMessage") (h : r.receipt L now m = .ok a)
    (hverify : t.verifyReceipt L later a sent = .ok ()) : m.messageId = sent.messageId := by
  obtain ⟨signed, -, hiff⟩ : ∃ signed, _ ∧ (t.verifyReceipt L later a sent = .ok () ↔ _) :=
    verifyReceipt_receipt hL hsigner h
  exact (hiff.mp hverify).2

end Verify

/-! ## No false Receipt -/

/-- The ways a far end answers a signed Receipt for a message: to the verdict that accepted
it, and at once to a message taken before or accepted at once. -/
inductive Receipts (L : Estate) (s : FarEnd) : Event → UserMessage → Response → Prop where
  | verdict {now : Moment} {k : ℕ} {reply : Response → Result Unit} {arrived : Arrived}
      {a : Response} (hwaits : s.handed[k]? = some ⟨arrived, none⟩)
      (hreceipt : s.transport.receipting.receipt L now arrived.answered = .ok a) :
      Receipts L s (.judge now k .Accepted reply) arrived.answered a
  | again {now : Moment} {request : Request} {peer : SocketAddr} {m : UserMessage}
      {bytes : Bytes} {a : Response} (hunpack : s.transport.unpack L now request = .ok (m, bytes))
      (hseen : m.messageId ∈ s.transport.receipting.ids)
      (hreceipt : s.transport.receipting.receipt L now m = .ok a) :
      Receipts L s (.take now (.posted request peer)) m a
  | served {now : Moment} {request : Request} {peer : SocketAddr} {written : Result Unit}
      {m : UserMessage} {bytes : Bytes} {a : Response}
      (hunpack : s.transport.unpack L now request = .ok (m, bytes))
      (hadmits : s.transport.admits L now m bytes = .ok ())
      (hreceipt : s.transport.receipting.receipt L now m = .ok a) :
      Receipts L s (.accept now (.read request peer written)) m a

section NoFalse

variable {L : Estate} (hL : L.Lawful)
include hL

/-- An answer that is taken for a delivery is a signed Receipt for a message of the id, and
the id is remembered after it. -/
theorem receipts_of_verify {s s' : FarEnd} {e : Event} {told : Told} {answer : Response}
    (h : Steps L s e s' told (some answer))
    (hsigner : s.transport.receipting.signer.Leaves L "SignalMessage") {near : As4Transport}
    {later : Moment} {sent : UserMessage}
    (hverify : near.verifyReceipt L later answer sent = .ok ()) :
    ∃ m, Receipts L s e m answer ∧ m.messageId = sent.messageId ∧
      m.messageId ∈ s'.transport.receipting.ids := by
  have hbare : ∀ n, ¬ (200 ≤ n ∧ n < 300) →
      near.verifyReceipt L later (Response.new n) sent ≠ .ok () := by
    intro n hn hok
    obtain ⟨text, herror⟩ : ∃ text, near.verifyReceipt L later (Response.new n) sent =
        .error ⟨text, L.retryable n⟩ := verifyReceipt_of_status hn
    rw [herror] at hok
    cases hok
  have hnamed : ∀ {now m a}, s.transport.receipting.receipt L now m = .ok a → a = answer →
      m.messageId = sent.messageId := by
    rintro now m a hreceipt rfl
    exact messageId_of_verify hL hsigner hreceipt hverify
  cases h with
  | answered hears hsaid =>
    cases hears with
    | unread _ => exact absurd hverify (verifyReceipt_error_ne hL _ _ _ _)
    | unadmitted _ _ => exact absurd hverify (verifyReceipt_error_ne hL _ _ _ _)
    | again hunpack _ hseen hreceipt =>
      exact ⟨_, .again hunpack hseen hreceipt, hnamed hreceipt rfl, hseen⟩
    | unsigned _ _ _ _ => exact absurd hverify (hbare 500 (by omega))
  | receipted hwaits hreceipt =>
    exact ⟨_, .verdict hwaits hreceipt, hnamed hreceipt rfl, Delivery.mem_remember_self ..⟩
  | declined _ _ => exact absurd hverify (verifyReceipt_error_ne hL _ _ _ _)
  | served hserves =>
    cases hserves with
    | refused _ => exact absurd hverify (verifyReceipt_error_ne hL _ _ _ _)
    | again hunpack hadmits hseen hreceipt =>
      exact ⟨_, .served hunpack hadmits hreceipt, hnamed hreceipt rfl, hseen⟩
    | unsigned _ _ _ => exact absurd hverify (hbare 500 (by omega))
    | accepted hunpack hadmits _ hreceipt =>
      exact ⟨_, .served hunpack hadmits hreceipt, hnamed hreceipt rfl,
        Delivery.mem_remember_self ..⟩

/-- There is no false Receipt.  Whichever answer of a far end's run a sender is handed, and
whenever: if it takes it for the delivery of what it sent, the answer is a signed Receipt for
a message of that id, and by that step a message of that id was accepted with its Receipt
signed. -/
theorem no_false_receipt {t : As4Transport} (hids : t.receipting.ids = [])
    (hsigner : t.receipting.signer.Leaves L "SignalMessage") (es : List Event) :
    ∀ pre e post, es = pre ++ e :: post → ∀ answer,
      ((run (FarEnd.step L) (.fresh t) pre).step L e).2.2 = some answer →
      ∀ (near : As4Transport) (later : Moment) (sent : UserMessage),
        near.verifyReceipt L later answer sent = .ok () →
        (∃ m, Receipts L (run (FarEnd.step L) (.fresh t) pre) e m answer ∧
          m.messageId = sent.messageId) ∧
        ∃ u ∈ (run (FarEnd.step L) (.fresh t) (pre ++ [e])).handed,
          u.messageId = sent.messageId ∧ u.Receipted := by
  intro pre e post _ answer hanswer near later sent hverify
  have hstep := steps (L := L) (run (FarEnd.step L) (.fresh t) pre) e
  rw [hanswer] at hstep
  have hsame := run_transport (L := L) (.fresh t) pre
  have hsigner' : (run (FarEnd.step L) (.fresh t) pre).transport.receipting.signer.Leaves L
      "SignalMessage" := by
    rw [hsame]
    exact hsigner
  obtain ⟨m, hreceipts, hid, hmem⟩ := receipts_of_verify hL hstep hsigner' hverify
  refine ⟨⟨m, hreceipts, hid⟩, ?_⟩
  have hvouched := vouched_run (L := L) hids (pre ++ [e])
  rw [Delivery.run_append] at hvouched ⊢
  obtain ⟨u, hu, humessage, hureceipted⟩ := hvouched m.messageId hmem
  exact ⟨u, hu, humessage.trans hid, hureceipted⟩

end NoFalse

/-! ## The order receipted on the bench -/

/-- The order as it arrives at the seller. -/
def arrivedOrder : Arrived :=
  ⟨originOf orderRequest "peer" order, goods, ⟨orderRequest, "peer"⟩, order⟩

/-- The order is taken. -/
def takeOrder (tick : ℕ) : Event :=
  .take (moment tick) (.posted orderRequest "peer")

/-- The `k`-th message handed up is accepted. -/
def acceptOrder (tick k : ℕ) : Event :=
  .judge (moment tick) k .Accepted (fun _ => .ok ())

/-- A seller that has not seen the order hands it up. -/
theorem step_takeOrder {s : FarEnd} (tick : ℕ)
    (hverify : ∀ now envelope attachments,
      s.transport.receipting.signer.verify now envelope attachments = .ok ())
    (hparty : s.transport.template = seller.template) (hcheck : s.transport.check = none)
    (hnew : order.messageId ∉ s.transport.receipting.ids) :
    s.step bench (takeOrder tick) = ({ s with handed := s.handed ++ [⟨arrivedOrder, none⟩] },
      .took (.ok (some (order, arrivedOrder))), none) := by
  have hto : order.toParty = s.transport.template.fromParty := by
    rw [hparty]
    rfl
  have hadmits : s.transport.admits bench (moment tick) order goods = .ok () :=
    s.transport.admits_unchecked bench hto hcheck
  exact step_take_new "peer" (unpack_order hverify (moment tick)) hadmits hnew

/-- The buyer takes the answer to the accepted order for its delivery, and it is one. -/
theorem no_false_receipt_order :
    ∃ answer, buyer.verifyReceipt bench (moment 3) answer order = .ok () ∧
      ∃ u ∈ (run (FarEnd.step bench) (.fresh seller) [takeOrder 1, acceptOrder 2 0]).handed,
        u.messageId = order.messageId ∧ u.Receipted := by
  have hreceipt : seller.receipting.receipt bench (moment 2) order =
      .ok (soap bench (moment 2) 200 (Signal.receipt bench (moment 2) order)) := rfl
  have htake : (FarEnd.fresh seller).step bench (takeOrder 1) = _ :=
    step_takeOrder 1 (fun _ _ _ => rfl) rfl rfl List.not_mem_nil
  have hstate : run (FarEnd.step bench) (.fresh seller) [takeOrder 1] =
      ⟨seller, [⟨arrivedOrder, none⟩]⟩ := by
    rw [Delivery.run_cons, Delivery.run_nil, htake]
    rfl
  have hwaits : (⟨seller, [⟨arrivedOrder, none⟩]⟩ : FarEnd).handed[0]? =
      some ⟨arrivedOrder, none⟩ := rfl
  have hjudge : FarEnd.step bench ⟨seller, [⟨arrivedOrder, none⟩]⟩ (acceptOrder 2 0) = _ :=
    step_judge_receipted _ hwaits hreceipt
  have hverify : buyer.verifyReceipt bench (moment 3)
      (soap bench (moment 2) 200 (Signal.receipt bench (moment 2) order)) order = .ok () := by
    obtain ⟨signed, -, hiff⟩ : ∃ signed, _ ∧ (buyer.verifyReceipt bench (moment 3) _ order =
      .ok () ↔ _) := verifyReceipt_receipt bench_lawful (unsigned_leaves bench _) hreceipt
    exact hiff.mpr ⟨rfl, rfl⟩
  refine ⟨_, hverify, ?_⟩
  refine (no_false_receipt bench_lawful (t := seller) rfl (unsigned_leaves bench _)
    [takeOrder 1, acceptOrder 2 0] [takeOrder 1] (acceptOrder 2 0) [] rfl _ ?_ buyer (moment 3)
    order hverify).2
  rw [hstate, hjudge]

end As4
