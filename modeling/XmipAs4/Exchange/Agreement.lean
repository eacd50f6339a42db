import XmipAs4.Exchange.Receipts

/-!
# Sending again

How one POST ends on the side that receives it, whichever way it is received, and what
`verify_receipt` says of the answer on the side that sent it: that the message was
delivered, that it should be sent again, or that it should not.
-/

namespace As4

open Multipart (Bytes)

/-! ## How a POST ends -/

/-- The ways a far end receives: by `accept_one`, or by `take_next` with a verdict given at
some later moment. -/
inductive Way where
  | acceptOne
  | takeNext (judged : Moment) (verdict : Verdict)

/-- How a POST that is answered ended. -/
inductive Ending where
  /-- A signed Receipt: accepted, or taken before. -/
  | receipted
  /-- The Receipt could not be signed. -/
  | unsigned
  | refusedAtReading (error : TransportError)
  | refused (why : Refusal)
  | failed

/-- The endings after which the far end wants the message again. -/
def Ending.again : Ending → Bool
  | receipted => false
  | unsigned => true
  | refusedAtReading e => e.retryable
  | refused _ => false
  | failed => true

/-- The endings after which the far end does not want the message again, and has not taken
it. -/
def Ending.final : Ending → Bool
  | receipted => false
  | unsigned => false
  | refusedAtReading e => !e.retryable
  | refused _ => true
  | failed => false

/-- The ending of a message whose Receipt is due. -/
def endingOf : Result Response → Ending
  | .ok _ => .receipted
  | .error _ => .unsigned

/-- How a POST ends: by what is read of it, by whether it is admitted and new, and by its
verdict.  There is none where a verdict's Receipt cannot be signed: nothing is answered. -/
def ending (L : Estate) (far : As4Transport) (way : Way) (now : Moment) (request : Request) :
    Option Ending :=
  match far.unpack L now request with
  | .error e => some (.refusedAtReading e)
  | .ok (m, bytes) =>
    match far.admits L now m bytes with
    | .error e => some (.refusedAtReading e)
    | .ok () =>
      if far.receipting.seen m.messageId then some (endingOf (far.receipting.receipt L now m))
      else
        match way with
        | .acceptOne => some (endingOf (far.receipting.receipt L now m))
        | .takeNext judged .Accepted =>
          match far.receipting.receipt L judged m with
          | .ok _ => some .receipted
          | .error _ => none
        | .takeNext _ (.Refused why) => some (.refused why)
        | .takeNext _ .Failed => some .failed

/-- What the far end puts on the wire for a POST, if it puts anything there. -/
def answerBy (L : Estate) (far : As4Transport) (way : Way) (now : Moment) (request : Request)
    (peer : SocketAddr) : Option Response :=
  match way with
  | .acceptOne => (far.acceptOne L now (.read request peer (.ok ()))).1.2
  | .takeNext judged verdict =>
    match far.takeNext L now (.posted request peer) with
    | (.ok (some (_, arrived)), _) =>
      (far.acknowledge L judged arrived (fun _ => .ok ()) verdict).1.2
    | (_, answer) => answer

/-- The answers an ending earns: their statuses, and whose Receipt it is. -/
inductive Earns (L : Estate) (far : As4Transport) (now : Moment) (request : Request) :
    Ending → Response → Prop where
  | receipted {judged : Moment} {m : UserMessage} {bytes : Bytes} {a : Response}
      (hunpack : far.unpack L now request = .ok (m, bytes))
      (hreceipt : far.receipting.receipt L judged m = .ok a) :
      Earns L far now request .receipted a
  | unsigned : Earns L far now request .unsigned (Response.new 500)
  | refusedAtReading {refTo : Option String} {kind : String} {e : TransportError} :
      Earns L far now request (.refusedAtReading e) (refusal L now refTo kind e)
  | refused {judged : Moment} {envelope : String} {why : Refusal} :
      Earns L far now request (.refused why) (soap L judged (L.refused why) envelope)
  | failed {judged : Moment} {envelope : String} :
      Earns L far now request .failed (soap L judged L.failed envelope)

variable {L : Estate} {far : As4Transport} {way : Way} {now : Moment} {request : Request}
  {peer : SocketAddr}

/-- What is answered at once is answered whichever way the POST is received. -/
theorem answerBy_answered {said : Result (Option Held)} {answer : Response}
    (h : far.hear L now request peer = .Answered said answer)
    (hsaid : ∀ held, said ≠ .ok (some held)) :
    answerBy L far way now request peer = some answer := by
  cases way with
  | acceptOne =>
    unfold answerBy As4Transport.acceptOne As4Transport.serve
    simp only
    rw [h]
  | takeNext judged verdict =>
    unfold answerBy As4Transport.takeNext
    simp only
    rw [h]
    cases said with
    | error e => rfl
    | ok held =>
      cases held with
      | none => rfl
      | some held => exact absurd rfl (hsaid held)

section New

variable {m : UserMessage} {bytes : Bytes}
  (hunpack : far.unpack L now request = .ok (m, bytes))
  (hadmits : far.admits L now m bytes = .ok ())
include hunpack hadmits

/-- A message taken before ends as its Receipt can be signed. -/
theorem ending_again (hseen : m.messageId ∈ far.receipting.ids) :
    ending L far way now request = some (endingOf (far.receipting.receipt L now m)) := by
  unfold ending
  rw [hunpack]
  simp only
  rw [hadmits]
  simp only
  rw [if_pos (far.receipting.seen_iff.mpr hseen)]

variable (hnew : m.messageId ∉ far.receipting.ids)
include hnew

/-- A new message accepted at once ends as its Receipt can be signed. -/
theorem ending_acceptOne :
    ending L far .acceptOne now request = some (endingOf (far.receipting.receipt L now m)) := by
  unfold ending
  rw [hunpack]
  simp only
  rw [hadmits]
  simp only
  rw [if_neg (fun h => hnew (far.receipting.seen_iff.mp h))]

/-- A new message that waits ends as its verdict says. -/
theorem ending_takeNext (judged : Moment) (verdict : Verdict) :
    ending L far (.takeNext judged verdict) now request =
      match verdict, far.receipting.receipt L judged m with
      | .Accepted, .ok _ => some .receipted
      | .Accepted, .error _ => none
      | .Refused why, _ => some (.refused why)
      | .Failed, _ => some .failed := by
  unfold ending
  rw [hunpack]
  simp only
  rw [hadmits]
  simp only
  rw [if_neg (fun h => hnew (far.receipting.seen_iff.mp h))]
  cases verdict with
  | Accepted =>
    simp only
    cases far.receipting.receipt L judged m <;> rfl
  | Refused why => rfl
  | Failed => rfl

/-- A new message that waits is answered as its verdict is. -/
theorem answerBy_takeNext (judged : Moment) (verdict : Verdict) :
    answerBy L far (.takeNext judged verdict) now request peer =
      (far.receipting.answer L judged m verdict).1.toOption := by
  have hhear : far.hear L now request peer = _ := (Hears.new hunpack hadmits hnew).eq_hear
  unfold answerBy As4Transport.takeNext As4Transport.acknowledge
  simp only
  rw [hhear]
  simp only
  generalize far.receipting.answer L judged m verdict = answered
  obtain ⟨answer, receipting⟩ := answered
  cases answer <;> rfl

/-- What a new message is answered is what its ending earns. -/
theorem earns_of_new {answer : Response}
    (h : answerBy L far way now request peer = some answer) :
    ∃ c, ending L far way now request = some c ∧ Earns L far now request c answer := by
  cases way with
  | acceptOne =>
    rw [ending_acceptOne hunpack hadmits hnew]
    have hhear : far.hear L now request peer = _ := (Hears.new hunpack hadmits hnew).eq_hear
    unfold answerBy As4Transport.acceptOne As4Transport.serve at h
    simp only at h
    rw [hhear] at h
    simp only at h
    cases hreceipt : far.receipting.receipt L now m with
    | ok a =>
      rw [Receipting.answer_accepted hreceipt, Option.some.injEq] at h
      subst h
      exact ⟨_, rfl, .receipted hunpack hreceipt⟩
    | error e =>
      rw [Receipting.answer_unsigned hreceipt, Option.some.injEq] at h
      subst h
      exact ⟨_, rfl, .unsigned⟩
  | takeNext judged verdict =>
    rw [answerBy_takeNext hunpack hadmits hnew] at h
    rw [ending_takeNext hunpack hadmits hnew]
    cases verdict with
    | Accepted =>
      cases hreceipt : far.receipting.receipt L judged m with
      | ok a =>
        rw [Receipting.answer_accepted hreceipt] at h
        cases h
        exact ⟨_, rfl, .receipted hunpack hreceipt⟩
      | error e =>
        rw [Receipting.answer_unsigned hreceipt] at h
        cases h
    | Refused why =>
      cases h
      exact ⟨_, rfl, .refused⟩
    | Failed =>
      cases h
      exact ⟨_, rfl, .failed⟩

end New

/-- What is answered is what the ending earns. -/
theorem earns_of_answer {answer : Response}
    (h : answerBy L far way now request peer = some answer) :
    ∃ c, ending L far way now request = some c ∧ Earns L far now request c answer := by
  have hh := far.hears L now request peer
  generalize hheard : far.hear L now request peer = heard at hh
  cases hh with
  | unread hunpack =>
    rw [answerBy_answered hheard (by simp), Option.some.injEq] at h
    subst h
    refine ⟨_, ?_, .refusedAtReading⟩
    unfold ending
    rw [hunpack]
  | unadmitted hunpack hadmits =>
    rw [answerBy_answered hheard (by simp), Option.some.injEq] at h
    subst h
    refine ⟨_, ?_, .refusedAtReading⟩
    unfold ending
    rw [hunpack]
    simp only
    rw [hadmits]
  | again hunpack hadmits hseen hreceipt =>
    rw [answerBy_answered hheard (by simp), Option.some.injEq] at h
    subst h
    refine ⟨_, ending_again hunpack hadmits hseen, ?_⟩
    rw [hreceipt]
    exact .receipted hunpack hreceipt
  | unsigned hunpack hadmits hseen hreceipt =>
    rw [answerBy_answered hheard (by simp), Option.some.injEq] at h
    subst h
    refine ⟨_, ending_again hunpack hadmits hseen, ?_⟩
    rw [hreceipt]
    exact .unsigned
  | new hunpack hadmits hnew => exact earns_of_new hunpack hadmits hnew h

/-! ## What the sender makes of it -/

/-- Each ending is told apart by the sender: a Receipt, an ending after which the far end
wants the message again, and one after which it does not. -/
theorem verify_of_earns (hL : L.Lawful) (hS : L.Statuses) {near : As4Transport}
    {sent : UserMessage} {c : Ending} {answer : Response} (later : Moment)
    (h : Earns L far now request c answer)
    (hsigner : far.receipting.signer.Leaves L "SignalMessage")
    (hread : ∀ m bytes, far.unpack L now request = .ok (m, bytes) →
      m.messageId = sent.messageId)
    (hverify : ∀ moment moment' envelope signed,
      far.receipting.signer.sign moment envelope [] = .ok signed →
        near.receipting.signer.verify moment' signed [] = .ok ()) :
    (near.verifyReceipt L later answer sent = .ok () ∧ c = .receipted) ∨
    ∃ text retryable, near.verifyReceipt L later answer sent = .error ⟨text, retryable⟩ ∧
      c.again = retryable ∧ c.final = !retryable := by
  -- An answer that is not `2xx` is classed by its status alone.
  have hclassed : ∀ status retryable, L.retryable status = retryable →
      ¬ (200 ≤ status ∧ status < 300) → ∀ r : Response, r.status = status → ∃ text,
        near.verifyReceipt L later r sent = .error ⟨text, retryable⟩ := by
    rintro status retryable rfl hrange r rfl
    exact verifyReceipt_of_status hrange
  cases h with
  | receipted hunpack hreceipt =>
    obtain ⟨signed, hsigned, hiff⟩ : ∃ signed, _ ∧ (near.verifyReceipt L later answer sent =
      .ok () ↔ _) := verifyReceipt_receipt hL hsigner hreceipt
    exact .inl ⟨hiff.mpr ⟨hverify _ _ _ _ hsigned, hread _ _ hunpack⟩, rfl⟩
  | unsigned =>
    obtain ⟨text, htext⟩ := hclassed 500 true (hS.retryable_of 500 (by decide)) (by omega)
      (Response.new 500) rfl
    exact .inr ⟨text, true, htext, rfl, rfl⟩
  | @refusedAtReading refTo kind e =>
    obtain ⟨text, htext⟩ := hclassed _ _ (retryable_refusal hS now refTo kind e)
      (refusal_range L now refTo kind e) (refusal L now refTo kind e) rfl
    exact .inr ⟨text, e.retryable, htext, rfl, rfl⟩
  | @refused judged envelope why =>
    have hmem := hS.refused_mem why
    have hstatus : L.retryable (L.refused why) = false := by
      apply hS.final_of
      simp only [List.mem_cons, List.not_mem_nil, or_false] at hmem ⊢
      exact .inr hmem
    have hrange : ¬ (200 ≤ L.refused why ∧ L.refused why < 300) := by
      simp only [List.mem_cons, List.not_mem_nil, or_false] at hmem
      omega
    obtain ⟨text, htext⟩ := hclassed _ _ hstatus hrange (soap L judged (L.refused why) envelope) rfl
    exact .inr ⟨text, false, htext, rfl, rfl⟩
  | @failed judged envelope =>
    have hstatus : L.retryable L.failed = true := by
      rw [hS.failed_eq]
      exact hS.retryable_of 503 (by decide)
    have hrange : ¬ (200 ≤ L.failed ∧ L.failed < 300) := by
      rw [hS.failed_eq]
      omega
    obtain ⟨text, htext⟩ := hclassed _ _ hstatus hrange (soap L judged L.failed envelope) rfl
    exact .inr ⟨text, true, htext, rfl, rfl⟩

/-- Sender and receiver agree on whether to send again.  When the far end's answer to a post
arrives, `verify_receipt` takes it for the delivery exactly where the POST ended with a
signed Receipt, asks for the message again exactly where it ended so that the far end wants
it again, and does not exactly where it ended for good. -/
theorem sender_agrees (hL : L.Lawful) (hS : L.Statuses) {near : As4Transport} {posted : Moment}
    {target : String} {bytes : Bytes} {key : Option String} {sent : UserMessage}
    {signed : String} (hpost : Posts L near posted target bytes key sent signed request)
    (hnear : near.receipting.signer.Leaves L "UserMessage")
    (hfar : far.receipting.signer.Leaves L "SignalMessage")
    (hverify : ∀ moment moment' envelope signed,
      far.receipting.signer.sign moment envelope [] = .ok signed →
        near.receipting.signer.verify moment' signed [] = .ok ())
    {answer : Response} (hanswer : answerBy L far way now request peer = some answer)
    (later : Moment) :
    (near.verifyReceipt L later answer sent = .ok () ↔
      ending L far way now request = some .receipted) ∧
    ((∃ e, near.verifyReceipt L later answer sent = .error e ∧ e.retryable = true) ↔
      ∃ c, ending L far way now request = some c ∧ c.again = true) ∧
    ((∃ e, near.verifyReceipt L later answer sent = .error e ∧ e.retryable = false) ↔
      ∃ c, ending L far way now request = some c ∧ c.final = true) := by
  obtain ⟨c, hending, hearns⟩ := earns_of_answer hanswer
  have hread : ∀ m b, far.unpack L now request = .ok (m, b) → m.messageId = sent.messageId := by
    intro m b hunpack
    rw [read_of_posted hL hpost hnear hunpack]
    rfl
  rw [hending]
  rcases verify_of_earns hL hS later hearns hfar hread hverify with
    ⟨hok, rfl⟩ | ⟨text, retryable, herror, hagain, hfinal⟩
  · rw [hok]
    simp [Ending.again, Ending.final]
  · rw [herror]
    have hc : c ≠ .receipted := by
      rintro rfl
      cases retryable with
      | true => cases hagain
      | false => cases hfinal
    cases retryable <;> simp [hc, hagain, hfinal]

/-- The order whose cycle failed is sent again. -/
theorem sender_agrees_order :
    ∃ answer e,
      answerBy bench seller (.takeNext (moment 2) .Failed) (moment 1) orderRequest "peer" =
        some answer ∧
      buyer.verifyReceipt bench (moment 3) answer order = .error e ∧ e.retryable = true := by
  have hunpack : seller.unpack bench (moment 1) orderRequest = .ok (order, goods) :=
    unpack_order (fun _ _ _ => rfl) (moment 1)
  have hanswer : answerBy bench seller (.takeNext (moment 2) .Failed) (moment 1) orderRequest
      "peer" = _ := answerBy_takeNext hunpack rfl List.not_mem_nil (moment 2) .Failed
  have hending := ending_takeNext hunpack rfl List.not_mem_nil (moment 2) .Failed
  have hagrees := sender_agrees bench_lawful bench_statuses order_posts
    (unsigned_leaves bench _) (unsigned_leaves bench _) (fun _ _ _ _ _ => rfl) hanswer (moment 3)
  obtain ⟨e, he, hretryable⟩ := hagrees.2.1.mpr ⟨_, hending, rfl⟩
  exact ⟨_, e, hanswer, he, hretryable⟩

end As4
