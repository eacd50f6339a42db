import XmipAs4.Exchange.Receipts

/-!
# What is signed

A User Message is signed as it is posted, and a Receipt as it is answered; an Error is not.
So between two ends whose signers agree, each accepting exactly what the other signed, every
User Message and every Receipt is accepted, and an Error is read exactly where the text it is
written as is one that the signer gives out, as one that does not sign gives out every text.
-/

namespace As4

open Multipart (Bytes Absent isContentId)

/-! ## Signers that agree -/

/-- What this signer signs is exactly what the other accepts, and signing leaves what the
messaging header holds as it was. -/
structure Signer.Agrees (a b : Signer) (L : Estate) : Prop where
  accepts : ∀ later signed attachments, b.verify later signed attachments = .ok () ↔
    ∃ now envelope, a.sign now envelope attachments = .ok signed
  leaves : ∀ name ∈ ["UserMessage", "SignalMessage"], a.Leaves L name

/-- The far end answers an Error: to a POST that it refuses as it is read, or to a verdict
other than acceptance.  The bare `500` of a side that cannot sign is none. -/
def AnswersError (L : Estate) (far : As4Transport) (now : Moment) (answer : Response) : Prop :=
  (∃ request peer e, far.hear L now request peer = .Answered (.error e) answer ∧
    answer ≠ Response.new 500) ∨
  ∃ m verdict, verdict ≠ .Accepted ∧ (far.receipting.answer L now m verdict).1 = .ok answer

/-- What the sender is told of an Error that it reads: its code and its description. -/
def toldOf (L : Estate) (status : ℕ) (code description : String) : TransportError :=
  ⟨"the Party answered " ++ toString status ++ " — " ++ (code ++ ": " ++ description),
    L.retryable status⟩

section Sent

variable {L : Estate} {near far : As4Transport}

/-- An Error that is answered is written as one, and its status is not `2xx`. -/
theorem AnswersError.written (hS : L.Statuses) {now : Moment} {answer : Response}
    (h : AnswersError L far now answer) :
    ∃ status refTo code description, ¬ (200 ≤ status ∧ status < 300) ∧
      answer = soap L now status (Signal.error L now refTo code description) := by
  rcases h with ⟨request, peer, e, hhear, hne⟩ | ⟨m, verdict, hverdict, hanswer⟩
  · have hstatus : ¬ (200 ≤ (if e.retryable then 503 else 400) ∧
        (if e.retryable then 503 else 400) < 300) := by
      split_ifs <;> omega
    have hh := far.hears L now request peer
    rw [hhear] at hh
    cases hh with
    | unread _ => exact ⟨_, _, _, _, hstatus, rfl⟩
    | unadmitted _ _ => exact ⟨_, _, _, _, hstatus, rfl⟩
    | unsigned _ _ _ _ => exact absurd rfl hne
  · cases verdict with
    | Accepted => exact absurd rfl hverdict
    | Refused why =>
      have hmem := hS.refused_mem why
      simp only [List.mem_cons, List.not_mem_nil, or_false] at hmem
      refine ⟨L.refused why, some m.messageId, code why, refusedText, by omega, ?_⟩
      cases hanswer
      rfl
    | Failed =>
      refine ⟨L.failed, some m.messageId, other, sendAgain, ?_, ?_⟩
      · rw [hS.failed_eq]
        omega
      · cases hanswer
        rfl

variable (hL : L.Lawful)
include hL

/-- Of an answer whose envelope does not verify the sender reads no signal. -/
theorem verifyReceipt_unverified {now later : Moment} {status : ℕ} {envelope : String}
    {e : TransportError} (sent : UserMessage) (hstatus : ¬ (200 ≤ status ∧ status < 300))
    (hverify : near.receipting.signer.verify later envelope [] = .error e) :
    near.verifyReceipt L later (soap L now status envelope) sent =
      .error ⟨"the Party answered " ++ toString status ++ " — " ++ "no signal in the answer",
        L.retryable status⟩ := by
  have hbody := unpack_answer hL now status envelope
  have hsoap : (soap L now status envelope).status = status := rfl
  unfold As4Transport.verifyReceipt
  simp only
  rw [hbody, ok_bind, hsoap, if_pos hstatus]
  simp only
  rw [hverify, error_bind]

/-- Of an Error that verifies the sender reads the code and the description. -/
theorem verifyReceipt_verified {now later : Moment} {status : ℕ} {refTo : Option String}
    {code description : String} (sent : UserMessage)
    (hstatus : ¬ (200 ≤ status ∧ status < 300))
    (hverify : near.receipting.signer.verify later
      (Signal.error L now refTo code description) [] = .ok ()) :
    near.verifyReceipt L later (soap L now status (Signal.error L now refTo code description))
      sent = .error (toldOf L status code description) := by
  have hbody := unpack_answer hL now status (Signal.error L now refTo code description)
  have hsoap : (soap L now status (Signal.error L now refTo code description)).status = status :=
    rfl
  have hsignal := Signal.fromEnvelope_error hL.xml now refTo code description
  unfold As4Transport.verifyReceipt
  simp only
  rw [hbody, ok_bind, hsoap, if_pos hstatus]
  simp only
  rw [hverify, ok_bind, hsignal]
  rfl

/-- The sender is told what an Error says exactly where the text it is written as is
accepted. -/
theorem told_iff_verified {now later : Moment} {status : ℕ} {refTo : Option String}
    {code description : String} (sent : UserMessage)
    (hstatus : ¬ (200 ≤ status ∧ status < 300)) :
    near.verifyReceipt L later (soap L now status (Signal.error L now refTo code description))
        sent = .error (toldOf L status code description) ↔
      near.receipting.signer.verify later (Signal.error L now refTo code description) [] =
        .ok () := by
  constructor
  · intro htold
    cases hverify : near.receipting.signer.verify later
      (Signal.error L now refTo code description) [] with
    | ok _ => rfl
    | error e =>
      rw [verifyReceipt_unverified hL sent hstatus hverify] at htold
      have hmessage := congrArg TransportError.message (Except.error.inj htold)
      have hwhy := (String.append_right_inj _).mp hmessage
      -- A colon stands between an Error's code and its description.
      have hcolon : ':' ∈ (code ++ ": " ++ description).toList := by simp
      rw [← hwhy] at hcolon
      exact absurd hcolon (by decide)
  · exact verifyReceipt_verified hL sent hstatus

/-- Between two ends whose signers agree, every User Message that is posted and every Receipt
that is answered is accepted by the other end; and every Error that is answered is accepted,
and its code and description told to the sender, exactly where the text that it is written as
is one that the far end's signer gives out. -/
theorem accepted_iff (hS : L.Statuses)
    (hout : near.receipting.signer.Agrees far.receipting.signer L)
    (hback : far.receipting.signer.Agrees near.receipting.signer L) :
    (∀ now target bytes key message signed request,
      Posts L near now target bytes key message signed request →
        (∀ later, far.receipting.signer.verify later signed [(message.payloadCid, bytes)] =
          .ok ()) ∧
        (isContentId message.payloadCid = true →
          Carries L request signed [(message.payloadCid, bytes)])) ∧
    (∀ now m answer, far.receipting.receipt L now m = .ok answer →
      ∃ signed, answer = soap L now 200 signed ∧ ∀ later,
        near.receipting.signer.verify later signed [] = .ok () ∧
        ∀ sent, near.verifyReceipt L later answer sent = .ok () ↔
          m.messageId = sent.messageId) ∧
    (∀ now answer, AnswersError L far now answer →
      ∃ status refTo code description, ¬ (200 ≤ status ∧ status < 300) ∧
        answer = soap L now status (Signal.error L now refTo code description)) ∧
    ∀ now status refTo code description, ¬ (200 ≤ status ∧ status < 300) → ∀ later sent,
      (near.receipting.signer.verify later (Signal.error L now refTo code description) [] =
          .ok () ∧
        near.verifyReceipt L later (soap L now status (Signal.error L now refTo code description))
          sent = .error (toldOf L status code description)) ↔
      ∃ moment envelope, far.receipting.signer.sign moment envelope [] =
        .ok (Signal.error L now refTo code description) := by
  refine ⟨?_, ?_, fun now answer h => h.written hS, ?_⟩
  · intro now target bytes key message signed request hpost
    refine ⟨fun later => (hout.accepts later signed _).mpr ⟨now, _, hpost.sign⟩, ?_⟩
    intro hid
    obtain ⟨endpoint, rfl⟩ := hpost.request_eq
    exact carries_packed_one hL endpoint hid hpost.absent
  · intro now m answer hreceipt
    obtain ⟨signed, hsigned, hanswer⟩ := Receipting.receipt_eq_ok.mp hreceipt
    refine ⟨signed, hanswer, fun later => ?_⟩
    have hverify := (hback.accepts later signed []).mpr ⟨now, _, hsigned⟩
    refine ⟨hverify, fun sent => ?_⟩
    obtain ⟨signed', hsigned', hiff⟩ : ∃ signed, _ ∧ (near.verifyReceipt L later answer sent =
      .ok () ↔ _) := verifyReceipt_receipt hL (hback.leaves "SignalMessage" (by simp)) hreceipt
    rw [hsigned, Except.ok.injEq] at hsigned'
    subst hsigned'
    rw [hiff, hverify]
    exact and_iff_right rfl
  · intro now status refTo code description hstatus later sent
    rw [told_iff_verified hL sent hstatus, and_self, hback.accepts]

end Sent

/-! ## On the bench -/

/-- Ends that do not sign agree. -/
theorem unsigned_agrees (L : Estate) : unsigned.Agrees unsigned L where
  accepts later signed _ := iff_of_true rfl ⟨later, signed, rfl⟩
  leaves name _ := unsigned_leaves L name

/-- The Error by which a refused order is answered. -/
def refusedError : String :=
  Signal.error bench (moment 2) (some order.messageId) other refusedText

/-- The answer that carries it. -/
def refusedAnswer : Response :=
  soap bench (moment 2) 422 refusedError

/-- A seller that refuses the order answers the Error, whatever it signs with. -/
theorem answersError_refused (signer : Signer) :
    AnswersError bench (seller.signingWith signer) (moment 2) refusedAnswer :=
  .inr ⟨order, .Refused .Unacceptable, by decide, rfl⟩

/-- What stands before the messaging header in every envelope. -/
def headed : String :=
  "<?xml version=\"1.0\" encoding=\"UTF-8\"?>" ++
    "<S12:Envelope xmlns:S12=\"" ++ soapNamespace ++ "\" xmlns:eb=\"" ++ ebms ++ "\">" ++
    "<S12:Header>"

/-- The header that the bench's signer adds. -/
def security : String := "<wsse:Security/>"

/-- A signer that adds a security header to an envelope, and accepts what has one. -/
def sealing : Signer where
  sign _ envelope _ :=
    if headed.toList <+: envelope.toList then
      .ok (headed ++ security ++ String.ofList (envelope.toList.drop headed.toList.length))
    else .error ⟨"an envelope with no header to sign in", false⟩
  verify _ envelope _ :=
    if (headed ++ security).toList <+: envelope.toList then .ok ()
    else .error ⟨"an envelope that is not signed", false⟩

/-- What it adds stands before the messaging header. -/
theorem sealing_sign (now : Moment) (rest : String) (attachments : Attachments) :
    sealing.sign now (headed ++ rest) attachments = .ok (headed ++ security ++ rest) := by
  have hprefix : headed.toList <+: (headed ++ rest).toList := by
    rw [String.toList_append]
    exact List.prefix_append _ _
  unfold sealing
  simp only
  rw [if_pos hprefix, String.toList_append, List.drop_left, String.ofList_toList]

/-- An envelope begins with what stands before the messaging header. -/
theorem wrap_headed (messaging : String) :
    ∃ rest, wrap messaging =
      headed ++ ("<eb:Messaging S12:mustUnderstand=\"true\">" ++ rest) := by
  refine ⟨messaging ++ "</eb:Messaging>" ++ "</S12:Header>" ++ "<S12:Body/>" ++
    "</S12:Envelope>", ?_⟩
  unfold wrap headed
  simp only [String.append_assoc, -String.reduceAppend]

/-- It signs every envelope. -/
theorem sealing_wrap (now : Moment) (messaging : String) (attachments : Attachments) :
    ∃ signed, sealing.sign now (wrap messaging) attachments = .ok signed := by
  obtain ⟨rest, hwrap⟩ := wrap_headed messaging
  rw [hwrap, sealing_sign]
  exact ⟨_, rfl⟩

/-- What stands before the messaging header is whole tags, none of them a message's. -/
theorem headed_whole (name : String) (hname : name ∈ ["UserMessage", "SignalMessage"]) :
    Markup.FlatScan.pending none headed.toList = none ∧
      Markup.FlatScan.after name.toList (Markup.FlatScan.cut none headed.toList) = none := by
  -- Read literal by literal: the text as a whole is slow to evaluate.
  have hparts : Markup.FlatScan.pending none headed.toList = none ∧
      ∀ name ∈ ["UserMessage", "SignalMessage"],
        Markup.FlatScan.after name.toList (Markup.FlatScan.cut none headed.toList) = none := by
    unfold headed
    simp only [String.toList_append]
    decide +kernel
  exact ⟨hparts.1, hparts.2 name hname⟩

/-- What it adds leaves the messages as they were. -/
theorem sealing_leaves {name : String} (hname : name ∈ ["UserMessage", "SignalMessage"]) :
    sealing.Leaves bench name := by
  intro now messaging attachments signed h
  obtain ⟨rest, hwrap⟩ := wrap_headed messaging
  rw [hwrap, sealing_sign, Except.ok.injEq] at h
  have hheaded := headed_whole name hname
  have hsecurity : Markup.FlatScan.pending none security.toList = none ∧
      ∀ name ∈ ["UserMessage", "SignalMessage"],
        Markup.FlatScan.after name.toList (Markup.FlatScan.cut none security.toList) = none := by
    decide +kernel
  rw [hwrap, ← h, String.append_assoc]
  exact (Markup.FlatScan.content_append _ hheaded.1 hheaded.2 _).trans
    ((Markup.FlatScan.content_append _ hsecurity.1 (hsecurity.2 name hname) _).trans
      (Markup.FlatScan.content_append _ hheaded.1 hheaded.2 _).symm)

/-- Ends that sign with it agree. -/
theorem sealing_agrees : sealing.Agrees sealing bench where
  accepts later signed attachments := by
    constructor
    · intro hverify
      have hprefix : (headed ++ security).toList <+: signed.toList := by
        by_contra hnot
        unfold sealing at hverify
        simp only at hverify
        rw [if_neg hnot] at hverify
        cases hverify
      obtain ⟨rest, rfl⟩ := exists_append_of_prefix hprefix
      exact ⟨later, headed ++ rest, sealing_sign later rest attachments⟩
    · rintro ⟨now, envelope, hsign⟩
      unfold sealing at hsign ⊢
      simp only at hsign ⊢
      split_ifs at hsign
      rw [Except.ok.injEq] at hsign
      rw [← hsign, if_pos]
      rw [String.toList_append (s := headed ++ security)]
      exact List.prefix_append _ _
  leaves name hname := sealing_leaves hname

/-- Between ends that sign, the Receipt for the order is taken for its delivery; between ends
that do not, the Error is told to the buyer. -/
theorem accepted_iff_order :
    (∃ answer, (seller.signingWith sealing).receipting.receipt bench (moment 2) order =
        .ok answer ∧
      (buyer.signingWith sealing).verifyReceipt bench (moment 3) answer order = .ok ()) ∧
    AnswersError bench (seller.signingWith unsigned) (moment 2) refusedAnswer ∧
    (buyer.signingWith unsigned).verifyReceipt bench (moment 3) refusedAnswer order =
      .error (toldOf bench 422 other refusedText) := by
  refine ⟨?_, answersError_refused unsigned, ?_⟩
  · have hout : (buyer.signingWith sealing).receipting.signer.Agrees
        (seller.signingWith sealing).receipting.signer bench := sealing_agrees
    have hback : (seller.signingWith sealing).receipting.signer.Agrees
        (buyer.signingWith sealing).receipting.signer bench := sealing_agrees
    obtain ⟨signed, hsigned⟩ : ∃ signed,
        sealing.sign (moment 2) (Signal.receipt bench (moment 2) order) [] = .ok signed :=
      sealing_wrap (moment 2) _ []
    have hreceipt : (seller.signingWith sealing).receipting.receipt bench (moment 2) order =
        .ok (soap bench (moment 2) 200 signed) :=
      Receipting.receipt_eq_ok.mpr ⟨signed, hsigned, rfl⟩
    obtain ⟨-, hreceipts, -, -⟩ := accepted_iff bench_lawful bench_statuses hout hback
    obtain ⟨signed', -, htaken⟩ := hreceipts (moment 2) order _ hreceipt
    exact ⟨_, hreceipt, ((htaken (moment 3)).2 order).mpr rfl⟩
  · have hagree : (buyer.signingWith unsigned).receipting.signer.Agrees
        (seller.signingWith unsigned).receipting.signer bench := unsigned_agrees bench
    have hback : (seller.signingWith unsigned).receipting.signer.Agrees
        (buyer.signingWith unsigned).receipting.signer bench := unsigned_agrees bench
    obtain ⟨-, -, -, herrors⟩ := accepted_iff bench_lawful bench_statuses hagree hback
    exact ((herrors (moment 2) 422 (some order.messageId) other refusedText (by omega) (moment 3)
      order).mpr ⟨moment 2, _, rfl⟩).2

/-- It accepts no Error as it is written. -/
theorem sealing_rejects (later now : Moment) (refTo : Option String)
    (code description : String) :
    sealing.verify later (Signal.error bench now refTo code description) [] =
      .error ⟨"an envelope that is not signed", false⟩ := by
  unfold Signal.error
  generalize "<eb:SignalMessage>" ++ info bench now refTo ++
    "<eb:Error category=\"Content\" errorCode=\"" ++ bench.xml.escape code ++
    "\" origin=\"ebMS\" severity=\"failure\">" ++ "<eb:Description xml:lang=\"en\">" ++
    bench.xml.escape description ++ "</eb:Description>" ++ "</eb:Error>" ++
    "</eb:SignalMessage>" = messaging
  obtain ⟨rest, hwrap⟩ := wrap_headed messaging
  have hnot : ¬ (headed ++ security).toList <+: (wrap messaging).toList := by
    rw [hwrap, String.toList_append, String.toList_append, String.toList_append,
      List.prefix_append_right_inj]
    intro hprefix
    exact absurd (List.prefix_of_prefix_length_le hprefix (List.prefix_append _ _) (by decide))
      (by decide)
  unfold sealing
  simp only
  rw [if_neg hnot]

/-- Between ends that sign and agree, the buyer is told of no signal where the seller answered
an Error. -/
theorem error_not_told :
    sealing.Agrees sealing bench ∧
    AnswersError bench (seller.signingWith sealing) (moment 2) refusedAnswer ∧
    sealing.verify (moment 3) refusedError [] =
      .error ⟨"an envelope that is not signed", false⟩ ∧
    (buyer.signingWith sealing).verifyReceipt bench (moment 3) refusedAnswer order =
      .error ⟨"the Party answered " ++ toString 422 ++ " — " ++ "no signal in the answer",
        bench.retryable 422⟩ := by
  have hverify : (buyer.signingWith sealing).receipting.signer.verify (moment 3) refusedError [] =
      .error ⟨"an envelope that is not signed", false⟩ :=
    sealing_rejects (moment 3) (moment 2) (some order.messageId) other refusedText
  exact ⟨sealing_agrees, answersError_refused sealing, hverify,
    verifyReceipt_unverified bench_lawful order (by omega) hverify⟩

end As4
