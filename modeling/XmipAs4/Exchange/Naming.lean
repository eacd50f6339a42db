import XmipAs4.Exchange.Reread
import XmipAs4.Exchange.RoundTrip

/-!
# What an Error is about

An Error names the message it is about where `hear` refuses the message after it was read with
its payload, and wherever a verdict does.  Where the message reads and its payload is not
attached, `unpack` fails with the id in its hand, and the Error names no message.
-/

namespace As4

open Multipart (Bytes)

/-- The request reads as the message: it is a POST, its body unpacks, the signature verifies
over what was unpacked and the envelope reads. -/
structure ReadsAs (L : Estate) (t : As4Transport) (now : Moment) (request : Request)
    (envelope : String) (attachments : Attachments) (m : UserMessage) : Prop where
  carries : Carries L request envelope attachments
  verified : t.receipting.signer.verify now envelope attachments = .ok ()
  read : UserMessage.fromEnvelope L envelope = .ok m

/-- The Errors that a request is answered: at once by `hear`, whose bare `500` is none, or
later, at any moment and whatever is remembered then, on a verdict other than acceptance. -/
inductive AnsweredError (L : Estate) (t : As4Transport) (now : Moment) (request : Request)
    (peer : SocketAddr) : Response → Prop where
  | atOnce {e : TransportError} {answer : Response}
      (hhear : t.hear L now request peer = .Answered (.error e) answer)
      (hne : answer ≠ Response.new 500) : AnsweredError L t now request peer answer
  | onVerdict {m : UserMessage} {originUri : String} {bytes : Bytes} {sender : Sender}
      {r : Receipting} {later : Moment} {verdict : Verdict} {answer : Response}
      (hhear : t.hear L now request peer = .Waiting (.ok (some (m, originUri, bytes, sender))))
      (hverdict : verdict ≠ .Accepted) (hanswer : (r.answer L later m verdict).1 = .ok answer) :
      AnsweredError L t now request peer answer

/-- Every Error that the request is answered reads back as an Error about the message that the
request reads as, and as one about none only where the request reads as no message. -/
def ErrorsName (L : Estate) (t : As4Transport) (now : Moment) (request : Request)
    (peer : SocketAddr) : Prop :=
  ∀ answer, AnsweredError L t now request peer answer →
    (∀ envelope attachments m, ReadsAs L t now request envelope attachments m →
      ∃ code description,
        signalOf L answer = .ok (.Error (some m.messageId) code description)) ∧
    ∀ code description, signalOf L answer = .ok (.Error none code description) →
      ¬ ∃ envelope attachments m, ReadsAs L t now request envelope attachments m

section Answered

variable {L : Estate} {t : As4Transport} {now : Moment} {request : Request} {peer : SocketAddr}
  {envelope : String} {attachments : Attachments} {m : UserMessage} {answer : Response}

/-- A request that reads as a message is unpacked where the payload is attached. -/
theorem ReadsAs.unpack_eq (h : ReadsAs L t now request envelope attachments m) :
    t.unpack L now request = payloadOf L m attachments := by
  rw [t.unpack_of_carries now h.carries, h.verified, ok_bind, h.read, ok_bind]

/-- What is unpacked is the message that the request reads as. -/
theorem ReadsAs.eq_of_unpack {m' : UserMessage} {bytes : Bytes}
    (h : ReadsAs L t now request envelope attachments m)
    (hunpack : t.unpack L now request = .ok (m', bytes)) : m' = m := by
  rw [h.unpack_eq] at hunpack
  exact (payloadOf_eq_ok_iff.mp hunpack).1

/-- An Error is answered to what is not unpacked, naming nothing, or is written about the
message that was unpacked. -/
theorem AnsweredError.written (h : AnsweredError L t now request peer answer) :
    (∃ e, t.unpack L now request = .error e ∧
      answer = refusal L now none valueNotRecognized e) ∨
    ∃ m bytes written status code description, t.unpack L now request = .ok (m, bytes) ∧
      answer = soap L written status
        (Signal.error L written (some m.messageId) code description) := by
  cases h with
  | atOnce hhear hne =>
    have hh := t.hears L now request peer
    rw [hhear] at hh
    cases hh with
    | unread hunpack => exact .inl ⟨_, hunpack, rfl⟩
    | unadmitted hunpack _ => exact .inr ⟨_, _, _, _, _, _, hunpack, rfl⟩
    | unsigned _ _ _ _ => exact absurd rfl hne
  | @onVerdict m' _ _ _ r later verdict _ hhear hverdict hanswer =>
    obtain ⟨read, bytes, hunpack, -, -, hsaid⟩ := hear_waiting_iff.mp hhear
    cases hsaid
    obtain ⟨status, code, description, hof⟩ := r.answer_of_ne (L := L) later m' hverdict
    rw [hof, Except.ok.injEq] at hanswer
    exact .inr ⟨_, _, later, status, code, description, hunpack, hanswer.symm⟩

/-- A refusal at reading is not the bare `500`. -/
theorem refusal_ne_bare (refTo : Option String) (kind : String) (e : TransportError) :
    refusal L now refTo kind e ≠ Response.new 500 := by
  intro h
  have hstatus := congrArg Response.status h
  have hbare : (Response.new 500).status = 500 := rfl
  rw [status_refusal, hbare] at hstatus
  split_ifs at hstatus
  · omega
  · omega

/-- What is not unpacked is answered an Error about no message. -/
theorem AnsweredError.of_unread {e : TransportError} (h : t.unpack L now request = .error e) :
    AnsweredError L t now request peer (refusal L now none valueNotRecognized e) :=
  .atOnce (Hears.unread h).eq_hear (refusal_ne_bare none valueNotRecognized e)

variable (hL : L.Lawful)
include hL

/-- The Signal on a refusal at reading is an Error about what the refusal is about. -/
theorem signalOf_refusal (now : Moment) (refTo : Option String) (kind : String)
    (e : TransportError) :
    ∃ code, signalOf L (refusal L now refTo kind e) = .ok (.Error refTo code e.message) :=
  ⟨_, signalOf_error hL now now _ refTo _ e.message⟩

/-- The Errors that a request is answered name the message it reads as exactly where the
payload of that message is attached, if it reads as one. -/
theorem errors_name_iff (t : As4Transport) (now : Moment) (request : Request)
    (peer : SocketAddr) :
    ErrorsName L t now request peer ↔
      ∀ envelope attachments m, ReadsAs L t now request envelope attachments m →
        ∃ bytes, firstWith attachments m.payloadCid = some bytes := by
  constructor
  · intro hname envelope attachments m hreads
    rw [← Option.isSome_iff_exists, ← Option.ne_none_iff_isSome]
    intro hnone
    have hunpack := hreads.unpack_eq
    rw [payloadOf_eq, hnone] at hunpack
    obtain ⟨code, description, hnamed⟩ :=
      (hname _ (.of_unread hunpack)).1 envelope attachments m hreads
    obtain ⟨code', hunnamed⟩ := signalOf_refusal hL now none valueNotRecognized _
    rw [hnamed] at hunnamed
    cases hunnamed
  · intro hattached answer hanswer
    rcases hanswer.written with ⟨e, hunpack, rfl⟩ |
      ⟨read, bytes, written, status, code, description, hunpack, rfl⟩
    · have hnot : ¬ ∃ envelope attachments m,
          ReadsAs L t now request envelope attachments m := by
        rintro ⟨envelope, attachments, m, hreads⟩
        obtain ⟨bytes, hbytes⟩ := hattached envelope attachments m hreads
        rw [hreads.unpack_eq, payloadOf_eq, hbytes] at hunpack
        cases hunpack
      exact ⟨fun envelope attachments m hreads => absurd ⟨envelope, attachments, m, hreads⟩ hnot,
        fun _ _ _ => hnot⟩
    · have hsignal :=
        signalOf_error hL written written status (some read.messageId) code description
      refine ⟨?_, ?_⟩
      · intro envelope attachments m hreads
        rw [hreads.eq_of_unpack hunpack] at hsignal ⊢
        exact ⟨code, description, hsignal⟩
      · intro code' description' hnone
        rw [hsignal] at hnone
        cases hnone

end Answered

/-! ## On the bench -/

/-- Whatever the order is answered by the seller, an Error names it. -/
theorem errors_name_order : ErrorsName bench seller (moment 1) orderRequest "peer" := by
  refine (errors_name_iff bench_lawful seller (moment 1) orderRequest "peer").mpr ?_
  intro envelope attachments m hreads
  obtain ⟨rfl, rfl⟩ := order_carried.unique hreads.carries
  have hunpack : seller.unpack bench (moment 1) orderRequest = .ok (order, goods) :=
    unpack_order (fun _ _ _ => rfl) (moment 1)
  rw [← hreads.eq_of_unpack hunpack]
  exact ⟨goods, by decide⟩

/-- The order with its payload under another content id than the one that it references. -/
def strayRequest : Request :=
  packed bench (moment 0) ⟨"/msh", "as4://bench/msh"⟩ (order.envelope bench)
    [("stray@xmip", goods)]

/-- The request reads as the order, and the Error that the seller answers names no message. -/
theorem stray_unnamed :
    ReadsAs bench seller (moment 1) strayRequest (order.envelope bench) [("stray@xmip", goods)]
      order ∧
    ∃ e answer code, seller.hear bench (moment 1) strayRequest "peer" =
        .Answered (.error e) answer ∧
      AnsweredError bench seller (moment 1) strayRequest "peer" answer ∧
      signalOf bench answer = .ok (.Error none code e.message) := by
  have horder := UserMessage.read_of_legible bench_lawful.xml legible_order
  have hcarries : Carries bench strayRequest (order.envelope bench) [("stray@xmip", goods)] :=
    message_carried unmarked_order (by simp) (by decide) 0 _
  have hreads : ReadsAs bench seller (moment 1) strayRequest (order.envelope bench)
      [("stray@xmip", goods)] order := ⟨hcarries, rfl, horder⟩
  have hunpack := hreads.unpack_eq
  have hnone : firstWith [("stray@xmip", goods)] order.payloadCid = none := by decide
  rw [payloadOf_eq, hnone] at hunpack
  obtain ⟨code, hsignal⟩ := signalOf_refusal bench_lawful (moment 1) none valueNotRecognized _
  exact ⟨hreads, _, _, code, (Hears.unread hunpack).eq_hear, .of_unread hunpack, hsignal⟩

end As4
