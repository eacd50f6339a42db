import XmipAs4.Exchange.Acceptance
import XmipAs4.Exchange.OneDelivery

/-!
# The two ways to receive

`accept_one` takes a request and accepts it in one closure; `take_next` hands it up, and the
verdict comes later through `acknowledge`.  Two far ends that remember the same ids and take
the same requests, the one by `accept_one` and the other by `take_next` with every arrival
accepted before the next, hand up the same messages, fail alike, give the same answers and
remember the same ids after each request.
-/

namespace As4

open Delivery (run outputs)
open Multipart (Bytes)

/-! ## Turns -/

/-- One request taken both ways: the moment it is accepted at once; the moments it is taken
and its acceptance is answered; and what writing that answer comes to. -/
structure Turn where
  accepted : Moment
  taken : Moment
  judged : Moment
  request : Request
  peer : SocketAddr
  reply : Response → Result Unit

/-- The call of `accept_one` that takes the request and writes its answer. -/
def Turn.call (x : Turn) : Call :=
  (x.accepted, .read x.request x.peer (.ok ()))

/-- What the caller of `take_next` has of a request once its turn is over, and what was
answered. -/
abbrev Deferral := Result (Option (UserMessage × Arrived)) × Option Response

variable (L : Estate)

/-- The request taken by `accept_one`. -/
def takeAtOnce (t : As4Transport) (x : Turn) : As4Transport × Outcome :=
  accepting L t x.call

/-- The request taken by `take_next` and, where a message arrives by it, accepted. -/
def takeDeferred (t : As4Transport) (x : Turn) : As4Transport × Deferral :=
  match t.takeNext L x.taken (.posted x.request x.peer) with
  | (.ok (some (message, arrived)), _) =>
    match t.acknowledge L x.judged arrived x.reply .Accepted with
    | ((_, answer), t') => (t', .ok (some (message, arrived)), answer)
  | (said, answer) => (t, said, answer)

/-! ## The same outcome -/

/-- What a Signal says, less the id and the timestamp of its own. -/
inductive Notice where
  | Receipt (message : UserMessage)
  | Error (refTo : Option String) (code description : String)

/-- The response has the status and is the Signal that says the notice, with the id and the
timestamp of the moment; a Receipt is signed. -/
inductive Says (L : Estate) (signer : Signer) (now : Moment) : Notice → ℕ → Response → Prop where
  | receipt {m : UserMessage} {signed : String}
      (hsign : signer.sign now (Signal.receipt L now m) [] = .ok signed) :
      Says L signer now (.Receipt m) 200 (soap L now 200 signed)
  | error (refTo : Option String) (code description : String) (status : ℕ) :
      Says L signer now (.Error refTo code description) status
        (soap L now status (Signal.error L now refTo code description))

/-- The outcomes of one turn, taken the one way and the other, are the same: the same message
of the same origin, payload and sender, nothing, or the same error; and an answer of the same
status that says the same, each as of the moment it was made. -/
inductive SameOutcome (L : Estate) (signer : Signer) (x : Turn) :
    Outcome → Deferral → Prop where
  | handedUp {m : UserMessage} {originUri : String} {bytes : Bytes} {sender : Sender}
      {a b : Response} (ha : Says L signer x.accepted (.Receipt m) 200 a)
      (hb : Says L signer x.judged (.Receipt m) 200 b) :
      SameOutcome L signer x (.ok (some (m, ⟨originUri, bytes, sender⟩)), some a)
        (.ok (some (m, ⟨originUri, bytes, sender, m⟩)), some b)
  | again {m : UserMessage} {a b : Response} (ha : Says L signer x.accepted (.Receipt m) 200 a)
      (hb : Says L signer x.taken (.Receipt m) 200 b) :
      SameOutcome L signer x (.ok none, some a) (.ok none, some b)
  | refused {e : TransportError} {refTo : Option String} {code description : String}
      {status : ℕ} {a b : Response}
      (ha : Says L signer x.accepted (.Error refTo code description) status a)
      (hb : Says L signer x.taken (.Error refTo code description) status b) :
      SameOutcome L signer x (.error e, some a) (.error e, some b)

/-- What the signer verifies and what the check takes come out alike at the two moments, as
they do where neither looks at the moment. -/
structure Alike (t : As4Transport) (now now' : Moment) : Prop where
  verified : ∀ envelope attachments, t.receipting.signer.verify now envelope attachments =
    t.receipting.signer.verify now' envelope attachments
  checked : ∀ check, t.check = some check → ∀ m bytes, check now m bytes = check now' m bytes

section Moments

variable {L : Estate} {t : As4Transport} {now now' : Moment}

/-- A request is read alike at moments that are alike. -/
theorem Alike.unpack_eq (h : Alike t now now') (request : Request) :
    t.unpack L now request = t.unpack L now' request := by
  unfold As4Transport.unpack
  simp only [h.verified]

/-- A message is admitted alike at moments that are alike. -/
theorem Alike.admits_eq (h : Alike t now now') (m : UserMessage) (bytes : Bytes) :
    t.admits L now m bytes = t.admits L now' m bytes := by
  unfold As4Transport.admits
  cases hcheck : t.check with
  | none => rfl
  | some check => simp only [h.checked check hcheck]

/-- Moments are alike for a transport whatever it remembers. -/
theorem Alike.remembering (h : Alike t now now') (ids : List String) :
    Alike (t.remembering ids) now now' :=
  ⟨h.verified, h.checked⟩

/-- The Receipt that a signer which never fails signs, at any moment. -/
theorem Signer.Signs.says {r : Receipting} (h : r.signer.Signs) (L : Estate) (now : Moment)
    (m : UserMessage) :
    ∃ a, r.receipt L now m = .ok a ∧ Says L r.signer now (.Receipt m) 200 a := by
  obtain ⟨signed, hsigned⟩ := h now (Signal.receipt L now m) []
  exact ⟨_, Receipting.receipt_eq_ok.mpr ⟨signed, hsigned, rfl⟩, .receipt hsigned⟩

end Moments

/-! ## One turn -/

/-- Nothing waits that holds no message. -/
theorem hear_ne_waiting_empty (t : As4Transport) (now : Moment) (request : Request)
    (peer : SocketAddr) :
    t.hear L now request peer ≠ .Waiting (.ok none) ∧
      ∀ e, t.hear L now request peer ≠ .Waiting (.error e) := by
  constructor
  · intro h
    obtain ⟨_, _, _, _, _, hsaid⟩ := hear_waiting_iff.mp h
    cases hsaid
  · intro e h
    obtain ⟨_, _, _, _, _, hsaid⟩ := hear_waiting_iff.mp h
    cases hsaid

section Turns

variable {L : Estate} {t : As4Transport} {x : Turn}

/-- What `accept_one` comes to is what serving the request comes to. -/
theorem takeAtOnce_of_serve {said : Result (Option (UserMessage × Taken))} {a : Response}
    {t' : As4Transport} (h : t.serve L x.accepted x.request x.peer = ((said, a), t')) :
    takeAtOnce L t x = (t', said, some a) :=
  accepting_of_serve h (.ok ())

/-- An error that is answered at once is answered at once by `accept_one`. -/
theorem takeAtOnce_refused {e : TransportError} {a : Response}
    (h : t.hear L x.accepted x.request x.peer = .Answered (.error e) a) :
    takeAtOnce L t x = (t, .error e, some a) := by
  apply takeAtOnce_of_serve
  unfold As4Transport.serve
  rw [h]

/-- An error that is answered at once is answered at once by `take_next`. -/
theorem takeDeferred_refused {e : TransportError} {a : Response}
    (h : t.hear L x.taken x.request x.peer = .Answered (.error e) a) :
    takeDeferred L t x = (t, .error e, some a) := by
  unfold takeDeferred As4Transport.takeNext
  simp only
  rw [h]

/-- A repeat that is receipted at once is receipted at once by `take_next`. -/
theorem takeDeferred_again {a : Response}
    (h : t.hear L x.taken x.request x.peer = .Answered (.ok none) a) :
    takeDeferred L t x = (t, .ok none, some a) := by
  unfold takeDeferred As4Transport.takeNext
  simp only
  rw [h]

/-- A new message is handed up by `take_next`, and its acceptance remembered and receipted. -/
theorem takeDeferred_new {m : UserMessage} {bytes : Bytes} {a : Response}
    (hunpack : t.unpack L x.taken x.request = .ok (m, bytes))
    (hadmits : t.admits L x.taken m bytes = .ok ()) (hnew : m.messageId ∉ t.receipting.ids)
    (hreceipt : t.receipting.receipt L x.judged m = .ok a) :
    takeDeferred L t x =
      (t.remembering (Delivery.remember remembered m.messageId t.receipting.ids),
        .ok (some (m, ⟨originOf x.request x.peer m, bytes, ⟨x.request, x.peer⟩, m⟩)), some a) := by
  unfold takeDeferred As4Transport.takeNext
  simp only
  rw [(Hears.new hunpack hadmits hnew).eq_hear]
  simp only
  unfold As4Transport.acknowledge
  simp only
  rw [Receipting.answer_accepted hreceipt, Receipting.remember_eq]
  rfl

/-- One turn comes out the same both ways, and leaves the same transport. -/
theorem turn_same (hsigns : t.receipting.signer.Signs) (halike : Alike t x.accepted x.taken) :
    (takeAtOnce L t x).1 = (takeDeferred L t x).1 ∧
      SameOutcome L t.receipting.signer x (takeAtOnce L t x).2 (takeDeferred L t x).2 := by
  have hread := halike.unpack_eq (L := L) x.request
  have hadmitted := halike.admits_eq (L := L)
  obtain h := t.hears L x.taken x.request x.peer
  generalize heq : t.hear L x.taken x.request x.peer = heard at h
  cases h with
  | @unread e hunpack =>
    have hear : t.hear L x.accepted x.request x.peer = _ :=
      (Hears.unread (hread.trans hunpack)).eq_hear
    rw [takeAtOnce_refused hear, takeDeferred_refused heq]
    exact ⟨rfl, .refused (.error _ _ _ _) (.error _ _ _ _)⟩
  | @unadmitted m bytes e hunpack hadmits =>
    have hear : t.hear L x.accepted x.request x.peer = _ :=
      (Hears.unadmitted (hread.trans hunpack) ((hadmitted m bytes).trans hadmits)).eq_hear
    rw [takeAtOnce_refused hear, takeDeferred_refused heq]
    exact ⟨rfl, .refused (.error _ _ _ _) (.error _ _ _ _)⟩
  | @again m bytes b hunpack hadmits hseen hreceipt =>
    obtain ⟨a, ha, hsays⟩ := hsigns.says L x.accepted m
    obtain ⟨b', hb, hsays'⟩ := hsigns.says L x.taken m
    have hserve := As4Transport.serve_again x.peer (hread.trans hunpack)
      ((hadmitted m bytes).trans hadmits) hseen ha
    obtain rfl : b = b' := Except.ok.inj (hreceipt.symm.trans hb)
    rw [takeAtOnce_of_serve hserve, takeDeferred_again heq]
    exact ⟨rfl, .again hsays hsays'⟩
  | unsigned hunpack hadmits hseen hreceipt =>
    exact absurd hreceipt (Receipting.receipt_ne_error hsigns _ _ _)
  | @new m bytes hunpack hadmits hnew =>
    obtain ⟨a, ha, hsays⟩ := hsigns.says L x.accepted m
    obtain ⟨b, hb, hsays'⟩ := hsigns.says L x.judged m
    have hserve := As4Transport.serve_new x.peer (hread.trans hunpack)
      ((hadmitted m bytes).trans hadmits) hnew ha
    rw [takeAtOnce_of_serve hserve, takeDeferred_new hunpack hadmits hnew hb]
    exact ⟨rfl, .handedUp hsays hsays'⟩

end Turns

/-! ## Any number of turns -/

/-- Requests taken by `accept_one`, and taken by `take_next` with each arrival accepted
before the next, come out the same turn by turn and leave the same transport, where the
signer never fails and what it verifies and the check takes is alike at the two moments of
each turn; and nothing is ever heard as waiting that holds no message. -/
theorem two_ways (L : Estate) (t : As4Transport) (hsigns : t.receipting.signer.Signs)
    (xs : List Turn) (halike : ∀ x ∈ xs, Alike t x.accepted x.taken) :
    List.Forall₂ (fun x outcomes => SameOutcome L t.receipting.signer x outcomes.1 outcomes.2) xs
        ((outputs (takeAtOnce L) t xs).zip (outputs (takeDeferred L) t xs)) ∧
      run (takeAtOnce L) t xs = run (takeDeferred L) t xs ∧
      ∀ (far : As4Transport) (now : Moment) (request : Request) (peer : SocketAddr),
        far.hear L now request peer ≠ .Waiting (.ok none) ∧
          ∀ e, far.hear L now request peer ≠ .Waiting (.error e) := by
  have hstep : ∀ (s s' : As4Transport) (x : Turn),
      (s = s' ∧ ∃ ids, s = t.remembering ids) → Alike t x.accepted x.taken →
      ((takeAtOnce L s x).1 = (takeDeferred L s' x).1 ∧
          ∃ ids, (takeAtOnce L s x).1 = t.remembering ids) ∧
        SameOutcome L t.receipting.signer x (takeAtOnce L s x).2 (takeDeferred L s' x).2 := by
    rintro s _ x ⟨rfl, ids, rfl⟩ hx
    obtain ⟨hnext, hout⟩ := turn_same (L := L) (t := t.remembering ids) (x := x) hsigns
      (hx.remembering ids)
    refine ⟨⟨hnext, ?_⟩, hout⟩
    obtain ⟨said, a, ids', hserve, -⟩ :=
      (t.remembering ids).serves L x.accepted x.request x.peer
    rw [takeAtOnce_of_serve hserve]
    exact ⟨ids', rfl⟩
  obtain ⟨⟨hrun, -⟩, houts⟩ := Delivery.lockstep hstep ⟨rfl, t.receipting.ids, rfl⟩ halike
  exact ⟨houts, hrun, hear_ne_waiting_empty L⟩

/-- The order posted to the seller and posted again, taken both ways. -/
def orderTurns : List Turn :=
  [⟨moment 1, moment 2, moment 3, orderRequest, "peer", fun _ => .ok ()⟩,
    ⟨moment 4, moment 5, moment 6, orderRequest, "peer", fun _ => .ok ()⟩]

/-- The order and its repeat come out the same both ways. -/
theorem two_ways_order :
    List.Forall₂ (fun x outcomes => SameOutcome bench unsigned x outcomes.1 outcomes.2) orderTurns
        ((outputs (takeAtOnce bench) seller orderTurns).zip
          (outputs (takeDeferred bench) seller orderTurns)) ∧
      run (takeAtOnce bench) seller orderTurns = run (takeDeferred bench) seller orderTurns ∧
      ∀ (far : As4Transport) (now : Moment) (request : Request) (peer : SocketAddr),
        far.hear bench now request peer ≠ .Waiting (.ok none) ∧
          ∀ e, far.hear bench now request peer ≠ .Waiting (.error e) :=
  two_ways bench seller unsigned_signs orderTurns fun _ _ =>
    ⟨fun _ _ => rfl, fun _ h => absurd h (by simp [seller, As4Transport.new])⟩

end As4
