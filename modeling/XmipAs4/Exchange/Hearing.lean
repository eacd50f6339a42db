import XmipAs4.Wire.Body
import XmipAs4.Wire.Reading
import XmipAs4.Delivery.Recall

/-!
# How a POST is heard and a verdict answered

One rule for each way `hear` ends and one lemma for each verdict of `answer`, from which
everything later is derived; and what the assumption on a signer is, that it leaves the
messaging header as it found it.
-/

namespace As4

open Multipart (Bytes)

/-! ## The message ids taken -/

namespace Receipting

variable (r : Receipting)

/-- Some ids are remembered. -/
theorem remembered_pos : 0 < remembered := by
  unfold remembered
  exact Nat.succ_pos 1023

/-- An id is seen where it is remembered. -/
theorem seen_iff {id : String} : r.seen id = true ↔ id ∈ r.ids := by
  simp [seen]

/-- An id is not seen where it is not remembered. -/
theorem seen_eq_false_iff {id : String} : r.seen id = false ↔ id ∉ r.ids := by
  rw [← r.seen_iff, Bool.not_eq_true]

/-- The store of ids is the bounded memory of the last `remembered` of them. -/
theorem ids_remember (id : String) :
    (r.remember id).ids = Delivery.remember remembered id r.ids := by
  have hany : (r.ids.any fun i => i == id) = true ↔ id ∈ r.ids := r.seen_iff
  unfold remember Delivery.remember
  by_cases hmem : id ∈ r.ids
  · rw [if_pos (hany.mpr hmem), if_pos hmem]
  · rw [if_neg (fun h => hmem (hany.mp h)), if_neg hmem]
    by_cases hlen : r.ids.length = remembered
    · rw [if_pos (by simpa using hlen), if_pos hlen]
    · rw [if_neg (by simpa using hlen), if_neg hlen]

/-- Remembering changes the ids and nothing else. -/
theorem remember_eq (id : String) :
    r.remember id = { r with ids := Delivery.remember remembered id r.ids } := by
  rw [← r.ids_remember]
  unfold remember
  split_ifs <;> rfl

variable {L : Estate} {r}

/-- A Receipt is the signed envelope, answered `200`. -/
theorem receipt_eq_ok {now : Moment} {m : UserMessage} {a : Response} :
    r.receipt L now m = .ok a ↔
      ∃ signed, r.signer.sign now (Signal.receipt L now m) [] = .ok signed ∧
        a = soap L now 200 signed := by
  unfold receipt
  cases r.signer.sign now (Signal.receipt L now m) [] with
  | error e => simp
  | ok signed => simp [eq_comm]

/-- There is no Receipt where the signer fails. -/
theorem receipt_eq_error {now : Moment} {m : UserMessage} {e : TransportError} :
    r.receipt L now m = .error e ↔
      r.signer.sign now (Signal.receipt L now m) [] = .error e := by
  unfold receipt
  cases r.signer.sign now (Signal.receipt L now m) [] with
  | error e' => simp
  | ok signed => simp

/-- An acceptance whose Receipt is signed is answered it, and the id is remembered. -/
theorem answer_accepted {now : Moment} {m : UserMessage} {a : Response}
    (h : r.receipt L now m = .ok a) :
    r.answer L now m .Accepted = (.ok a, r.remember m.messageId) := by
  rw [answer, h]

/-- An acceptance whose Receipt cannot be signed is not answered, and changes nothing. -/
theorem answer_unsigned {now : Moment} {m : UserMessage} {e : TransportError}
    (h : r.receipt L now m = .error e) : r.answer L now m .Accepted = (.error e, r) := by
  rw [answer, h]

/-- Any other verdict is answered an Error naming the message, and changes nothing. -/
theorem answer_of_ne (now : Moment) (m : UserMessage) {v : Verdict} (h : v ≠ .Accepted) :
    ∃ status code description, r.answer L now m v =
      (.ok (soap L now status (Signal.error L now (some m.messageId) code description)), r) := by
  cases v with
  | Accepted => exact absurd rfl h
  | Refused why => exact ⟨_, _, _, rfl⟩
  | Failed => exact ⟨_, _, _, rfl⟩

end Receipting

/-! ## Signers -/

/-- A signed envelope holds, in its first element of the name, what the envelope held there
before: what the signer adds to the header is of other names. -/
def Signer.Leaves (signer : Signer) (L : Estate) (name : String) : Prop :=
  ∀ now messaging attachments signed,
    signer.sign now (wrap messaging) attachments = .ok signed →
      L.xml.content signed name = L.xml.content (wrap messaging) name

/-- An envelope that is not signed holds what it held. -/
theorem unsigned_leaves (L : Estate) (name : String) : unsigned.Leaves L name := by
  intro now messaging attachments signed h
  rw [unsigned, Except.ok.injEq] at h
  rw [h]

/-! ## Transports that differ in what they remember -/

/-- The transport with these ids remembered. -/
def As4Transport.remembering (t : As4Transport) (ids : List String) : As4Transport :=
  { t with receipting := { t.receipting with ids := ids } }

section Remembering

variable (L : Estate) (t : As4Transport) (ids : List String) (now : Moment)

@[simp] theorem ids_remembering : (t.remembering ids).receipting.ids = ids := rfl

@[simp] theorem remembering_remembering (ids' : List String) :
    (t.remembering ids).remembering ids' = t.remembering ids' := rfl

/-- What a request is read as does not depend on what is remembered. -/
@[simp] theorem unpack_remembering (request : Request) :
    (t.remembering ids).unpack L now request = t.unpack L now request := rfl

/-- Whether a message is admitted does not depend on what is remembered. -/
@[simp] theorem admits_remembering (m : UserMessage) (bytes : Bytes) :
    (t.remembering ids).admits L now m bytes = t.admits L now m bytes := rfl

/-- Whether a Receipt can be signed does not depend on what is remembered. -/
@[simp] theorem receipt_remembering (m : UserMessage) :
    (t.remembering ids).receipting.receipt L now m = t.receipting.receipt L now m := rfl

end Remembering

/-! ## Hearing -/

/-- What a message refused as it is read is answered. -/
def refusal (L : Estate) (now : Moment) (refTo : Option String) (kind : String)
    (e : TransportError) : Response :=
  soap L now (if e.retryable then 503 else 400)
    (Signal.error L now refTo (if e.retryable then other else kind) e.message)

/-- A message refused as it is read is answered at once. -/
theorem refused_eq (L : Estate) (now : Moment) (refTo : Option String) (kind : String)
    (e : TransportError) :
    refused L now refTo kind e = .Answered (.error e) (refusal L now refTo kind e) := by
  unfold refused refusal
  cases e.retryable <;> rfl

/-- The status of a refusal at reading says whether to send again. -/
theorem status_refusal (L : Estate) (now : Moment) (refTo : Option String) (kind : String)
    (e : TransportError) :
    (refusal L now refTo kind e).status = if e.retryable then 503 else 400 := rfl

/-- A refusal at reading is not answered a status from `200` on and below `300`. -/
theorem refusal_range (L : Estate) (now : Moment) (refTo : Option String) (kind : String)
    (e : TransportError) :
    ¬ (200 ≤ (refusal L now refTo kind e).status ∧ (refusal L now refTo kind e).status < 300) := by
  rw [status_refusal]
  split_ifs
  · omega
  · omega

/-- A refusal at reading is not answered `200`. -/
theorem refusal_status (L : Estate) (now : Moment) (refTo : Option String) (kind : String)
    (e : TransportError) : (refusal L now refTo kind e).status ≠ 200 := by
  have hrange := refusal_range L now refTo kind e
  omega

/-- What is refused at reading may be sent again where its error says so. -/
theorem retryable_refusal {L : Estate} (hS : L.Statuses) (now : Moment) (refTo : Option String)
    (kind : String) (e : TransportError) :
    L.retryable (refusal L now refTo kind e).status = e.retryable := by
  rw [status_refusal]
  cases e.retryable with
  | true => exact hS.retryable_of 503 (by decide)
  | false => exact hS.final_of 400 (by decide)

/-- The answer of a side that cannot sign is not `200`. -/
theorem unsigned_status : (Response.new 500).status ≠ 200 := by
  decide

/-- The ways a POST is heard. -/
inductive Hears (L : Estate) (t : As4Transport) (now : Moment) (request : Request)
    (peer : SocketAddr) : Hearing → Prop where
  /-- It is not an AS4 message. -/
  | unread {e : TransportError} (hunpack : t.unpack L now request = .error e) :
      Hears L t now request peer (.Answered (.error e) (refusal L now none valueNotRecognized e))
  /-- It is one this party does not take. -/
  | unadmitted {m : UserMessage} {bytes : Bytes} {e : TransportError}
      (hunpack : t.unpack L now request = .ok (m, bytes))
      (hadmits : t.admits L now m bytes = .error e) :
      Hears L t now request peer
        (.Answered (.error e) (refusal L now (some m.messageId) policyNoncompliance e))
  /-- It is one taken before, receipted again. -/
  | again {m : UserMessage} {bytes : Bytes} {a : Response}
      (hunpack : t.unpack L now request = .ok (m, bytes))
      (hadmits : t.admits L now m bytes = .ok ()) (hseen : m.messageId ∈ t.receipting.ids)
      (hreceipt : t.receipting.receipt L now m = .ok a) :
      Hears L t now request peer (.Answered (.ok none) a)
  /-- It is one taken before, and this side cannot sign. -/
  | unsigned {m : UserMessage} {bytes : Bytes} {e : TransportError}
      (hunpack : t.unpack L now request = .ok (m, bytes))
      (hadmits : t.admits L now m bytes = .ok ()) (hseen : m.messageId ∈ t.receipting.ids)
      (hreceipt : t.receipting.receipt L now m = .error e) :
      Hears L t now request peer (.Answered (.error e) (Response.new 500))
  /-- It is a new one, which waits. -/
  | new {m : UserMessage} {bytes : Bytes}
      (hunpack : t.unpack L now request = .ok (m, bytes))
      (hadmits : t.admits L now m bytes = .ok ()) (hnew : m.messageId ∉ t.receipting.ids) :
      Hears L t now request peer
        (.Waiting (.ok (some (m, originOf request peer m, bytes, ⟨request, peer⟩))))

namespace As4Transport

variable (L : Estate) (t : As4Transport)

/-- A message is taken where it is addressed to this party and the check, if any, takes it. -/
theorem admits_eq_ok {now : Moment} {m : UserMessage} {bytes : Bytes} :
    t.admits L now m bytes = .ok () ↔ m.toParty = t.template.fromParty ∧
      ∀ check, t.check = some check → check now m bytes = .ok () := by
  unfold admits
  by_cases hto : m.toParty = t.template.fromParty
  · rw [if_neg (not_not.mpr hto)]
    cases t.check with
    | none => simp [hto]
    | some check => simp [hto]
  · rw [if_pos hto]
    constructor
    · intro h
      cases h
    · rintro ⟨h, -⟩
      exact absurd h hto

/-- Without a check, a message is taken where it is addressed to this party. -/
theorem admits_unchecked {now : Moment} {m : UserMessage} {bytes : Bytes}
    (hto : m.toParty = t.template.fromParty) (hcheck : t.check = none) :
    t.admits L now m bytes = .ok () := by
  refine (t.admits_eq_ok L).mpr ⟨hto, ?_⟩
  intro check h
  rw [hcheck] at h
  cases h

/-- A POST is heard in one of the ways there are. -/
theorem hears (now : Moment) (request : Request) (peer : SocketAddr) :
    Hears L t now request peer (t.hear L now request peer) := by
  unfold hear
  cases hunpack : t.unpack L now request with
  | error e =>
    simp only
    rw [refused_eq]
    exact .unread hunpack
  | ok read =>
    obtain ⟨m, bytes⟩ := read
    simp only
    cases hadmits : t.admits L now m bytes with
    | error e =>
      simp only
      rw [refused_eq]
      exact .unadmitted hunpack hadmits
    | ok _ =>
      simp only
      by_cases hseen : m.messageId ∈ t.receipting.ids
      · rw [if_pos (t.receipting.seen_iff.mpr hseen)]
        cases hreceipt : t.receipting.receipt L now m with
        | ok a => exact .again hunpack hadmits hseen hreceipt
        | error e => exact .unsigned hunpack hadmits hseen hreceipt
      · rw [if_neg (fun h => hseen (t.receipting.seen_iff.mp h))]
        exact .new hunpack hadmits hseen

end As4Transport

namespace Hears

variable {L : Estate} {t : As4Transport} {now : Moment} {request : Request} {peer : SocketAddr}

/-- There is one way a POST is heard. -/
theorem eq_hear {h : Hearing} (hh : Hears L t now request peer h) :
    t.hear L now request peer = h := by
  unfold As4Transport.hear
  cases hh with
  | unread hunpack => rw [hunpack, ← refused_eq]
  | unadmitted hunpack hadmits =>
    rw [hunpack, ← refused_eq]
    simp only
    rw [hadmits]
  | again hunpack hadmits hseen hreceipt =>
    rw [hunpack]
    simp only
    rw [hadmits]
    simp only
    rw [if_pos (t.receipting.seen_iff.mpr hseen), hreceipt]
  | unsigned hunpack hadmits hseen hreceipt =>
    rw [hunpack]
    simp only
    rw [hadmits]
    simp only
    rw [if_pos (t.receipting.seen_iff.mpr hseen), hreceipt]
  | new hunpack hadmits hnew =>
    rw [hunpack]
    simp only
    rw [hadmits]
    simp only
    rw [if_neg (fun h => hnew (t.receipting.seen_iff.mp h))]

end Hears

/-- A request is read as one message. -/
theorem read_unique {L : Estate} {t : As4Transport} {now : Moment} {request : Request}
    {m m' : UserMessage} {bytes bytes' : Bytes} (h : t.unpack L now request = .ok (m, bytes))
    (h' : t.unpack L now request = .ok (m', bytes')) : m = m' ∧ bytes = bytes' := by
  rw [h, Except.ok.injEq, Prod.mk.injEq] at h'
  exact h'

/-- What is not read is not admitted. -/
theorem not_admitted_of_unread {L : Estate} {t : As4Transport} {now : Moment}
    {request : Request} {e : TransportError} (hunpack : t.unpack L now request = .error e) :
    ∀ m bytes, t.unpack L now request = .ok (m, bytes) → t.admits L now m bytes ≠ .ok () := by
  intro m bytes hok
  rw [hunpack] at hok
  cases hok

/-- What is read and not admitted is read as nothing that is admitted. -/
theorem not_admitted_of_unadmitted {L : Estate} {t : As4Transport} {now : Moment}
    {request : Request} {m : UserMessage} {bytes : Bytes} {e : TransportError}
    (hunpack : t.unpack L now request = .ok (m, bytes))
    (hadmits : t.admits L now m bytes = .error e) :
    ∀ m bytes, t.unpack L now request = .ok (m, bytes) → t.admits L now m bytes ≠ .ok () := by
  intro m bytes hok hadm
  obtain ⟨rfl, rfl⟩ := read_unique hunpack hok
  rw [hadmits] at hadm
  cases hadm

/-- A message waits exactly where it is read, admitted and not remembered. -/
theorem hear_waiting_iff {L : Estate} {t : As4Transport} {now : Moment} {request : Request}
    {peer : SocketAddr} {said : Result (Option Held)} :
    t.hear L now request peer = .Waiting said ↔
      ∃ m bytes, t.unpack L now request = .ok (m, bytes) ∧ t.admits L now m bytes = .ok () ∧
        m.messageId ∉ t.receipting.ids ∧
        said = .ok (some (m, originOf request peer m, bytes, ⟨request, peer⟩)) := by
  constructor
  · intro h
    have hh := t.hears L now request peer
    rw [h] at hh
    cases hh with
    | new hunpack hadmits hnew => exact ⟨_, _, hunpack, hadmits, hnew, rfl⟩
  · rintro ⟨m, bytes, hunpack, hadmits, hnew, rfl⟩
    exact (Hears.new hunpack hadmits hnew).eq_hear

/-! ## Serving -/

/-- The ways `accept_one` serves a request: what its caller is told, what is answered, and
the ids remembered from then on. -/
inductive Serves (L : Estate) (t : As4Transport) (now : Moment) (request : Request)
    (peer : SocketAddr) :
    Result (Option (UserMessage × Taken)) → Response → List String → Prop where
  /-- It is refused as it is read. -/
  | refused {e : TransportError} {refTo : Option String} {kind : String}
      (hnot : ∀ m bytes, t.unpack L now request = .ok (m, bytes) →
        t.admits L now m bytes ≠ .ok ()) :
      Serves L t now request peer (.error e) (refusal L now refTo kind e) t.receipting.ids
  /-- It was taken before, and is receipted again. -/
  | again {m : UserMessage} {bytes : Bytes} {a : Response}
      (hunpack : t.unpack L now request = .ok (m, bytes))
      (hadmits : t.admits L now m bytes = .ok ()) (hseen : m.messageId ∈ t.receipting.ids)
      (hreceipt : t.receipting.receipt L now m = .ok a) :
      Serves L t now request peer (.ok none) a t.receipting.ids
  /-- This side cannot sign. -/
  | unsigned {m : UserMessage} {bytes : Bytes} {e : TransportError}
      (hunpack : t.unpack L now request = .ok (m, bytes))
      (hadmits : t.admits L now m bytes = .ok ())
      (hreceipt : t.receipting.receipt L now m = .error e) :
      Serves L t now request peer (.error e) (Response.new 500) t.receipting.ids
  /-- It is new and accepted at once. -/
  | accepted {m : UserMessage} {bytes : Bytes} {a : Response}
      (hunpack : t.unpack L now request = .ok (m, bytes))
      (hadmits : t.admits L now m bytes = .ok ()) (hnew : m.messageId ∉ t.receipting.ids)
      (hreceipt : t.receipting.receipt L now m = .ok a) :
      Serves L t now request peer
        (.ok (some (m, ⟨originOf request peer m, bytes, ⟨request, peer⟩⟩))) a
        (Delivery.remember remembered m.messageId t.receipting.ids)

namespace Serves

variable {L : Estate} {t : As4Transport} {now : Moment} {request : Request} {peer : SocketAddr}
  {said : Result (Option (UserMessage × Taken))} {answer : Response} {ids : List String}

/-- A message is handed on exactly where it is read, admitted and not remembered, and its
Receipt is signed. -/
theorem said_iff (h : Serves L t now request peer said answer ids) (message : UserMessage)
    (taken : Taken) :
    said = .ok (some (message, taken)) ↔
      ∃ bytes, t.unpack L now request = .ok (message, bytes) ∧
        t.admits L now message bytes = .ok () ∧
        (∃ receipt, t.receipting.receipt L now message = .ok receipt) ∧
        message.messageId ∉ t.receipting.ids ∧
        taken = ⟨originOf request peer message, bytes, ⟨request, peer⟩⟩ := by
  constructor
  · rintro rfl
    cases h with
    | accepted hunpack hadmits hnew hreceipt =>
      exact ⟨_, hunpack, hadmits, ⟨_, hreceipt⟩, hnew, rfl⟩
  · rintro ⟨bytes, hunpack, hadmits, ⟨receipt, hreceipt⟩, hnew, rfl⟩
    cases h with
    | refused hnot => exact absurd hadmits (hnot message bytes hunpack)
    | again hunpack' _ hseen _ =>
      obtain ⟨rfl, rfl⟩ := read_unique hunpack hunpack'
      exact absurd hseen hnew
    | unsigned hunpack' _ hreceipt' =>
      obtain ⟨rfl, rfl⟩ := read_unique hunpack hunpack'
      rw [hreceipt] at hreceipt'
      cases hreceipt'
    | accepted hunpack' _ _ _ =>
      obtain ⟨rfl, rfl⟩ := read_unique hunpack hunpack'
      rfl

/-- What is answered `200` is a message remembered, or one handed on. -/
theorem of_status (h : Serves L t now request peer said answer ids)
    (hstatus : answer.status = 200) :
    ∃ message bytes, t.unpack L now request = .ok (message, bytes) ∧
      (message.messageId ∈ t.receipting.ids ∨ ∃ taken, said = .ok (some (message, taken))) := by
  cases h with
  | refused _ => exact absurd hstatus (refusal_status L _ _ _ _)
  | again hunpack _ hseen _ => exact ⟨_, _, hunpack, .inl hseen⟩
  | unsigned _ _ _ => exact absurd hstatus unsigned_status
  | accepted hunpack _ _ _ => exact ⟨_, _, hunpack, .inr ⟨_, rfl⟩⟩

end Serves

namespace As4Transport

variable (L : Estate) (t : As4Transport)

/-- A request is served in one of the ways there are, and nothing but the ids changes. -/
theorem serves (now : Moment) (request : Request) (peer : SocketAddr) :
    ∃ said answer ids, t.serve L now request peer = ((said, answer), t.remembering ids) ∧
      Serves L t now request peer said answer ids := by
  have hh := t.hears L now request peer
  unfold serve
  generalize t.hear L now request peer = h at hh
  cases hh with
  | unread hunpack => exact ⟨_, _, _, rfl, .refused (not_admitted_of_unread hunpack)⟩
  | unadmitted hunpack hadmits =>
    exact ⟨_, _, _, rfl, .refused (not_admitted_of_unadmitted hunpack hadmits)⟩
  | again hunpack hadmits hseen hreceipt =>
    exact ⟨_, _, _, rfl, .again hunpack hadmits hseen hreceipt⟩
  | unsigned hunpack hadmits hseen hreceipt =>
    exact ⟨_, _, _, rfl, .unsigned hunpack hadmits hreceipt⟩
  | @new m bytes hunpack hadmits hnew =>
    simp only
    cases hreceipt : t.receipting.receipt L now m with
    | error e =>
      rw [Receipting.answer_unsigned hreceipt]
      exact ⟨_, _, _, rfl, .unsigned hunpack hadmits hreceipt⟩
    | ok a =>
      rw [Receipting.answer_accepted hreceipt, Receipting.remember_eq]
      exact ⟨_, _, _, rfl, .accepted hunpack hadmits hnew hreceipt⟩

variable {L t} {now : Moment} {request : Request} (peer : SocketAddr) {m : UserMessage}
  {bytes : Bytes} {a : Response}

/-- A new message whose Receipt is signed is handed on, and its id remembered. -/
theorem serve_new (hunpack : t.unpack L now request = .ok (m, bytes))
    (hadmits : t.admits L now m bytes = .ok ()) (hnew : m.messageId ∉ t.receipting.ids)
    (hreceipt : t.receipting.receipt L now m = .ok a) :
    t.serve L now request peer =
      ((.ok (some (m, ⟨originOf request peer m, bytes, ⟨request, peer⟩⟩)), a),
        t.remembering (Delivery.remember remembered m.messageId t.receipting.ids)) := by
  rw [serve, (Hears.new hunpack hadmits hnew).eq_hear]
  simp only
  rw [Receipting.answer_accepted hreceipt, Receipting.remember_eq]
  rfl

/-- A message taken before is receipted again and not handed on. -/
theorem serve_again (hunpack : t.unpack L now request = .ok (m, bytes))
    (hadmits : t.admits L now m bytes = .ok ()) (hseen : m.messageId ∈ t.receipting.ids)
    (hreceipt : t.receipting.receipt L now m = .ok a) :
    t.serve L now request peer = ((.ok none, a), t) := by
  rw [serve, (Hears.again hunpack hadmits hseen hreceipt).eq_hear]

end As4Transport

end As4
