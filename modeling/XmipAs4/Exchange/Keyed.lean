import XmipAs4.Exchange.Agreement
import XmipAs4.Exchange.OneDelivery

/-!
# A keyed delivery retried

A sender posts one key again and again over a network that may lose any request and any
answer, beside whatever other traffic the far end has.  Every attempt carries the id formed
from the key, so the far end's memory of ids makes of the attempts one delivery, and a
Receipt that arrives is that delivery's.

One reception is one POST with its verdict, in whichever way the far end receives; `Receives`
is what one reception can do, and `Keyed` is the invariant of the rounds.
-/

namespace As4

open Delivery (run Along)
open Multipart (Bytes Absent)

/-! ## One reception -/

/-- The message that was told, if one was. -/
def Told.message : Told → Option UserMessage
  | .took (.ok (some (m, _))) => some m
  | .accepted (.ok (some (m, _))) => some m
  | _ => none

section Reception

variable (L : Estate) (s : FarEnd) (now : Moment) (request : Request) (peer : SocketAddr)
  (written : Result Unit)

/-- The far end receives a POST and gives it its verdict, if it is due one, before anything
else: its state after that, and what it answers.  `written` is what comes of putting the
answer on the wire. -/
def FarEnd.receive : Way → FarEnd × Option Response
  | .acceptOne =>
    match s.step L (.accept now (.read request peer written)) with
    | (s', _, answer) => (s', answer)
  | .takeNext judged verdict =>
    match s.step L (.take now (.posted request peer)) with
    | (s', _, some answer) => (s', some answer)
    | (s', _, none) =>
      match s'.step L (.judge judged s.handed.length verdict fun _ => written) with
      | (s'', _, answer) => (s'', answer)

/-- What the one who receives is told of the POST, by `take_next` before the verdict. -/
def FarEnd.tells : Way → Told
  | .acceptOne => (s.step L (.accept now (.read request peer written))).2.1
  | .takeNext _ _ => (s.step L (.take now (.posted request peer))).2.1

/-- What one reception can do where the signer never fails. -/
inductive Receives : FarEnd → Response → Prop where
  /-- It is refused as it is read. -/
  | refused {e : TransportError} {refTo : Option String} {kind : String}
      (hnot : ∀ m bytes, s.transport.unpack L now request = .ok (m, bytes) →
        s.transport.admits L now m bytes ≠ .ok ()) :
      Receives s (refusal L now refTo kind e)
  /-- It was taken before, and is receipted again. -/
  | again {m : UserMessage} {bytes : Bytes} {a : Response}
      (hunpack : s.transport.unpack L now request = .ok (m, bytes))
      (hseen : m.messageId ∈ s.transport.receipting.ids)
      (hreceipt : s.transport.receipting.receipt L now m = .ok a) :
      Receives s a
  /-- It is new, and is accepted. -/
  | accepted {m : UserMessage} {bytes : Bytes} {judged : Moment} {arrived : Arrived}
      {a : Response} (hunpack : s.transport.unpack L now request = .ok (m, bytes))
      (hadmits : s.transport.admits L now m bytes = .ok ())
      (hnew : m.messageId ∉ s.transport.receipting.ids) (harrived : arrived.answered = m)
      (hreceipt : s.transport.receipting.receipt L judged m = .ok a) :
      Receives ⟨s.transport.remembering
          (Delivery.remember remembered m.messageId s.transport.receipting.ids),
        s.handed ++ [⟨arrived, some (.Accepted, true)⟩]⟩ a
  /-- It is new, and is refused or its cycle failed. -/
  | declined {m : UserMessage} {bytes : Bytes} {judged : Moment} {arrived : Arrived}
      {v : Verdict} {status : ℕ} {kind description : String}
      (hunpack : s.transport.unpack L now request = .ok (m, bytes))
      (hnew : m.messageId ∉ s.transport.receipting.ids) (hv : v ≠ .Accepted) :
      Receives { s with handed := s.handed ++ [⟨arrived, some (v, true)⟩] }
        (soap L judged status (Signal.error L judged (some m.messageId) kind description))

variable {L s}

/-- The message handed up last is replaced. -/
theorem set_last (l : List HandUp) (x y : HandUp) : (l ++ [x]).set l.length y = l ++ [y] := by
  rw [List.set_append_right _ _ (Nat.le_refl _), Nat.sub_self]
  rfl

/-- Every reception by `accept_one` is by one of the rules, and is answered. -/
theorem receives_acceptOne (hsigns : s.transport.receipting.signer.Signs) :
    ∃ a, (s.receive L now request peer written .acceptOne).2 = some a ∧
      Receives L s now request (s.receive L now request peer written .acceptOne).1 a := by
  have hkept : ∀ a, Receives L s now request s a → Receives L s now request
      ⟨s.transport.remembering s.transport.receipting.ids, s.handed ++ []⟩ a := by
    intro a h
    rw [s.served_nothing]
    exact h
  have hstep := steps (L := L) s (.accept now (.read request peer written))
  unfold FarEnd.receive
  generalize s.step L (.accept now (.read request peer written)) = result at hstep
  obtain ⟨s', told, answer⟩ := result
  cases hstep with
  | @served _ _ _ _ said answer ids hserves =>
    refine ⟨answer, rfl, ?_⟩
    cases hserves with
    | refused hnot => exact hkept _ (.refused hnot)
    | again hunpack _ hseen hreceipt => exact hkept _ (.again hunpack hseen hreceipt)
    | unsigned _ _ hreceipt => exact absurd hreceipt (Receipting.receipt_ne_error hsigns _ _ _)
    | accepted hunpack hadmits hnew hreceipt => exact .accepted hunpack hadmits hnew rfl hreceipt

/-- A new message that was handed up last is given its verdict by one of the rules. -/
theorem receives_verdict (hsigns : s.transport.receipting.signer.Signs) {m : UserMessage}
    {bytes : Bytes} (hunpack : s.transport.unpack L now request = .ok (m, bytes))
    (hadmits : s.transport.admits L now m bytes = .ok ())
    (hnew : m.messageId ∉ s.transport.receipting.ids) {arrived : Arrived}
    (harrived : arrived.answered = m) (judged : Moment) (verdict : Verdict)
    (reply : Response → Result Unit) {s' : FarEnd} {told : Told} {answer : Option Response}
    (h : Steps L ⟨s.transport, s.handed ++ [⟨arrived, none⟩]⟩
      (.judge judged s.handed.length verdict reply) s' told answer) :
    ∃ a, answer = some a ∧ Receives L s now request s' a := by
  -- What waits at the index is the message itself.
  have hlast : ∀ {x y : HandUp}, (s.handed ++ [x])[s.handed.length]? = some y → y = x := by
    intro x y h
    rw [List.getElem?_concat_length, Option.some.injEq] at h
    exact h.symm
  cases h with
  | receipted hwaits hreceipt =>
    cases hlast hwaits
    rw [set_last, harrived]
    exact ⟨_, rfl, .accepted hunpack hadmits hnew harrived (harrived ▸ hreceipt)⟩
  | unsigned hwaits hreceipt => exact absurd hreceipt (Receipting.receipt_ne_error hsigns _ _ _)
  | declined hwaits hv =>
    cases hlast hwaits
    rw [set_last, harrived]
    exact ⟨_, rfl, .declined hunpack hnew hv⟩
  | nothing hnot => exact absurd List.getElem?_concat_length (hnot arrived)

/-- Every reception is by one of the rules, and is answered. -/
theorem receives (hsigns : s.transport.receipting.signer.Signs) (way : Way) :
    ∃ a, (s.receive L now request peer written way).2 = some a ∧
      Receives L s now request (s.receive L now request peer written way).1 a := by
  cases way with
  | acceptOne => exact receives_acceptOne now request peer written hsigns
  | takeNext judged verdict =>
    have hstep := steps (L := L) s (.take now (.posted request peer))
    unfold FarEnd.receive
    generalize s.step L (.take now (.posted request peer)) = result at hstep
    obtain ⟨s', told, answer⟩ := result
    cases hstep with
    | answered hears _ =>
      refine ⟨_, rfl, ?_⟩
      cases hears with
      | unread hunpack => exact .refused (not_admitted_of_unread hunpack)
      | unadmitted hunpack hadmits => exact .refused (not_admitted_of_unadmitted hunpack hadmits)
      | again hunpack _ hseen hreceipt => exact .again hunpack hseen hreceipt
      | unsigned _ _ _ hreceipt =>
        exact absurd hreceipt (Receipting.receipt_ne_error hsigns _ _ _)
    | handedUp hunpack hadmits hnew =>
      exact receives_verdict now request hsigns hunpack hadmits hnew rfl judged verdict _
        (steps _ _)

/-- A verdict on the message handed up last brings about no acceptance but that message's. -/
theorem acceptedIds_verdict {t : As4Transport} {l : List HandUp} {arrived : Arrived}
    {judged : Moment} {verdict : Verdict} {reply : Response → Result Unit} {id : String}
    (hid : id ∈ (FarEnd.step L ⟨t, l ++ [⟨arrived, none⟩]⟩
      (.judge judged l.length verdict reply)).1.acceptedIds) :
    id ∈ FarEnd.acceptedIds ⟨t, l⟩ ∨ arrived.answered.messageId = id := by
  have hwaits : (⟨t, l ++ [⟨arrived, none⟩]⟩ : FarEnd).handed[l.length]? = some ⟨arrived, none⟩ :=
    List.getElem?_concat_length
  obtain ⟨answer, receipting, -, hstep⟩ := step_judge_waits (L := L) judged hwaits verdict reply
  rw [hstep] at hid
  simp only at hid
  rw [set_last] at hid
  rcases mem_acceptedIds_append (t := t) hid with hid | ⟨hmessage, -⟩
  · exact .inl hid
  · exact .inr hmessage

/-- Whoever receives is told the message that is accepted, but where `accept_one` cannot write
its Receipt. -/
theorem told_of_accepted {way : Way} (hwritten : way = .acceptOne → written = .ok ())
    {id : String} (hnew : id ∉ s.acceptedIds)
    (hid : id ∈ (s.receive L now request peer written way).1.acceptedIds) :
    ∃ m, (s.tells L now request peer written way).message = some m ∧ m.messageId = id := by
  cases way with
  | acceptOne =>
    rw [hwritten rfl] at hid ⊢
    have hstep := steps (L := L) s (.accept now (.read request peer (.ok ())))
    unfold FarEnd.receive at hid
    unfold FarEnd.tells
    generalize s.step L (.accept now (.read request peer (.ok ()))) = result at hstep hid
    obtain ⟨s', told, answer⟩ := result
    cases hstep with
    | served hserves =>
      cases hserves with
      | refused _ => exact absurd (s.served_nothing ▸ hid) hnew
      | again _ _ _ _ => exact absurd (s.served_nothing ▸ hid) hnew
      | unsigned _ _ _ => exact absurd (s.served_nothing ▸ hid) hnew
      | accepted _ _ _ _ =>
        rcases mem_acceptedIds_append (t := s.transport) hid with hid | ⟨hmessage, -⟩
        · exact absurd hid hnew
        · exact ⟨_, rfl, hmessage⟩
  | takeNext judged verdict =>
    have hstep := steps (L := L) s (.take now (.posted request peer))
    unfold FarEnd.receive at hid
    unfold FarEnd.tells
    generalize s.step L (.take now (.posted request peer)) = result at hstep hid
    obtain ⟨s', told, answer⟩ := result
    cases hstep with
    | answered _ _ => exact absurd hid hnew
    | handedUp _ _ _ =>
      rcases acceptedIds_verdict hid with hid | hmessage
      · exact absurd hid hnew
      · exact ⟨_, rfl, hmessage⟩

/-- A reception is a run of one step or of two; where no message waits before it, no POST is
heard in it whose id waits. -/
theorem receive_run (way : Way) :
    ∃ es, (s.receive L now request peer written way).1 = run (FarEnd.step L) s es ∧
      ((∀ u ∈ s.handed, ¬ u.Waits) → Along (FarEnd.step L) (NoneWaiting L) s es) := by
  cases way with
  | acceptOne =>
    refine ⟨[.accept now (.read request peer written)], rfl, ?_⟩
    intro hidle
    exact ⟨fun _ _ _ _ _ _ _ u hu _ => hidle u hu, trivial⟩
  | takeNext judged verdict =>
    unfold FarEnd.receive
    generalize htake : s.step L (.take now (.posted request peer)) = result
    obtain ⟨s', told, answer⟩ := result
    cases answer with
    | some answer =>
      refine ⟨[.take now (.posted request peer)], ?_, ?_⟩
      · rw [Delivery.run_cons, htake, Delivery.run_nil]
      · intro hidle
        exact ⟨fun _ _ _ _ _ _ _ u hu _ => hidle u hu, trivial⟩
    | none =>
      refine ⟨[.take now (.posted request peer),
        .judge judged s.handed.length verdict fun _ => written], ?_, ?_⟩
      · rw [Delivery.run_cons, htake, Delivery.run_cons, Delivery.run_nil]
      · intro hidle
        refine ⟨fun _ _ _ _ _ _ _ u hu _ => hidle u hu, ?_, trivial⟩
        intro now request m bytes hposted
        cases hposted

end Reception

/-! ## Rounds -/

/-- What becomes of a request on the network, and of its answer. -/
inductive Fate where
  /-- The request is lost. -/
  | lost (error : TransportError)
  /-- The request reaches the far end, which receives it; its answer arrives or is lost. -/
  | reached (now : Moment) (peer : SocketAddr) (way : Way) (written : Result Unit)
      (arrives : Bool) (error : TransportError)

/-- One round: an attempt to send the key, or other traffic. -/
inductive Round where
  | attempt (posted later : Moment) (target : String) (fate : Fate)
  | other (now : Moment) (request : Request) (peer : SocketAddr) (way : Way)
      (written : Result Unit)

variable (L : Estate)

/-- The far end after an exchange, and what the exchange gives the sender. -/
def FarEnd.exchange (s : FarEnd) (request : Request) : Fate → FarEnd × Result Response
  | .lost error => (s, .error error)
  | .reached now peer way written arrives error =>
    match s.receive L now request peer written way with
    | (s', some answer) => (s', if arrives then .ok answer else .error error)
    | (s', none) => (s', .error error)

variable (near : As4Transport) (bytes : Bytes) (key : String)

/-- The far end after a round, and what the attempt's `post` returns, if it was one. -/
def rounding (s : FarEnd) : Round → FarEnd × Option (Result Unit)
  | .attempt posted later target fate =>
    (match near.posting L posted target bytes (some key) with
      | .ok (_, _, request) => (s.exchange L request fate).1
      | .error _ => s,
      some (near.post L posted later (fun _ request => (s.exchange L request fate).2) target bytes
        (some key)))
  | .other now request peer way written => ((s.receive L now request peer written way).1, none)

/-- The boundary of an attempt occurs in none of its parts. -/
def Clear : Round → Prop
  | .attempt posted _ target _ => ∀ endpoint message request signed,
      near.posting L posted target bytes (some key) = .ok (endpoint, message, request) →
      near.receipting.signer.sign posted (message.envelope L) [(message.payloadCid, bytes)] =
        .ok signed →
      Absent posted.boundary (Mime.parts signed [(message.payloadCid, bytes)])
  | .other _ _ _ _ _ => True

/-- Other traffic does not come to accept the key's id. -/
def LeavesKey (s : FarEnd) : Round → Prop
  | .attempt _ _ _ _ => True
  | .other now request peer way written =>
    messageIdOf key ∈ (s.receive L now request peer written way).1.acceptedIds →
      messageIdOf key ∈ s.acceptedIds

variable {L near bytes key}

/-- Every attempt carries the id formed from the key, and opens that conversation. -/
theorem posting_ids {posted : Moment} {target : String} {endpoint : Endpoint}
    {message : UserMessage} {request : Request}
    (h : near.posting L posted target bytes (some key) = .ok (endpoint, message, request)) :
    message.messageId = messageIdOf key ∧ message.conversationId = messageIdOf key := by
  obtain ⟨_, -, h⟩ := bind_eq_ok h
  obtain ⟨_, -, h⟩ := bind_eq_ok h
  cases h
  exact ⟨rfl, rfl⟩

/-- A post that succeeded went through its exchange and took the answer for its delivery. -/
theorem post_eq_ok {posted later : Moment} {target : String}
    {exchange : Endpoint → Request → Result Response}
    (h : near.post L posted later exchange target bytes (some key) = .ok ()) :
    ∃ endpoint message request response,
      near.posting L posted target bytes (some key) = .ok (endpoint, message, request) ∧
      exchange endpoint request = .ok response ∧
      near.verifyReceipt L later response message = .ok () := by
  obtain ⟨⟨endpoint, message, request⟩, hposting, h⟩ := bind_eq_ok h
  obtain ⟨response, hexchange, hverify⟩ := bind_eq_ok h
  exact ⟨endpoint, message, request, response, hposting, hexchange, hverify⟩

/-! ## The invariant of the rounds -/

/-- Every attempt that reaches the far end is read, and is addressed to it. -/
def AllRead (L : Estate) (near far : As4Transport) (bytes : Bytes) (key : String) : Prop :=
  ∃ payload, ∀ {posted later target message signed request},
    Posts L near posted target bytes (some key) message signed request →
      far.unpack L later request = .ok (message.readBack, payload) ∧
        message.readBack.toParty = far.template.fromParty

/-- One attempt that is read and admitted is as good as all. -/
def OneForAll (L : Estate) (near far : As4Transport) (bytes : Bytes) (key : String) : Prop :=
  ∀ {posted now target message signed request m payload},
    Posts L near posted target bytes (some key) message signed request →
    far.unpack L now request = .ok (m, payload) → far.admits L now m payload = .ok () →
      AllRead L near far bytes key

/-- What the states of the far end between two rounds have in common. -/
structure Keyed (L : Estate) (near far : As4Transport) (bytes : Bytes) (key : String)
    (s : FarEnd) : Prop where
  same : s.transport = far.remembering s.transport.receipting.ids
  sound : Sound s
  signed : Signed s
  /-- Every message has its verdict before the next round. -/
  idle : ∀ u ∈ s.handed, ¬ u.Waits
  reads : messageIdOf key ∈ s.acceptedIds → AllRead L near far bytes key

section Invariant

variable {far : As4Transport} {s : FarEnd}

/-- A far end that has received nothing, and whose signer never fails, is in a state of the
invariant. -/
theorem Keyed.of_fresh (hids : far.receipting.ids = []) (hsigns : far.receipting.signer.Signs) :
    Keyed L near far bytes key (.fresh far) where
  same := rfl
  sound := sound_fresh hids
  signed := signed_fresh hsigns
  idle := by
    intro u hu
    exact absurd hu List.not_mem_nil
  reads := by
    intro hid
    exact absurd hid List.not_mem_nil

/-- The id an attempt's message reads back with is the key's. -/
theorem readBack_messageId {posted : Moment} {target signed : String} {message : UserMessage}
    {request : Request} (h : Posts L near posted target bytes (some key) message signed request) :
    message.readBack.messageId = messageIdOf key := by
  have hshape := near.template.keyed_fresh posted (some key)
  rw [UserMessage.readBack, h.message_eq, hshape]
  rfl

/-- Attempts that reach a far end without a certificate are read alike. -/
theorem oneForAll_unsigned (hL : L.Lawful) (hunsigned : far.receipting.signer = unsigned)
    (hnear : near.receipting.signer.Leaves L "UserMessage") : OneForAll L near far bytes key := by
  intro posted now target message signed request m payload hpost hunpack hadmits
  have hto := ((far.admits_eq_ok L).mp hadmits).1
  have hm := read_of_posted hL hpost hnear hunpack
  have hshape := near.template.keyed_fresh posted (some key)
  refine ⟨payload, ?_⟩
  intro posted' later' target' message' signed' request' hpost'
  have hshape' := near.template.keyed_fresh posted' (some key)
  refine ⟨unpack_posted_alike hL hunsigned hnear hpost hpost' hunpack, ?_⟩
  rw [← hto, hm, UserMessage.readBack, UserMessage.readBack, hpost.message_eq, hpost'.message_eq,
    hshape, hshape']

/-- What is accepted after a reception was accepted before it, or is what it accepted. -/
theorem Receives.mem_acceptedIds {now : Moment} {request : Request} {s' : FarEnd} {a : Response}
    (h : Receives L s now request s' a) {id : String} (hid : id ∈ s'.acceptedIds) :
    id ∈ s.acceptedIds ∨ ∃ m payload, s.transport.unpack L now request = .ok (m, payload) ∧
      s.transport.admits L now m payload = .ok () ∧ m.messageId = id := by
  cases h with
  | refused _ => exact .inl hid
  | again _ _ _ => exact .inl hid
  | accepted hunpack hadmits _ harrived _ =>
    rcases mem_acceptedIds_append hid with hid | ⟨hmessage, -⟩
    · exact .inl hid
    · refine .inr ⟨_, _, hunpack, hadmits, ?_⟩
      rw [← hmessage, ← harrived]
      rfl
  | declined _ _ hv =>
    rcases mem_acceptedIds_append hid with hid | ⟨-, answered, hverdict⟩
    · exact .inl hid
    · cases hverdict
      exact absurd rfl hv

/-- After a reception no message waits, where none waited before it. -/
theorem Receives.idle {now : Moment} {request : Request} {s' : FarEnd} {a : Response}
    (h : Receives L s now request s' a) (hidle : ∀ u ∈ s.handed, ¬ u.Waits) :
    ∀ u ∈ s'.handed, ¬ u.Waits := by
  have happend : ∀ (arrived : Arrived) (given : Verdict × Bool),
      ∀ u ∈ s.handed ++ [⟨arrived, some given⟩], ¬ u.Waits := by
    intro arrived given u hu hwaits
    rcases List.mem_append.mp hu with hu | hu
    · exact hidle u hu hwaits
    · rw [List.mem_singleton] at hu
      subst hu
      cases hwaits
  cases h with
  | refused _ => exact hidle
  | again _ _ _ => exact hidle
  | accepted _ _ _ _ _ => exact happend _ _
  | declined _ _ _ => exact happend _ _

/-- What was accepted stays accepted through a reception. -/
theorem acceptedIds_receive (s : FarEnd) (now : Moment) (request : Request) (peer : SocketAddr)
    (written : Result Unit) (way : Way) :
    s.acceptedIds ⊆ (s.receive L now request peer written way).1.acceptedIds := by
  obtain ⟨es, hes, -⟩ := receive_run (L := L) (s := s) now request peer written way
  rw [hes]
  exact Delivery.run_subset acceptedIds_step s es

/-- A reception keeps the invariant, where what it accepts of the key's id shows that every
attempt is read. -/
theorem Keyed.receive (hs : Keyed L near far bytes key s) (now : Moment) (request : Request)
    (peer : SocketAddr) (written : Result Unit) (way : Way) {K : Finset String}
    (hcard : K.card ≤ remembered)
    (hK : ∀ id ∈ (s.receive L now request peer written way).1.acceptedIds, id ∈ K)
    (hreads : messageIdOf key ∈ (s.receive L now request peer written way).1.acceptedIds →
      AllRead L near far bytes key) :
    Keyed L near far bytes key (s.receive L now request peer written way).1 := by
  obtain ⟨a, -, hreceives⟩ :=
    receives (L := L) (s := s) now request peer written hs.signed.signs way
  have hidle := hreceives.idle hs.idle
  obtain ⟨es, hes, hone⟩ := receive_run (L := L) (s := s) now request peer written way
  rw [hes] at hK hreads hidle ⊢
  have hsame := run_transport (L := L) s es
  refine ⟨?_, hs.sound.run (hone hs.idle) hcard hK, ?_, hidle, hreads⟩
  · rw [hs.same, remembering_remembering] at hsame
    exact hsame
  · exact Delivery.run_invariant Signed (fun s e h => h.step (steps s e)) hs.signed es

/-- An exchange whose request arrives leaves the far end as the reception does. -/
theorem exchange_reached (now : Moment) (request : Request) (peer : SocketAddr) (way : Way)
    (written : Result Unit) (arrives : Bool) (error : TransportError) :
    (s.exchange L request (.reached now peer way written arrives error)).1 =
      (s.receive L now request peer written way).1 := by
  unfold FarEnd.exchange
  simp only
  generalize s.receive L now request peer written way = received
  obtain ⟨s', answer⟩ := received
  cases answer <;> rfl

/-- An attempt that does not get as far as the network leaves the far end as it was. -/
theorem rounding_unposted {posted later : Moment} {target : String} {fate : Fate}
    {e : TransportError} (h : near.posting L posted target bytes (some key) = .error e) :
    (rounding L near bytes key s (.attempt posted later target fate)).1 = s := by
  unfold rounding
  simp only
  rw [h]

/-- An attempt that gets as far as the network leaves the far end as the exchange does. -/
theorem rounding_posted {posted later : Moment} {target : String} {fate : Fate}
    {endpoint : Endpoint} {message : UserMessage} {request : Request}
    (h : near.posting L posted target bytes (some key) = .ok (endpoint, message, request)) :
    (rounding L near bytes key s (.attempt posted later target fate)).1 =
      (s.exchange L request fate).1 := by
  unfold rounding
  simp only
  rw [h]

/-- What was accepted stays accepted through a round. -/
theorem acceptedIds_rounding (s : FarEnd) (r : Round) :
    s.acceptedIds ⊆ (rounding L near bytes key s r).1.acceptedIds := by
  cases r with
  | other now request peer way written => exact acceptedIds_receive s now request peer written way
  | attempt posted later target fate =>
    cases hposting : near.posting L posted target bytes (some key) with
    | error e =>
      rw [rounding_unposted hposting]
      exact List.Subset.refl _
    | ok posting =>
      rw [rounding_posted hposting]
      cases fate with
      | lost error => exact List.Subset.refl _
      | reached now peer way written arrives error =>
        rw [exchange_reached]
        exact acceptedIds_receive s now _ peer written way

variable (hall : OneForAll L near far bytes key)
include hall

/-- A round keeps the invariant. -/
theorem Keyed.rounding (hs : Keyed L near far bytes key s) {r : Round}
    (hclear : Clear L near bytes key r) (hleaves : LeavesKey L key s r) {K : Finset String}
    (hcard : K.card ≤ remembered)
    (hK : ∀ id ∈ (As4.rounding L near bytes key s r).1.acceptedIds, id ∈ K) :
    Keyed L near far bytes key (As4.rounding L near bytes key s r).1 := by
  cases r with
  | other now request peer way written =>
    apply hs.receive now request peer written way hcard hK
    intro hid
    exact hs.reads (hleaves hid)
  | attempt posted later target fate =>
    cases hposting : near.posting L posted target bytes (some key) with
    | error e =>
      rw [rounding_unposted hposting]
      exact hs
    | ok posting =>
      obtain ⟨endpoint, message, request⟩ := posting
      obtain ⟨signed, hpost⟩ := Posts.of_posting hposting fun signed =>
        hclear endpoint message request signed hposting
      rw [rounding_posted hposting] at hK ⊢
      cases fate with
      | lost error => exact hs
      | reached now peer way written arrives error =>
        rw [exchange_reached] at hK ⊢
        apply hs.receive now request peer written way hcard hK
        intro hid
        obtain ⟨a, -, hreceives⟩ :=
          receives (L := L) (s := s) now request peer written hs.signed.signs way
        rcases hreceives.mem_acceptedIds hid with hid | ⟨m, payload, hunpack, hadmits, -⟩
        · exact hs.reads hid
        · rw [hs.same] at hunpack hadmits
          exact hall hpost hunpack hadmits

/-- A run of rounds keeps the invariant. -/
theorem Keyed.run (hs : Keyed L near far bytes key s) {rounds : List Round}
    (hclear : ∀ r ∈ rounds, Clear L near bytes key r)
    (hleaves : Along (As4.rounding L near bytes key) (LeavesKey L key) s rounds)
    {K : Finset String} (hcard : K.card ≤ remembered)
    (hK : ∀ id ∈ (Delivery.run (As4.rounding L near bytes key) s rounds).acceptedIds, id ∈ K) :
    Keyed L near far bytes key (Delivery.run (As4.rounding L near bytes key) s rounds) := by
  refine Delivery.run_invariant_along (Keyed L near far bytes key) ?_ hs
    (((Delivery.along_of_forall hclear).and hleaves).and
      (Delivery.along_subset acceptedIds_rounding s rounds))
  rintro s' r hs' ⟨⟨hc, hl⟩, hsub⟩
  exact hs'.rounding hall hc hl hcard fun id hid => hK id (hsub hid)

/-- Every part of a run of rounds, from its beginning, keeps the invariant. -/
theorem Keyed.before (hs : Keyed L near far bytes key s) {rounds pre post : List Round}
    (hclear : ∀ r ∈ rounds, Clear L near bytes key r)
    (hleaves : Along (As4.rounding L near bytes key) (LeavesKey L key) s rounds)
    (hcard : (Delivery.run (As4.rounding L near bytes key) s rounds).acceptedIds.toFinset.card ≤
      remembered) (h : rounds = pre ++ post) :
    Keyed L near far bytes key (Delivery.run (As4.rounding L near bytes key) s pre) := by
  subst h
  refine hs.run hall (fun r hr => hclear r (List.mem_append_left _ hr))
    ((Delivery.along_append _ _ _ _).mp hleaves).1 hcard ?_
  intro id hid
  rw [Delivery.run_append]
  exact List.mem_toFinset.mpr (Delivery.run_subset acceptedIds_rounding _ post hid)

end Invariant

/-! ## One delivery of the key -/

/-- The key's message was accepted as the `i`-th of those handed up or accepted, also where
`accept_one` could not write its Receipt and did not return it. -/
def FarEnd.acceptedAt (s : FarEnd) (key : String) (i : ℕ) : Prop :=
  ∃ u, s.handed[i]? = some u ∧ u.messageId = messageIdOf key ∧ u.Accepted

namespace Keyed

variable {far : As4Transport} {s : FarEnd} (hs : Keyed L near far bytes key s)
include hs

/-- The key's message was accepted at most once. -/
theorem acceptedAt_unique {i j : ℕ} (hi : s.acceptedAt key i) (hj : s.acceptedAt key j) :
    i = j := by
  obtain ⟨u, hui, huid, huaccepted⟩ := hi
  obtain ⟨v, hvj, hvid, hvaccepted⟩ := hj
  have hu := hs.signed.receipted u (List.mem_of_getElem? hui) huaccepted
  have hv := hs.signed.receipted v (List.mem_of_getElem? hvj) hvaccepted
  exact hs.sound.apart i j u v hui hvj (.inr hu) (.inr hv) (huid.trans hvid.symm)

/-- Where the key's message was accepted, it was exactly once. -/
theorem existsUnique_acceptedAt (hid : messageIdOf key ∈ s.acceptedIds) :
    ∃! i, s.acceptedAt key i := by
  obtain ⟨u, hu, hmessage, haccepted⟩ := mem_acceptedIds.mp hid
  obtain ⟨i, hi⟩ := List.mem_iff_getElem?.mp hu
  refine ⟨i, ⟨u, hi, hmessage, haccepted⟩, ?_⟩
  intro j hj
  exact hs.acceptedAt_unique hj ⟨u, hi, hmessage, haccepted⟩

/-- An acceptance of the key's message is remembered. -/
theorem mem_ids (hid : messageIdOf key ∈ s.acceptedIds) :
    messageIdOf key ∈ s.transport.receipting.ids := by
  obtain ⟨u, hu, hmessage, haccepted⟩ := mem_acceptedIds.mp hid
  rw [← hmessage]
  exact hs.sound.taken u hu (hs.signed.receipted u hu haccepted)

/-- Once the key's message was accepted, an attempt whose message the check takes is answered
a Receipt, and nothing is handed up. -/
theorem receive_again (hid : messageIdOf key ∈ s.acceptedIds) {posted : Moment}
    {target signed : String} {message : UserMessage} {request : Request}
    (hpost : Posts L near posted target bytes (some key) message signed request) (now : Moment)
    (peer : SocketAddr) (written : Result Unit) (way : Way)
    (hcheck : ∀ check, far.check = some check → ∀ m payload,
      far.unpack L now request = .ok (m, payload) → check now m payload = .ok ()) :
    ∃ m receipt, s.receive L now request peer written way = (s, some receipt) ∧
      far.receipting.receipt L now m = .ok receipt ∧ m.messageId = messageIdOf key := by
  obtain ⟨payload, hread⟩ := hs.reads hid
  have hboth : far.unpack L now request = .ok (message.readBack, payload) ∧ _ := hread hpost
  obtain ⟨hunpack, hto⟩ := hboth
  have hadmits : far.admits L now message.readBack payload = .ok () :=
    (far.admits_eq_ok L).mpr ⟨hto, fun check h => hcheck check h _ _ hunpack⟩
  have hmessage := readBack_messageId hpost
  obtain ⟨a, ha, hreceives⟩ :=
    receives (L := L) (s := s) now request peer written hs.signed.signs way
  have hseen := hs.mem_ids hid
  have hunpack' : s.transport.unpack L now request = .ok (message.readBack, payload) := by
    rw [hs.same]
    exact hunpack
  have hadmits' : s.transport.admits L now message.readBack payload = .ok () := by
    rw [hs.same]
    exact hadmits
  -- What is read is the key's message and no other.
  have hthis : ∀ {m b}, s.transport.unpack L now request = .ok (m, b) → m = message.readBack :=
    fun h => (read_unique h hunpack').1
  generalize s.receive L now request peer written way = received at ha hreceives
  obtain ⟨s', answer⟩ := received
  simp only at ha hreceives
  subst ha
  cases hreceives with
  | refused hnot => exact absurd hadmits' (hnot _ _ hunpack')
  | again hread' _ hreceipt =>
    rw [hs.same] at hreceipt
    exact ⟨_, a, rfl, hreceipt, by rw [hthis hread', hmessage]⟩
  | accepted hread' _ hnew _ _ =>
    rw [hthis hread', hmessage] at hnew
    exact absurd hseen hnew
  | declined hread' hnew _ =>
    rw [hthis hread', hmessage] at hnew
    exact absurd hseen hnew

/-- An attempt whose `post` succeeds leaves the key's message accepted. -/
theorem accepted_of_ok (hL : L.Lawful)
    (hleaves : far.receipting.signer.Leaves L "SignalMessage") {r : Round}
    (hok : (As4.rounding L near bytes key s r).2 = some (.ok ())) :
    messageIdOf key ∈ (As4.rounding L near bytes key s r).1.acceptedIds := by
  cases r with
  | other now request peer way written => cases hok
  | attempt posted later target fate =>
    obtain ⟨endpoint, message, request, response, hposting, hexchange, hverify⟩ :=
      post_eq_ok (Option.some.inj hok)
    have hid := (posting_ids hposting).1
    have hsigner : s.transport.receipting.signer.Leaves L "SignalMessage" := by
      rw [hs.same]
      exact hleaves
    have hnamed : ∀ {now m}, s.transport.receipting.receipt L now m = .ok response →
        m.messageId = messageIdOf key := by
      intro now m hreceipt
      rw [messageId_of_verify hL hsigner hreceipt hverify, hid]
    rw [rounding_posted hposting]
    cases fate with
    | lost error => cases hexchange
    | reached now peer way written arrives error =>
      rw [exchange_reached]
      obtain ⟨a, ha, hreceives⟩ :=
        receives (L := L) (s := s) now request peer written hs.signed.signs way
      have harrived : a = response := by
        unfold FarEnd.exchange at hexchange
        simp only at hexchange
        generalize s.receive L now request peer written way = received at ha hexchange
        obtain ⟨s', answer⟩ := received
        simp only at ha
        subst ha
        cases arrives with
        | false => cases hexchange
        | true => exact Except.ok.inj hexchange
      subst harrived
      generalize (s.receive L now request peer written way).1 = s' at hreceives
      cases hreceives with
      | refused _ => exact absurd hverify (verifyReceipt_error_ne hL _ _ _ _)
      | again _ hseen hreceipt =>
        rw [hnamed hreceipt] at hseen
        exact hs.sound.vouched.mem_acceptedIds hseen
      | accepted _ _ _ harrived hreceipt =>
        refine mem_acceptedIds.mpr ⟨_, List.mem_append_right _ (List.mem_singleton.mpr rfl), ?_,
          true, rfl⟩
        rw [HandUp.messageId, harrived, hnamed hreceipt]
      | declined _ _ _ => exact absurd hverify (verifyReceipt_error_ne hL _ _ _ _)

end Keyed

/-- An id was accepted where one of those handed up was accepted under it. -/
theorem mem_acceptedIds_iff_acceptedAt {s : FarEnd} :
    messageIdOf key ∈ s.acceptedIds ↔ ∃ i, s.acceptedAt key i := by
  constructor
  · intro hid
    obtain ⟨u, hu, hmessage, haccepted⟩ := mem_acceptedIds.mp hid
    obtain ⟨i, hi⟩ := List.mem_iff_getElem?.mp hu
    exact ⟨i, u, hi, hmessage, haccepted⟩
  · rintro ⟨i, u, hi, hmessage, haccepted⟩
    exact mem_acceptedIds.mpr ⟨u, List.mem_of_getElem? hi, hmessage, haccepted⟩

/-- What a run of rounds makes of a key: one delivery, however often it is sent.  What is counted
is what is accepted; `told` says when whoever receives is told it. -/
structure DeliveredOnce (L : Estate) (near far : As4Transport) (bytes : Bytes) (key : String)
    (rounds : List Round) : Prop where
  /-- Every attempt carries the id formed from the key, and opens that conversation. -/
  ids : ∀ posted target endpoint message request,
    near.posting L posted target bytes (some key) = .ok (endpoint, message, request) →
    message.messageId = messageIdOf key ∧ message.conversationId = messageIdOf key
  /-- The message is accepted at most once. -/
  once : ∀ i j, (run (rounding L near bytes key) (.fresh far) rounds).acceptedAt key i →
    (run (rounding L near bytes key) (.fresh far) rounds).acceptedAt key j → i = j
  /-- Once it is, every attempt that reaches the far end and whose message the check takes is
  answered a Receipt for the key's id, and leaves the far end as it was: nothing is handed
  up. -/
  again : ∀ pre posted later target now peer way written arrives error post,
    rounds = pre ++ .attempt posted later target
      (.reached now peer way written arrives error) :: post →
    (∃ i, (run (rounding L near bytes key) (.fresh far) pre).acceptedAt key i) →
    ∀ endpoint message request,
      near.posting L posted target bytes (some key) = .ok (endpoint, message, request) →
      (∀ check, far.check = some check → ∀ m payload,
        far.unpack L now request = .ok (m, payload) → check now m payload = .ok ()) →
      ∃ m receipt, m.messageId = messageIdOf key ∧
        far.receipting.receipt L now m = .ok receipt ∧
        (run (rounding L near bytes key) (.fresh far) pre).receive L now request peer written way =
          (run (rounding L near bytes key) (.fresh far) pre, some receipt)
  /-- Whoever receives the attempt that is accepted is told the message, but where `accept_one`
  cannot write its Receipt. -/
  told : ∀ pre posted later target now peer way written arrives error post,
    rounds = pre ++ .attempt posted later target
      (.reached now peer way written arrives error) :: post →
    (way = .acceptOne → written = .ok ()) →
    (¬ ∃ i, (run (rounding L near bytes key) (.fresh far) pre).acceptedAt key i) →
    (∃ i, (run (rounding L near bytes key) (.fresh far) (pre ++ [.attempt posted later target
      (.reached now peer way written arrives error)])).acceptedAt key i) →
    ∃ endpoint message request m,
      near.posting L posted target bytes (some key) = .ok (endpoint, message, request) ∧
      ((run (rounding L near bytes key) (.fresh far) pre).tells L now request peer written
        way).message = some m ∧ m.messageId = messageIdOf key
  /-- An attempt whose `post` succeeds was delivered: the message was accepted by then, and is
  accepted exactly once. -/
  delivered : ∀ pre r post, rounds = pre ++ r :: post →
    (rounding L near bytes key (run (rounding L near bytes key) (.fresh far) pre) r).2 =
      some (.ok ()) →
    (∃ i, (run (rounding L near bytes key) (.fresh far) (pre ++ [r])).acceptedAt key i) ∧
      ∃! i, (run (rounding L near bytes key) (.fresh far) rounds).acceptedAt key i

/-- A keyed delivery retried is one delivery.  Over a network that may lose any request and
any answer, beside other traffic that does not come to accept the key's id and accepts fewer
other ids than are remembered, with whatever verdicts: all attempts carry the key's id, the
far end accepts the message at most once, answers every attempt after that a Receipt without
handing it up, tells whoever receives it the message as it is accepted unless `accept_one`
cannot write the Receipt, and has accepted it exactly once where any attempt succeeds. -/
theorem keyed_delivered_once (hL : L.Lawful) {far : As4Transport}
    (hfar : far.receipting = .new unsigned)
    (hnear : near.receipting.signer.Leaves L "UserMessage") (rounds : List Round)
    (hclear : ∀ r ∈ rounds, Clear L near bytes key r)
    (hothers : Along (rounding L near bytes key) (LeavesKey L key) (.fresh far) rounds)
    (hfew : ((run (rounding L near bytes key) (.fresh far) rounds).acceptedIds.toFinset.erase
      (messageIdOf key)).card < remembered) :
    DeliveredOnce L near far bytes key rounds := by
  have hunsigned : far.receipting.signer = unsigned := by rw [hfar]; rfl
  have hids : far.receipting.ids = [] := by rw [hfar]; rfl
  have hall : OneForAll L near far bytes key := oneForAll_unsigned hL hunsigned hnear
  have hcard : (run (rounding L near bytes key) (.fresh far) rounds).acceptedIds.toFinset.card ≤
      remembered := by
    have hpred := Finset.pred_card_le_card_erase (a := messageIdOf key)
      (s := (run (rounding L near bytes key) (.fresh far) rounds).acceptedIds.toFinset)
    omega
  have hstate : ∀ pre post, rounds = pre ++ post →
      Keyed L near far bytes key (run (rounding L near bytes key) (.fresh far) pre) :=
    fun pre post => (Keyed.of_fresh hids (hunsigned ▸ unsigned_signs)).before hall hclear hothers
      hcard
  have hfinal := hstate rounds [] (List.append_nil rounds).symm
  refine ⟨?_, fun i j => hfinal.acceptedAt_unique, ?_, ?_, ?_⟩
  · intro posted target endpoint message request hposting
    exact posting_ids hposting
  · intro pre posted later target now peer way written arrives error post hrounds haccepted
      endpoint message request hposting hcheck
    have hmem : Round.attempt posted later target (.reached now peer way written arrives error) ∈
        rounds := by
      rw [hrounds]
      exact List.mem_append_right _ (List.mem_cons_self ..)
    obtain ⟨signed, hpost⟩ := Posts.of_posting hposting fun signed =>
      hclear _ hmem endpoint message request signed hposting
    obtain ⟨m, receipt, hreceive, hreceipt, hid⟩ := (hstate pre _ hrounds).receive_again
      (mem_acceptedIds_iff_acceptedAt.mpr haccepted) hpost now peer written way hcheck
    exact ⟨m, receipt, hid, hreceipt, hreceive⟩
  · intro pre posted later target now peer way written arrives error post _ hwritten hnone hthen
    rw [← mem_acceptedIds_iff_acceptedAt] at hnone hthen
    rw [Delivery.run_append, Delivery.run_cons, Delivery.run_nil] at hthen
    cases hposting : near.posting L posted target bytes (some key) with
    | error e =>
      rw [rounding_unposted hposting] at hthen
      exact absurd hthen hnone
    | ok posting =>
      obtain ⟨endpoint, message, request⟩ := posting
      rw [rounding_posted hposting, exchange_reached] at hthen
      obtain ⟨m, htold, hid⟩ := told_of_accepted now request peer written hwritten hnone hthen
      exact ⟨endpoint, message, request, m, rfl, htold, hid⟩
  · intro pre r post hrounds hok
    have hthen := (hstate pre _ hrounds).accepted_of_ok hL (hunsigned ▸ unsigned_leaves L _) hok
    have hlater : messageIdOf key ∈
        (run (rounding L near bytes key) (.fresh far) rounds).acceptedIds := by
      rw [hrounds, Delivery.run_append, Delivery.run_cons]
      exact Delivery.run_subset acceptedIds_rounding _ post hthen
    refine ⟨?_, hfinal.existsUnique_acceptedAt hlater⟩
    rw [Delivery.run_append, Delivery.run_cons, Delivery.run_nil]
    exact mem_acceptedIds_iff_acceptedAt.mp hthen

/-! ## The order retried on the bench -/

/-- What a far end that receives by `accept_one` does with a POST. -/
theorem receive_acceptOne {s : FarEnd} {now : Moment} {request : Request} {peer : SocketAddr}
    {said : Result (Option (UserMessage × Taken))} {answer : Response} {t : As4Transport}
    (h : s.transport.serve L now request peer = ((said, answer), t)) (written : Result Unit) :
    s.receive L now request peer written .acceptOne =
      (⟨t, s.handed ++ acceptedOf said⟩, some answer) := by
  unfold FarEnd.receive FarEnd.step acceptedOn As4Transport.acceptOne
  simp only
  rw [h]
  cases written <;> rfl

/-- The order is posted and received, and its answer arrives or is lost. -/
def sendOrder (tick : ℕ) (arrives : Bool) : Round :=
  .attempt (moment tick) (moment tick) ""
    (.reached (moment tick) "peer" .acceptOne (.ok ()) arrives ⟨"timed out", true⟩)

/-- Whenever it is posted, the order is the same request. -/
theorem posting_order (tick : ℕ) :
    buyer.posting bench (moment tick) "" goods (some "order") =
      .ok (⟨"/msh", "as4://bench/msh"⟩, order, orderRequest) := by
  rfl

/-- What becomes of the seller in a round of the order. -/
theorem rounding_order {s : FarEnd} {tick : ℕ} (arrives : Bool)
    {said : Result (Option (UserMessage × Taken))} {answer : Response} {t : As4Transport}
    (h : s.transport.serve bench (moment tick) orderRequest "peer" = ((said, answer), t)) :
    (rounding bench buyer goods "order" s (sendOrder tick arrives)).1 =
      ⟨t, s.handed ++ acceptedOf said⟩ := by
  rw [sendOrder, rounding_posted (posting_order tick), exchange_reached, receive_acceptOne h]

/-- The order is sent and its Receipt lost, and is sent again. -/
def retried : List Round := [sendOrder 1 false, sendOrder 2 true]

/-- The seller has accepted the order once. -/
theorem run_retried :
    run (rounding bench buyer goods "order") (.fresh seller) retried =
      ⟨seller.remembering [order.messageId], [acceptedOrder true]⟩ := by
  have hids : Delivery.remember remembered order.messageId [] = [order.messageId] := by
    simp [Delivery.remember]
  obtain ⟨hunpack, hadmits, hreceipt⟩ := seller_takes_order 1 []
  have hnew := As4Transport.serve_new "peer" hunpack hadmits List.not_mem_nil hreceipt
  obtain ⟨hunpack', hadmits', hreceipt'⟩ := seller_takes_order 2 [order.messageId]
  have hagain := As4Transport.serve_again "peer" hunpack' hadmits' (List.mem_singleton.mpr rfl)
    hreceipt'
  rw [ids_remembering, hids] at hnew
  have hfirst : (rounding bench buyer goods "order" (.fresh seller) (sendOrder 1 false)).1 =
      ⟨seller.remembering [order.messageId], [acceptedOrder true]⟩ :=
    rounding_order (s := .fresh seller) false hnew
  have hsecond := rounding_order (s := ⟨seller.remembering [order.messageId],
    [acceptedOrder true]⟩) true hagain
  rw [acceptedOf, List.append_nil] at hsecond
  · rw [retried, Delivery.run_cons, hfirst, Delivery.run_cons, hsecond, Delivery.run_nil]
  · intro m taken h
    cases h

/-- The order is delivered once, and its second attempt succeeds for that delivery. -/
theorem keyed_delivered_once_order :
    DeliveredOnce bench buyer seller goods "order" retried := by
  have hclear : ∀ tick arrives, Clear bench buyer goods "order" (sendOrder tick arrives) := by
    intro tick arrives endpoint message request signed hposting hsign
    rw [posting_order] at hposting
    cases hposting
    cases hsign
    exact order_absent tick
  refine keyed_delivered_once bench_lawful rfl (unsigned_leaves bench _) retried ?_ ?_ ?_
  · intro r hr
    simp only [retried, List.mem_cons, List.not_mem_nil, or_false] at hr
    rcases hr with rfl | rfl
    · exact hclear 1 false
    · exact hclear 2 true
  · exact ⟨trivial, trivial, trivial⟩
  · have hids : FarEnd.acceptedIds ⟨seller.remembering [order.messageId], [acceptedOrder true]⟩ =
        [messageIdOf "order"] := rfl
    rw [run_retried, hids]
    have hnone : [messageIdOf "order"].toFinset.erase (messageIdOf "order") = ∅ := by
      simp
    rw [hnone, Finset.card_empty]
    exact Receipting.remembered_pos

end As4
