import XmipAs4.Delivery.Run
import XmipAs4.Exchange.Hearing

/-!
# The far end

One transport that receives: the POSTs it hears in whatever order they come, the messages
it handed up with the verdicts they were given, and what each step tells and answers.
`take_next` hands a message up and leaves its Party waiting; a verdict may be given to any
message that waits; `accept_one` takes a POST and gives it its verdict at once.

A message that `accept_one` accepted counts as handed up also where the connection broke as its
Receipt was written: it was accepted and is remembered, but its caller was told the failure
instead of the message.  What the caller was told is in what each step tells.

`Steps` is what one step can do, rule by rule, and everything about runs is derived from it.
-/

namespace As4

open Delivery (run)
open Multipart (Bytes)

/-! ## States and steps -/

/-- A message handed up: what arrived, and the verdict it was given, if it was, with whether
that verdict could be answered. -/
structure HandUp where
  arrived : Arrived
  verdict : Option (Verdict × Bool)

namespace HandUp

variable (h : HandUp)

/-- The id of the message handed up. -/
def messageId : String := h.arrived.answered.messageId

/-- No verdict was given yet, and the Party waits. -/
def Waits : Prop := h.verdict = none

/-- The message was accepted. -/
def Accepted : Prop := ∃ answered, h.verdict = some (.Accepted, answered)

/-- The message was accepted and its Receipt signed. -/
def Receipted : Prop := h.verdict = some (.Accepted, true)

end HandUp

instance : DecidablePred HandUp.Receipted :=
  fun h => inferInstanceAs (Decidable (h.verdict = some (.Accepted, true)))

/-- A far end: its transport, and in order the messages it handed up, with those that
`accept_one` accepted and did not return because their Receipt could not be written. -/
structure FarEnd where
  transport : As4Transport
  handed : List HandUp

/-- What may happen to a far end: `take_next` takes what arrives; the `k`-th message handed
up is given its verdict, its answer put on its reply; `accept_one` serves a connection. -/
inductive Event where
  | take (now : Moment) (arrival : Arrival)
  | judge (now : Moment) (k : ℕ) (verdict : Verdict) (reply : Response → Result Unit)
  | accept (now : Moment) (connection : Connection)

/-- What the one who calls is told. -/
inductive Told where
  | took (said : Result (Option (UserMessage × Arrived)))
  | judged (said : Result Unit)
  | accepted (said : Result (Option (UserMessage × Taken)))
  | nothing

/-- The message that was accepted as a request was served, if one was. -/
def acceptedOf : Result (Option (UserMessage × Taken)) → List HandUp
  | .ok (some (message, taken)) =>
    [⟨⟨taken.originUri, taken.bytes, taken.sender, message⟩, some (.Accepted, true)⟩]
  | _ => []

variable (L : Estate)

/-- The message that `accept_one` accepts on a connection, if it accepts one.  It is given its
verdict before the answer is written, so it is accepted also where the writing fails and the
caller is not told of it. -/
def acceptedOn (t : As4Transport) (now : Moment) : Connection → List HandUp
  | .broken _ => []
  | .read request peer _ => acceptedOf (t.serve L now request peer).1.1

namespace FarEnd

/-- One step: what comes of it, what is told and what goes on the wire.  A verdict is given
once: one that is given to no message that waits does nothing. -/
def step (s : FarEnd) : Event → FarEnd × Told × Option Response
  | .take now arrival =>
    match s.transport.takeNext L now arrival with
    | (.ok (some (message, arrived)), answer) =>
      ({ s with handed := s.handed ++ [⟨arrived, none⟩] }, .took (.ok (some (message, arrived))),
        answer)
    | (said, answer) => (s, .took said, answer)
  | .judge now k verdict reply =>
    match s.handed[k]? with
    | some ⟨arrived, none⟩ =>
      match s.transport.acknowledge L now arrived reply verdict with
      | ((said, answer), transport) =>
        (⟨transport, s.handed.set k ⟨arrived, some (verdict, answer.isSome)⟩⟩, .judged said, answer)
    | _ => (s, .nothing, none)
  | .accept now connection =>
    match s.transport.acceptOne L now connection with
    | ((said, answer), transport) =>
      (⟨transport, s.handed ++ acceptedOn L s.transport now connection⟩, .accepted said, answer)

end FarEnd

/-! ## What one step can do -/

/-- The rules of a far end's steps. -/
inductive Steps (s : FarEnd) : Event → FarEnd → Told → Option Response → Prop where
  /-- Nothing arrived. -/
  | failed {now : Moment} {e : TransportError} :
      Steps s (.take now (.failed e)) s (.took (.error e)) none
  /-- A POST is answered at once. -/
  | answered {now : Moment} {request : Request} {peer : SocketAddr}
      {said : Result (Option (UserMessage × Arrived))} {heard : Result (Option Held)}
      {answer : Response} (hears : Hears L s.transport now request peer (.Answered heard answer))
      (hsaid : ∀ held, said ≠ .ok (some held)) :
      Steps s (.take now (.posted request peer)) s (.took said) (some answer)
  /-- A POST is handed up, and its Party waits. -/
  | handedUp {now : Moment} {request : Request} {peer : SocketAddr} {m : UserMessage}
      {bytes : Bytes} (hunpack : s.transport.unpack L now request = .ok (m, bytes))
      (hadmits : s.transport.admits L now m bytes = .ok ())
      (hnew : m.messageId ∉ s.transport.receipting.ids) :
      Steps s (.take now (.posted request peer))
        { s with handed := s.handed ++
          [⟨⟨originOf request peer m, bytes, ⟨request, peer⟩, m⟩, none⟩] }
        (.took (.ok (some (m, ⟨originOf request peer m, bytes, ⟨request, peer⟩, m⟩)))) none
  /-- A message that waits is accepted and its Receipt signed. -/
  | receipted {now : Moment} {k : ℕ} {reply : Response → Result Unit} {arrived : Arrived}
      {a : Response} (hwaits : s.handed[k]? = some ⟨arrived, none⟩)
      (hreceipt : s.transport.receipting.receipt L now arrived.answered = .ok a) :
      Steps s (.judge now k .Accepted reply)
        ⟨s.transport.remembering
            (Delivery.remember remembered arrived.answered.messageId s.transport.receipting.ids),
          s.handed.set k ⟨arrived, some (.Accepted, true)⟩⟩ (.judged (reply a)) (some a)
  /-- A message that waits is accepted, and its Receipt cannot be signed. -/
  | unsigned {now : Moment} {k : ℕ} {reply : Response → Result Unit} {arrived : Arrived}
      {e : TransportError} (hwaits : s.handed[k]? = some ⟨arrived, none⟩)
      (hreceipt : s.transport.receipting.receipt L now arrived.answered = .error e) :
      Steps s (.judge now k .Accepted reply)
        { s with handed := s.handed.set k ⟨arrived, some (.Accepted, false)⟩ }
        (.judged (.error e)) none
  /-- A message that waits is refused, or its cycle failed. -/
  | declined {now : Moment} {k : ℕ} {v : Verdict} {reply : Response → Result Unit}
      {arrived : Arrived} {status : ℕ} {kind description : String}
      (hwaits : s.handed[k]? = some ⟨arrived, none⟩) (hv : v ≠ .Accepted) :
      Steps s (.judge now k v reply)
        { s with handed := s.handed.set k ⟨arrived, some (v, true)⟩ }
        (.judged (reply (soap L now status
          (Signal.error L now (some arrived.answered.messageId) kind description))))
        (some (soap L now status
          (Signal.error L now (some arrived.answered.messageId) kind description)))
  /-- No such message waits. -/
  | nothing {now : Moment} {k : ℕ} {v : Verdict} {reply : Response → Result Unit}
      (hnot : ∀ arrived, s.handed[k]? ≠ some ⟨arrived, none⟩) :
      Steps s (.judge now k v reply) s .nothing none
  /-- A connection breaks before a request is read off it. -/
  | broken {now : Moment} {e : TransportError} :
      Steps s (.accept now (.broken e)) s (.accepted (.error e)) none
  /-- A connection is served. -/
  | served {now : Moment} {request : Request} {peer : SocketAddr} {written : Result Unit}
      {said : Result (Option (UserMessage × Taken))} {answer : Response} {ids : List String}
      (hserves : Serves L s.transport now request peer said answer ids) :
      Steps s (.accept now (.read request peer written))
        ⟨s.transport.remembering ids, s.handed ++ acceptedOf said⟩
        (.accepted (written >>= fun _ => said)) (some answer)

variable {L}

/-- Every step is by one of the rules. -/
theorem steps (s : FarEnd) (e : Event) :
    Steps L s e (s.step L e).1 (s.step L e).2.1 (s.step L e).2.2 := by
  cases e with
  | take now arrival =>
    cases arrival with
    | failed e => exact .failed
    | posted request peer =>
      have hh := s.transport.hears L now request peer
      unfold FarEnd.step As4Transport.takeNext
      simp only
      generalize s.transport.hear L now request peer = h at hh
      cases hh with
      | unread hunpack => exact .answered (.unread hunpack) (by simp)
      | unadmitted hunpack hadmits => exact .answered (.unadmitted hunpack hadmits) (by simp)
      | again hunpack hadmits hseen hreceipt =>
        exact .answered (.again hunpack hadmits hseen hreceipt) (by simp)
      | unsigned hunpack hadmits hseen hreceipt =>
        exact .answered (.unsigned hunpack hadmits hseen hreceipt) (by simp)
      | new hunpack hadmits hnew => exact .handedUp hunpack hadmits hnew
  | judge now k v reply =>
    unfold FarEnd.step
    simp only
    cases hk : s.handed[k]? with
    | none => exact .nothing (by simp [hk])
    | some h =>
      obtain ⟨arrived, verdict⟩ := h
      cases verdict with
      | some given => exact .nothing (by simp [hk])
      | none =>
        simp only
        unfold As4Transport.acknowledge
        by_cases hv : v = .Accepted
        · subst hv
          cases hreceipt : s.transport.receipting.receipt L now arrived.answered with
          | error e =>
            rw [Receipting.answer_unsigned hreceipt]
            exact .unsigned hk hreceipt
          | ok a =>
            rw [Receipting.answer_accepted hreceipt, Receipting.remember_eq]
            exact .receipted hk hreceipt
        · obtain ⟨status, kind, description, hanswer⟩ :
              ∃ status kind description, s.transport.receipting.answer L now arrived.answered v =
                (.ok (soap L now status (Signal.error L now (some arrived.answered.messageId) kind
                  description)), s.transport.receipting) := Receipting.answer_of_ne now _ hv
          rw [hanswer]
          exact .declined hk hv
  | accept now connection =>
    cases connection with
    | broken e =>
      unfold FarEnd.step acceptedOn
      simp only [As4Transport.acceptOne, List.append_nil]
      exact .broken
    | read request peer written =>
      obtain ⟨said, answer, ids, hserve, hserves⟩ := s.transport.serves L now request peer
      unfold FarEnd.step acceptedOn
      simp only [As4Transport.acceptOne, hserve]
      have hrule : Steps L s (.accept now (.read request peer written)) _ _ _ := .served hserves
      cases written with
      | ok _ => exact hrule
      | error e => exact hrule

/-! ## Steps that are taken -/

section Taken

variable {s : FarEnd} {now : Moment}

/-- A POST that is read, admitted and new is handed up. -/
theorem step_take_new {request : Request} {m : UserMessage} {bytes : Bytes} (peer : SocketAddr)
    (hunpack : s.transport.unpack L now request = .ok (m, bytes))
    (hadmits : s.transport.admits L now m bytes = .ok ())
    (hnew : m.messageId ∉ s.transport.receipting.ids) :
    s.step L (.take now (.posted request peer)) =
      ({ s with handed := s.handed ++
          [⟨⟨originOf request peer m, bytes, ⟨request, peer⟩, m⟩, none⟩] },
        .took (.ok (some (m, ⟨originOf request peer m, bytes, ⟨request, peer⟩, m⟩))), none) := by
  have hhear : s.transport.hear L now request peer = _ := (Hears.new hunpack hadmits hnew).eq_hear
  unfold FarEnd.step As4Transport.takeNext
  simp only
  rw [hhear]

/-- A POST that is read and admitted and of an id that is remembered is receipted again, and
nothing is handed up. -/
theorem step_take_again {request : Request} {m : UserMessage} {bytes : Bytes} {a : Response}
    (peer : SocketAddr) (hunpack : s.transport.unpack L now request = .ok (m, bytes))
    (hadmits : s.transport.admits L now m bytes = .ok ())
    (hseen : m.messageId ∈ s.transport.receipting.ids)
    (hreceipt : s.transport.receipting.receipt L now m = .ok a) :
    s.step L (.take now (.posted request peer)) = (s, .took (.ok none), some a) := by
  have hhear : s.transport.hear L now request peer = _ :=
    (Hears.again hunpack hadmits hseen hreceipt).eq_hear
  unfold FarEnd.step As4Transport.takeNext
  simp only
  rw [hhear]

/-- A message that waits is accepted and receipted where the Receipt can be signed. -/
theorem step_judge_receipted {k : ℕ} {arrived : Arrived} {a : Response}
    (reply : Response → Result Unit) (hwaits : s.handed[k]? = some ⟨arrived, none⟩)
    (hreceipt : s.transport.receipting.receipt L now arrived.answered = .ok a) :
    s.step L (.judge now k .Accepted reply) =
      (⟨s.transport.remembering
          (Delivery.remember remembered arrived.answered.messageId s.transport.receipting.ids),
        s.handed.set k ⟨arrived, some (.Accepted, true)⟩⟩, .judged (reply a), some a) := by
  unfold FarEnd.step As4Transport.acknowledge
  simp only
  rw [hwaits]
  simp only
  rw [Receipting.answer_accepted hreceipt, Receipting.remember_eq]
  rfl

/-- A message that waits is accepted and not receipted where the Receipt cannot be signed:
whoever gave the verdict is told, and nothing is remembered. -/
theorem step_judge_unsigned {k : ℕ} {arrived : Arrived} {e : TransportError}
    (reply : Response → Result Unit) (hwaits : s.handed[k]? = some ⟨arrived, none⟩)
    (hreceipt : s.transport.receipting.receipt L now arrived.answered = .error e) :
    s.step L (.judge now k .Accepted reply) =
      ({ s with handed := s.handed.set k ⟨arrived, some (.Accepted, false)⟩ },
        .judged (.error e), none) := by
  unfold FarEnd.step As4Transport.acknowledge
  simp only
  rw [hwaits]
  simp only
  rw [Receipting.answer_unsigned hreceipt]
  rfl

/-- What a verdict makes of a message that waits. -/
theorem step_judge_waits (now : Moment) {k : ℕ} {arrived : Arrived}
    (hwaits : s.handed[k]? = some ⟨arrived, none⟩) (verdict : Verdict)
    (reply : Response → Result Unit) : ∃ answer receipting,
    s.transport.receipting.answer L now arrived.answered verdict = (answer, receipting) ∧
      s.step L (.judge now k verdict reply) =
        (⟨{ s.transport with receipting },
          s.handed.set k ⟨arrived, some (verdict, answer.toOption.isSome)⟩⟩,
          .judged (answer >>= reply), answer.toOption) := by
  cases hanswer : s.transport.receipting.answer L now arrived.answered verdict with
  | mk answer receipting =>
    refine ⟨answer, receipting, rfl, ?_⟩
    unfold FarEnd.step As4Transport.acknowledge
    simp only
    rw [hwaits]
    simp only
    rw [hanswer]
    cases answer <;> rfl

/-- A verdict on a message that does not wait does nothing. -/
theorem step_judge_nothing {k : ℕ} {verdict : Verdict} {reply : Response → Result Unit}
    (hnot : ∀ arrived, s.handed[k]? ≠ some ⟨arrived, none⟩) :
    s.step L (.judge now k verdict reply) = (s, .nothing, none) := by
  have hstep := steps (L := L) s (.judge now k verdict reply)
  generalize s.step L (.judge now k verdict reply) = result at hstep
  obtain ⟨s', told, answer⟩ := result
  cases hstep with
  | receipted hwaits _ => exact absurd hwaits (hnot _)
  | unsigned hwaits _ => exact absurd hwaits (hnot _)
  | declined hwaits _ => exact absurd hwaits (hnot _)
  | nothing _ => rfl

end Taken

/-! ## What steps keep -/

namespace Steps

variable {s s' : FarEnd} {e : Event} {told : Told} {answer : Option Response}

/-- A step changes nothing of the transport but what is remembered. -/
theorem transport_eq (h : Steps L s e s' told answer) :
    ∃ ids, s'.transport = s.transport.remembering ids := by
  cases h with
  | receipted hwaits hreceipt => exact ⟨_, rfl⟩
  | served hserves => exact ⟨_, rfl⟩
  | failed => exact ⟨s.transport.receipting.ids, rfl⟩
  | answered hears hsaid => exact ⟨s.transport.receipting.ids, rfl⟩
  | handedUp hunpack hadmits hnew => exact ⟨s.transport.receipting.ids, rfl⟩
  | unsigned hwaits hreceipt => exact ⟨s.transport.receipting.ids, rfl⟩
  | declined hwaits hv => exact ⟨s.transport.receipting.ids, rfl⟩
  | nothing hnot => exact ⟨s.transport.receipting.ids, rfl⟩
  | broken => exact ⟨s.transport.receipting.ids, rfl⟩

/-- A message keeps the verdict it was given. -/
theorem mem_handed (h : Steps L s e s' told answer) {u : HandUp} (hu : u ∈ s.handed)
    (hgiven : ¬ u.Waits) : u ∈ s'.handed := by
  -- A verdict replaces only a message that waits.
  have hset : ∀ k arrived v, s.handed[k]? = some ⟨arrived, none⟩ → u ∈ s.handed.set k v := by
    intro k arrived v hk
    obtain ⟨i, hi, rfl⟩ := List.mem_iff_getElem.mp hu
    have hne : k ≠ i := by
      rintro rfl
      rw [List.getElem?_eq_getElem hi, Option.some.injEq] at hk
      apply hgiven
      rw [HandUp.Waits, hk]
    have hi' : i < (s.handed.set k v).length := by rwa [List.length_set]
    have hat : (s.handed.set k v)[i] = s.handed[i] := List.getElem_set_ne hne hi'
    rw [← hat]
    exact List.getElem_mem hi'
  cases h with
  | handedUp hunpack hadmits hnew => exact List.mem_append_left _ hu
  | receipted hwaits hreceipt => exact hset _ _ _ hwaits
  | unsigned hwaits hreceipt => exact hset _ _ _ hwaits
  | declined hwaits hv => exact hset _ _ _ hwaits
  | served hserves => exact List.mem_append_left _ hu
  | failed => exact hu
  | answered hears hsaid => exact hu
  | nothing hnot => exact hu
  | broken => exact hu

end Steps

/-- A far end that serves a POST and accepts no message stays as it was. -/
theorem FarEnd.served_nothing (s : FarEnd) :
    (⟨s.transport.remembering s.transport.receipting.ids, s.handed ++ []⟩ : FarEnd) = s := by
  rw [List.append_nil]
  rfl

/-- Every id remembered is that of a message that was accepted and its Receipt signed. -/
def Vouched (s : FarEnd) : Prop :=
  ∀ id ∈ s.transport.receipting.ids, ∃ u ∈ s.handed, u.messageId = id ∧ u.Receipted

/-- A message whose Receipt was signed does not wait. -/
theorem HandUp.Receipted.not_waits {u : HandUp} (h : u.Receipted) : ¬ u.Waits := by
  intro hw
  rw [HandUp.Waits, h] at hw
  cases hw

/-- A step keeps every remembered id vouched for. -/
theorem Vouched.step {s s' : FarEnd} {e : Event} {told : Told} {answer : Option Response}
    (hs : Vouched s) (h : Steps L s e s' told answer) : Vouched s' := by
  have hkeep : ∀ id ∈ s.transport.receipting.ids,
      ∃ u ∈ s'.handed, u.messageId = id ∧ u.Receipted := by
    intro id hid
    obtain ⟨u, hu, hmessage, hreceipted⟩ := hs id hid
    exact ⟨u, h.mem_handed hu hreceipted.not_waits, hmessage, hreceipted⟩
  cases h with
  | @receipted now k reply arrived a hwaits hreceipt =>
    intro id hid
    rcases Delivery.mem_of_mem_remember hid with hid | rfl
    · exact hkeep id hid
    · obtain ⟨hk, -⟩ := List.getElem?_eq_some_iff.mp hwaits
      exact ⟨⟨arrived, some (.Accepted, true)⟩, List.mem_set hk _, rfl, rfl⟩
  | @served now request peer written said answer ids hserves =>
    intro id hid
    cases hserves with
    | refused _ => exact hkeep id hid
    | again _ _ _ _ => exact hkeep id hid
    | unsigned _ _ _ => exact hkeep id hid
    | accepted _ _ _ _ =>
      rcases Delivery.mem_of_mem_remember hid with hid | rfl
      · exact hkeep id hid
      · exact ⟨_, List.mem_append_right _ (List.mem_singleton.mpr rfl), rfl, rfl⟩
  | failed => exact hkeep
  | answered hears hsaid => exact hkeep
  | handedUp hunpack hadmits hnew => exact hkeep
  | unsigned hwaits hreceipt => exact hkeep
  | declined hwaits hv => exact hkeep
  | nothing hnot => exact hkeep
  | broken => exact hkeep

/-! ## Runs -/

/-- A far end that has received nothing yet. -/
def FarEnd.fresh (t : As4Transport) : FarEnd := ⟨t, []⟩

/-- A run changes nothing of the transport but what is remembered. -/
theorem run_transport (s : FarEnd) (es : List Event) :
    (run (FarEnd.step L) s es).transport =
      s.transport.remembering (run (FarEnd.step L) s es).transport.receipting.ids := by
  refine Delivery.run_invariant
    (fun s' : FarEnd => s'.transport = s.transport.remembering s'.transport.receipting.ids)
    ?_ rfl es
  intro s' e hs'
  obtain ⟨ids, hids⟩ := (steps (L := L) s' e).transport_eq
  rw [hids, hs']
  rfl

/-- In every state of a run that began with nothing remembered, every remembered id is
vouched for. -/
theorem vouched_run {t : As4Transport} (hids : t.receipting.ids = []) (es : List Event) :
    Vouched (run (FarEnd.step L) (.fresh t) es) := by
  refine Delivery.run_invariant Vouched ?_ ?_ es
  · intro s e hs
    exact hs.step (steps s e)
  · intro id hid
    rw [FarEnd.fresh, hids] at hid
    exact absurd hid List.not_mem_nil

end As4
