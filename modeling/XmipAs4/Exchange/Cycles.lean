import XmipAs4.Delivery.Serial
import XmipAs4.Reference.Bench

/-!
# Cycles at once

A message is received in two phases, whichever way it is received: the POST is heard, which
looks whether its id was taken before, and an answer is given, which remembers the id where it
is an acceptance.  Each phase holds the lock on the ids once and lets go of it, so between the
two phases of one cycle other threads, or the same, hear and answer others.

Cycles at once come to what they come to one after another, each whole, as long as no message
is accepted while another of its id is under way; and what `remember` does not do tells where a
message was accepted twice.
-/

namespace As4

open Delivery (run outputs Along TwoPhase Phase Came Shared Serial trace)
open Delivery.TwoPhase (Possible Keeps Seen)
open Multipart (Bytes)

/-! ## The two phases -/

/-- What a cycle begins with. -/
abbrev Heeded := Moment × Request × SocketAddr

/-- The two phases of receiving: a POST is heard, and is answered at once or waits; one that
waits is given a verdict, and comes to its answer or to why there is none. -/
def receiving (L : Estate) :
    TwoPhase As4Transport Heeded Held (Moment × Verdict) Hearing (Held × Result Response) where
  look t r :=
    match t.hear L r.1 r.2.1 r.2.2 with
    | .Waiting (.ok (some held)) => .inr held
    | heard => .inl heard
  finish t held f :=
    ({ t with receipting := (t.receipting.answer L f.1 held.1 f.2).2 },
      (held, (t.receipting.answer L f.1 held.1 f.2).1))

variable {L : Estate} {t : As4Transport} {now : Moment} {request : Request} {peer : SocketAddr}

/-- What is heard as a new message waits. -/
theorem look_eq_inr {held : Held} :
    (receiving L).look t (now, request, peer) = .inr held ↔
      t.hear L now request peer = .Waiting (.ok (some held)) := by
  unfold receiving
  simp only
  split
  · next held' heq => rw [heq]; simp
  · next heard hne =>
    refine ⟨fun h => ?_, fun h => absurd h (hne held)⟩
    cases h

/-- `accept_one` serves a POST in the two phases, the second at once after the first and at the
same moment, with acceptance for a verdict. -/
theorem serve_eq_phases (t : As4Transport) (now : Moment) (request : Request) (peer : SocketAddr) :
    t.serve L now request peer =
      match (receiving L).look t (now, request, peer) with
      | .inl (.Answered (.ok _) answer) => ((.ok none, answer), t)
      | .inl (.Answered (.error e) answer) => ((.error e, answer), t)
      | .inl (.Waiting (.ok _)) => ((.ok none, Response.new 500), t)
      | .inl (.Waiting (.error e)) => ((.error e, Response.new 500), t)
      | .inr held =>
        match (receiving L).finish t held (now, .Accepted) with
        | (t', (m, origin, bytes, sender), .ok receipt) =>
          ((.ok (some (m, ⟨origin, bytes, sender⟩)), receipt), t')
        | (t', _, .error e) => ((.error e, Response.new 500), t') := by
  unfold As4Transport.serve receiving
  simp only
  generalize t.hear L now request peer = heard
  rcases heard with ⟨e | _, answer⟩ | e | _ | ⟨m, origin, bytes, sender⟩
  · rfl
  · rfl
  · rfl
  · rfl
  · simp only
    generalize t.receipting.answer L now m .Accepted = answer
    obtain ⟨e | answer, receipting⟩ := answer <;> rfl

/-- `take_next` hears a POST in the first phase and hands up what waits. -/
theorem takeNext_eq_phase (t : As4Transport) (now : Moment) (request : Request)
    (peer : SocketAddr) {held : Held}
    (h : (receiving L).look t (now, request, peer) = .inr held) :
    t.takeNext L now (.posted request peer) =
      (.ok (some (held.1, ⟨held.2.1, held.2.2.1, held.2.2.2, held.1⟩)), none) := by
  unfold As4Transport.takeNext
  simp only
  rw [look_eq_inr.mp h]

/-- A verdict acknowledges what was handed up in the second phase. -/
theorem acknowledge_eq_phase (t : As4Transport) (now : Moment) (held : Held)
    (reply : Response → Result Unit) (v : Verdict) :
    t.acknowledge L now ⟨held.2.1, held.2.2.1, held.2.2.2, held.1⟩ reply v =
      (((((receiving L).finish t held (now, v)).2.2 >>= reply),
        ((receiving L).finish t held (now, v)).2.2.toOption),
        ((receiving L).finish t held (now, v)).1) := by
  unfold As4Transport.acknowledge receiving
  simp only
  generalize t.receipting.answer L now held.1 v = answer
  obtain ⟨e | answer, receipting⟩ := answer <;> rfl

/-! ## What one phase can do -/

section Phases

variable {ι : Type*} [DecidableEq ι] {s : Shared ι As4Transport Heeded Held}

/-- The id of the message that is accepted in a phase and its Receipt signed, if one is. -/
def acceptedId : Phase ι Heeded (Moment × Verdict) ×
    Came Hearing (Held × Result Response) Held → Option String
  | (.finish _ (_, .Accepted), .finished (held, .ok _)) => some held.1.messageId
  | _ => none

/-- The phase accepts what the cycle holds, and the Receipt is signed. -/
def Accepts (L : Estate) (s : Shared ι As4Transport Heeded Held)
    (a : Phase ι Heeded (Moment × Verdict)) (i : ι) (held : Held) : Prop :=
  ∃ now r receipt, a = .finish i (now, .Accepted) ∧ s.pending i = some (r, held) ∧
    s.store.receipting.receipt L now held.1 = .ok receipt

omit [DecidableEq ι] in
/-- A phase accepts one message. -/
theorem Accepts.unique {a : Phase ι Heeded (Moment × Verdict)} {i j : ι} {held held' : Held}
    (h : Accepts L s a i held) (h' : Accepts L s a j held') : i = j ∧ held = held' := by
  obtain ⟨now, r, receipt, rfl, hi, -⟩ := h
  obtain ⟨now', r', receipt', ha, hj, -⟩ := h'
  injection ha with hij
  subst hij
  rw [hi, Option.some.injEq, Prod.mk.injEq] at hj
  exact ⟨rfl, hj.2⟩

/-- A verdict adds to what is remembered at most the id of a message that is accepted and its
Receipt signed. -/
theorem finish_store (t : As4Transport) (held : Held) (now : Moment) (v : Verdict) :
    ((receiving L).finish t held (now, v)).1 = t ∧
        (v = .Accepted → ∃ e, t.receipting.receipt L now held.1 = .error e) ∨
      v = .Accepted ∧ (∃ receipt, t.receipting.receipt L now held.1 = .ok receipt) ∧
        ((receiving L).finish t held (now, v)).1 =
          t.remembering (Delivery.remember remembered held.1.messageId t.receipting.ids) := by
  unfold receiving
  simp only
  by_cases hv : v = .Accepted
  · subst hv
    cases hreceipt : t.receipting.receipt L now held.1 with
    | error e =>
      rw [Receipting.answer_unsigned hreceipt]
      exact .inl ⟨rfl, fun _ => ⟨e, rfl⟩⟩
    | ok receipt =>
      rw [Receipting.answer_accepted hreceipt, Receipting.remember_eq]
      exact .inr ⟨rfl, ⟨receipt, rfl⟩, rfl⟩
  · obtain ⟨status, kind, description, hanswer⟩ := Receipting.answer_of_ne (L := L)
      (r := t.receipting) now held.1 hv
    rw [hanswer]
    exact .inl ⟨rfl, fun h => absurd h hv⟩

/-- A phase in which a message is accepted and its Receipt signed remembers its id; no other
changes what is remembered. -/
theorem memory_step (s : Shared ι As4Transport Heeded Held)
    (a : Phase ι Heeded (Moment × Verdict)) :
    (∀ i held, ¬ Accepts L s a i held) ∧ acceptedId (a, ((receiving L).step s a).2) = none ∧
        ((receiving L).step s a).1.store.receipting.ids = s.store.receipting.ids ∨
      ∃ i held, Accepts L s a i held ∧
        acceptedId (a, ((receiving L).step s a).2) = some held.1.messageId ∧
        ((receiving L).step s a).1.store.receipting.ids =
          Delivery.remember remembered held.1.messageId s.store.receipting.ids := by
  cases a with
  | look i r =>
    left
    rw [TwoPhase.store_look]
    refine ⟨?_, rfl, rfl⟩
    rintro j held ⟨now, r', receipt, ha, -⟩
    cases ha
  | finish i f =>
    obtain ⟨now, v⟩ := f
    cases hi : s.pending i with
    | none =>
      left
      rw [TwoPhase.step_absent (now, v) hi]
      refine ⟨?_, by cases v <;> rfl, rfl⟩
      rintro j held ⟨now', r', receipt, ha, hj, -⟩
      cases ha
      rw [hi] at hj
      cases hj
    | some x =>
      obtain ⟨r, held⟩ := x
      rw [TwoPhase.step_finish (now, v) hi]
      rcases finish_store (L := L) s.store held now v with ⟨hstore, hunsigned⟩ |
        ⟨rfl, ⟨receipt, hreceipt⟩, hstore⟩
      · left
        refine ⟨?_, ?_, by simp only; rw [hstore]⟩
        · rintro j held' ⟨now', r', receipt, ha, hj, hreceipt⟩
          cases ha
          rw [hi] at hj
          cases hj
          obtain ⟨e, he⟩ := hunsigned rfl
          rw [he] at hreceipt
          cases hreceipt
        · cases v with
          | Accepted =>
            obtain ⟨e, hreceipt⟩ := hunsigned rfl
            unfold receiving
            simp only
            rw [Receipting.answer_unsigned hreceipt]
            rfl
          | Refused why => rfl
          | Failed => rfl
      · right
        refine ⟨i, held, ⟨now, r, receipt, rfl, hi, hreceipt⟩, ?_, ?_⟩
        · unfold receiving
          simp only
          rw [Receipting.answer_accepted hreceipt]
          rfl
        · simp only
          rw [hstore]
          rfl

/-! ## Cycles of one id at once -/

/-- No message is accepted, its Receipt signed, while another of its id is under way. -/
def Lone (L : Estate) (s : Shared ι As4Transport Heeded Held)
    (a : Phase ι Heeded (Moment × Verdict)) : Prop :=
  ∀ i held, Accepts L s a i held → ∀ j r' held', j ≠ i → s.pending j = some (r', held') →
    held'.1.messageId ≠ held.1.messageId

/-- As a message is accepted, its Receipt signed, its id is not remembered: `remember` does not
find it there. -/
def Unremembered (L : Estate) (s : Shared ι As4Transport Heeded Held)
    (a : Phase ι Heeded (Moment × Verdict)) : Prop :=
  ∀ i held, Accepts L s a i held → held.1.messageId ∉ s.store.receipting.ids

/-- What is heard as new is not remembered. -/
theorem look_unremembered {t : As4Transport} {r : Heeded} {held : Held}
    (h : (receiving L).look t r = .inr held) : held.1.messageId ∉ t.receipting.ids := by
  obtain ⟨now, request, peer⟩ := r
  obtain ⟨m, bytes, -, -, hnew, hheld⟩ := hear_waiting_iff.mp (look_eq_inr.mp h)
  rw [Except.ok.injEq, Option.some.injEq] at hheld
  rw [hheld]
  exact hnew

/-- What is heard as new is so under any memory it is not in. -/
theorem look_remembering {t : As4Transport} {r : Heeded} {held : Held} {ids : List String}
    (h : (receiving L).look t r = .inr held) (hids : held.1.messageId ∉ ids) :
    (receiving L).look (t.remembering ids) r = .inr held := by
  obtain ⟨now, request, peer⟩ := r
  obtain ⟨m, bytes, hunpack, hadmits, -, hheld⟩ := hear_waiting_iff.mp (look_eq_inr.mp h)
  rw [Except.ok.injEq, Option.some.injEq] at hheld
  subst hheld
  refine look_eq_inr.mpr (hear_waiting_iff.mpr ?_)
  rw [unpack_remembering]
  exact ⟨m, bytes, hunpack, hadmits, hids, rfl⟩

omit [DecidableEq ι] in
/-- What waits is not changed by the acceptance of a message of another id. -/
theorem Lone.keeps {a : Phase ι Heeded (Moment × Verdict)} (h : Lone L s a) :
    (receiving L).Keeps s a := by
  cases a with
  | look i r => trivial
  | finish i f =>
    obtain ⟨now, v⟩ := f
    intro r held hi j r' held' hj hpending hlook
    rcases finish_store (L := L) s.store held now v with ⟨hstore, -⟩ |
      ⟨rfl, ⟨receipt, hreceipt⟩, hstore⟩
    · rw [hstore]
      exact hlook
    · have hne := h i held ⟨now, r, receipt, rfl, hi, hreceipt⟩ j r' held' hj hpending
      rw [hstore]
      refine look_remembering hlook fun hmem => ?_
      rcases Delivery.mem_of_mem_remember hmem with hmem | heq
      · exact look_unremembered hlook hmem
      · exact hne heq

omit [DecidableEq ι] in
/-- What is under way and would still be heard as new is not remembered. -/
theorem unremembered_of_seen (hs : Seen (receiving L) s) (a : Phase ι Heeded (Moment × Verdict)) :
    Unremembered L s a := by
  rintro i held ⟨now, r, receipt, -, hi, -⟩
  exact look_unremembered (hs i r held hi)

end Phases

/-! ## Whole runs -/

section Runs

variable {ι : Type*} [DecidableEq ι]

/-- The ids of the messages that were accepted and their Receipts signed in a run, in order. -/
def acceptances (L : Estate) (t : As4Transport) (acts : List (Phase ι Heeded (Moment × Verdict))) :
    List String :=
  (trace (receiving L).step (.idle t) acts).filterMap acceptedId

variable {acts : List (Phase ι Heeded (Moment × Verdict))}

/-- Cycles at once are cycles one after another.  Whoever hears and answers on one transport, in
whatever order the phases of all the cycles come: as long as no message is accepted while another
of its id is under way, there is an order of the same phases in which every cycle that came to
its end is whole, its two phases one right after the other, and those still under way come last,
in which every phase comes to what it came to, the cycles come to their ends in the order they
did, and the transport is left with what it was left with. -/
theorem cycles_serializable (hpossible : Along (receiving L).step Possible (.idle t) acts)
    (hlone : Along (receiving L).step (Lone L) (.idle t) acts) :
    ∃ serial rest, Serial serial ∧ (∀ a ∈ rest, ∃ i r, a = .look i r) ∧
      run (receiving L).step (.idle t) serial =
        .idle (run (receiving L).step (.idle t) acts).store ∧
      run (receiving L).step (.idle t) (serial ++ rest) = run (receiving L).step (.idle t) acts ∧
      (trace (receiving L).step (.idle t) acts).Perm
        (trace (receiving L).step (.idle t) (serial ++ rest)) ∧
      (trace (receiving L).step (.idle t) acts).filter (fun x => x.2.isEnd) =
        (trace (receiving L).step (.idle t) (serial ++ rest)).filter fun x => x.2.isEnd :=
  TwoPhase.serializable hpossible (hlone.mono fun _ _ h => h.keeps)

/-- One phase more, and at most one acceptance more. -/
theorem acceptances_concat (t : As4Transport) (acts : List (Phase ι Heeded (Moment × Verdict)))
    (a : Phase ι Heeded (Moment × Verdict)) :
    acceptances L t (acts ++ [a]) = acceptances L t acts ++ (acceptedId
      (a, ((receiving L).step (run (receiving L).step (.idle t) acts) a).2)).toList := by
  rw [acceptances, TwoPhase.trace_concat, List.filterMap_append, acceptances, List.filterMap_cons]
  cases acceptedId (a, ((receiving L).step (run (receiving L).step (.idle t) acts) a).2) <;> rfl

/-- Where no more ids were accepted than are remembered, those remembered are those accepted. -/
theorem remembers_acceptances (hids : t.receipting.ids = [])
    (hfew : (acceptances L t acts).toFinset.card ≤ remembered) :
    (run (receiving L).step (.idle t) acts).store.receipting.ids.Nodup ∧
      ∀ id, id ∈ (run (receiving L).step (.idle t) acts).store.receipting.ids ↔
        id ∈ acceptances L t acts := by
  induction acts using List.reverseRecOn with
  | nil =>
    have hnone : (run (receiving L).step (.idle t) ([] : List (Phase ι _ _))).store.receipting.ids =
        [] := hids
    rw [hnone]
    exact ⟨List.nodup_nil, fun _ => Iff.rfl⟩
  | append_singleton acts a ih =>
    have hconcat := acceptances_concat (L := L) t acts a
    have hsub : ∀ id ∈ acceptances L t acts, id ∈ acceptances L t (acts ++ [a]) := by
      intro id hid
      rw [hconcat]
      exact List.mem_append_left _ hid
    obtain ⟨hnodup, hmem⟩ := ih (le_trans (Finset.card_le_card fun id hid => by
      rw [List.mem_toFinset] at hid ⊢
      exact hsub id hid) hfew)
    rw [Delivery.run_append, Delivery.run_cons, Delivery.run_nil]
    rcases memory_step (L := L) (run (receiving L).step (.idle t) acts) a with ⟨-, hnone, hsame⟩ |
      ⟨i, held, -, hone, hnew⟩
    · rw [hconcat, hnone, hsame]
      simp only [Option.toList_none, List.append_nil]
      exact ⟨hnodup, hmem⟩
    · rw [hone, Option.toList_some] at hconcat
      rw [hnew]
      refine ⟨Delivery.nodup_remember hnodup, fun id => ?_⟩
      have hlast : held.1.messageId ∈ acceptances L t (acts ++ [a]) := by
        rw [hconcat]
        exact List.mem_append_right _ (List.mem_singleton_self _)
      constructor
      · intro hid
        rcases Delivery.mem_of_mem_remember hid with hid | rfl
        · exact hsub id ((hmem id).mp hid)
        · exact hlast
      · intro hid
        rw [hconcat, List.mem_append, List.mem_singleton] at hid
        rcases hid with hid | rfl
        · refine Delivery.mem_remember_of_card_le hfew hnodup ?_ (List.mem_toFinset.mpr hlast)
            ((hmem id).mpr hid)
          intro z hz
          exact List.mem_toFinset.mpr (hsub z ((hmem z).mp hz))
        · exact Delivery.mem_remember_self ..

/-- In a run in which no message is accepted while another of its id is under way, `remember`
never finds an id there. -/
theorem along_unremembered (hlone : Along (receiving L).step (Lone L) (.idle t) acts) :
    Along (receiving L).step (Unremembered L) (.idle t) acts :=
  Delivery.along_of_invariant (Seen (receiving L))
    (fun _ a hs h => ⟨unremembered_of_seen hs a, hs.step h.keeps⟩)
    (TwoPhase.seen_idle (receiving L) t) hlone

/-- A message is accepted twice exactly where `remember` finds its id there.  Over any run of
cycles at once, through whichever way of receiving and whether Receipts can be signed or not,
that accepts no more ids than are remembered: no id is accepted twice if and only if no
acceptance finds its id remembered; and none is where no message is accepted while another of
its id is under way. -/
theorem accepted_once_iff (hids : t.receipting.ids = [])
    (hfew : (acceptances L t acts).toFinset.card ≤ remembered) :
    ((acceptances L t acts).Nodup ↔
        Along (receiving L).step (Unremembered L) (.idle t) acts) ∧
      (Along (receiving L).step (Lone L) (.idle t) acts → (acceptances L t acts).Nodup) := by
  have hiff : (acceptances L t acts).Nodup ↔
      Along (receiving L).step (Unremembered L) (.idle t) acts := by
    induction acts using List.reverseRecOn with
    | nil => exact ⟨fun _ => trivial, fun _ => List.nodup_nil⟩
    | append_singleton acts a ih =>
      have hconcat := acceptances_concat (L := L) t acts a
      have hbefore : (acceptances L t acts).toFinset.card ≤ remembered := by
        refine le_trans (Finset.card_le_card fun id hid => ?_) hfew
        rw [List.mem_toFinset] at hid ⊢
        rw [hconcat]
        exact List.mem_append_left _ hid
      have hmem := (remembers_acceptances hids hbefore).2
      rw [Delivery.along_append, ← ih hbefore, hconcat, List.nodup_append]
      rcases memory_step (L := L) (run (receiving L).step (.idle t) acts) a with ⟨hno, hnone, -⟩ |
        ⟨i, held, haccepts, hone, -⟩
      · have hlast : Along (receiving L).step (Unremembered L)
            (run (receiving L).step (.idle t) acts) [a] :=
          ⟨fun i held h => absurd h (hno i held), trivial⟩
        rw [hnone, Option.toList_none]
        simp [hlast]
      · have hlast : Along (receiving L).step (Unremembered L)
            (run (receiving L).step (.idle t) acts) [a] ↔
              held.1.messageId ∉ acceptances L t acts := by
          rw [← hmem]
          refine ⟨fun h => h.1 i held haccepts, fun h => ⟨?_, trivial⟩⟩
          intro j held' h'
          obtain ⟨-, rfl⟩ := haccepts.unique h'
          exact h
        rw [hone, Option.toList_some, hlast]
        refine and_congr_right fun _ => ?_
        constructor
        · rintro ⟨-, hapart⟩ hid
          exact hapart _ hid _ (List.mem_singleton_self _) rfl
        · intro hnot
          refine ⟨List.nodup_singleton _, ?_⟩
          rintro id hid id' hid' rfl
          rw [List.mem_singleton.mp hid'] at hid
          exact hnot hid
  exact ⟨hiff, fun hlone => hiff.mpr (along_unremembered hlone)⟩

end Runs

/-! ## The order heard twice at once -/

/-- The order as it is heard. -/
def heldOrder : Held :=
  (order, originOf orderRequest "peer" order, goods, ⟨orderRequest, "peer"⟩)

/-- The order is heard. -/
def hearOrder (i tick : ℕ) : Phase ℕ Heeded (Moment × Verdict) :=
  .look i (moment tick, orderRequest, "peer")

/-- It is accepted. -/
def admitOrder (i tick : ℕ) : Phase ℕ Heeded (Moment × Verdict) :=
  .finish i (moment tick, .Accepted)

/-- A seller that remembers nothing holds the order it hears. -/
theorem look_order (tick : ℕ) :
    (receiving bench).look seller (moment tick, orderRequest, "peer") = .inr heldOrder :=
  look_eq_inr.mpr (seller_hears_order tick)

/-- Whatever a seller remembers, it receipts the order it holds, and then remembers it. -/
theorem finish_order (tick : ℕ) (ids : List String) :
    (receiving bench).finish (seller.remembering ids) heldOrder (moment tick, .Accepted) =
      (seller.remembering (Delivery.remember remembered order.messageId ids), heldOrder,
        .ok (soap bench (moment tick) 200 (Signal.receipt bench (moment tick) order))) := by
  obtain ⟨-, -, hreceipt⟩ := seller_takes_order tick ids
  unfold receiving
  simp only
  have hanswer := Receipting.answer_accepted hreceipt
  rw [Receipting.remember_eq] at hanswer
  have horder : heldOrder.1 = order := rfl
  rw [horder, hanswer]
  rfl

/-- Two operations that both look before either finishes. -/
theorem trace_overlapping {σ ρ δ φ α β : Type*} (P : TwoPhase σ ρ δ φ α β) {s s' s'' : σ}
    {r r' : ρ} {d d' : δ} {f f' : φ} {b b' : β} (hlook : P.look s r = .inr d)
    (hlook' : P.look s r' = .inr d') (hfinish : P.finish s d f = (s', b))
    (hfinish' : P.finish s' d' f' = (s'', b')) :
    trace P.step (.idle s) [.look 0 r, .look 1 r', .finish 0 f, .finish 1 f'] =
      [(.look 0 r, .held d), (.look 1 r', .held d'), (.finish 0 f, .finished b),
        (.finish (1 : ℕ) f', .finished b')] := by
  simp [trace, TwoPhase.step, Shared.idle, hlook, hlook', hfinish, hfinish']

/-- Two cycles hear the order before either is given its verdict, and both accept it. -/
def atOnce : List (Phase ℕ Heeded (Moment × Verdict)) :=
  [hearOrder 0 1, hearOrder 1 2, admitOrder 0 3, admitOrder 1 4]

/-- Both accept it. -/
theorem acceptances_atOnce :
    acceptances bench seller atOnce = [order.messageId, order.messageId] := by
  have htrace := trace_overlapping (receiving bench) (look_order 1) (look_order 2)
    (finish_order 3 []) (finish_order 4 _)
  have hacceptances : acceptances bench seller atOnce = _ :=
    congrArg (List.filterMap acceptedId) htrace
  rw [hacceptances]
  rfl

/-- The order is accepted twice, and as it is the second time `remember` finds its id there. -/
theorem accepted_once_iff_order :
    ¬ Along (receiving bench).step (Unremembered bench) (.idle seller) atOnce := by
  have hfew : (acceptances bench seller atOnce).toFinset.card ≤ remembered := by
    rw [acceptances_atOnce, List.toFinset_cons, List.toFinset_cons, List.toFinset_nil,
      Finset.insert_idem, insert_empty_eq, Finset.card_singleton]
    exact Receipting.remembered_pos
  intro h
  have hnodup := (accepted_once_iff (t := seller) rfl hfew).1.mpr h
  rw [acceptances_atOnce] at hnodup
  simp at hnodup

/-! ## Something else heard meanwhile -/

/-- One operation is settled as another is under way, which finishes then. -/
theorem along_between {σ ρ δ φ α β : Type*} (P : TwoPhase σ ρ δ φ α β) {s : σ} {r r' : ρ} {d : δ}
    {a : α} {f : φ} (hlook : P.look s r = .inr d) (hlook' : P.look s r' = .inl a)
    {C : Shared ℕ σ ρ δ → Phase ℕ ρ φ → Prop} (hfirst : C (.idle s) (.look 0 r))
    (hthen : ∀ x ∈ [Phase.look 1 r', .finish 0 f],
      C ⟨s, Function.update (fun _ => none) 0 (some (r, d))⟩ x) :
    Along P.step C (.idle s) [.look 0 r, .look 1 r', .finish 0 f] := by
  have hheld := TwoPhase.step_held (P := P) (s := .idle s) (i := 0) rfl hlook
  have hsettled := TwoPhase.step_settled (P := P)
    (s := ⟨s, Function.update (fun _ => none) 0 (some (r, d))⟩) (i := 1) rfl hlook'
  refine ⟨hfirst, ?_, ?_, trivial⟩
  · rw [hheld]
    exact hthen _ (by simp)
  · rw [hheld]
    simp only [Shared.idle]
    rw [hsettled]
    exact hthen _ (by simp)

/-- The order is heard, then something that is no AS4 message, and then the order is accepted. -/
def between : List (Phase ℕ Heeded (Moment × Verdict)) :=
  [hearOrder 0 1, .look 1 (moment 2, Request.new "GET" "/msh", "peer"), admitOrder 0 3]

/-- The order might as well be heard and accepted at once. -/
theorem cycles_serializable_order : ∃ serial rest, Serial serial ∧
    run (receiving bench).step (.idle seller) (serial ++ rest) =
      run (receiving bench).step (.idle seller) between := by
  obtain ⟨heard, hheard⟩ : ∃ heard, (receiving bench).look seller
      (moment 2, Request.new "GET" "/msh", "peer") = .inl heard := ⟨_, rfl⟩
  have hpossible : Along (receiving bench).step Possible (.idle seller) between := by
    refine along_between _ (look_order 1) hheard rfl fun x hx => ?_
    simp only [List.mem_cons, List.not_mem_nil, or_false] at hx
    rcases hx with rfl | rfl
    · rfl
    · exact ⟨_, rfl⟩
  have hlone : Along (receiving bench).step (Lone bench) (.idle seller) between := by
    refine along_between _ (look_order 1) hheard ?_ fun x hx => ?_
    · rintro i held ⟨now, r, receipt, ha, -⟩
      cases ha
    · rintro i held ⟨now, r, receipt, rfl, -⟩ j r' held' hj hpending
      have hi : i = 0 := by
        simp only [List.mem_cons, List.not_mem_nil, or_false, reduceCtorEq, false_or,
          Phase.finish.injEq] at hx
        exact hx.1
      rw [hi] at hj
      simp only [Function.update_of_ne hj, reduceCtorEq] at hpending
  obtain ⟨serial, rest, hserial, -, -, hrun, -⟩ := cycles_serializable hpossible hlone
  exact ⟨serial, rest, hserial, hrun⟩

end As4
