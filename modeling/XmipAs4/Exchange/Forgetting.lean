import XmipAs4.Delivery.Refinement
import XmipAs4.Exchange.OneDelivery

/-!
# What is forgotten

A far end remembers the ids of the last messages it took, and no more.  `stepForever` is the
far end that forgets nothing: before each step it recalls every message it ever accepted with
its Receipt signed.  The two tell and answer the same, event by event, exactly as long as no
POST is heard of an id that was accepted, receipted and forgotten; and nothing is forgotten as
long as no more ids are accepted and receipted than are remembered.
-/

namespace As4

open Delivery (run outputs Along)
open Multipart (Bytes)

/-! ## What a step makes of what is remembered -/

section Memory

variable {L : Estate} {t : As4Transport} {now : Moment} {request : Request} {ids : List String}

/-- Two memories agree on a POST: if it is read and admitted, its id is in both or in neither. -/
def AgreeOn (L : Estate) (t : As4Transport) (ids ids' : List String) (now : Moment)
    (request : Request) : Prop :=
  ∀ m bytes, t.unpack L now request = .ok (m, bytes) → t.admits L now m bytes = .ok () →
    (m.messageId ∈ ids ↔ m.messageId ∈ ids')

/-- A POST is heard alike under memories that agree on it. -/
theorem hear_memory (peer : SocketAddr) (h : AgreeOn L t ids t.receipting.ids now request) :
    (t.remembering ids).hear L now request peer = t.hear L now request peer := by
  have hh := t.hears L now request peer
  generalize t.hear L now request peer = heard at hh
  refine Hears.eq_hear ?_
  cases hh with
  | unread hunpack => exact .unread hunpack
  | unadmitted hunpack hadmits => exact .unadmitted hunpack hadmits
  | again hunpack hadmits hseen hreceipt =>
    exact .again hunpack hadmits ((h _ _ hunpack hadmits).mpr hseen) hreceipt
  | unsigned hunpack hadmits hseen hreceipt =>
    exact .unsigned hunpack hadmits ((h _ _ hunpack hadmits).mpr hseen) hreceipt
  | new hunpack hadmits hnew =>
    exact .new hunpack hadmits fun hmem => hnew ((h _ _ hunpack hadmits).mp hmem)

/-- What a verdict is answered does not depend on what is remembered. -/
theorem answer_memory (r : Receipting) (ids : List String) (now : Moment) (m : UserMessage)
    (verdict : Verdict) :
    (Receipting.answer L { r with ids } now m verdict).1 = (r.answer L now m verdict).1 := by
  cases verdict with
  | Refused why => rfl
  | Failed => rfl
  | Accepted =>
    have hsame : Receipting.receipt L { r with ids } now m = r.receipt L now m := rfl
    cases hreceipt : r.receipt L now m with
    | ok a =>
      rw [Receipting.answer_accepted hreceipt, Receipting.answer_accepted (hsame ▸ hreceipt)]
    | error e =>
      rw [Receipting.answer_unsigned hreceipt, Receipting.answer_unsigned (hsame ▸ hreceipt)]

/-- A POST is served alike under memories that agree on it. -/
theorem serve_memory (peer : SocketAddr)
    (h : AgreeOn L t ids t.receipting.ids now request) :
    ((t.remembering ids).serve L now request peer).1 = (t.serve L now request peer).1 := by
  unfold As4Transport.serve
  rw [hear_memory peer h]
  generalize t.hear L now request peer = heard
  rcases heard with ⟨said, answer⟩ | e | _ | ⟨m, origin, bytes, sender⟩
  · rfl
  · rfl
  · rfl
  · have hanswer := answer_memory (L := L) t.receipting ids now m .Accepted
    change (Receipting.answer L { t.receipting with ids } now m .Accepted).1 = _ at hanswer
    have hthis : (t.remembering ids).receipting = { t.receipting with ids } := rfl
    simp only
    rw [hthis]
    generalize Receipting.answer L { t.receipting with ids } now m .Accepted = r at hanswer
    generalize t.receipting.answer L now m .Accepted = r' at hanswer
    obtain ⟨answer, receipting⟩ := r
    obtain ⟨answer', receipting'⟩ := r'
    simp only at hanswer
    subst hanswer
    cases answer <;> rfl

end Memory

/-! ## A far end that forgets nothing -/

/-- The ids of the messages that were accepted with their Receipt signed. -/
def FarEnd.receiptedIds (s : FarEnd) : List String :=
  (s.handed.filter fun u => decide u.Receipted).map HandUp.messageId

/-- The far end as it recalls every message it accepted with its Receipt signed. -/
def FarEnd.recalling (s : FarEnd) : FarEnd :=
  { s with transport := s.transport.remembering s.receiptedIds }

/-- One step of a far end that forgets nothing. -/
def FarEnd.stepForever (L : Estate) (s : FarEnd) (e : Event) : FarEnd × Told × Option Response :=
  s.recalling.step L e

/-- An id is among them where a message of that id was accepted with its Receipt signed. -/
theorem mem_receiptedIds {s : FarEnd} {id : String} :
    id ∈ s.receiptedIds ↔ ∃ u ∈ s.handed, u.messageId = id ∧ u.Receipted := by
  simp only [FarEnd.receiptedIds, List.mem_map, List.mem_filter, decide_eq_true_iff]
  constructor
  · rintro ⟨u, ⟨hu, hreceipted⟩, hid⟩
    exact ⟨u, hu, hid, hreceipted⟩
  · rintro ⟨u, hu, hid, hreceipted⟩
    exact ⟨u, ⟨hu, hreceipted⟩, hid⟩

section Steps

variable {L : Estate} {s : FarEnd} {e : Event} {ids : List String}

/-- What was accepted and receipted stays so through a step. -/
theorem receiptedIds_step (s : FarEnd) (e : Event) :
    s.receiptedIds ⊆ (s.step L e).1.receiptedIds := by
  intro id hid
  obtain ⟨u, hu, hmessage, hreceipted⟩ := mem_receiptedIds.mp hid
  exact mem_receiptedIds.mpr
    ⟨u, (steps s e).mem_handed hu hreceipted.not_waits, hmessage, hreceipted⟩

/-- A step under another memory that agrees with the far end's on the POST it hears, if it
hears one, tells and answers the same, and hands up the same. -/
theorem step_memory (h : ∀ now request, e.posted = some (now, request) →
      AgreeOn L s.transport ids s.transport.receipting.ids now request) :
    (FarEnd.step L ⟨s.transport.remembering ids, s.handed⟩ e).2 = (s.step L e).2 ∧
      (FarEnd.step L ⟨s.transport.remembering ids, s.handed⟩ e).1.handed =
        (s.step L e).1.handed := by
  cases e with
  | take now arrival =>
    cases arrival with
    | failed e => exact ⟨rfl, rfl⟩
    | posted request peer =>
      have hhear := hear_memory peer (h now request rfl)
      unfold FarEnd.step As4Transport.takeNext
      simp only
      rw [hhear]
      generalize s.transport.hear L now request peer = heard
      rcases heard with ⟨e | _ | held, answer⟩ | e | _ | ⟨m, origin, bytes, sender⟩
      all_goals exact ⟨rfl, rfl⟩
  | judge now k verdict reply =>
    unfold FarEnd.step
    simp only
    rcases s.handed[k]? with _ | ⟨arrived, _ | given⟩
    · exact ⟨rfl, rfl⟩
    · have hanswer := answer_memory (L := L) s.transport.receipting ids now arrived.answered verdict
      have hthis : (s.transport.remembering ids).receipting =
          { s.transport.receipting with ids } := rfl
      unfold As4Transport.acknowledge
      simp only
      rw [hthis]
      generalize Receipting.answer L { s.transport.receipting with ids } now arrived.answered
        verdict = r at hanswer
      generalize s.transport.receipting.answer L now arrived.answered verdict = r' at hanswer
      obtain ⟨answer, receipting⟩ := r
      obtain ⟨answer', receipting'⟩ := r'
      simp only at hanswer
      subst hanswer
      cases answer <;> exact ⟨rfl, rfl⟩
    · exact ⟨rfl, rfl⟩
  | accept now connection =>
    cases connection with
    | broken e => exact ⟨rfl, rfl⟩
    | read request peer written =>
      have hserve := serve_memory peer (h now request rfl)
      unfold FarEnd.step acceptedOn As4Transport.acceptOne
      simp only
      generalize (s.transport.remembering ids).serve L now request peer = r at hserve
      generalize s.transport.serve L now request peer = r' at hserve
      obtain ⟨⟨said, answer⟩, transport⟩ := r
      obtain ⟨⟨said', answer'⟩, transport'⟩ := r'
      cases hserve
      cases written <;> exact ⟨rfl, rfl⟩

/-- No POST is heard that is read and admitted and whose id was accepted, receipted and
forgotten. -/
def NoneForgotten (L : Estate) (s : FarEnd) (e : Event) : Prop :=
  ∀ now request m bytes, e.posted = some (now, request) →
    s.transport.unpack L now request = .ok (m, bytes) →
    s.transport.admits L now m bytes = .ok () →
    m.messageId ∈ s.receiptedIds → m.messageId ∈ s.transport.receipting.ids

/-- Two far ends that differ in what they remember alone, the first of which remembers only
what it accepted and receipted. -/
structure Recalled (s s' : FarEnd) : Prop where
  same : s'.transport = s.transport.remembering s'.transport.receipting.ids
  handed : s'.handed = s.handed
  vouched : Vouched s

/-- Far ends that differ in what they remember alone recall the same. -/
theorem Recalled.recalling_eq {s' : FarEnd} (h : Recalled s s') :
    s'.recalling = ⟨s.transport.remembering s.receiptedIds, s.handed⟩ := by
  have hids : s'.receiptedIds = s.receiptedIds := by
    rw [FarEnd.receiptedIds, h.handed, FarEnd.receiptedIds]
  rw [FarEnd.recalling, h.handed, hids, h.same]
  rfl

/-- Where nothing forgotten is heard, a step gives what it gives where nothing is forgotten. -/
theorem Recalled.step {s' : FarEnd} (h : Recalled s s') (hnone : NoneForgotten L s e) :
    Recalled (s.step L e).1 (s'.stepForever L e).1 ∧
      (s.step L e).2 = (s'.stepForever L e).2 := by
  have hagree : ∀ now request, e.posted = some (now, request) →
      AgreeOn L s.transport s.receiptedIds s.transport.receipting.ids now request := by
    intro now request hposted m bytes hunpack hadmits
    refine ⟨hnone now request m bytes hposted hunpack hadmits, ?_⟩
    intro hid
    exact mem_receiptedIds.mpr (h.vouched m.messageId hid)
  obtain ⟨hout, hhanded⟩ := step_memory hagree
  rw [FarEnd.stepForever, h.recalling_eq]
  obtain ⟨ids', hids'⟩ := (steps (L := L) s e).transport_eq
  obtain ⟨ids'', hids''⟩ := (steps (L := L)
    ⟨s.transport.remembering s.receiptedIds, s.handed⟩ e).transport_eq
  refine ⟨⟨?_, hhanded, h.vouched.step (steps s e)⟩, hout.symm⟩
  rw [hids', hids'']
  rfl

/-- A far end that receives through `take_next` alone tells or answers otherwise than one that
forgets nothing where it hears what it has forgotten. -/
theorem Recalled.noneForgotten {s' : FarEnd} (h : Recalled s s') (hdeferred : e.Deferred)
    (hout : (s.step L e).2 = (s'.stepForever L e).2) : NoneForgotten L s e := by
  intro now request m bytes hposted hunpack hadmits hid
  by_contra hnew
  cases e with
  | judge now k verdict reply => cases hposted
  | accept now connection => exact hdeferred
  | take now arrival =>
    cases arrival with
    | failed e => cases hposted
    | posted request peer =>
      cases hposted
      have htake := step_take_new peer hunpack hadmits hnew
      rw [htake, FarEnd.stepForever, h.recalling_eq] at hout
      -- The far end that forgets nothing has the id, and hands nothing up.
      have hstep := steps (L := L) ⟨s.transport.remembering s.receiptedIds, s.handed⟩
        (.take now (.posted request peer))
      rw [← hout] at hstep
      generalize (FarEnd.step L ⟨s.transport.remembering s.receiptedIds, s.handed⟩
        (.take now (.posted request peer))).1 = after at hstep
      cases hstep with
      | handedUp hunpack' hadmits' hnew' => exact hnew' hid

end Steps

/-! ## As many ids as are remembered -/

/-- A step signs no Receipt and remembers nothing, or signs one Receipt and remembers the id of
the message accepted. -/
theorem Steps.memory {L : Estate} {s s' : FarEnd} {e : Event} {told : Told}
    {answer : Option Response} (h : Steps L s e s' told answer) :
    (s'.transport.receipting.ids = s.transport.receipting.ids ∧
      ∀ u ∈ s'.handed, u.Receipted → u ∈ s.handed) ∨
    ∃ id, s'.transport.receipting.ids =
        Delivery.remember remembered id s.transport.receipting.ids ∧
      id ∈ s'.receiptedIds ∧
      ∀ u ∈ s'.handed, u.Receipted → u ∈ s.handed ∨ u.messageId = id := by
  have hset : ∀ k (x : HandUp), ¬ x.Receipted →
      ∀ u ∈ s.handed.set k x, u.Receipted → u ∈ s.handed := by
    intro k x hnot u hu hreceipted
    rcases List.mem_or_eq_of_mem_set hu with hu | rfl
    · exact hu
    · exact absurd hreceipted hnot
  have hnone : ∀ u ∈ s.handed ++ [], u.Receipted → u ∈ s.handed := by
    intro u hu _
    rwa [List.append_nil] at hu
  cases h with
  | failed => exact .inl ⟨rfl, fun u hu _ => hu⟩
  | answered _ _ => exact .inl ⟨rfl, fun u hu _ => hu⟩
  | nothing _ => exact .inl ⟨rfl, fun u hu _ => hu⟩
  | broken => exact .inl ⟨rfl, fun u hu _ => hu⟩
  | handedUp _ _ _ =>
    refine .inl ⟨rfl, fun u hu hreceipted => ?_⟩
    rcases List.mem_append.mp hu with hu | hu
    · exact hu
    · rw [List.mem_singleton.mp hu] at hreceipted
      cases hreceipted
  | unsigned _ _ => exact .inl ⟨rfl, hset _ _ (fun h => by cases h)⟩
  | declined _ hv =>
    refine .inl ⟨rfl, hset _ _ fun h => ?_⟩
    cases h
    exact hv rfl
  | @receipted now k reply arrived a hwaits _ =>
    obtain ⟨hk, -⟩ := List.getElem?_eq_some_iff.mp hwaits
    refine .inr ⟨_, rfl, mem_receiptedIds.mpr ⟨_, List.mem_set hk _, rfl, rfl⟩, ?_⟩
    intro u hu _
    rcases List.mem_or_eq_of_mem_set hu with hu | rfl
    · exact .inl hu
    · exact .inr rfl
  | served hserves =>
    cases hserves with
    | refused _ => exact .inl ⟨rfl, hnone⟩
    | again _ _ _ _ => exact .inl ⟨rfl, hnone⟩
    | unsigned _ _ _ => exact .inl ⟨rfl, hnone⟩
    | accepted _ _ _ _ =>
      refine .inr ⟨_, rfl, mem_receiptedIds.mpr
        ⟨_, List.mem_append_right _ (List.mem_singleton.mpr rfl), rfl, rfl⟩, ?_⟩
      intro u hu _
      rcases List.mem_append.mp hu with hu | hu
      · exact .inl hu
      · rw [List.mem_singleton.mp hu]
        exact .inr rfl

/-- A far end that has forgotten nothing: it remembers exactly what it accepted and receipted. -/
structure Complete (s : FarEnd) : Prop where
  nodup : s.transport.receipting.ids.Nodup
  recalls : ∀ id, id ∈ s.transport.receipting.ids ↔ id ∈ s.receiptedIds

/-- A step keeps a far end complete while no more ids are accepted and receipted than are
remembered. -/
theorem Complete.step {L : Estate} {s s' : FarEnd} {e : Event} {told : Told}
    {answer : Option Response} (hs : Complete s) (h : Steps L s e s' told answer)
    {K : Finset String} (hcard : K.card ≤ remembered) (hK : ∀ id ∈ s'.receiptedIds, id ∈ K) :
    Complete s' := by
  have hgrow : ∀ id ∈ s.receiptedIds, id ∈ s'.receiptedIds := by
    intro id hid
    obtain ⟨u, hu, hmessage, hreceipted⟩ := mem_receiptedIds.mp hid
    exact mem_receiptedIds.mpr ⟨u, h.mem_handed hu hreceipted.not_waits, hmessage, hreceipted⟩
  rcases h.memory with ⟨hids, hnone⟩ | ⟨id, hids, hid, hone⟩
  · refine ⟨hids ▸ hs.nodup, fun id => ?_⟩
    rw [hids, hs.recalls id]
    refine ⟨hgrow id, fun hid => ?_⟩
    obtain ⟨u, hu, hmessage, hreceipted⟩ := mem_receiptedIds.mp hid
    exact mem_receiptedIds.mpr ⟨u, hnone u hu hreceipted, hmessage, hreceipted⟩
  · refine ⟨hids ▸ Delivery.nodup_remember hs.nodup, fun other => ?_⟩
    rw [hids]
    constructor
    · intro hother
      rcases Delivery.mem_of_mem_remember hother with hother | rfl
      · exact hgrow other ((hs.recalls other).mp hother)
      · exact hid
    · intro hother
      obtain ⟨u, hu, hmessage, hreceipted⟩ := mem_receiptedIds.mp hother
      rcases hone u hu hreceipted with hbefore | hnew
      · refine Delivery.mem_remember_of_card_le hcard hs.nodup ?_ (hK id hid) ?_
        · intro z hz
          exact hK z (hgrow z ((hs.recalls z).mp hz))
        · exact (hs.recalls other).mpr (mem_receiptedIds.mpr ⟨u, hbefore, hmessage, hreceipted⟩)
      · rw [← hmessage, hnew]
        exact Delivery.mem_remember_self ..

/-! ## Whole runs -/

section Runs

variable {L : Estate} {t : As4Transport} (hids : t.receipting.ids = []) (es : List Event)
include hids

omit es in
/-- A far end that has received nothing recalls nothing. -/
theorem recalled_fresh : Recalled (.fresh t) (.fresh t) where
  same := rfl
  handed := rfl
  vouched := (sound_fresh hids).vouched

/-- A far end that receives through `take_next`, whatever it is posted and whatever verdicts
are given, tells and answers in every step what one tells and answers that forgets nothing, if
and only if no POST is heard that is read and admitted and whose id was accepted, receipted and
forgotten. -/
theorem forgetting_shows_iff (hdeferred : ∀ e ∈ es, e.Deferred) :
    outputs (FarEnd.step L) (.fresh t) es = outputs (FarEnd.stepForever L) (.fresh t) es ↔
      Along (FarEnd.step L) (NoneForgotten L) (.fresh t) es := by
  have hfresh := recalled_fresh hids
  constructor
  · intro houts
    refine Delivery.along_of_outputs ?_ hfresh hdeferred houts
    intro s s' e h hdeferred hout
    have hnone := h.noneForgotten hdeferred hout
    exact ⟨hnone, (h.step hnone).1⟩
  · intro hnone
    exact (Delivery.run_lockstep (fun _ _ _ h hnone => h.step hnone) hfresh hnone).2

/-- As long as no more ids are accepted and receipted than are remembered, a far end tells and
answers in every step, whichever way it receives, what one tells and answers that forgets
nothing, and it hands up the same. -/
theorem never_forgets
    (hfew : (run (FarEnd.step L) (.fresh t) es).receiptedIds.toFinset.card ≤ remembered) :
    outputs (FarEnd.step L) (.fresh t) es = outputs (FarEnd.stepForever L) (.fresh t) es ∧
      (run (FarEnd.step L) (.fresh t) es).handed =
        (run (FarEnd.stepForever L) (.fresh t) es).handed := by
  have hcomplete : Complete (.fresh t) := by
    refine ⟨(sound_fresh hids).nodup, fun id => ?_⟩
    change id ∈ t.receipting.ids ↔ id ∈ ([] : List String)
    rw [hids]
  have hnone : Along (FarEnd.step L) (NoneForgotten L) (.fresh t) es := by
    refine Delivery.along_of_invariant Complete ?_ hcomplete
      (Delivery.along_subset receiptedIds_step (.fresh t) es)
    intro s e hs hsub
    refine ⟨fun _ _ m _ _ _ _ hid => (hs.recalls m.messageId).mpr hid, ?_⟩
    exact hs.step (steps s e) hfew fun id hid => List.mem_toFinset.mpr (hsub hid)
  obtain ⟨hrelated, houts⟩ :=
    Delivery.run_lockstep (fun _ _ _ h hnone => h.step hnone) (recalled_fresh hids) hnone
  exact ⟨houts, hrelated.handed.symm⟩

end Runs

/-! ## The order on the bench -/

/-- The seller has forgotten nothing as it takes the order, accepts it and is sent it again. -/
theorem forgetting_shows_iff_order :
    outputs (FarEnd.step bench) (.fresh seller) orderResent =
      outputs (FarEnd.stepForever bench) (.fresh seller) orderResent := by
  refine (forgetting_shows_iff (t := seller) rfl orderResent orderResent_deferred).mpr
    (along_orderResent ?_ ?_ ?_)
  · intro now request m bytes _ _ _ hid
    exact absurd hid List.not_mem_nil
  · intro now request m bytes hposted
    cases hposted
  · intro now request m bytes hposted hunpack _ _
    cases hposted
    -- What is heard is the order, and its id is remembered.
    have horder := (seller_takes_order 3 (Delivery.remember remembered order.messageId [])).1
    rw [(read_unique hunpack horder).1]
    exact Delivery.mem_remember_self remembered order.messageId []

/-- One order is no more ids than are remembered. -/
theorem card_orderHeld : orderHeld.receiptedIds.toFinset.card ≤ remembered := by
  have hone : orderHeld.receiptedIds = [order.messageId] := rfl
  rw [hone, List.toFinset_cons, List.toFinset_nil, insert_empty_eq, Finset.card_singleton]
  exact Receipting.remembered_pos

/-- Sent again once it was accepted, the order is answered as by a seller that forgets nothing,
and is handed up once by both. -/
theorem never_forgets_order :
    outputs (FarEnd.step bench) (.fresh seller) orderResent =
      outputs (FarEnd.stepForever bench) (.fresh seller) orderResent ∧
    (run (FarEnd.stepForever bench) (.fresh seller) orderResent).handed =
      [acceptedOrder true] := by
  obtain ⟨houts, hhanded⟩ := never_forgets (t := seller) rfl orderResent (by
    rw [run_orderResent]
    exact card_orderHeld)
  rw [run_orderResent] at hhanded
  exact ⟨houts, hhanded.symm⟩

end As4
