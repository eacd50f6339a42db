import XmipAs4.Delivery.Commute
import XmipAs4.Exchange.Forgetting

/-!
# Interleavings

Verdicts are given by whoever processed the messages, in an order of their own, while further
POSTs come in.  As long as no more ids are accepted and receipted than are remembered, the order
does not matter where it should not: two verdicts on different messages may be exchanged, and a
verdict and a POST of another id.  Every event is told and answered the same, the same messages
have been handed up with the same verdicts, and the same ids are remembered.

The argument is on the far end that forgets nothing, whose memory is what it handed up: there
the two orders lead to one list.
-/

namespace As4

open Delivery (run outputs Along Commutes)
open Relation (ReflTransGen)

/-! ## What may be exchanged -/

/-- Something arrives. -/
def Event.Arrives : Event → Prop
  | .judge _ _ _ _ => False
  | _ => True

/-- What arrives is not a POST of the id of the `k`-th message handed up. -/
structure ArrivesApart (L : Estate) (s : FarEnd) (k : ℕ) (e : Event) : Prop where
  arrives : e.Arrives
  handed : k < s.handed.length
  other : ∀ now request m bytes, e.posted = some (now, request) →
    s.transport.unpack L now request = .ok (m, bytes) →
    ∀ u, s.handed[k]? = some u → m.messageId ≠ u.messageId

/-- Two events that may be exchanged: verdicts on different messages, or a verdict on a message
handed up and an arrival that is not of its id. -/
inductive Exchangeable (L : Estate) (s : FarEnd) : Event → Event → Prop where
  | verdicts {now now' : Moment} {k j : ℕ} {v v' : Verdict} {reply reply' : Response → Result Unit}
      (h : k ≠ j) : Exchangeable L s (.judge now k v reply) (.judge now' j v' reply')
  | before {now : Moment} {k : ℕ} {v : Verdict} {reply : Response → Result Unit} {e : Event}
      (h : ArrivesApart L s k e) : Exchangeable L s (.judge now k v reply) e
  | after {now : Moment} {k : ℕ} {v : Verdict} {reply : Response → Result Unit} {e : Event}
      (h : ArrivesApart L s k e) : Exchangeable L s e (.judge now k v reply)

/-- Two runs that differ in the order of two neighbours that may be exchanged. -/
inductive Exchanged (L : Estate) (t : As4Transport) : List Event → List Event → Prop where
  | swap (pre : List Event) {a b : Event} (post : List Event)
      (h : Exchangeable L (run (FarEnd.step L) (.fresh t) pre) a b) :
      Exchanged L t (pre ++ a :: b :: post) (pre ++ b :: a :: post)

/-! ## Steps of a far end that forgets nothing -/

/-- Far ends that differ in what they remember alone. -/
structure SameButMemory (s s' : FarEnd) : Prop where
  transport : s'.transport = s.transport.remembering s'.transport.receipting.ids
  handed : s'.handed = s.handed

/-- Such far ends recall the same. -/
theorem SameButMemory.recalling_eq {s s' : FarEnd} (h : SameButMemory s s') :
    s'.recalling = s.recalling := by
  have hids : s'.receiptedIds = s.receiptedIds := by
    rw [FarEnd.receiptedIds, h.handed, FarEnd.receiptedIds]
  rw [FarEnd.recalling, h.handed, hids, h.transport]
  rfl

section Steps

variable {L : Estate}

/-- They take the same steps where nothing is forgotten. -/
theorem SameButMemory.stepForever_eq {s s' : FarEnd} (h : SameButMemory s s') (e : Event) :
    s'.stepForever L e = s.stepForever L e := by
  rw [FarEnd.stepForever, h.recalling_eq, FarEnd.stepForever]

/-- A step changes nothing of the transport but what is remembered, also where nothing is
forgotten. -/
theorem stepForever_transport (s : FarEnd) (e : Event) : (s.stepForever L e).1.transport =
    s.transport.remembering (s.stepForever L e).1.transport.receipting.ids := by
  obtain ⟨ids, hids⟩ := (steps (L := L) s.recalling e).transport_eq
  rw [FarEnd.stepForever, hids]
  rfl

/-! ## What a verdict changes -/

/-- A message handed up as a verdict leaves it: given the verdict, if it waits. -/
def HandUp.judged (L : Estate) (t : As4Transport) (now : Moment) (v : Verdict) (u : HandUp) :
    HandUp :=
  match u.verdict with
  | none =>
    ⟨u.arrived, some (v, (t.receipting.answer L now u.arrived.answered v).1.toOption.isSome)⟩
  | some _ => u

/-- What is told of a verdict on a message, and what is answered: nothing, if it does not
wait. -/
def verdictOn (L : Estate) (t : As4Transport) (now : Moment) (v : Verdict)
    (reply : Response → Result Unit) : Option HandUp → Told × Option Response
  | some ⟨arrived, none⟩ =>
    (.judged ((t.receipting.answer L now arrived.answered v).1 >>= reply),
      (t.receipting.answer L now arrived.answered v).1.toOption)
  | _ => (.nothing, none)

/-- A verdict leaves a message its id. -/
theorem HandUp.messageId_judged (t : As4Transport) (now : Moment) (v : Verdict) (u : HandUp) :
    (u.judged L t now v).messageId = u.messageId := by
  obtain ⟨arrived, verdict⟩ := u
  cases verdict <;> rfl

/-- A verdict changes the message it is given to and no other, and what is told of it is said
by that message alone, whatever is remembered. -/
theorem step_judge_modify (t : As4Transport) (ids : List String) (handed : List HandUp)
    (now : Moment) (k : ℕ) (v : Verdict) (reply : Response → Result Unit) :
    (FarEnd.step L ⟨t.remembering ids, handed⟩ (.judge now k v reply)).1.handed =
        handed.modify k (HandUp.judged L t now v) ∧
      (FarEnd.step L ⟨t.remembering ids, handed⟩ (.judge now k v reply)).2 =
        verdictOn L t now v reply handed[k]? := by
  by_cases hwaits : ∃ arrived, handed[k]? = some ⟨arrived, none⟩
  · obtain ⟨arrived, hwaits⟩ := hwaits
    obtain ⟨answer, receipting, hanswer, hstep⟩ := step_judge_waits (L := L)
      (s := ⟨t.remembering ids, handed⟩) now hwaits v reply
    have hmemory := answer_memory (L := L) t.receipting ids now arrived.answered v
    have hsame : (Receipting.answer L { t.receipting with ids } now arrived.answered v).1 =
        answer := congrArg Prod.fst hanswer
    rw [hsame] at hmemory
    rw [hstep, hwaits]
    simp only
    rw [hmemory]
    refine ⟨?_, rfl⟩
    apply List.ext_getElem?
    intro i
    rw [List.getElem?_set, List.getElem?_modify]
    by_cases hi : k = i
    · subst hi
      obtain ⟨hk, -⟩ := List.getElem?_eq_some_iff.mp hwaits
      rw [if_pos rfl, if_pos hk, hwaits]
      simp [HandUp.judged]
    · simp [hi]
  · rw [step_judge_nothing (not_exists.mp hwaits)]
    constructor
    · apply List.ext_getElem?
      intro i
      rw [List.getElem?_modify]
      cases hat : handed[i]? with
      | none => rfl
      | some u =>
        by_cases hi : k = i
        · subst hi
          obtain ⟨arrived, verdict⟩ := u
          cases verdict with
          | none => exact absurd ⟨arrived, hat⟩ hwaits
          | some given => simp [HandUp.judged]
        · simp [hi]
    · cases hat : handed[k]? with
      | none => rfl
      | some u =>
        obtain ⟨arrived, verdict⟩ := u
        cases verdict with
        | none => exact absurd ⟨arrived, hat⟩ hwaits
        | some given => rfl

/-- What arrives adds to what was handed up what it says itself, with the memory it finds. -/
theorem step_arrives {e : Event} (he : e.Arrives) (t : As4Transport) :
    ∃ ids l out, ∀ handed,
      FarEnd.step L ⟨t, handed⟩ e = (⟨t.remembering ids, handed ++ l⟩, out) := by
  have hsame : t.remembering t.receipting.ids = t := rfl
  cases e with
  | judge now k v reply => exact he.elim
  | take now arrival =>
    cases arrival with
    | failed e =>
      refine ⟨t.receipting.ids, [], (.took (.error e), none), fun handed => ?_⟩
      rw [List.append_nil]
      rfl
    | posted request peer =>
      unfold FarEnd.step As4Transport.takeNext
      simp only
      generalize t.hear L now request peer = heard
      rcases heard with ⟨e | _ | held, answer⟩ | e | _ | ⟨m, origin, bytes, sender⟩
      all_goals first
        | exact ⟨t.receipting.ids, [], _, fun handed => by rw [List.append_nil]; rfl⟩
        | exact ⟨t.receipting.ids, _, _, fun handed => rfl⟩
  | accept now connection =>
    cases connection with
    | broken e => exact ⟨t.receipting.ids, [], _, fun handed => rfl⟩
    | read request peer written =>
      obtain ⟨said, answer, ids, hserve, -⟩ := t.serves L now request peer
      refine ⟨ids, acceptedOf said, (.accepted (written >>= fun _ => said), some answer),
        fun handed => ?_⟩
      unfold FarEnd.step acceptedOn As4Transport.acceptOne
      simp only
      rw [hserve]
      cases written <;> rfl

/-! ## Commuting where nothing is forgotten -/

variable {s : FarEnd}

/-- What a verdict does where nothing is forgotten. -/
theorem forever_judge {s' : FarEnd}
    (hs : s'.transport = s.transport.remembering s'.transport.receipting.ids) (now : Moment)
    (k : ℕ) (v : Verdict) (reply : Response → Result Unit) :
    (s'.stepForever L (.judge now k v reply)).1.handed =
        s'.handed.modify k (HandUp.judged L s.transport now v) ∧
      (s'.stepForever L (.judge now k v reply)).2 =
        verdictOn L s.transport now v reply s'.handed[k]? := by
  have hrecalls : s'.recalling = ⟨s.transport.remembering s'.receiptedIds, s'.handed⟩ := by
    rw [FarEnd.recalling, hs]
    rfl
  rw [FarEnd.stepForever, hrecalls]
  exact step_judge_modify s.transport s'.receiptedIds s'.handed now k v reply

/-- What an arrival does where nothing is forgotten: the same wherever its id, if it has one,
was accepted and receipted in the one state as in the other. -/
theorem forever_arrives {e : Event} (he : e.Arrives) (s : FarEnd) : ∃ l out, ∀ s' : FarEnd,
    s'.transport = s.transport.remembering s'.transport.receipting.ids →
    (∀ now request m bytes, e.posted = some (now, request) →
      s.transport.unpack L now request = .ok (m, bytes) →
      (m.messageId ∈ s'.receiptedIds ↔ m.messageId ∈ s.receiptedIds)) →
    (s'.stepForever L e).1.handed = s'.handed ++ l ∧ (s'.stepForever L e).2 = out := by
  obtain ⟨ids, l, out, hstep⟩ := step_arrives (L := L) he (s.transport.remembering s.receiptedIds)
  refine ⟨l, out, fun s' hs hagree => ?_⟩
  have hmemory : ∀ now request, e.posted = some (now, request) →
      AgreeOn L (s.transport.remembering s.receiptedIds) s'.receiptedIds s.receiptedIds now
        request :=
    fun now request hposted m bytes hunpack _ => hagree now request m bytes hposted hunpack
  obtain ⟨hout, hhanded⟩ := step_memory
    (s := ⟨s.transport.remembering s.receiptedIds, s'.handed⟩) hmemory
  have hrecalls : s'.recalling =
      ⟨(s.transport.remembering s.receiptedIds).remembering s'.receiptedIds, s'.handed⟩ := by
    rw [FarEnd.recalling, hs]
    rfl
  rw [FarEnd.stepForever, hrecalls, hhanded, hout, hstep]
  exact ⟨rfl, rfl⟩

/-- A verdict changes of what was accepted and receipted at most the id of its message. -/
theorem mem_receiptedIds_modify (t t' : As4Transport) {handed : List HandUp} {k : ℕ}
    {f : HandUp → HandUp} (hf : ∀ u, (f u).messageId = u.messageId) {id : String}
    (hid : ∀ u, handed[k]? = some u → id ≠ u.messageId) :
    id ∈ FarEnd.receiptedIds ⟨t', handed.modify k f⟩ ↔ id ∈ FarEnd.receiptedIds ⟨t, handed⟩ := by
  have hat : ∀ i, i ≠ k → (handed.modify k f)[i]? = handed[i]? :=
    fun i hi => List.getElem?_modify_ne f handed (Ne.symm hi)
  rw [mem_receiptedIds, mem_receiptedIds]
  constructor
  · rintro ⟨u, hu, hmessage, hreceipted⟩
    obtain ⟨i, hi⟩ := List.mem_iff_getElem?.mp hu
    by_cases hik : i = k
    · subst hik
      rw [List.getElem?_modify_eq] at hi
      obtain ⟨w, hw, rfl⟩ := Option.map_eq_some_iff.mp hi
      rw [hf] at hmessage
      exact absurd hmessage.symm (hid w hw)
    · rw [hat i hik] at hi
      exact ⟨u, List.mem_of_getElem? hi, hmessage, hreceipted⟩
  · rintro ⟨u, hu, hmessage, hreceipted⟩
    obtain ⟨i, hi⟩ := List.mem_iff_getElem?.mp hu
    have hik : i ≠ k := by
      rintro rfl
      exact hid u hi hmessage.symm
    exact ⟨u, List.mem_of_getElem? ((hat i hik).trans hi), hmessage, hreceipted⟩

/-- After two steps where nothing is forgotten the transport is the one before them, but for
what is remembered. -/
theorem stepForever_transport_two (s : FarEnd) (a b : Event) :
    ∃ ids, ((s.stepForever L a).1.stepForever L b).1.transport = s.transport.remembering ids := by
  rw [stepForever_transport, stepForever_transport]
  exact ⟨_, rfl⟩

/-- Two orders that lead to the same messages handed up lead to far ends that differ in what
they remember alone. -/
theorem sameButMemory_two {a b : Event}
    (h : ((s.stepForever L b).1.stepForever L a).1.handed =
      ((s.stepForever L a).1.stepForever L b).1.handed) :
    SameButMemory ((s.stepForever L a).1.stepForever L b).1
      ((s.stepForever L b).1.stepForever L a).1 := by
  obtain ⟨ids, hids⟩ := stepForever_transport_two (L := L) s a b
  obtain ⟨ids', hids'⟩ := stepForever_transport_two (L := L) s b a
  refine ⟨?_, h⟩
  rw [hids, hids']
  rfl

/-- Verdicts on different messages commute where nothing is forgotten. -/
theorem commutes_verdicts {k j : ℕ} (hne : k ≠ j) (now now' : Moment) (v v' : Verdict)
    (reply reply' : Response → Result Unit) :
    Commutes (FarEnd.stepForever L) SameButMemory s (.judge now k v reply)
      (.judge now' j v' reply') := by
  have hsame : s.transport = s.transport.remembering s.transport.receipting.ids := rfl
  obtain ⟨hka, houta⟩ := forever_judge (L := L) hsame now k v reply
  obtain ⟨hjb, houtb⟩ := forever_judge (L := L) hsame now' j v' reply'
  obtain ⟨hkab, houtab⟩ := forever_judge (stepForever_transport s (.judge now k v reply)) now' j v'
    reply'
  obtain ⟨hkba, houtba⟩ := forever_judge (stepForever_transport s (.judge now' j v' reply')) now k v
    reply
  rw [hka] at hkab houtab
  rw [hjb] at hkba houtba
  refine ⟨?_, ?_, ?_⟩
  · rw [houta, houtba, List.getElem?_modify_ne _ _ (Ne.symm hne)]
  · rw [houtb, houtab, List.getElem?_modify_ne _ _ hne]
  · apply sameButMemory_two
    rw [hkab, hkba]
    exact (List.modify_modify_ne _ _ _ hne).symm

/-- A verdict and an arrival apart from it commute where nothing is forgotten. -/
theorem commutes_arrival {k : ℕ} {e : Event} (h : ArrivesApart L s k e) (now : Moment)
    (v : Verdict) (reply : Response → Result Unit) :
    Commutes (FarEnd.stepForever L) SameButMemory s (.judge now k v reply) e := by
  have hsame : s.transport = s.transport.remembering s.transport.receipting.ids := rfl
  obtain ⟨l, out, hstep⟩ := forever_arrives (L := L) h.arrives s
  obtain ⟨hka, houta⟩ := forever_judge (L := L) hsame now k v reply
  obtain ⟨heb, houtb⟩ := hstep s hsame fun _ _ _ _ _ _ => Iff.rfl
  -- The verdict leaves it as it was whether the arrival's id was accepted and receipted.
  obtain ⟨hkab, houtab⟩ := hstep _ (stepForever_transport s (.judge now k v reply)) (by
    intro now' request m bytes hposted hunpack
    have hmem := mem_receiptedIds_modify s.transport
      (s.stepForever L (.judge now k v reply)).1.transport
      (HandUp.messageId_judged (L := L) s.transport now v)
      (h.other now' request m bytes hposted hunpack)
    rw [← hka] at hmem
    exact hmem)
  obtain ⟨hkba, houtba⟩ := forever_judge (stepForever_transport s e) now k v reply
  rw [hka] at hkab
  rw [heb] at hkba houtba
  refine ⟨?_, ?_, ?_⟩
  · rw [houta, houtba, List.getElem?_append_left h.handed]
  · rw [houtb, houtab]
  · apply sameButMemory_two
    rw [hkab, hkba]
    apply List.ext_getElem?
    intro i
    rw [List.getElem?_modify]
    by_cases hi : i < s.handed.length
    · rw [List.getElem?_append_left hi, List.getElem?_append_left (by simpa using hi),
        List.getElem?_modify]
    · have hik : k ≠ i := by
        have hk := h.handed
        omega
      rw [List.getElem?_append_right (by omega), List.getElem?_append_right (by simp; omega),
        List.length_modify]
      simp [hik]

/-- Far ends that differ in what they remember alone are not told apart where nothing is
forgotten. -/
theorem SameButMemory.step_eq {s' : FarEnd} (h : SameButMemory s s') (e : Event) :
    SameButMemory (s.stepForever L e).1 (s'.stepForever L e).1 ∧
      (s.stepForever L e).2 = (s'.stepForever L e).2 := by
  rw [h.stepForever_eq]
  exact ⟨⟨rfl, rfl⟩, rfl⟩

/-- What may be exchanged commutes where nothing is forgotten. -/
theorem Exchangeable.commutes {a b : Event} (h : Exchangeable L s a b) :
    Commutes (FarEnd.stepForever L) SameButMemory s a b := by
  cases h with
  | verdicts hne => exact commutes_verdicts hne _ _ _ _ _ _
  | before h => exact commutes_arrival h _ _ _
  | after h =>
    refine (commutes_arrival h _ _ _).symm ?_
    intro s s' hs
    refine ⟨?_, hs.handed.symm⟩
    rw [hs.transport]
    rfl

/-- What may be exchanged does not depend on what is remembered. -/
theorem Exchangeable.of_recalled {s' : FarEnd} (hs : Recalled s s') {a b : Event}
    (h : Exchangeable L s a b) : Exchangeable L s' a b := by
  have harrives : ∀ {k e}, ArrivesApart L s k e → ArrivesApart L s' k e := by
    intro k e h
    refine ⟨h.arrives, ?_, ?_⟩
    · rw [hs.handed]
      exact h.handed
    · rw [hs.handed, hs.same]
      exact h.other
  cases h with
  | verdicts hne => exact .verdicts hne
  | before h => exact .before (harrives h)
  | after h => exact .after (harrives h)

end Steps

/-! ## Whole runs -/

section Runs

variable {L : Estate} {t : As4Transport} (hids : t.receipting.ids = [])
include hids

/-- As long as no more ids would be accepted and receipted than are remembered, a far end
forgets nothing: it tells and answers what one tells and answers that forgets nothing, and has
handed up the same. -/
theorem follows_forever (es : List Event)
    (hfew : (run (FarEnd.stepForever L) (.fresh t) es).receiptedIds.toFinset.card ≤ remembered) :
    Recalled (run (FarEnd.step L) (.fresh t) es) (run (FarEnd.stepForever L) (.fresh t) es) ∧
      Complete (run (FarEnd.step L) (.fresh t) es) ∧
      outputs (FarEnd.step L) (.fresh t) es = outputs (FarEnd.stepForever L) (.fresh t) es := by
  have hcomplete : Complete (.fresh t) := by
    refine ⟨(sound_fresh hids).nodup, fun id => ?_⟩
    change id ∈ t.receipting.ids ↔ id ∈ ([] : List String)
    rw [hids]
  have hgrow : ∀ (s : FarEnd) e, s.receiptedIds ⊆ (s.stepForever L e).1.receiptedIds :=
    fun s e => receiptedIds_step s.recalling e
  have hstep : ∀ s s' (e : Event), Recalled s' s ∧ Complete s' →
      (s.stepForever L e).1.receiptedIds ⊆
        (run (FarEnd.stepForever L) (.fresh t) es).receiptedIds →
      (Recalled (s'.step L e).1 (s.stepForever L e).1 ∧ Complete (s'.step L e).1) ∧
        (s.stepForever L e).2 = (s'.step L e).2 := by
    rintro s s' e ⟨hrecalled, hcomplete⟩ hsub
    have hnone : NoneForgotten L s' e :=
      fun _ _ m _ _ _ _ hid => (hcomplete.recalls m.messageId).mpr hid
    obtain ⟨hnext, hout⟩ := hrecalled.step hnone
    refine ⟨⟨hnext, hcomplete.step (steps s' e) hfew fun id hid => ?_⟩, hout.symm⟩
    apply List.mem_toFinset.mpr
    apply hsub
    rwa [FarEnd.receiptedIds, hnext.handed]
  obtain ⟨⟨hrecalled, hdone⟩, houts⟩ := Delivery.run_lockstep
    (R := fun s s' => Recalled s' s ∧ Complete s') hstep ⟨recalled_fresh hids, hcomplete⟩
    (Delivery.along_subset hgrow (.fresh t) es)
  exact ⟨hrecalled, hdone, houts.symm⟩

/-- No more ids are accepted and receipted where nothing is forgotten than are without. -/
theorem card_forever_le {es : List Event}
    (hfew : (run (FarEnd.step L) (.fresh t) es).receiptedIds.toFinset.card ≤ remembered) :
    (run (FarEnd.stepForever L) (.fresh t) es).receiptedIds.toFinset.card ≤ remembered := by
  rw [FarEnd.receiptedIds, ← (never_forgets hids es hfew).2]
  exact hfew

/-- Runs that differ in the order of two neighbours that may be exchanged agree. -/
theorem Exchanged.agree {es es' : List Event} (h : Exchanged L t es es')
    (hfew : (run (FarEnd.step L) (.fresh t) es).receiptedIds.toFinset.card ≤ remembered) :
    (es.zip (outputs (FarEnd.step L) (.fresh t) es)).Perm
        (es'.zip (outputs (FarEnd.step L) (.fresh t) es')) ∧
      (run (FarEnd.step L) (.fresh t) es').handed = (run (FarEnd.step L) (.fresh t) es).handed ∧
      Complete (run (FarEnd.step L) (.fresh t) es') := by
  obtain ⟨hrecalled, -, houts⟩ := follows_forever hids es (card_forever_le hids hfew)
  cases h with
  | @swap pre a b post hexchange =>
    have hgrow : ∀ (s : FarEnd) e, s.receiptedIds ⊆ (s.stepForever L e).1.receiptedIds :=
      fun s e => receiptedIds_step s.recalling e
    -- Up to the two, both far ends are in one state but for what is remembered.
    have hpre : (run (FarEnd.stepForever L) (.fresh t) pre).receiptedIds.toFinset.card ≤
        remembered := by
      refine le_trans (Finset.card_le_card fun id hid => ?_) (card_forever_le hids hfew)
      rw [List.mem_toFinset] at hid ⊢
      rw [Delivery.run_append]
      exact Delivery.run_subset hgrow _ _ hid
    have hbefore := (follows_forever hids pre hpre).1
    obtain ⟨hsame, hperm⟩ := Delivery.run_exchange (fun _ _ e h => h.step_eq e)
      (hexchange.of_recalled hbefore).commutes post
    have hthen : (run (FarEnd.stepForever L) (.fresh t)
        (pre ++ b :: a :: post)).receiptedIds.toFinset.card ≤ remembered := by
      rw [FarEnd.receiptedIds, hsame.handed]
      exact card_forever_le hids hfew
    obtain ⟨hrecalled', hcomplete, houts'⟩ := follows_forever hids _ hthen
    refine ⟨?_, ?_, hcomplete⟩
    · rw [houts, houts']
      exact hperm
    · rw [← hrecalled'.handed, hsame.handed, hrecalled.handed]

/-- The order of independent steps does not matter.  Two runs of POSTs, connections and verdicts
that differ in the order of verdicts on different messages, and of verdicts and POSTs of other
ids, however often and however far these are exchanged: as long as no more ids are accepted and
receipted than are remembered, every event is told and answered in the one what it is told and
answered in the other, the same messages have been handed up with the same verdicts, and the
same ids are remembered. -/
theorem interleavings_agree {es es' : List Event} (h : ReflTransGen (Exchanged L t) es es')
    (hfew : (run (FarEnd.step L) (.fresh t) es).receiptedIds.toFinset.card ≤ remembered) :
    (es.zip (outputs (FarEnd.step L) (.fresh t) es)).Perm
        (es'.zip (outputs (FarEnd.step L) (.fresh t) es')) ∧
      (run (FarEnd.step L) (.fresh t) es').handed = (run (FarEnd.step L) (.fresh t) es).handed ∧
      ∀ id, id ∈ (run (FarEnd.step L) (.fresh t) es').transport.receipting.ids ↔
        id ∈ (run (FarEnd.step L) (.fresh t) es).transport.receipting.ids := by
  induction h with
  | refl => exact ⟨.refl _, rfl, fun _ => Iff.rfl⟩
  | tail _ hlast ih =>
    obtain ⟨hperm, hhanded, -⟩ := ih
    obtain ⟨hperm', hhanded', hcomplete⟩ := hlast.agree hids (by
      rw [FarEnd.receiptedIds, hhanded]
      exact hfew)
    have hall := hhanded'.trans hhanded
    refine ⟨hperm.trans hperm', hall, fun id => ?_⟩
    obtain ⟨-, hbefore, -⟩ := follows_forever hids es (card_forever_le hids hfew)
    rw [hcomplete.recalls, hbefore.recalls, FarEnd.receiptedIds, hall, FarEnd.receiptedIds]

end Runs

/-! ## The order on the bench -/

/-- Taken twice before a verdict, the order is accepted on either connection first, and every
event is answered the same. -/
theorem interleavings_agree_order :
    ([takeOrder 1, takeOrder 2, acceptOrder 3 0, acceptOrder 4 1].zip
        (outputs (FarEnd.step bench) (.fresh seller)
          [takeOrder 1, takeOrder 2, acceptOrder 3 0, acceptOrder 4 1])).Perm
      ([takeOrder 1, takeOrder 2, acceptOrder 4 1, acceptOrder 3 0].zip
        (outputs (FarEnd.step bench) (.fresh seller)
          [takeOrder 1, takeOrder 2, acceptOrder 4 1, acceptOrder 3 0])) ∧
    (run (FarEnd.step bench) (.fresh seller)
      [takeOrder 1, takeOrder 2, acceptOrder 4 1, acceptOrder 3 0]).handed =
        [acceptedOrder true, acceptedOrder true] := by
  have hfew : (run (FarEnd.step bench) (.fresh seller) [takeOrder 1, takeOrder 2, acceptOrder 3 0,
      acceptOrder 4 1]).receiptedIds.toFinset.card ≤ remembered := by
    rw [run_orderTwice]
    have htwice : FarEnd.receiptedIds ⟨seller.remembering (Delivery.remember remembered
        order.messageId (Delivery.remember remembered order.messageId [])),
        [acceptedOrder true, acceptedOrder true]⟩ = [order.messageId, order.messageId] := rfl
    rw [htwice, List.toFinset_cons, List.toFinset_cons, List.toFinset_nil, insert_empty_eq,
      Finset.insert_eq_of_mem (Finset.mem_singleton_self _), Finset.card_singleton]
    exact Receipting.remembered_pos
  have hexchanged : Exchanged bench seller
      [takeOrder 1, takeOrder 2, acceptOrder 3 0, acceptOrder 4 1]
      [takeOrder 1, takeOrder 2, acceptOrder 4 1, acceptOrder 3 0] :=
    .swap [takeOrder 1, takeOrder 2] [] (.verdicts Nat.zero_ne_one)
  obtain ⟨hperm, hhanded, -⟩ := interleavings_agree rfl (.single hexchanged) hfew
  rw [run_orderTwice] at hhanded
  exact ⟨hperm, hhanded⟩

end As4
