import XmipAs4.Exchange.Receipts

/-!
# One delivery

Whether a far end hands a message up again.  The check for a message taken before is made as
a POST is heard, and the id is remembered only when the verdict is given and its Receipt
signed; so a message is handed up once exactly as long as no POST of its id is heard while
an earlier one waits, and an acceptance without a Receipt does not count.

`Sound` is what the states of such runs have in common: what is remembered is what was
accepted with its Receipt signed, and no two messages of one id wait or were so accepted.
-/

namespace As4

open Delivery (run Along)
open Multipart (Bytes)

/-! ## Acceptances -/

namespace HandUp

variable {h : HandUp}

/-- Whether the message was accepted. -/
def isAccepted (h : HandUp) : Bool :=
  match h.verdict with
  | some (.Accepted, _) => true
  | _ => false

/-- The message was accepted where its verdict says so. -/
theorem isAccepted_iff : h.isAccepted = true ↔ h.Accepted := by
  obtain ⟨arrived, verdict⟩ := h
  constructor
  · intro ha
    unfold isAccepted at ha
    split at ha
    · exact ⟨_, ‹_›⟩
    · cases ha
  · rintro ⟨answered, rfl⟩
    rfl

/-- A message whose Receipt was signed was accepted. -/
theorem Receipted.accepted (hr : h.Receipted) : h.Accepted :=
  ⟨true, hr⟩

/-- A message that was accepted does not wait. -/
theorem Accepted.not_waits (ha : h.Accepted) : ¬ h.Waits := by
  obtain ⟨answered, hv⟩ := ha
  intro hw
  rw [HandUp.Waits, hv] at hw
  cases hw

/-- The message waits, or was accepted and its Receipt signed: it must not be handed up
again. -/
def Live (h : HandUp) : Prop := h.Waits ∨ h.Receipted

end HandUp

/-- The ids of the messages that were accepted, one for each acceptance. -/
def FarEnd.acceptedIds (s : FarEnd) : List String :=
  (s.handed.filter HandUp.isAccepted).map HandUp.messageId

/-- An id is among them where a message of that id was accepted. -/
theorem mem_acceptedIds {s : FarEnd} {id : String} :
    id ∈ s.acceptedIds ↔ ∃ u ∈ s.handed, u.messageId = id ∧ u.Accepted := by
  simp only [FarEnd.acceptedIds, List.mem_map, List.mem_filter, HandUp.isAccepted_iff]
  constructor
  · rintro ⟨u, ⟨hu, haccepted⟩, hid⟩
    exact ⟨u, hu, hid, haccepted⟩
  · rintro ⟨u, hu, hid, haccepted⟩
    exact ⟨u, ⟨hu, haccepted⟩, hid⟩

/-- An id accepted once one more message was handed up was accepted before, or is that
message's, accepted. -/
theorem mem_acceptedIds_append {t t' : As4Transport} {handed : List HandUp} {u : HandUp}
    {id : String} (h : id ∈ FarEnd.acceptedIds ⟨t', handed ++ [u]⟩) :
    id ∈ FarEnd.acceptedIds ⟨t, handed⟩ ∨ u.messageId = id ∧ u.Accepted := by
  obtain ⟨u', hu, hmessage, haccepted⟩ := mem_acceptedIds.mp h
  rcases List.mem_append.mp hu with hu | hu
  · exact .inl (mem_acceptedIds.mpr ⟨u', hu, hmessage, haccepted⟩)
  · rw [List.mem_singleton] at hu
    rw [hu] at hmessage haccepted
    exact .inr ⟨hmessage, haccepted⟩

variable {L : Estate}

/-- What was accepted stays accepted. -/
theorem Steps.acceptedIds_subset {s s' : FarEnd} {e : Event} {told : Told}
    {answer : Option Response} (h : Steps L s e s' told answer) :
    s.acceptedIds ⊆ s'.acceptedIds := by
  intro id hid
  obtain ⟨u, hu, hmessage, haccepted⟩ := mem_acceptedIds.mp hid
  exact mem_acceptedIds.mpr ⟨u, h.mem_handed hu haccepted.not_waits, hmessage, haccepted⟩

/-- What was accepted stays accepted through a step. -/
theorem acceptedIds_step (s : FarEnd) (e : Event) :
    s.acceptedIds ⊆ (s.step L e).1.acceptedIds :=
  (steps s e).acceptedIds_subset

/-- What a state vouches for was accepted. -/
theorem Vouched.mem_acceptedIds {s : FarEnd} (hs : Vouched s) {id : String}
    (hid : id ∈ s.transport.receipting.ids) : id ∈ s.acceptedIds := by
  obtain ⟨u, hu, hmessage, hreceipted⟩ := hs id hid
  exact As4.mem_acceptedIds.mpr ⟨u, hu, hmessage, hreceipted.accepted⟩

/-! ## Messages that must not be handed up again -/

/-- No two messages of one id wait or were accepted with their Receipt signed. -/
def Apart (l : List HandUp) : Prop :=
  ∀ (i j : ℕ) (u v : HandUp), l[i]? = some u → l[j]? = some v → u.Live → v.Live →
    u.messageId = v.messageId → i = j

/-- A message comes after others none of which waits or was accepted under its id. -/
theorem Apart.append_singleton {l : List HandUp} (hl : Apart l) {x : HandUp}
    (hx : ∀ u ∈ l, u.Live → u.messageId ≠ x.messageId) : Apart (l ++ [x]) := by
  have hat : ∀ (i : ℕ) (u : HandUp), (l ++ [x])[i]? = some u →
      l[i]? = some u ∨ i = l.length ∧ u = x := by
    intro i u hi
    rcases Nat.lt_trichotomy i l.length with hlt | rfl | hgt
    · rw [List.getElem?_append_left hlt] at hi
      exact .inl hi
    · rw [List.getElem?_concat_length, Option.some.injEq] at hi
      exact .inr ⟨rfl, hi.symm⟩
    · rw [List.getElem?_eq_none (by simp; omega)] at hi
      cases hi
  intro i j u v hi hj hu hv hid
  rcases hat i u hi with hi' | ⟨rfl, rfl⟩
  · rcases hat j v hj with hj' | ⟨rfl, rfl⟩
    · exact hl i j u v hi' hj' hu hv hid
    · exact absurd hid (hx u (List.mem_of_getElem? hi') hu)
  · rcases hat j v hj with hj' | ⟨rfl, rfl⟩
    · exact absurd hid.symm (hx v (List.mem_of_getElem? hj') hv)
    · rfl

/-- A message that waits is given its verdict. -/
theorem Apart.set {l : List HandUp} (hl : Apart l) {k : ℕ} {w x : HandUp}
    (hk : l[k]? = some w) (hw : w.Waits) (hx : x.messageId = w.messageId) :
    Apart (l.set k x) := by
  -- Whatever stands at an index afterwards stood there, under the same id.
  have hat : ∀ (i : ℕ) (u : HandUp), (l.set k x)[i]? = some u → u.Live →
      ∃ u' : HandUp, l[i]? = some u' ∧ u'.Live ∧ u'.messageId = u.messageId := by
    intro i u hi hu
    by_cases hki : k = i
    · subst hki
      obtain ⟨hlt, -⟩ := List.getElem?_eq_some_iff.mp hk
      rw [List.getElem?_set_self hlt, Option.some.injEq] at hi
      exact ⟨w, hk, .inl hw, by rw [← hi, hx]⟩
    · rw [List.getElem?_set_ne hki] at hi
      exact ⟨u, hi, hu, rfl⟩
  intro i j u v hi hj hu hv hid
  obtain ⟨u', hi', hu', hidu⟩ := hat i u hi hu
  obtain ⟨v', hj', hv', hidv⟩ := hat j v hj hv
  exact hl i j u' v' hi' hj' hu' hv' (by rw [hidu, hidv, hid])

/-- What the states of a run have in common in which no POST is heard whose id waits, and no
more ids are accepted than are remembered. -/
structure Sound (s : FarEnd) : Prop where
  nodup : s.transport.receipting.ids.Nodup
  taken : ∀ u ∈ s.handed, u.Receipted → u.messageId ∈ s.transport.receipting.ids
  vouched : Vouched s
  apart : Apart s.handed

/-- A far end that has received nothing is sound. -/
theorem sound_fresh {t : As4Transport} (hids : t.receipting.ids = []) : Sound (.fresh t) where
  nodup := by
    change t.receipting.ids.Nodup
    rw [hids]
    exact List.nodup_nil
  taken := by
    intro u hu
    exact absurd hu List.not_mem_nil
  vouched := by
    intro id hid
    rw [FarEnd.fresh, hids] at hid
    exact absurd hid List.not_mem_nil
  apart := by
    intro i j u v hi
    rw [FarEnd.fresh, List.getElem?_nil] at hi
    cases hi

/-- An id that is remembered is that of no message that waits. -/
theorem Sound.not_mem_of_waits {s : FarEnd} (hs : Sound s) {u : HandUp} (hu : u ∈ s.handed)
    (hwaits : u.Waits) : u.messageId ∉ s.transport.receipting.ids := by
  intro hid
  obtain ⟨v, hv, hmessage, hreceipted⟩ := hs.vouched _ hid
  obtain ⟨i, hi⟩ := List.mem_iff_getElem?.mp hu
  obtain ⟨j, hj⟩ := List.mem_iff_getElem?.mp hv
  have hij := hs.apart i j u v hi hj (.inl hwaits) (.inr hreceipted) hmessage.symm
  rw [hij, hj, Option.some.injEq] at hi
  subst hi
  exact hreceipted.not_waits hwaits

/-! ## What a step keeps -/

/-- The POST that is heard in a step, if one is, and when. -/
def Event.posted : Event → Option (Moment × Request)
  | .take now (.posted request _) => some (now, request)
  | .accept now (.read request _ _) => some (now, request)
  | _ => none

/-- No POST is heard that is read, admitted, and of the id of a message that waits. -/
def NoneWaiting (L : Estate) (s : FarEnd) (e : Event) : Prop :=
  ∀ now request m bytes, e.posted = some (now, request) →
    s.transport.unpack L now request = .ok (m, bytes) →
    s.transport.admits L now m bytes = .ok () →
    ∀ u ∈ s.handed, u.messageId = m.messageId → ¬ u.Waits

namespace Sound

variable {s s' : FarEnd} {e : Event} {told : Told} {answer : Option Response}

/-- A message that is not remembered comes after others none of which waits under its id. -/
theorem apart_append (hs : Sound s) {x : HandUp}
    (hnew : x.messageId ∉ s.transport.receipting.ids)
    (hone : ∀ u ∈ s.handed, u.messageId = x.messageId → ¬ u.Waits) :
    Apart (s.handed ++ [x]) := by
  apply hs.apart.append_singleton
  rintro u hu (hwaits | hreceipted) hid
  · exact hone u hu hid hwaits
  · exact hnew (hid ▸ hs.taken u hu hreceipted)

/-- A verdict that is not an acceptance with its Receipt signed keeps a state sound. -/
theorem set_unreceipted (hs : Sound s) (h : Steps L s e s' told answer) {k : ℕ} {w x : HandUp}
    (hk : s.handed[k]? = some w) (hw : w.Waits) (hx : x.messageId = w.messageId)
    (hnot : ¬ x.Receipted) (hs' : s' = { s with handed := s.handed.set k x }) : Sound s' := by
  have hvouched := hs.vouched.step h
  subst hs'
  refine ⟨hs.nodup, ?_, hvouched, hs.apart.set hk hw hx⟩
  intro u hu hreceipted
  rcases List.mem_or_eq_of_mem_set hu with hu | rfl
  · exact hs.taken u hu hreceipted
  · exact absurd hreceipted hnot

/-- What was accepted with its Receipt signed is still remembered after one more id is, where
no more ids were ever accepted than are remembered. -/
theorem taken_remember (hs : Sound s) {K : Finset String} (hcard : K.card ≤ remembered)
    (hK : ∀ id ∈ s.acceptedIds, id ∈ K) {id : String} (hid : id ∈ K) {u : HandUp}
    (hu : u ∈ s.handed) (hreceipted : u.Receipted) :
    u.messageId ∈ Delivery.remember remembered id s.transport.receipting.ids := by
  refine Delivery.mem_remember_of_card_le hcard hs.nodup ?_ hid (hs.taken u hu hreceipted)
  intro z hz
  exact hK z (hs.vouched.mem_acceptedIds hz)

/-- A step keeps a state sound where no POST is heard whose id waits and where no more ids
are accepted than are remembered. -/
theorem step (hs : Sound s) (h : Steps L s e s' told answer) (hone : NoneWaiting L s e)
    {K : Finset String} (hcard : K.card ≤ remembered) (hK : ∀ id ∈ s'.acceptedIds, id ∈ K) :
    Sound s' := by
  have hvouched := hs.vouched.step h
  have hbefore : ∀ id ∈ s.acceptedIds, id ∈ K := fun id hid => hK id (h.acceptedIds_subset hid)
  have hsame : Sound ⟨s.transport.remembering s.transport.receipting.ids, s.handed ++ []⟩ := by
    rw [s.served_nothing]
    exact hs
  have hall := h
  cases h with
  | failed => exact hs
  | answered _ _ => exact hs
  | nothing _ => exact hs
  | broken => exact hs
  | handedUp hunpack hadmits hnew =>
    refine ⟨hs.nodup, ?_, hvouched, hs.apart_append hnew (hone _ _ _ _ rfl hunpack hadmits)⟩
    intro u hu hreceipted
    rcases List.mem_append.mp hu with hu | hu
    · exact hs.taken u hu hreceipted
    · rw [List.mem_singleton] at hu
      subst hu
      exact absurd rfl hreceipted.not_waits
  | unsigned hwaits _ =>
    refine hs.set_unreceipted hall hwaits rfl ?_ ?_ rfl
    · rfl
    · intro hreceipted
      cases hreceipted
  | declined hwaits hv =>
    refine hs.set_unreceipted hall hwaits rfl ?_ ?_ rfl
    · rfl
    · intro hreceipted
      cases hreceipted
      exact hv rfl
  | @receipted now k reply arrived a hwaits hreceipt =>
    obtain ⟨hk, -⟩ := List.getElem?_eq_some_iff.mp hwaits
    have hid : arrived.answered.messageId ∈ K :=
      hK _ (mem_acceptedIds.mpr
        ⟨⟨arrived, some (.Accepted, true)⟩, List.mem_set hk _, rfl, true, rfl⟩)
    refine ⟨Delivery.nodup_remember hs.nodup, ?_, hvouched, hs.apart.set hwaits rfl rfl⟩
    intro u hu hreceipted
    rcases List.mem_or_eq_of_mem_set hu with hu | rfl
    · exact hs.taken_remember hcard hbefore hid hu hreceipted
    · exact Delivery.mem_remember_self ..
  | @served now request peer written said answer ids hserves =>
    cases hserves with
    | refused _ => exact hsame
    | again _ _ _ _ => exact hsame
    | unsigned _ _ _ => exact hsame
    | @accepted m bytes a hunpack hadmits hnew _ =>
      have hid : m.messageId ∈ K :=
        hK _ (mem_acceptedIds.mpr
          ⟨_, List.mem_append_right _ (List.mem_singleton.mpr rfl), rfl, true, rfl⟩)
      refine ⟨Delivery.nodup_remember hs.nodup, ?_, hvouched,
        hs.apart_append hnew (hone _ _ _ _ rfl hunpack hadmits)⟩
      intro u hu hreceipted
      rcases List.mem_append.mp hu with hu | hu
      · exact hs.taken_remember hcard hbefore hid hu hreceipted
      · rw [List.mem_singleton.mp hu]
        exact Delivery.mem_remember_self ..

end Sound

/-- Whatever is accepted by a step of a run is among what the run accepts. -/
theorem acceptedIds_along (s : FarEnd) (es : List Event) :
    Along (FarEnd.step L) (fun s' e => (s'.step L e).1.acceptedIds ⊆
      (run (FarEnd.step L) s es).acceptedIds) s es :=
  Delivery.along_subset acceptedIds_step s es

/-- A run keeps a state sound along which no POST is heard whose id waits, where no more ids
are accepted than are remembered. -/
theorem Sound.run {s : FarEnd} (hs : Sound s) {es : List Event}
    (hone : Along (FarEnd.step L) (NoneWaiting L) s es) {K : Finset String}
    (hcard : K.card ≤ remembered)
    (hK : ∀ id ∈ (Delivery.run (FarEnd.step L) s es).acceptedIds, id ∈ K) :
    Sound (Delivery.run (FarEnd.step L) s es) := by
  refine Delivery.run_invariant_along Sound ?_ hs (hone.and (acceptedIds_along s es))
  rintro s' e hs' ⟨hnone, hsub⟩
  exact hs'.step (steps s' e) hnone hcard fun id hid => hK id (hsub hid)

/-! ## Any interleaving of deferred verdicts -/

/-- A step of a far end that receives through `take_next` alone. -/
def Event.Deferred : Event → Prop
  | .accept _ _ => False
  | _ => True

/-- The signer never fails. -/
def Signer.Signs (signer : Signer) : Prop :=
  ∀ now envelope attachments, ∃ signed, signer.sign now envelope attachments = .ok signed

/-- A signer that never fails leaves no Receipt unsigned. -/
theorem Receipting.receipt_ne_error {r : Receipting} (h : r.signer.Signs) (now : Moment)
    (m : UserMessage) (e : TransportError) : r.receipt L now m ≠ .error e := by
  obtain ⟨signed, hsigned⟩ := h now (Signal.receipt L now m) []
  have hreceipt : r.receipt L now m = .ok (soap L now 200 signed) :=
    Receipting.receipt_eq_ok.mpr ⟨signed, hsigned, rfl⟩
  rw [hreceipt]
  intro herror
  cases herror

/-- Without a certificate nothing fails to be signed. -/
theorem unsigned_signs : unsigned.Signs := fun _ envelope _ => ⟨envelope, rfl⟩

/-- The signer never fails, and every acceptance had its Receipt signed. -/
structure Signed (s : FarEnd) : Prop where
  signs : s.transport.receipting.signer.Signs
  receipted : ∀ u ∈ s.handed, u.Accepted → u.Receipted

/-- Of a far end that has received nothing, no acceptance is without its Receipt. -/
theorem signed_fresh {t : As4Transport} (hsigns : t.receipting.signer.Signs) :
    Signed (.fresh t) where
  signs := hsigns
  receipted := by
    intro u hu
    exact absurd hu List.not_mem_nil

/-- Where the signer never fails, every step's acceptance has its Receipt signed. -/
theorem Signed.step {s s' : FarEnd} {e : Event} {told : Told} {answer : Option Response}
    (hs : Signed s) (h : Steps L s e s' told answer) : Signed s' := by
  have hsigns : s'.transport.receipting.signer.Signs := by
    obtain ⟨ids, hids⟩ := h.transport_eq
    rw [hids]
    exact hs.signs
  have happend : ∀ x : HandUp, (x.Accepted → x.Receipted) →
      ∀ u ∈ s.handed ++ [x], u.Accepted → u.Receipted := by
    intro x hx u hu
    rcases List.mem_append.mp hu with hu | hu
    · exact hs.receipted u hu
    · rw [List.mem_singleton.mp hu]
      exact hx
  have hset : ∀ (k : ℕ) (x : HandUp), (x.Accepted → x.Receipted) →
      ∀ u ∈ s.handed.set k x, u.Accepted → u.Receipted := by
    intro k x hx u hu
    rcases List.mem_or_eq_of_mem_set hu with hu | rfl
    · exact hs.receipted u hu
    · exact hx
  refine ⟨hsigns, ?_⟩
  cases h with
  | failed => exact hs.receipted
  | answered _ _ => exact hs.receipted
  | nothing _ => exact hs.receipted
  | broken => exact hs.receipted
  | handedUp _ _ _ =>
    apply happend _
    intro haccepted
    exact absurd rfl haccepted.not_waits
  | receipted _ _ => exact hset _ _ fun _ => rfl
  | unsigned _ hreceipt => exact absurd hreceipt (Receipting.receipt_ne_error hs.signs _ _ _)
  | declined _ hv =>
    apply hset _ _
    rintro ⟨answered, hverdict⟩
    cases hverdict
    exact absurd rfl hv
  | @served now request peer written said answer ids hserves =>
    cases hserves with
    | refused _ => simpa [acceptedOf] using hs.receipted
    | again _ _ _ _ => simpa [acceptedOf] using hs.receipted
    | unsigned _ _ _ => simpa [acceptedOf] using hs.receipted
    | accepted _ _ _ _ => exact happend _ fun _ => rfl

/-- No message is handed up while an earlier hand-up of its id waits, or after one was
accepted. -/
def NoDouble (L : Estate) (s : FarEnd) (e : Event) : Prop :=
  ∀ m arrived, (s.step L e).2.1 = .took (.ok (some (m, arrived))) →
    ∀ u ∈ s.handed, u.messageId = m.messageId → ¬ u.Waits ∧ ¬ u.Accepted

/-- A message that is handed up was read and admitted, and is not remembered. -/
theorem handedUp_of_told {s : FarEnd} {e : Event} {m : UserMessage} {arrived : Arrived}
    (h : (s.step L e).2.1 = .took (.ok (some (m, arrived)))) :
    ∃ now request bytes, e.posted = some (now, request) ∧
      s.transport.unpack L now request = .ok (m, bytes) ∧
      s.transport.admits L now m bytes = .ok () ∧
      m.messageId ∉ s.transport.receipting.ids := by
  have hstep := steps (L := L) s e
  generalize (s.step L e).1 = s', (s.step L e).2.1 = told, (s.step L e).2.2 = answer at hstep h
  cases hstep with
  | handedUp hunpack hadmits hnew =>
    cases h
    exact ⟨_, _, _, rfl, hunpack, hadmits, hnew⟩
  | answered hears hsaid =>
    cases h
    exact absurd rfl (hsaid _)
  | failed => cases h
  | receipted _ _ => cases h
  | unsigned _ _ => cases h
  | declined _ _ => cases h
  | nothing _ => cases h
  | broken => cases h
  | served _ => cases h

/-- In a sound state, a step hands up no message twice exactly where the POST it hears, if it
is read and admitted, is not of an id that waits. -/
theorem noDouble_iff {s : FarEnd} {e : Event} (hs : Sound s) (hsigned : Signed s)
    (hdeferred : e.Deferred) : NoDouble L s e ↔ NoneWaiting L s e := by
  constructor
  · intro hno now request m bytes hposted hunpack hadmits u hu hid hwaits
    have hnew : m.messageId ∉ s.transport.receipting.ids :=
      hid ▸ hs.not_mem_of_waits hu hwaits
    cases e with
    | judge now k verdict reply => cases hposted
    | accept now connection => exact hdeferred
    | take now arrival =>
      cases arrival with
      | failed e => cases hposted
      | posted request peer =>
        cases hposted
        have htake := step_take_new peer hunpack hadmits hnew
        exact (hno m _ (congrArg (fun r => r.2.1) htake) u hu hid).1 hwaits
  · intro hone m arrived htold u hu hid
    obtain ⟨now, request, bytes, hposted, hunpack, hadmits, hnew⟩ := handedUp_of_told htold
    refine ⟨hone now request m bytes hposted hunpack hadmits u hu hid, ?_⟩
    intro haccepted
    exact hnew (hid ▸ hs.taken u hu (hsigned.receipted u hu haccepted))

/-- Under any interleaving of POSTs and deferred verdicts, with a signer that never fails and
fewer ids accepted than are remembered: no message is handed up while an earlier hand-up of
its id waits or after one was accepted, if and only if no POST that is read and admitted is
of the id of a message that waits as it is heard. -/
theorem handed_up_once_iff {t : As4Transport} (hids : t.receipting.ids = [])
    (hsigns : t.receipting.signer.Signs) (es : List Event) (hdeferred : ∀ e ∈ es, e.Deferred)
    (hfew : (run (FarEnd.step L) (.fresh t) es).acceptedIds.toFinset.card < remembered) :
    Along (FarEnd.step L) (NoDouble L) (.fresh t) es ↔
      Along (FarEnd.step L) (NoneWaiting L) (.fresh t) es := by
  have hwithin := acceptedIds_along (L := L) (.fresh t) es
  refine Delivery.along_iff (fun s => Sound s ∧ Signed s) ?_ ?_
    ⟨sound_fresh hids, signed_fresh hsigns⟩ ((Delivery.along_of_forall hdeferred).and hwithin)
  · rintro s e ⟨hs, hsigned⟩ ⟨hdef, -⟩
    exact noDouble_iff hs hsigned hdef
  · rintro s e ⟨hs, hsigned⟩ ⟨-, hsub⟩ hone
    refine ⟨hs.step (steps s e) hone (le_of_lt hfew) ?_, hsigned.step (steps s e)⟩
    intro id hid
    exact List.mem_toFinset.mpr (hsub hid)

/-! ## The order taken twice on the bench -/

/-- The order as it stands with the far end once it was accepted, and whether its Receipt was
signed. -/
def acceptedOrder (answered : Bool) : HandUp :=
  ⟨arrivedOrder, some (.Accepted, answered)⟩

/-- One order accepted is fewer ids than are remembered. -/
theorem card_order_lt {s : FarEnd} (h : s.acceptedIds = [order.messageId]) :
    s.acceptedIds.toFinset.card < remembered := by
  rw [h, List.toFinset_cons, List.toFinset_nil, insert_empty_eq, Finset.card_singleton]
  unfold remembered
  omega

/-- The seller takes the order. -/
theorem run_takeOrder (tick : ℕ) :
    run (FarEnd.step bench) (.fresh seller) [takeOrder tick] =
      ⟨seller, [⟨arrivedOrder, none⟩]⟩ := by
  have htake : (FarEnd.fresh seller).step bench (takeOrder tick) = _ :=
    step_takeOrder tick (fun _ _ _ => rfl) rfl rfl List.not_mem_nil
  rw [Delivery.run_cons, Delivery.run_nil, htake]
  rfl

/-- The order that waits with the seller is accepted and receipted. -/
theorem step_acceptOrder (tick k : ℕ) (ids : List String) {l : List HandUp}
    (hk : l[k]? = some ⟨arrivedOrder, none⟩) :
    FarEnd.step bench ⟨seller.remembering ids, l⟩ (acceptOrder tick k) =
      (⟨seller.remembering (Delivery.remember remembered order.messageId ids),
        l.set k (acceptedOrder true)⟩, .judged (.ok ()),
        some (soap bench (moment tick) 200 (Signal.receipt bench (moment tick) order))) := by
  have hreceipt : (seller.remembering ids).receipting.receipt bench (moment tick) order =
      .ok (soap bench (moment tick) 200 (Signal.receipt bench (moment tick) order)) := rfl
  have hwaits : (⟨seller.remembering ids, l⟩ : FarEnd).handed[k]? = some ⟨arrivedOrder, none⟩ := hk
  exact step_judge_receipted _ hwaits hreceipt

/-- A seller with which the order waits takes it again. -/
theorem step_takeOrder_again (tick : ℕ) :
    FarEnd.step bench ⟨seller, [⟨arrivedOrder, none⟩]⟩ (takeOrder tick) =
      (⟨seller, [⟨arrivedOrder, none⟩, ⟨arrivedOrder, none⟩]⟩,
        .took (.ok (some (order, arrivedOrder))), none) := by
  have hnew : order.messageId ∉ seller.receipting.ids := List.not_mem_nil
  exact step_takeOrder tick (fun _ _ _ => rfl) rfl rfl hnew

/-- A seller that remembers the order receipts it again and hands nothing up. -/
theorem step_takeOrder_seen (tick : ℕ) {ids : List String} (hseen : order.messageId ∈ ids)
    (l : List HandUp) :
    FarEnd.step bench ⟨seller.remembering ids, l⟩ (takeOrder tick) =
      (⟨seller.remembering ids, l⟩, .took (.ok none),
        some (soap bench (moment tick) 200 (Signal.receipt bench (moment tick) order))) := by
  obtain ⟨hunpack, hadmits, hreceipt⟩ := seller_takes_order tick ids
  exact step_take_again (s := ⟨seller.remembering ids, l⟩) "peer" hunpack hadmits hseen hreceipt

/-- Taken twice before a verdict and both times accepted, the order was handed up and accepted
twice. -/
theorem run_orderTwice :
    run (FarEnd.step bench) (.fresh seller)
        [takeOrder 1, takeOrder 2, acceptOrder 3 0, acceptOrder 4 1] =
      ⟨seller.remembering (Delivery.remember remembered order.messageId
        (Delivery.remember remembered order.messageId [])),
        [acceptedOrder true, acceptedOrder true]⟩ := by
  have hfirst := run_takeOrder 1
  have hsecond := step_takeOrder_again 2
  have hthird := step_acceptOrder 3 0 [] (l := [⟨arrivedOrder, none⟩, ⟨arrivedOrder, none⟩]) rfl
  have hfourth := step_acceptOrder 4 1 (Delivery.remember remembered order.messageId [])
    (l := [acceptedOrder true, ⟨arrivedOrder, none⟩]) rfl
  have hseller : seller.remembering [] = seller := rfl
  rw [Delivery.run_cons, Delivery.run_nil] at hfirst
  rw [hseller, List.set_cons_zero] at hthird
  rw [List.set_cons_succ, List.set_cons_zero] at hfourth
  rw [Delivery.run_cons, hfirst, Delivery.run_cons, hsecond, Delivery.run_cons, hthird,
    Delivery.run_cons, hfourth, Delivery.run_nil]

/-- Sent again on a second connection while it waits, the order is handed up twice, and both
hand-ups are accepted and receipted. -/
theorem order_handed_up_twice :
    ¬ Along (FarEnd.step bench) (NoDouble bench) (.fresh seller) [takeOrder 1, takeOrder 2] ∧
    (run (FarEnd.step bench) (.fresh seller)
      [takeOrder 1, takeOrder 2, acceptOrder 3 0, acceptOrder 4 1]).handed =
        [acceptedOrder true, acceptedOrder true] := by
  have hfirst := run_takeOrder 1
  have hsecond := step_takeOrder_again 2
  rw [Delivery.run_cons, Delivery.run_nil] at hfirst
  constructor
  · rintro ⟨-, hno, -⟩
    rw [hfirst] at hno
    have htold : (FarEnd.step bench ⟨seller, [⟨arrivedOrder, none⟩]⟩ (takeOrder 2)).2.1 =
        .took (.ok (some (order, arrivedOrder))) := by rw [hsecond]
    exact (hno order arrivedOrder htold _ (List.mem_singleton.mpr rfl) rfl).1 rfl
  · rw [run_orderTwice]

/-- The order is taken and accepted, and is sent again. -/
def orderResent : List Event := [takeOrder 1, acceptOrder 2 0, takeOrder 3]

/-- The seller once it accepted the order. -/
def orderHeld : FarEnd :=
  ⟨seller.remembering (Delivery.remember remembered order.messageId []), [acceptedOrder true]⟩

/-- The states of that run: the order waits, is accepted, and stays so. -/
theorem orderResent_states :
    ((FarEnd.fresh seller).step bench (takeOrder 1)).1 = ⟨seller, [⟨arrivedOrder, none⟩]⟩ ∧
    (FarEnd.step bench ⟨seller, [⟨arrivedOrder, none⟩]⟩ (acceptOrder 2 0)).1 = orderHeld ∧
    (FarEnd.step bench orderHeld (takeOrder 3)).1 = orderHeld := by
  have hfirst := run_takeOrder 1
  have hthen := step_acceptOrder 2 0 [] (l := [⟨arrivedOrder, none⟩]) rfl
  have hseller : seller.remembering [] = seller := rfl
  rw [Delivery.run_cons, Delivery.run_nil] at hfirst
  rw [hseller, List.set_cons_zero] at hthen
  refine ⟨hfirst, ?_, ?_⟩
  · rw [hthen, orderHeld]
  · rw [orderHeld, step_takeOrder_seen 3 (Delivery.mem_remember_self ..)]

/-- Where that leaves the seller. -/
theorem run_orderResent : run (FarEnd.step bench) (.fresh seller) orderResent = orderHeld := by
  obtain ⟨hfirst, hthen, hlast⟩ := orderResent_states
  rw [orderResent, Delivery.run_cons, hfirst, Delivery.run_cons, hthen, Delivery.run_cons, hlast,
    Delivery.run_nil]

/-- What holds of each step of that run, in the state it is taken from, holds along it. -/
theorem along_orderResent {P : FarEnd → Event → Prop} (hfirst : P (.fresh seller) (takeOrder 1))
    (hthen : P ⟨seller, [⟨arrivedOrder, none⟩]⟩ (acceptOrder 2 0))
    (hlast : P orderHeld (takeOrder 3)) :
    Along (FarEnd.step bench) P (.fresh seller) orderResent := by
  obtain ⟨hwaiting, hheld, -⟩ := orderResent_states
  refine ⟨hfirst, ?_⟩
  rw [hwaiting]
  refine ⟨hthen, ?_⟩
  rw [hheld]
  exact ⟨hlast, trivial⟩

/-- Nothing of that run is given to `accept_one`. -/
theorem orderResent_deferred : ∀ e ∈ orderResent, e.Deferred := by
  intro e he
  simp only [orderResent, List.mem_cons, List.not_mem_nil, or_false] at he
  rcases he with rfl | rfl | rfl
  · trivial
  · trivial
  · trivial

/-- Taken and accepted before it is sent again, the order is handed up once. -/
theorem handed_up_once_order :
    Along (FarEnd.step bench) (NoDouble bench) (.fresh seller) orderResent := by
  have hfew : (run (FarEnd.step bench) (.fresh seller)
      orderResent).acceptedIds.toFinset.card < remembered := by
    rw [run_orderResent]
    exact card_order_lt rfl
  refine (handed_up_once_iff (t := seller) rfl unsigned_signs orderResent orderResent_deferred
    hfew).mpr (along_orderResent ?_ ?_ ?_)
  · intro now request m bytes _ _ _ u hu
    exact absurd hu List.not_mem_nil
  · intro now request m bytes hposted
    cases hposted
  · intro now request m bytes _ _ _ u hu _
    rw [List.mem_singleton.mp hu]
    exact HandUp.Accepted.not_waits ⟨true, rfl⟩

/-! ## Verdicts given in turn -/

/-- A step of a far end that receives through `take_next` and gives each message its verdict
before it takes the next. -/
def Sequential (s : FarEnd) (e : Event) : Prop :=
  e.Deferred ∧ ∀ now arrival, e = .take now arrival → ∀ u ∈ s.handed, ¬ u.Waits

/-- Where each message has its verdict before the next is taken, no POST is heard whose id
waits. -/
theorem Sequential.noneWaiting {s : FarEnd} {e : Event} (h : Sequential s e) :
    NoneWaiting L s e := by
  obtain ⟨hdeferred, htake⟩ := h
  intro now request m bytes hposted _ _ u hu _
  cases e with
  | take now arrival => exact htake now arrival rfl u hu
  | judge now k verdict reply => cases hposted
  | accept now connection => exact absurd hdeferred id

/-- How a step treats acceptances with and without a Receipt. -/
structure Resends (L : Estate) (s : FarEnd) (e : Event) : Prop where
  /-- What was accepted with its Receipt signed is not handed up again. -/
  once : ∀ m arrived, (s.step L e).2.1 = .took (.ok (some (m, arrived))) →
    ∀ u ∈ s.handed, u.messageId = m.messageId → ¬ u.Receipted
  /-- Whatever else was handed up before is handed up again where it is read and admitted. -/
  again : ∀ now request peer m bytes, e = .take now (.posted request peer) →
    s.transport.unpack L now request = .ok (m, bytes) →
    s.transport.admits L now m bytes = .ok () →
    (∀ u ∈ s.handed, u.messageId = m.messageId → ¬ u.Receipted) →
    ∃ arrived, (s.step L e).2.1 = .took (.ok (some (m, arrived)))
  /-- Of an acceptance whose Receipt cannot be signed the one who gave it is told, nothing is
  answered, and nothing is remembered. -/
  unsigned : ∀ now k reply arrived error, e = .judge now k .Accepted reply →
    s.handed[k]? = some ⟨arrived, none⟩ →
    s.transport.receipting.receipt L now arrived.answered = .error error →
    (s.step L e).2 = (.judged (.error error), none) ∧ (s.step L e).1.transport = s.transport

/-- In a sound state every step hands up exactly what was not accepted with its Receipt
signed. -/
theorem Sound.resends {s : FarEnd} (hs : Sound s) (e : Event) : Resends L s e where
  once := by
    intro m arrived htold u hu hid hreceipted
    obtain ⟨now, request, bytes, -, -, -, hnew⟩ := handedUp_of_told htold
    exact hnew (hid ▸ hs.taken u hu hreceipted)
  again := by
    rintro now request peer m bytes rfl hunpack hadmits hnone
    have hnew : m.messageId ∉ s.transport.receipting.ids := by
      intro hmem
      obtain ⟨u, hu, hid, hreceipted⟩ := hs.vouched _ hmem
      exact hnone u hu hid hreceipted
    exact ⟨_, congrArg (fun r => r.2.1) (step_take_new peer hunpack hadmits hnew)⟩
  unsigned := by
    rintro now k reply arrived error rfl hwaits hreceipt
    have hjudge := step_judge_unsigned reply hwaits hreceipt
    rw [hjudge]
    exact ⟨rfl, rfl⟩

/-- Where each message has its verdict before the next POST is heard and fewer ids are
accepted than are remembered, whichever Receipts cannot be signed: a message that was
accepted with its Receipt signed is never handed up again; one accepted without is, when it
is sent again, and of that the one who accepted it was told. -/
theorem resends_of_sequential {t : As4Transport} (hids : t.receipting.ids = []) (es : List Event)
    (hseq : Along (FarEnd.step L) Sequential (.fresh t) es)
    (hfew : (run (FarEnd.step L) (.fresh t) es).acceptedIds.toFinset.card < remembered) :
    Along (FarEnd.step L) (Resends L) (.fresh t) es := by
  have hwithin := acceptedIds_along (L := L) (.fresh t) es
  refine Delivery.along_of_invariant Sound ?_ (sound_fresh hids) (hseq.and hwithin)
  rintro s e hs ⟨hsequential, hsub⟩
  refine ⟨hs.resends e, hs.step (steps s e) hsequential.noneWaiting (le_of_lt hfew) ?_⟩
  intro id hid
  exact List.mem_toFinset.mpr (hsub hid)

/-! ## The order accepted without a Receipt on the bench -/

/-- A seller that cannot sign at the second tick. -/
def faltering : As4Transport :=
  seller.signingWith
    { sign := fun now envelope _ => if now.tick = 2 then .error ⟨"no key", true⟩ else .ok envelope
      verify := fun _ _ _ => .ok () }

/-- The order is taken, accepted without a Receipt, and sent again. -/
def falteringRun : List Event :=
  [takeOrder 1, acceptOrder 2 0, takeOrder 3]

/-- The states of that run: the order waits, was accepted without a Receipt, and waits again. -/
theorem faltering_states :
    ((FarEnd.fresh faltering).step bench (takeOrder 1)).1 =
      ⟨faltering, [⟨arrivedOrder, none⟩]⟩ ∧
    (FarEnd.step bench ⟨faltering, [⟨arrivedOrder, none⟩]⟩ (acceptOrder 2 0)).1 =
      ⟨faltering, [acceptedOrder false]⟩ ∧
    FarEnd.step bench ⟨faltering, [acceptedOrder false]⟩ (takeOrder 3) =
      (⟨faltering, [acceptedOrder false, ⟨arrivedOrder, none⟩]⟩,
        .took (.ok (some (order, arrivedOrder))), none) := by
  have hnew : order.messageId ∉ faltering.receipting.ids := List.not_mem_nil
  have hreceipt : faltering.receipting.receipt bench (moment 2) order =
      .error ⟨"no key", true⟩ := rfl
  have hwaits : (⟨faltering, [⟨arrivedOrder, none⟩]⟩ : FarEnd).handed[0]? =
      some ⟨arrivedOrder, none⟩ := rfl
  have htake : (FarEnd.fresh faltering).step bench (takeOrder 1) = _ :=
    step_takeOrder 1 (fun _ _ _ => rfl) rfl rfl hnew
  have hjudge : FarEnd.step bench ⟨faltering, [⟨arrivedOrder, none⟩]⟩ (acceptOrder 2 0) = _ :=
    step_judge_unsigned _ hwaits hreceipt
  refine ⟨?_, ?_, ?_⟩
  · rw [htake]
    rfl
  · rw [hjudge]
    rfl
  · exact step_takeOrder 3 (fun _ _ _ => rfl) rfl rfl hnew

/-- Each message of that run has its verdict before the next is taken. -/
theorem falteringRun_sequential :
    Along (FarEnd.step bench) Sequential (.fresh faltering) falteringRun := by
  obtain ⟨hfirst, hthen, -⟩ := faltering_states
  refine ⟨⟨trivial, ?_⟩, ⟨trivial, ?_⟩, ⟨trivial, ?_⟩, trivial⟩
  · intro now arrival _ u hu
    exact absurd hu List.not_mem_nil
  · intro now arrival htake
    cases htake
  · intro now arrival _ u hu
    rw [hfirst, hthen] at hu
    rw [List.mem_singleton.mp hu]
    exact HandUp.Accepted.not_waits ⟨false, rfl⟩

/-- The order is accepted, its Receipt cannot be signed, and sent again it is handed up
again. -/
theorem accepted_order_handed_up_again :
    Along (FarEnd.step bench) Sequential (.fresh faltering) falteringRun ∧
    acceptedOrder false ∈
      (run (FarEnd.step bench) (.fresh faltering) [takeOrder 1, acceptOrder 2 0]).handed ∧
    (acceptedOrder false).Accepted ∧
    (FarEnd.step bench (run (FarEnd.step bench) (.fresh faltering) [takeOrder 1, acceptOrder 2 0])
      (takeOrder 3)).2.1 = .took (.ok (some (order, arrivedOrder))) := by
  obtain ⟨hfirst, hthen, hlast⟩ := faltering_states
  rw [Delivery.run_cons, hfirst, Delivery.run_cons, hthen, Delivery.run_nil, hlast]
  exact ⟨falteringRun_sequential, List.mem_singleton.mpr rfl, ⟨false, rfl⟩, rfl⟩

/-- In that run what was not receipted is handed up again and nothing else is. -/
theorem resends_of_sequential_order :
    Along (FarEnd.step bench) (Resends bench) (.fresh faltering) falteringRun := by
  have hfew : (run (FarEnd.step bench) (.fresh faltering)
      falteringRun).acceptedIds.toFinset.card < remembered := by
    obtain ⟨hfirst, hthen, hlast⟩ := faltering_states
    rw [falteringRun, Delivery.run_cons, hfirst, Delivery.run_cons, hthen, Delivery.run_cons,
      hlast, Delivery.run_nil]
    exact card_order_lt rfl
  exact resends_of_sequential rfl falteringRun falteringRun_sequential hfew

end As4
