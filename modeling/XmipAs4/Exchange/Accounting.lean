import XmipAs4.Exchange.OneDelivery

/-!
# Every POST is accounted for

A Party that posts waits for its answer.  Over any run, for each of the POSTs a far end heard an
answer was made, or its message waits for a verdict, or its message was accepted and no Receipt
could be signed: there the Party is left without an answer and the one who gave the verdict is
told.

An answer that is made may still fail to be written, and the Party then gets none either; where
`accept_one` or a verdict made it, whoever called is told so.  What `take_next` answers at once
is written by `Inbound::next`, and of that nothing is said here.
-/

namespace As4

open Delivery (run outputs Along)

/-! ## The accounts -/

/-- Whether a POST is heard in a step. -/
def Event.isPost (e : Event) : Bool := e.posted.isSome

/-- Whether an answer is made in a step. -/
def isAnswered (out : Told × Option Response) : Bool := out.2.isSome

/-- What comes of writing the answer that is made in a step, where the one who calls hears of
it. -/
def Event.writing (a : Response) : Event → Result Unit
  | .judge _ _ _ reply => reply a
  | .accept _ (.read _ _ written) => written
  | _ => .ok ()

/-- The error that was told, if one was. -/
def Told.error : Told → Option TransportError
  | .took (.error e) => some e
  | .judged (.error e) => some e
  | .accepted (.error e) => some e
  | _ => none

namespace HandUp

variable (h : HandUp)

/-- Whether the Party waits. -/
def isWaiting : Bool := h.verdict.isNone

/-- Whether the message was accepted and its Receipt not signed. -/
def isUnreceipted : Bool := h.verdict == some (.Accepted, false)

end HandUp

namespace FarEnd

variable (s : FarEnd)

/-- How many Parties wait for a verdict. -/
def waiting : ℕ := s.handed.countP HandUp.isWaiting

/-- How many messages were accepted without a Receipt that could be signed. -/
def unreceipted : ℕ := s.handed.countP HandUp.isUnreceipted

end FarEnd

/-! ## What a step does to them -/

section Counts

variable {handed : List HandUp} {k : ℕ} {arrived : Arrived}
  (hwaits : handed[k]? = some ⟨arrived, none⟩)
include hwaits

/-- A verdict that is given ends a wait. -/
theorem countP_waiting_set (v : Verdict × Bool) :
    (handed.set k ⟨arrived, some v⟩).countP HandUp.isWaiting + 1 =
      handed.countP HandUp.isWaiting := by
  obtain ⟨hk, hat⟩ := List.getElem?_eq_some_iff.mp hwaits
  have hpos : 0 < handed.countP HandUp.isWaiting := by
    apply List.countP_pos_iff.mpr
    exact ⟨_, List.getElem_mem hk, by rw [hat]; rfl⟩
  have hbefore : HandUp.isWaiting ⟨arrived, none⟩ = true := rfl
  have hafter : HandUp.isWaiting ⟨arrived, some v⟩ = false := rfl
  rw [List.countP_set hk, hat, hbefore, hafter, if_pos rfl, if_neg Bool.false_ne_true]
  omega

/-- A verdict that is given leaves one message more without a Receipt where it is such. -/
theorem countP_unreceipted_set (v : Verdict × Bool) :
    (handed.set k ⟨arrived, some v⟩).countP HandUp.isUnreceipted =
      handed.countP HandUp.isUnreceipted + (HandUp.isUnreceipted ⟨arrived, some v⟩).toNat := by
  obtain ⟨hk, hat⟩ := List.getElem?_eq_some_iff.mp hwaits
  have hbefore : HandUp.isUnreceipted ⟨arrived, none⟩ = false := rfl
  rw [List.countP_set hk, hat, hbefore, if_neg Bool.false_ne_true, Nat.sub_zero]
  cases HandUp.isUnreceipted ⟨arrived, some v⟩ <;> rfl

end Counts

/-- A message that was accepted as its POST was served neither waits nor lacks a Receipt. -/
theorem countP_acceptedOf (said : Result (Option (UserMessage × Taken))) :
    (acceptedOf said).countP HandUp.isWaiting = 0 ∧
      (acceptedOf said).countP HandUp.isUnreceipted = 0 := by
  unfold acceptedOf
  split <;> exact ⟨rfl, rfl⟩

variable {L : Estate}

/-- A step accounts for the POST that is heard in it, and for what it takes off an account. -/
theorem Steps.balance {s s' : FarEnd} {e : Event} {told : Told} {answer : Option Response}
    (h : Steps L s e s' told answer) :
    s.waiting + s.unreceipted + e.isPost.toNat =
      s'.waiting + s'.unreceipted + (isAnswered (told, answer)).toNat := by
  cases h with
  | failed => rfl
  | answered hears hsaid => rfl
  | nothing hnot => rfl
  | broken => rfl
  | handedUp hunpack hadmits hnew =>
    simp only [FarEnd.waiting, FarEnd.unreceipted, List.countP_append, List.countP_singleton]
    simp [HandUp.isWaiting, HandUp.isUnreceipted, Event.isPost, Event.posted, isAnswered]
    omega
  | @receipted now k reply arrived a hwaits hreceipt =>
    have hwait := countP_waiting_set hwaits (.Accepted, true)
    have hsigned := countP_unreceipted_set hwaits (.Accepted, true)
    have hno : HandUp.isUnreceipted ⟨arrived, some (.Accepted, true)⟩ = false := rfl
    rw [hno, Bool.toNat_false] at hsigned
    simp only [FarEnd.waiting, FarEnd.unreceipted, Event.isPost, Event.posted, isAnswered,
      Option.isSome_none, Option.isSome_some, Bool.toNat_false, Bool.toNat_true]
    omega
  | @unsigned now k reply arrived e hwaits hreceipt =>
    have hwait := countP_waiting_set hwaits (.Accepted, false)
    have hsigned := countP_unreceipted_set hwaits (.Accepted, false)
    have hyes : HandUp.isUnreceipted ⟨arrived, some (.Accepted, false)⟩ = true := rfl
    rw [hyes, Bool.toNat_true] at hsigned
    simp only [FarEnd.waiting, FarEnd.unreceipted, Event.isPost, Event.posted, isAnswered,
      Option.isSome_none, Bool.toNat_false]
    omega
  | @declined now k v reply arrived status kind description hwaits hv =>
    have hwait := countP_waiting_set hwaits (v, true)
    have hsigned := countP_unreceipted_set hwaits (v, true)
    have hno : HandUp.isUnreceipted ⟨arrived, some (v, true)⟩ = false := by
      simp [HandUp.isUnreceipted]
    rw [hno, Bool.toNat_false] at hsigned
    simp only [FarEnd.waiting, FarEnd.unreceipted, Event.isPost, Event.posted, isAnswered,
      Option.isSome_none, Option.isSome_some, Bool.toNat_false, Bool.toNat_true]
    omega
  | @served now request peer written said answer ids hserves =>
    obtain ⟨hwait, hsigned⟩ := countP_acceptedOf said
    simp only [FarEnd.waiting, FarEnd.unreceipted, List.countP_append, hwait, hsigned, Event.isPost,
      Event.posted, isAnswered, Option.isSome_some, Bool.toNat_true]
    omega

/-- Where the answer made in a step cannot be written, the one who called is told that. -/
theorem Steps.told_unwritten {s s' : FarEnd} {e : Event} {told : Told} {a : Response}
    (h : Steps L s e s' told (some a)) {error : TransportError}
    (hwriting : e.writing a = .error error) : told.error = some error := by
  cases h with
  | answered _ _ => cases hwriting
  | @receipted now k reply arrived _ _ _ =>
    have hreply : reply a = .error error := hwriting
    rw [hreply]
    rfl
  | @declined now k v reply arrived status kind description _ _ =>
    have hreply : reply _ = .error error := hwriting
    rw [hreply]
    rfl
  | @served now request peer written said answer ids _ =>
    have hwritten : written = .error error := hwriting
    rw [hwritten]
    rfl

/-! ## What a run does to them -/

/-- Over any run of POSTs, verdicts and connections, from a far end that has received nothing:
the POSTs heard are as many as the answers made, the Parties that wait, and the messages
accepted whose Receipt could not be signed, together; and of an answer that could not be
written the one who called is told. -/
theorem posts_accounted (t : As4Transport) (es : List Event) :
    es.countP Event.isPost =
      (outputs (FarEnd.step L) (.fresh t) es).countP isAnswered +
        (run (FarEnd.step L) (.fresh t) es).waiting +
        (run (FarEnd.step L) (.fresh t) es).unreceipted ∧
    Along (FarEnd.step L) (fun s e => ∀ a error, (s.step L e).2.2 = some a →
      e.writing a = .error error → (s.step L e).2.1.error = some error) (.fresh t) es := by
  constructor
  · have hbalance := Delivery.run_balance (fun s : FarEnd => s.waiting + s.unreceipted)
      Event.isPost isAnswered (fun s e => (steps (L := L) s e).balance) (.fresh t) es
    have hnone : (FarEnd.fresh t).waiting + (FarEnd.fresh t).unreceipted = 0 := rfl
    simp only [hnone] at hbalance
    omega
  · refine (Delivery.along_of_forall (P := fun _ => True) fun _ _ => trivial).mono ?_
    intro s e _ a error hanswer hwriting
    have hstep := steps (L := L) s e
    rw [hanswer] at hstep
    exact hstep.told_unwritten hwriting

end As4
