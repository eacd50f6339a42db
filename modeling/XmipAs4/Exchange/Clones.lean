import XmipAs4.Reference.Bench
import XmipAs4.Delivery.Run
import Mathlib.Logic.Function.Basic

/-!
# Clones of a `Receipting`

A clone of a `Receipting` shares the store of its original, and its signer is a public field
that may be put another in.  Here the stores stand on a heap, and each `Receipting` that is
held is a signer and the place of its store.  Whatever is asked of which clone, in whatever
order and whichever signing fails, a store is the window of what was inserted through it.
-/

namespace As4

open Delivery (run window Spaced)
open Multipart (Bytes)

/-! ## Stores and those who hold them -/

/-- A `Receipting` that is held: its signer, and where its store is. -/
structure Clone where
  signer : Signer
  place : ℕ

/-- The `Receipting` as it is now. -/
def Clone.receipting (c : Clone) (stores : ℕ → List String) : Receipting :=
  ⟨c.signer, stores c.place⟩

/-- The stores there are, the next free place, and the `Receipting`s held, in the order they
were made. -/
structure Clones where
  stores : ℕ → List String
  next : ℕ
  held : List Clone

/-- Nothing is held yet. -/
def Clones.fresh : Clones := ⟨fun _ => [], 0, []⟩

/-- What may be asked: a new `Receipting`; a clone of the `k`-th held; another signer put in
it; an answer of it; or of a transport that holds it, what a POST is. -/
inductive Use where
  | new (signer : Signer)
  | clone (k : ℕ)
  | resign (k : ℕ) (signer : Signer)
  | answer (k : ℕ) (now : Moment) (message : UserMessage) (verdict : Verdict)
  | hear (k : ℕ) (t : As4Transport) (now : Moment) (request : Request) (peer : SocketAddr)

/-- What is given back. -/
inductive Given where
  | nothing
  | answered (answer : Result Response)
  | heard (hearing : Hearing)

variable (L : Estate)

/-- One use: what comes of it, and what is given back.  A use of what is not held does
nothing. -/
def Clones.step (s : Clones) : Use → Clones × Given
  | .new signer =>
    (⟨Function.update s.stores s.next (Receipting.new signer).ids, s.next + 1,
      s.held ++ [⟨signer, s.next⟩]⟩, .nothing)
  | .clone k =>
    match s.held[k]? with
    | some c => ({ s with held := s.held ++ [c] }, .nothing)
    | none => (s, .nothing)
  | .resign k signer =>
    match s.held[k]? with
    | some c => ({ s with held := s.held.set k { c with signer := signer } }, .nothing)
    | none => (s, .nothing)
  | .answer k now message verdict =>
    match s.held[k]? with
    | some c =>
      match (c.receipting s.stores).answer L now message verdict with
      | (answer, r) => ({ s with stores := Function.update s.stores c.place r.ids },
          .answered answer)
    | none => (s, .nothing)
  | .hear k t now request peer =>
    match s.held[k]? with
    | some c =>
      (s, .heard ({ t with receipting := c.receipting s.stores }.hear L now request peer))
    | none => (s, .nothing)

/-- The id that a use inserts into the store at the place, if it inserts one: it accepts a
message through a clone with that store, its Receipt is signed, and its id is not there. -/
def inserted (place : ℕ) (s : Clones) : Use → Option String
  | .answer k now message .Accepted =>
    match s.held[k]? with
    | some c =>
      match c.signer.sign now (Signal.receipt L now message) [] with
      | .ok _ =>
        if c.place = place ∧ message.messageId ∉ s.stores place then some message.messageId
        else none
      | .error _ => none
    | none => none
  | _ => none

/-- The insertions into the store at the place in a run of uses, in order. -/
def insertions (place : ℕ) : Clones → List Use → List String
  | _, [] => []
  | s, u :: us => (inserted L place s u).toList ++ insertions place (s.step L u).1 us

/-! ## What one use can do -/

/-- The rules of uses: what becomes of the `Receipting`s held and their stores, and what is
inserted at which place. -/
inductive Uses (L : Estate) (s : Clones) : Use → Clones → (ℕ → Option String) → Prop where
  /-- A `Receipting` is made, its store at a place of its own. -/
  | new (signer : Signer) :
      Uses L s (.new signer) ⟨Function.update s.stores s.next [], s.next + 1,
        s.held ++ [⟨signer, s.next⟩]⟩ (fun _ => none)
  /-- Another holds the same store. -/
  | cloned {k : ℕ} {c : Clone} (hk : s.held[k]? = some c) :
      Uses L s (.clone k) { s with held := s.held ++ [c] } (fun _ => none)
  /-- One signs with another signer. -/
  | resigned {k : ℕ} {c : Clone} (signer : Signer) (hk : s.held[k]? = some c) :
      Uses L s (.resign k signer) { s with held := s.held.set k { c with signer := signer } }
        (fun _ => none)
  /-- A message is accepted, its Receipt signed, and its id was not in the store. -/
  | inserting {k : ℕ} {c : Clone} {now : Moment} {m : UserMessage} {signed : String}
      (hk : s.held[k]? = some c)
      (hsign : c.signer.sign now (Signal.receipt L now m) [] = .ok signed)
      (hnew : m.messageId ∉ s.stores c.place) :
      Uses L s (.answer k now m .Accepted)
        ⟨Function.update s.stores c.place
          (Delivery.remember remembered m.messageId (s.stores c.place)), s.next, s.held⟩
        (fun place => if c.place = place then some m.messageId else none)
  /-- Nothing changes: a message is accepted whose Receipt is not signed or whose id is in
  the store, it is refused, its cycle failed, a POST is heard, or what is used is not held. -/
  | idle (u : Use) : Uses L s u s (fun _ => none)

section Steps

variable {L}

/-- An answer through a clone writes the store of the clone, and that alone. -/
theorem step_answer {s : Clones} {k : ℕ} {c : Clone} (hk : s.held[k]? = some c) (now : Moment)
    (m : UserMessage) {v : Verdict} {answer : Result Response} {r : Receipting}
    (h : (c.receipting s.stores).answer L now m v = (answer, r)) :
    (s.step L (.answer k now m v)).1 =
      ⟨Function.update s.stores c.place r.ids, s.next, s.held⟩ := by
  simp only [Clones.step, hk, h]

/-- An answer that leaves the store as it was leaves everything as it was. -/
theorem step_answer_idle {s : Clones} {k : ℕ} {c : Clone} (hk : s.held[k]? = some c)
    (now : Moment) (m : UserMessage) {v : Verdict} {answer : Result Response} {r : Receipting}
    (h : (c.receipting s.stores).answer L now m v = (answer, r))
    (hids : r.ids = s.stores c.place) : (s.step L (.answer k now m v)).1 = s := by
  rw [step_answer hk now m h, hids, Function.update_eq_self]

/-- An acceptance is by one of the rules: it inserts the id, or changes nothing. -/
theorem uses_accepted {s : Clones} {k : ℕ} {c : Clone} (hk : s.held[k]? = some c) (now : Moment)
    (m : UserMessage) :
    ∃ ins, Uses L s (.answer k now m .Accepted) (s.step L (.answer k now m .Accepted)).1 ins ∧
      ∀ place, inserted L place s (.answer k now m .Accepted) = ins place := by
  cases hsign : c.signer.sign now (Signal.receipt L now m) [] with
  | error e =>
    have hreceipt : (c.receipting s.stores).receipt L now m = .error e :=
      Receipting.receipt_eq_error.mpr hsign
    rw [step_answer_idle hk now m (Receipting.answer_unsigned hreceipt) rfl]
    refine ⟨_, .idle _, ?_⟩
    intro place
    simp only [inserted, hk, hsign]
  | ok signed =>
    have hreceipt : (c.receipting s.stores).receipt L now m = .ok (soap L now 200 signed) :=
      Receipting.receipt_eq_ok.mpr ⟨signed, hsign, rfl⟩
    have hanswer := Receipting.answer_accepted hreceipt
    rw [Receipting.remember_eq] at hanswer
    by_cases hmem : m.messageId ∈ s.stores c.place
    · rw [step_answer_idle hk now m hanswer (if_pos hmem)]
      refine ⟨_, .idle _, ?_⟩
      intro place
      simp only [inserted, hk, hsign]
      rw [if_neg]
      rintro ⟨rfl, hnew⟩
      exact hnew hmem
    · rw [step_answer hk now m hanswer]
      refine ⟨_, .inserting hk hsign hmem, ?_⟩
      intro place
      simp only [inserted, hk, hsign]
      by_cases hplace : c.place = place
      · subst hplace
        rw [if_pos ⟨rfl, hmem⟩, if_pos rfl]
      · rw [if_neg (fun h => hplace h.1), if_neg hplace]

/-- Every use is by one of the rules. -/
theorem uses (s : Clones) (u : Use) :
    ∃ ins, Uses L s u (s.step L u).1 ins ∧ ∀ place, inserted L place s u = ins place := by
  cases u with
  | new signer => exact ⟨_, .new signer, fun _ => rfl⟩
  | clone k =>
    simp only [Clones.step]
    cases hk : s.held[k]? with
    | none => exact ⟨_, .idle _, fun _ => rfl⟩
    | some c => exact ⟨_, .cloned hk, fun _ => rfl⟩
  | resign k signer =>
    simp only [Clones.step]
    cases hk : s.held[k]? with
    | none => exact ⟨_, .idle _, fun _ => rfl⟩
    | some c => exact ⟨_, .resigned signer hk, fun _ => rfl⟩
  | hear k t now request peer =>
    simp only [Clones.step]
    cases s.held[k]? with
    | none => exact ⟨_, .idle _, fun _ => rfl⟩
    | some c => exact ⟨_, .idle _, fun _ => rfl⟩
  | answer k now m v =>
    cases hk : s.held[k]? with
    | none =>
      simp only [Clones.step, hk]
      refine ⟨_, .idle _, ?_⟩
      intro place
      cases v with
      | Accepted => simp only [inserted, hk]
      | Refused why => rfl
      | Failed => rfl
    | some c =>
      cases v with
      | Accepted => exact uses_accepted hk now m
      | Refused why =>
        rw [step_answer_idle (v := .Refused why) hk now m rfl rfl]
        exact ⟨_, .idle _, fun _ => rfl⟩
      | Failed =>
        rw [step_answer_idle (v := .Failed) hk now m rfl rfl]
        exact ⟨_, .idle _, fun _ => rfl⟩

/-- A use that inserts nothing into a store there is leaves it as it is. -/
theorem stores_of_inserted_none {s : Clones} {u : Use} {place : ℕ} (hplace : place < s.next)
    (h : inserted L place s u = none) : (s.step L u).1.stores place = s.stores place := by
  obtain ⟨ins, huses, hins⟩ := uses (L := L) s u
  rw [hins] at h
  generalize (s.step L u).1 = s' at huses
  cases huses with
  | new signer => exact Function.update_of_ne (Nat.ne_of_lt hplace) _ _
  | cloned hk => rfl
  | resigned signer hk => rfl
  | @inserting k c now m signed hk hsign hnew =>
    have hne : place ≠ c.place := by
      rintro rfl
      simp at h
    exact Function.update_of_ne hne _ _
  | idle => rfl

/-! ## What every use keeps -/

/-- Every store is the window of what was inserted into it, nothing was inserted that it
held, and every clone's store is at a place that was given. -/
structure Windowed (s : Clones) (history : ℕ → List String) : Prop where
  placed : ∀ c ∈ s.held, c.place < s.next
  window_eq : ∀ place, s.stores place = window remembered (history place)
  spaced : ∀ place, Spaced remembered (history place)
  unused : ∀ place, s.next ≤ place → history place = []

/-- A use keeps every store the window of what was inserted into it. -/
theorem Windowed.step {s : Clones} {history : ℕ → List String} (hs : Windowed s history)
    (u : Use) :
    Windowed (s.step L u).1 (fun place => history place ++ (inserted L place s u).toList) := by
  obtain ⟨ins, huses, hins⟩ := uses (L := L) s u
  simp only [hins]
  generalize (s.step L u).1 = s' at huses
  cases huses with
  | new signer =>
    simp only [Option.toList_none, List.append_nil]
    refine ⟨?_, ?_, hs.spaced, ?_⟩
    · intro c hc
      rcases List.mem_append.mp hc with hc | hc
      · exact Nat.lt_succ_of_lt (hs.placed c hc)
      · rw [List.mem_singleton.mp hc]
        exact Nat.lt_succ_self s.next
    · intro place
      simp only
      by_cases hplace : place = s.next
      · subst hplace
        rw [Function.update_self, hs.unused _ (Nat.le_refl _),
          Delivery.window_of_length_le (Nat.zero_le remembered)]
      · rw [Function.update_of_ne hplace]
        exact hs.window_eq place
    · intro place hplace
      exact hs.unused place (Nat.le_of_succ_le hplace)
  | @cloned k c hk =>
    simp only [Option.toList_none, List.append_nil]
    refine ⟨?_, hs.window_eq, hs.spaced, hs.unused⟩
    intro c' hc'
    rcases List.mem_append.mp hc' with hc' | hc'
    · exact hs.placed c' hc'
    · rw [List.mem_singleton.mp hc']
      exact hs.placed c (List.mem_of_getElem? hk)
  | @resigned k c signer hk =>
    simp only [Option.toList_none, List.append_nil]
    refine ⟨?_, hs.window_eq, hs.spaced, hs.unused⟩
    intro c' hc'
    rcases List.mem_or_eq_of_mem_set hc' with hc' | rfl
    · exact hs.placed c' hc'
    · exact hs.placed c (List.mem_of_getElem? hk)
  | @inserting k c now m signed hk hsign hnew =>
    have hwindow := hs.window_eq c.place
    rw [hwindow] at hnew
    refine ⟨hs.placed, ?_, ?_, ?_⟩
    · intro place
      by_cases hplace : c.place = place
      · subst hplace
        simp only [Function.update_self, if_true, Option.toList_some]
        rw [hwindow, Delivery.remember_window Receipting.remembered_pos hnew]
      · simp only [if_neg hplace, Option.toList_none, List.append_nil]
        rw [Function.update_of_ne (Ne.symm hplace)]
        exact hs.window_eq place
    · intro place
      by_cases hplace : c.place = place
      · subst hplace
        simp only [if_true, Option.toList_some]
        exact (hs.spaced c.place).append_singleton hnew
      · simp only [if_neg hplace, Option.toList_none, List.append_nil]
        exact hs.spaced place
    · intro place hplace
      have hlt := hs.placed c (List.mem_of_getElem? hk)
      have hne : ¬ c.place = place := by
        rintro rfl
        exact Nat.not_le_of_lt hlt hplace
      simp only [if_neg hne, Option.toList_none, List.append_nil]
      exact hs.unused place hplace
  | idle =>
    simp only [Option.toList_none, List.append_nil]
    exact hs

/-- So does a run of uses. -/
theorem Windowed.run {s : Clones} {history : ℕ → List String} (hs : Windowed s history)
    (us : List Use) :
    Windowed (run (Clones.step L) s us)
      (fun place => history place ++ insertions L place s us) := by
  induction us generalizing s history with
  | nil =>
    simp only [insertions, List.append_nil]
    exact hs
  | cons u us ih =>
    have hnext := ih (hs.step (L := L) u)
    simp only [List.append_assoc] at hnext
    exact hnext

/-- Before any use every store is empty. -/
theorem windowed_fresh : Windowed .fresh (fun _ => []) where
  placed _ hc := absurd hc List.not_mem_nil
  window_eq _ := (Delivery.window_of_length_le (Nat.zero_le remembered)).symm
  spaced _ := Delivery.spaced_nil remembered
  unused _ _ := rfl

end Steps

/-! ## Any run of uses -/

/-- Through whichever clone, in whatever order, and whichever signings fail: a store never
holds an id twice nor more than are remembered, and is in order the last of the insertions
into it; a use that inserts nothing into it leaves it as it is; and a clone has seen an id
exactly where the id was inserted into the clone's store and fewer insertions than are
remembered have followed its latest. -/
theorem stores_run (us : List Use) :
    (∀ place, ((run (Clones.step L) .fresh us).stores place).Nodup ∧
      (run (Clones.step L) .fresh us).stores place =
        window remembered (insertions L place .fresh us) ∧
      ((run (Clones.step L) .fresh us).stores place).length =
        min remembered (insertions L place .fresh us).length) ∧
    (∀ c ∈ (run (Clones.step L) .fresh us).held,
      (∀ id, (c.receipting (run (Clones.step L) .fresh us).stores).seen id = true ↔
        ∃ xs ys, insertions L c.place .fresh us = xs ++ id :: ys ∧ id ∉ ys ∧
          ys.length < remembered) ∧
      ∀ u, inserted L c.place (run (Clones.step L) .fresh us) u = none →
        ((run (Clones.step L) .fresh us).step L u).1.stores c.place =
          (run (Clones.step L) .fresh us).stores c.place) := by
  have hwindowed := windowed_fresh.run (L := L) us
  simp only [List.nil_append] at hwindowed
  constructor
  · intro place
    have hwindow := hwindowed.window_eq place
    refine ⟨?_, hwindow, ?_⟩
    · rw [hwindow]
      exact (hwindowed.spaced place).nodup_window
    · rw [hwindow, Delivery.length_window]
  · intro c hc
    constructor
    · intro id
      rw [Receipting.seen_iff, ← Delivery.mem_window_iff, ← hwindowed.window_eq c.place]
      rfl
    · intro u hu
      exact stores_of_inserted_none (hwindowed.placed c hc) hu

/-- A `Receipting` is made and cloned, and the order accepted through the clone. -/
def orderUses : List Use :=
  [.new unsigned, .clone 0, .answer 1 (moment 0) order .Accepted]

/-- What was accepted through the clone was seen through the original. -/
theorem stores_run_order :
    ((⟨unsigned, 0⟩ : Clone).receipting
      (run (Clones.step bench) .fresh orderUses).stores).seen order.messageId = true := by
  have hheld : ⟨unsigned, 0⟩ ∈ (run (Clones.step bench) .fresh orderUses).held :=
    List.mem_cons_self
  have hinserted : insertions bench 0 .fresh orderUses = [order.messageId] := rfl
  have hnone : order.messageId ∉ ([] : List String) := List.not_mem_nil
  exact (((stores_run (L := bench) orderUses).2 ⟨unsigned, 0⟩ hheld).1 order.messageId).mpr
    ⟨[], [], hinserted, hnone, Receipting.remembered_pos⟩

end As4
