import Mathlib.Data.List.Induction
import Mathlib.Data.List.Nodup
import Mathlib.Data.List.Perm.Basic
import Mathlib.Logic.Function.Basic
import XmipAs4.Delivery.Run

/-!
# Operations in two phases

An operation looks at a shared store and, where what it sees does not settle it, finishes later
by writing to the store.  Many are under way at once, and between the two phases of one others
look and finish.  As long as no finish changes what another operation under way saw, the
operations might as well have been done one after another, each whole, in the order in which
they came to an end: every phase of every operation comes to what it came to, and the store is
what it was.
-/

namespace Delivery

/-- What an operation does with the store: it looks, and is settled or holds something; and what
it holds it finishes, one way or another. -/
structure TwoPhase (σ ρ δ φ α β : Type*) where
  look : σ → ρ → α ⊕ δ
  finish : σ → δ → φ → σ × β

/-- The store, and what each operation under way asked and holds. -/
structure Shared (ι σ ρ δ : Type*) where
  store : σ
  pending : ι → Option (ρ × δ)

/-- Nothing is under way. -/
def Shared.idle {ι σ ρ δ : Type*} (s : σ) : Shared ι σ ρ δ := ⟨s, fun _ => none⟩

/-- An operation looks, or finishes. -/
inductive Phase (ι ρ φ : Type*) where
  | look (i : ι) (r : ρ)
  | finish (i : ι) (f : φ)

/-- What a phase comes to. -/
inductive Came (α β δ : Type*) where
  | settled (a : α)
  | held (d : δ)
  | finished (b : β)
  | nothing

/-- Whether the operation came to its end. -/
def Came.isEnd {α β δ : Type*} : Came α β δ → Bool
  | settled _ => true
  | finished _ => true
  | held _ => false
  | nothing => false

variable {ι σ ρ δ φ α β : Type*}

/-- Each finish comes right after the look of its operation. -/
inductive Serial : List (Phase ι ρ φ) → Prop where
  | nil : Serial []
  | look (i : ι) (r : ρ) {acts : List (Phase ι ρ φ)} (h : Serial acts) : Serial (.look i r :: acts)
  | whole (i : ι) (r : ρ) (f : φ) {acts : List (Phase ι ρ φ)} (h : Serial acts) :
      Serial (.look i r :: .finish i f :: acts)

/-- Operations one after another, and others after them. -/
theorem Serial.append {acts acts' : List (Phase ι ρ φ)} (h : Serial acts) (h' : Serial acts') :
    Serial (acts ++ acts') := by
  induction h with
  | nil => exact h'
  | look i r h ih => exact .look i r ih
  | whole i r f h ih => exact .whole i r f ih

/-- The events of a run, each with what came out of it. -/
def trace {τ ε ο : Type*} (step : τ → ε → τ × ο) (s : τ) (es : List ε) : List (ε × ο) :=
  es.zip (outputs step s es)

/-- The trace of a run continued. -/
theorem trace_append {τ ε ο : Type*} (step : τ → ε → τ × ο) (s : τ) (es fs : List ε) :
    trace step s (es ++ fs) = trace step s es ++ trace step (run step s es) fs := by
  rw [trace, outputs_append, List.zip_append (length_outputs step s es).symm]
  rfl

namespace TwoPhase

variable [DecidableEq ι] (P : TwoPhase σ ρ δ φ α β)

/-- One phase of one operation.  An operation that is under way does not look again, and one
that is not does not finish. -/
def step (s : Shared ι σ ρ δ) : Phase ι ρ φ → Shared ι σ ρ δ × Came α β δ
  | .look i r =>
    match s.pending i with
    | some _ => (s, .nothing)
    | none =>
      match P.look s.store r with
      | .inl a => (s, .settled a)
      | .inr d => ({ s with pending := Function.update s.pending i (some (r, d)) }, .held d)
  | .finish i f =>
    match s.pending i with
    | none => (s, .nothing)
    | some (_, d) =>
      (⟨(P.finish s.store d f).1, Function.update s.pending i none⟩,
        .finished (P.finish s.store d f).2)

/-- The phase is one there can be: what looks is not under way, and what finishes is. -/
def Possible (s : Shared ι σ ρ δ) : Phase ι ρ φ → Prop
  | .look i _ => s.pending i = none
  | .finish i _ => ∃ x, s.pending i = some x

/-- A finish leaves every other operation under way what it saw. -/
def Keeps (s : Shared ι σ ρ δ) : Phase ι ρ φ → Prop
  | .look _ _ => True
  | .finish i f => ∀ r d, s.pending i = some (r, d) → ∀ j r' d', j ≠ i →
      s.pending j = some (r', d') → P.look s.store r' = .inr d' →
      P.look (P.finish s.store d f).1 r' = .inr d'

variable {P} {s : Shared ι σ ρ δ} {i : ι} {r : ρ}

/-- An operation that is under way does not look. -/
theorem step_busy {x : ρ × δ} (hi : s.pending i = some x) :
    P.step s (.look i r) = (s, .nothing) := by
  unfold step
  simp only
  rw [hi]

/-- An operation that is not under way does not finish. -/
theorem step_absent (f : φ) (hi : s.pending i = none) : P.step s (.finish i f) = (s, .nothing) := by
  unfold step
  simp only
  rw [hi]

/-- An operation that is settled as it looks changes nothing. -/
theorem step_settled {a : α} (hi : s.pending i = none) (h : P.look s.store r = .inl a) :
    P.step s (.look i r) = (s, .settled a) := by
  unfold step
  simp only
  rw [hi]
  simp only
  rw [h]

/-- An operation that is not is under way. -/
theorem step_held {d : δ} (hi : s.pending i = none) (h : P.look s.store r = .inr d) :
    P.step s (.look i r) =
      (⟨s.store, Function.update s.pending i (some (r, d))⟩, .held d) := by
  unfold step
  simp only
  rw [hi]
  simp only
  rw [h]

/-- An operation that finishes is not under way any more. -/
theorem step_finish {d : δ} (f : φ) (hi : s.pending i = some (r, d)) :
    P.step s (.finish i f) =
      (⟨(P.finish s.store d f).1, Function.update s.pending i none⟩,
        .finished (P.finish s.store d f).2) := by
  unfold step
  simp only
  rw [hi]

/-- A look leaves the store as it is. -/
theorem store_look (s : Shared ι σ ρ δ) (i : ι) (r : ρ) :
    (P.step s (.look i r)).1.store = s.store := by
  cases hi : s.pending i with
  | some x => rw [step_busy hi]
  | none =>
    cases hlook : P.look s.store r with
    | inl a => rw [step_settled hi hlook]
    | inr d => rw [step_held hi hlook]

/-! ## Operations under way -/

/-- Every operation under way would see now what it saw. -/
def Seen (P : TwoPhase σ ρ δ φ α β) (s : Shared ι σ ρ δ) : Prop :=
  ∀ i r d, s.pending i = some (r, d) → P.look s.store r = .inr d

/-- A phase that keeps what others saw leaves every operation under way what it saw. -/
theorem Seen.step (h : Seen P s) {a : Phase ι ρ φ} (hkeeps : P.Keeps s a) :
    Seen P (P.step s a).1 := by
  cases a with
  | look i r =>
    cases hi : s.pending i with
    | some x =>
      rw [step_busy hi]
      exact h
    | none =>
      cases hlook : P.look s.store r with
      | inl a =>
        rw [step_settled hi hlook]
        exact h
      | inr d =>
        rw [step_held hi hlook]
        intro j r' d' hj
        by_cases hji : j = i
        · subst hji
          simp only [Function.update_self, Option.some.injEq, Prod.mk.injEq] at hj
          rw [← hj.1, ← hj.2]
          exact hlook
        · simp only [Function.update_of_ne hji] at hj
          exact h j r' d' hj
  | finish i f =>
    cases hi : s.pending i with
    | none =>
      rw [step_absent f hi]
      exact h
    | some x =>
      rw [step_finish f hi]
      intro j r' d' hj
      have hji : j ≠ i := by
        rintro rfl
        simp only [Function.update_self, reduceCtorEq] at hj
      simp only [Function.update_of_ne hji] at hj
      exact hkeeps x.1 x.2 hi j r' d' hji hj (h j r' d' hj)

omit [DecidableEq ι] in
/-- Nothing is under way that could have seen anything else. -/
theorem seen_idle (P : TwoPhase σ ρ δ φ α β) (s : σ) : Seen P (Shared.idle (ι := ι) s) := by
  intro i r d h
  cases h

/-- The list holds every operation under way once, with what it asked and what it saw. -/
structure Underway (s : Shared ι σ ρ δ) (os : List (ι × ρ × δ)) : Prop where
  nodup : (os.map Prod.fst).Nodup
  mem_iff : ∀ i x, s.pending i = some x ↔ (i, x) ∈ os

/-- The look of an operation under way. -/
def opening (o : ι × ρ × δ) : Phase ι ρ φ := .look o.1 o.2.1

/-- The look with what it came to. -/
def opened (o : ι × ρ × δ) : Phase ι ρ φ × Came α β δ := (opening o, .held o.2.2)

/-- Operations that look one after another, and are not settled, are all under way. -/
theorem run_openings {os : List (ι × ρ × δ)} (h : Underway s os) (hseen : Seen P s) :
    run P.step (.idle s.store) (os.map opening) = s ∧
      trace P.step (.idle s.store) (os.map opening) = os.map opened := by
  induction os using List.reverseRecOn generalizing s with
  | nil =>
    refine ⟨?_, rfl⟩
    obtain ⟨store, pending⟩ := s
    have hnone : pending = fun _ => none := by
      funext i
      rw [Option.eq_none_iff_forall_ne_some]
      intro x hx
      exact List.not_mem_nil ((h.mem_iff i x).mp hx)
    rw [hnone]
    rfl
  | append_singleton os o ih =>
    obtain ⟨i, r, d⟩ := o
    have hnodup := h.nodup
    rw [List.map_append, List.map_singleton, List.nodup_append] at hnodup
    obtain ⟨hfst, -, hapart⟩ := hnodup
    have hnot : ∀ x, (i, x) ∉ os := by
      intro x hx
      exact hapart i (List.mem_map_of_mem hx) i (List.mem_singleton_self i) rfl
    -- The state before the last of them looked.
    have hbefore : Underway ⟨s.store, Function.update s.pending i none⟩ os := by
      refine ⟨hfst, ?_⟩
      intro j x
      by_cases hj : j = i
      · subst hj
        simp only [Function.update_self, reduceCtorEq, false_iff]
        exact hnot x
      · simp only [Function.update_of_ne hj]
        rw [h.mem_iff, List.mem_append, List.mem_singleton, Prod.mk.injEq]
        simp [hj]
    have hsaw : Seen P ⟨s.store, Function.update s.pending i none⟩ := by
      intro j r' d' hj
      have hji : j ≠ i := by
        rintro rfl
        simp only [Function.update_self, reduceCtorEq] at hj
      simp only [Function.update_of_ne hji] at hj
      exact hseen j r' d' hj
    obtain ⟨hrun, htrace⟩ := ih hbefore hsaw
    have hpending : s.pending i = some (r, d) := (h.mem_iff i (r, d)).mpr (by simp)
    have hlook := hseen i r d hpending
    have hstep : P.step ⟨s.store, Function.update s.pending i none⟩ (.look i r) =
        (s, .held d) := by
      have hfree : Function.update s.pending i none i = none := Function.update_self ..
      rw [step_held (s := ⟨s.store, Function.update s.pending i none⟩) hfree hlook,
        Function.update_idem, ← hpending, Function.update_eq_self]
    rw [List.map_append, List.map_singleton, run_append, trace_append, hrun, htrace,
      List.map_append]
    constructor
    · rw [run_cons, run_nil, opening, hstep]
    · rw [trace, outputs_cons, outputs_nil, opening, hstep]
      rfl

/-! ## One after another -/

/-- The operations of a run that came to their end, one after another and each whole, and then
those still under way, come to what they came to in the run. -/
structure SerialOrder (P : TwoPhase σ ρ δ φ α β) (s : σ) (acts serial : List (Phase ι ρ φ))
    (os : List (ι × ρ × δ)) : Prop where
  whole : Serial serial
  run_eq : run P.step (.idle s) serial = .idle (run P.step (.idle s) acts).store
  underway : Underway (run P.step (.idle s) acts) os
  perm : (trace P.step (.idle s) acts).Perm (trace P.step (.idle s) serial ++ os.map opened)
  ends : (trace P.step (.idle s) acts).filter (fun x => x.2.isEnd) =
    (trace P.step (.idle s) serial).filter fun x => x.2.isEnd

section Steps

variable {s : σ} {acts serial : List (Phase ι ρ φ)} {os : List (ι × ρ × δ)}

/-- The trace of a run and one phase more. -/
theorem trace_concat (s : Shared ι σ ρ δ) (acts : List (Phase ι ρ φ)) (a : Phase ι ρ φ) :
    trace P.step s (acts ++ [a]) =
      trace P.step s acts ++ [(a, (P.step (run P.step s acts) a).2)] := by
  rw [trace_append]
  rfl

/-- An operation settled as it looks comes last of those that came to their end. -/
theorem SerialOrder.settled {a : α} (h : SerialOrder P s acts serial os)
    (hi : (run P.step (.idle s) acts).pending i = none)
    (hlook : P.look (run P.step (.idle s) acts).store r = .inl a) :
    SerialOrder P s (acts ++ [.look i r]) (serial ++ [.look i r]) os := by
  have hstep := step_settled hi hlook
  have hserial : P.step (run P.step (.idle s) serial) (.look i r) =
      (.idle (run P.step (.idle s) acts).store, .settled a) := by
    rw [h.run_eq]
    exact step_settled rfl hlook
  have hstay : run P.step (.idle s) (acts ++ [.look i r]) = run P.step (.idle s) acts := by
    rw [run_append, run_cons, run_nil, hstep]
  constructor
  · exact h.whole.append (.look i r .nil)
  · rw [hstay, run_append, run_cons, run_nil, hserial]
  · rw [hstay]
    exact h.underway
  · rw [trace_concat, trace_concat, hstep, hserial, List.append_assoc]
    refine (h.perm.append_right _).trans ?_
    rw [List.append_assoc]
    exact List.perm_append_comm.append_left _
  · rw [trace_concat, trace_concat, hstep, hserial, List.filter_append, List.filter_append, h.ends]

/-- An operation that holds something is one more under way. -/
theorem SerialOrder.held {d : δ} (h : SerialOrder P s acts serial os)
    (hi : (run P.step (.idle s) acts).pending i = none)
    (hlook : P.look (run P.step (.idle s) acts).store r = .inr d) :
    SerialOrder P s (acts ++ [.look i r]) serial (os ++ [(i, r, d)]) := by
  have hstep := step_held hi hlook
  have hnot : ∀ x, (i, x) ∉ os := by
    intro x hx
    rw [(h.underway.mem_iff i x).mpr hx] at hi
    cases hi
  have hnow : run P.step (.idle s) (acts ++ [.look i r]) =
      ⟨(run P.step (.idle s) acts).store,
        Function.update (run P.step (.idle s) acts).pending i (some (r, d))⟩ := by
    rw [run_append, run_cons, run_nil, hstep]
  constructor
  · exact h.whole
  · rw [hnow]
    exact h.run_eq
  · rw [hnow]
    refine ⟨?_, ?_⟩
    · rw [List.map_append, List.map_singleton, List.nodup_append]
      refine ⟨h.underway.nodup, List.nodup_singleton i, ?_⟩
      rintro j hj k hk rfl
      obtain ⟨o, ho, rfl⟩ := List.mem_map.mp hj
      have hfst : o.1 = i := List.mem_singleton.mp hk
      exact hnot o.2 (by rw [← hfst]; exact ho)
    · intro j x
      rw [List.mem_append, List.mem_singleton, Prod.mk.injEq]
      by_cases hj : j = i
      · subst hj
        simp only [Function.update_self, Option.some.injEq, hnot x, true_and, false_or]
        exact eq_comm
      · simp only [Function.update_of_ne hj, hj, false_and, or_false]
        exact h.underway.mem_iff j x
  · rw [trace_concat, hstep, List.map_append, ← List.append_assoc]
    exact h.perm.append_right _
  · rw [trace_concat, hstep, List.filter_append, h.ends]
    exact List.append_nil _

/-- An operation that finishes comes, look and finish, last of those that came to their end. -/
theorem SerialOrder.finished {d : δ} {f : φ} (h : SerialOrder P s acts serial os)
    (hi : (run P.step (.idle s) acts).pending i = some (r, d))
    (hlook : P.look (run P.step (.idle s) acts).store r = .inr d) :
    ∃ os', SerialOrder P s (acts ++ [.finish i f])
      (serial ++ [.look i r, .finish i f]) os' := by
  have hmem := (h.underway.mem_iff i (r, d)).mp hi
  obtain ⟨before, after, rfl⟩ := List.append_of_mem hmem
  have hstep := step_finish (P := P) f hi
  have hnow : run P.step (.idle s) (acts ++ [.finish i f]) =
      ⟨(P.finish (run P.step (.idle s) acts).store d f).1,
        Function.update (run P.step (.idle s) acts).pending i none⟩ := by
    rw [run_append, run_cons, run_nil, hstep]
  -- Nothing is under way as the operation looks, so it finishes at once.
  have hfirst : P.step (run P.step (.idle s) serial) (.look i r) =
      (⟨(run P.step (.idle s) acts).store, Function.update (fun _ => none) i (some (r, d))⟩,
        .held d) := by
    rw [h.run_eq]
    exact step_held rfl hlook
  have hsecond : P.step ⟨(run P.step (.idle s) acts).store,
      Function.update (fun _ => none) i (some (r, d))⟩ (.finish i f) =
      (.idle (P.finish (run P.step (.idle s) acts).store d f).1,
        .finished (P.finish (run P.step (.idle s) acts).store d f).2) := by
    have hpending : Function.update (fun _ : ι => (none : Option (ρ × δ))) i (some (r, d)) i =
        some (r, d) := Function.update_self ..
    rw [step_finish (s := ⟨(run P.step (.idle s) acts).store,
      Function.update (fun _ => none) i (some (r, d))⟩) f hpending, Function.update_idem,
      Function.update_eq_self_iff.mpr rfl]
    rfl
  have htrace : trace P.step (.idle s) (serial ++ [.look i r, .finish i f]) =
      trace P.step (.idle s) serial ++ [(.look i r, .held d),
        (.finish i f, .finished (P.finish (run P.step (.idle s) acts).store d f).2)] := by
    rw [trace_append]
    congr 1
    rw [trace, outputs_cons, outputs_cons, outputs_nil, hfirst, hsecond]
    rfl
  have hnodup := h.underway.nodup
  rw [List.map_append, List.map_cons, List.nodup_middle, List.nodup_cons] at hnodup
  obtain ⟨hnot, hrest⟩ := hnodup
  rw [← List.map_append] at hnot hrest
  refine ⟨before ++ after, ?_, ?_, ?_, ?_, ?_⟩
  · exact h.whole.append (.whole i r f .nil)
  · rw [hnow, run_append, run_cons, run_cons, run_nil, hfirst, hsecond]
  · rw [hnow]
    refine ⟨hrest, ?_⟩
    intro j x
    by_cases hj : j = i
    · subst hj
      simp only [Function.update_self, reduceCtorEq, false_iff]
      exact fun hx => hnot (List.mem_map.mpr ⟨(j, x), hx, rfl⟩)
    · simp only [Function.update_of_ne hj]
      rw [h.underway.mem_iff]
      simp [hj]
  · rw [trace_concat, hstep, htrace, List.append_assoc]
    refine (h.perm.append_right _).trans ?_
    rw [List.append_assoc]
    refine List.Perm.append_left _ ?_
    rw [List.map_append, List.map_cons]
    have hmiddle : (before.map opened ++ opened (i, r, d) :: after.map opened :
        List (Phase ι ρ φ × Came α β δ)).Perm
        (opened (i, r, d) :: (before ++ after).map opened) := by
      rw [List.map_append]
      exact List.perm_middle
    refine (hmiddle.append_right _).trans (.cons _ ?_)
    exact List.perm_append_comm
  · rw [trace_concat, hstep, htrace, List.filter_append, List.filter_append, h.ends]
    rfl

end Steps

/-- Operations under way at once, none of which changes as it finishes what another saw, come to
what they come to one after another. -/
theorem exists_serialOrder {s : σ} {acts : List (Phase ι ρ φ)}
    (hpossible : Along P.step Possible (.idle s) acts)
    (hkeeps : Along P.step P.Keeps (.idle s) acts) :
    ∃ serial os, SerialOrder P s acts serial os := by
  induction acts using List.reverseRecOn with
  | nil =>
    refine ⟨[], [], .nil, rfl, ⟨List.nodup_nil, ?_⟩, .refl _, rfl⟩
    intro i x
    simp [run_nil, Shared.idle]
  | append_singleton acts a ih =>
    rw [along_append] at hpossible hkeeps
    obtain ⟨serial, os, h⟩ := ih hpossible.1 hkeeps.1
    have hlast := hpossible.2.1
    cases a with
    | look i r =>
      cases hlook : P.look (run P.step (.idle s) acts).store r with
      | inl a => exact ⟨_, _, h.settled hlast hlook⟩
      | inr d => exact ⟨_, _, h.held hlast hlook⟩
    | finish i f =>
      obtain ⟨⟨r, d⟩, hi⟩ := hlast
      have hseen := run_invariant_along (Seen P) (fun _ _ h hk => h.step hk) (seen_idle P s)
        hkeeps.1
      obtain ⟨os', h'⟩ := h.finished hi (hseen i r d hi)
      exact ⟨_, os', h'⟩

/-- Those that came to their end one after another, then the looks of those still under way,
are a run of the same phases that comes to the same and leads to the same state. -/
theorem SerialOrder.all {s : σ} {acts serial : List (Phase ι ρ φ)} {os : List (ι × ρ × δ)}
    (h : SerialOrder P s acts serial os) (hseen : Seen P (run P.step (.idle s) acts)) :
    run P.step (.idle s) (serial ++ os.map opening) = run P.step (.idle s) acts ∧
      trace P.step (.idle s) (serial ++ os.map opening) =
        trace P.step (.idle s) serial ++ os.map opened := by
  obtain ⟨hrun, htrace⟩ := run_openings h.underway hseen
  rw [run_append, trace_append, h.run_eq, hrun, htrace]
  exact ⟨rfl, rfl⟩

/-- Operations under way at once might as well be done one after another, each whole, in the
order in which they come to an end, where no finish changes what another under way saw: each
phase comes to the same, and the store is the same. -/
theorem serializable {s : σ} {acts : List (Phase ι ρ φ)}
    (hpossible : Along P.step Possible (.idle s) acts)
    (hkeeps : Along P.step P.Keeps (.idle s) acts) :
    ∃ serial rest, Serial serial ∧ (∀ a ∈ rest, ∃ i r, a = .look i r) ∧
      run P.step (.idle s) serial = .idle (run P.step (.idle s) acts).store ∧
      run P.step (.idle s) (serial ++ rest) = run P.step (.idle s) acts ∧
      (trace P.step (.idle s) acts).Perm (trace P.step (.idle s) (serial ++ rest)) ∧
      (trace P.step (.idle s) acts).filter (fun x => x.2.isEnd) =
        (trace P.step (.idle s) (serial ++ rest)).filter fun x => x.2.isEnd := by
  obtain ⟨serial, os, h⟩ := exists_serialOrder hpossible hkeeps
  obtain ⟨hrun, htrace⟩ := h.all
    (run_invariant_along (Seen P) (fun _ _ h hk => h.step hk) (seen_idle P s) hkeeps)
  refine ⟨serial, os.map opening, h.whole, ?_, h.run_eq, hrun, ?_, ?_⟩
  · intro a ha
    obtain ⟨o, -, rfl⟩ := List.mem_map.mp ha
    exact ⟨_, _, rfl⟩
  · rw [htrace]
    exact h.perm
  · have hnone : (os.map opened).filter
        (fun x : Phase ι ρ φ × Came α β δ => x.2.isEnd) = [] := by
      apply List.filter_eq_nil_iff.mpr
      intro x hx
      obtain ⟨o, -, rfl⟩ := List.mem_map.mp hx
      exact Bool.false_ne_true
    rw [htrace, List.filter_append, hnone, List.append_nil]
    exact h.ends

end TwoPhase

end Delivery
