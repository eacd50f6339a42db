import Mathlib.Data.List.Basic

/-!
# Runs

A component that takes one event after another is a step function: from a state and an
event to the state after it and what came out.  `run` is the state after a run of
events and `outputs` what came out of it, step by step.

`Along P` says that `P` held of each step of a run, in the state the step was taken
from.  The rules below are the inductions over runs, each stated once.
-/

namespace Delivery

variable {σ ε ο : Type*} (step : σ → ε → σ × ο)

/-- The state after a run of events. -/
def run : σ → List ε → σ
  | s, [] => s
  | s, e :: es => run (step s e).1 es

/-- What came out of a run, one output for each event. -/
def outputs : σ → List ε → List ο
  | _, [] => []
  | s, e :: es => (step s e).2 :: outputs (step s e).1 es

/-- `P` held of each step of the run, in the state it was taken from. -/
def Along (P : σ → ε → Prop) : σ → List ε → Prop
  | _, [] => True
  | s, e :: es => P s e ∧ Along P (step s e).1 es

@[simp] theorem run_nil (s : σ) : run step s [] = s := rfl

@[simp] theorem run_cons (s : σ) (e : ε) (es : List ε) :
    run step s (e :: es) = run step (step s e).1 es := rfl

@[simp] theorem outputs_nil (s : σ) : outputs step s [] = [] := rfl

@[simp] theorem outputs_cons (s : σ) (e : ε) (es : List ε) :
    outputs step s (e :: es) = (step s e).2 :: outputs step (step s e).1 es := rfl

/-- A run continued goes on from the state it reached. -/
theorem run_append (s : σ) (es fs : List ε) :
    run step s (es ++ fs) = run step (run step s es) fs := by
  induction es generalizing s with
  | nil => rfl
  | cons e es ih => exact ih _

/-- What comes out of a run continued. -/
theorem outputs_append (s : σ) (es fs : List ε) :
    outputs step s (es ++ fs) = outputs step s es ++ outputs step (run step s es) fs := by
  induction es generalizing s with
  | nil => rfl
  | cons e es ih => simp only [List.cons_append, outputs_cons, run_cons, ih]

/-- Every event of a run has one output. -/
theorem length_outputs (s : σ) (es : List ε) : (outputs step s es).length = es.length := by
  induction es generalizing s with
  | nil => rfl
  | cons e es ih => exact congrArg Nat.succ (ih _)

/-- What holds along a run continued holds along both parts. -/
theorem along_append {P : σ → ε → Prop} (s : σ) (es fs : List ε) :
    Along step P s (es ++ fs) ↔ Along step P s es ∧ Along step P (run step s es) fs := by
  induction es generalizing s with
  | nil => simp [Along]
  | cons e es ih => simp [Along, ih, and_assoc]

variable {step}

/-- What each step keeps, a run keeps. -/
theorem run_invariant (Inv : σ → Prop) (hstep : ∀ s e, Inv s → Inv (step s e).1) {s : σ}
    (hs : Inv s) (es : List ε) : Inv (run step s es) := by
  induction es generalizing s with
  | nil => exact hs
  | cons e es ih => exact ih (hstep s e hs)

/-- What each step keeps where `C` holds of it, a run keeps along which `C` holds. -/
theorem run_invariant_along (Inv : σ → Prop) {C : σ → ε → Prop}
    (hstep : ∀ s e, Inv s → C s e → Inv (step s e).1) {s : σ} (hs : Inv s) {es : List ε}
    (hC : Along step C s es) : Inv (run step s es) := by
  induction es generalizing s with
  | nil => exact hs
  | cons e es ih => exact ih (hstep s e hs hC.1) hC.2

/-- What holds of every step from a state the invariant holds of holds along a run. -/
theorem along_of_invariant (Inv : σ → Prop) {C P : σ → ε → Prop}
    (hstep : ∀ s e, Inv s → C s e → P s e ∧ Inv (step s e).1) {s : σ} (hs : Inv s)
    {es : List ε} (hC : Along step C s es) : Along step P s es := by
  induction es generalizing s with
  | nil => trivial
  | cons e es ih =>
    obtain ⟨hP, hInv⟩ := hstep s e hs hC.1
    exact ⟨hP, ih hInv hC.2⟩

/-- Two conditions on steps that agree under the invariant, and under which a step keeps
it, hold along the same runs, among those along which `Q` holds. -/
theorem along_iff (Inv : σ → Prop) {P C Q : σ → ε → Prop}
    (hiff : ∀ s e, Inv s → Q s e → (P s e ↔ C s e))
    (hstep : ∀ s e, Inv s → Q s e → C s e → Inv (step s e).1) {s : σ} (hs : Inv s)
    {es : List ε} (hQ : Along step Q s es) : Along step P s es ↔ Along step C s es := by
  induction es generalizing s with
  | nil => exact Iff.rfl
  | cons e es ih =>
    constructor
    · rintro ⟨hP, hrest⟩
      have hC := (hiff s e hs hQ.1).mp hP
      exact ⟨hC, (ih (hstep s e hs hQ.1 hC) hQ.2).mp hrest⟩
    · rintro ⟨hC, hrest⟩
      exact ⟨(hiff s e hs hQ.1).mpr hC, (ih (hstep s e hs hQ.1 hC) hQ.2).mpr hrest⟩

/-- What a step leaves true and some steps bring about holds after a run where it held before
it, or some step of it brought it about. -/
theorem run_iff_exists {P : σ → Prop} {Q : ε → Prop} {s : σ} {es : List ε}
    (h : Along step (fun s e => P (step s e).1 ↔ P s ∨ Q e) s es) :
    P (run step s es) ↔ P s ∨ ∃ e ∈ es, Q e := by
  induction es generalizing s with
  | nil => simp
  | cons e es ih =>
    obtain ⟨hstep, hrest⟩ := h
    rw [run_cons, ih hrest, hstep, List.exists_mem_cons_iff, or_assoc]

/-- What each step takes in, keeps and gives out balances over a run: it took in as much as it
gave out and keeps more than before. -/
theorem run_balance (kept : σ → ℕ) (isIn : ε → Bool) (isOut : ο → Bool)
    (hstep : ∀ s e, kept s + (isIn e).toNat = kept (step s e).1 + (isOut (step s e).2).toNat)
    (s : σ) (es : List ε) :
    kept s + es.countP isIn = kept (run step s es) + (outputs step s es).countP isOut := by
  induction es generalizing s with
  | nil => rfl
  | cons e es ih =>
    have hhead := hstep s e
    have hrest := ih (step s e).1
    rw [run_cons, outputs_cons, List.countP_cons, List.countP_cons]
    cases hin : isIn e <;> cases hout : isOut (step s e).2 <;>
      simp only [hin, hout, Bool.toNat_false, Bool.toNat_true, if_true, Bool.false_eq_true,
        if_false] at hhead ⊢ <;> omega

/-- What each step only adds to, a run only adds to. -/
theorem run_subset {β : Type*} {f : σ → List β} (hgrow : ∀ s e, f s ⊆ f (step s e).1) (s : σ)
    (es : List ε) : f s ⊆ f (run step s es) := by
  induction es generalizing s with
  | nil => exact List.Subset.refl _
  | cons e es ih => exact List.Subset.trans (hgrow s e) (ih _)

/-- What only grows is after each step still within what it is at the end of the run. -/
theorem along_subset {β : Type*} {f : σ → List β} (hgrow : ∀ s e, f s ⊆ f (step s e).1) (s : σ)
    (es : List ε) : Along step (fun s' e => f (step s' e).1 ⊆ f (run step s es)) s es := by
  induction es generalizing s with
  | nil => trivial
  | cons e es ih => exact ⟨run_subset hgrow _ es, ih _⟩

/-- What holds of every event holds of every step. -/
theorem along_of_forall {P : ε → Prop} {s : σ} {es : List ε} (h : ∀ e ∈ es, P e) :
    Along step (fun _ e => P e) s es := by
  induction es generalizing s with
  | nil => trivial
  | cons e es ih =>
    exact ⟨h e (List.mem_cons_self ..), ih fun e' he' => h e' (List.mem_cons_of_mem e he')⟩

/-- Two conditions that hold along a run hold together. -/
theorem Along.and {P Q : σ → ε → Prop} {s : σ} {es : List ε} (hP : Along step P s es)
    (hQ : Along step Q s es) : Along step (fun s e => P s e ∧ Q s e) s es := by
  induction es generalizing s with
  | nil => trivial
  | cons e es ih => exact ⟨⟨hP.1, hQ.1⟩, ih hP.2 hQ.2⟩

/-- What follows from a condition that holds along a run holds along it. -/
theorem Along.mono {P Q : σ → ε → Prop} {s : σ} {es : List ε} (hP : Along step P s es)
    (h : ∀ s e, P s e → Q s e) : Along step Q s es := by
  induction es generalizing s with
  | nil => trivial
  | cons e es ih => exact ⟨h s e hP.1, ih hP.2⟩

/-- Conditions each of which holds along a run hold together. -/
theorem Along.all {κ : Type*} {P : κ → σ → ε → Prop} {s : σ} {es : List ε}
    (h : ∀ k, Along step (P k) s es) : Along step (fun s e => ∀ k, P k s e) s es := by
  induction es generalizing s with
  | nil => trivial
  | cons e es ih => exact ⟨fun k => (h k).1, ih fun k => (h k).2⟩

/-- A condition that holds along a run holds of its last step. -/
theorem Along.last {P : σ → ε → Prop} {s : σ} {es : List ε} {e : ε}
    (h : Along step P s (es ++ [e])) : P (run step s es) e :=
  ((along_append step s es [e]).mp h).2.1

/-! ## Two components in step -/

section Lockstep

variable {τ π : Type*} {step' : τ → ε → τ × π}

/-- Two components that take the same events and are related before each step and after it
are related after a run, and what comes out of them is related event by event. -/
theorem lockstep {R : σ → τ → Prop} {O : ε → ο → π → Prop} {C : ε → Prop}
    (hstep : ∀ s t e, R s t → C e →
      R (step s e).1 (step' t e).1 ∧ O e (step s e).2 (step' t e).2)
    {s : σ} {t : τ} (hst : R s t) {es : List ε} (hes : ∀ e ∈ es, C e) :
    R (run step s es) (run step' t es) ∧
      List.Forall₂ (fun e out => O e out.1 out.2) es
        ((outputs step s es).zip (outputs step' t es)) := by
  induction es generalizing s t with
  | nil => exact ⟨hst, .nil⟩
  | cons e es ih =>
    obtain ⟨hnext, hout⟩ := hstep s t e hst (hes e (List.mem_cons_self ..))
    obtain ⟨hrun, houts⟩ := ih hnext fun e' he' => hes e' (List.mem_cons_of_mem e he')
    exact ⟨hrun, .cons hout houts⟩

end Lockstep

end Delivery
