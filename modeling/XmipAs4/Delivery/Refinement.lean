import Mathlib.Data.List.Forall2
import Mathlib.Logic.Relation
import XmipAs4.Delivery.Run

/-!
# Refinement of a transition relation

What a component is for is often said by a transition relation on abstract states.  A
component whose every step is matched by abstract steps, none or several, is matched by them
over a whole run; so whatever abstract steps keep, holds of the abstract states that a run of
the component goes through.
-/

namespace Delivery

open Relation (ReflTransGen)

variable {σ ε ο α : Type*} {step : σ → ε → σ × ο} {next : α → α → Prop}

/-- What each abstract step keeps holds wherever such steps lead. -/
theorem reaches_invariant {Inv : α → Prop} (hnext : ∀ a b, Inv a → next a b → Inv b) {a b : α}
    (ha : Inv a) (h : ReflTransGen next a b) : Inv b := by
  induction h with
  | refl => exact ha
  | tail _ hbc ih => exact hnext _ _ ih hbc

/-- A component whose every step keeps an invariant and is matched by abstract steps, where
`C` holds of it, is matched by them over a run along which `C` holds. -/
theorem run_refines (Inv : σ → Prop) (view : σ → α) {C : σ → ε → Prop}
    (hstep : ∀ s e, Inv s → C s e →
      Inv (step s e).1 ∧ ReflTransGen next (view s) (view (step s e).1))
    {s : σ} (hs : Inv s) {es : List ε} (hC : Along step C s es) :
    ReflTransGen next (view s) (view (run step s es)) := by
  induction es generalizing s with
  | nil => exact .refl
  | cons e es ih =>
    obtain ⟨hInv, hnext⟩ := hstep s e hs hC.1
    exact hnext.trans (ih hInv hC.2)

/-- Two components that take the same events, and of which each step gives the same and keeps
them related where `C` holds of it, give the same over a run along which `C` holds. -/
theorem run_lockstep {τ : Type*} {step' : τ → ε → τ × ο} {R : σ → τ → Prop} {C : σ → ε → Prop}
    (hstep : ∀ s t e, R s t → C s e →
      R (step s e).1 (step' t e).1 ∧ (step s e).2 = (step' t e).2)
    {s : σ} {t : τ} (hst : R s t) {es : List ε} (hC : Along step C s es) :
    R (run step s es) (run step' t es) ∧ outputs step s es = outputs step' t es := by
  induction es generalizing s t with
  | nil => exact ⟨hst, rfl⟩
  | cons e es ih =>
    obtain ⟨hnext, hout⟩ := hstep s t e hst hC.1
    obtain ⟨hrun, houts⟩ := ih hnext hC.2
    exact ⟨hrun, congrArg₂ List.cons hout houts⟩

/-- Two components that take events which are alike, and of which each step keeps them related
and gives what cannot be told apart, are related after the runs, and give what cannot be told
apart, step by step. -/
theorem run_alike {τ ε' ο' ω : Type*} {step' : τ → ε' → τ × ο'} (R : σ → τ → Prop)
    (E : ε → ε' → Prop) (view : ο → ω) (view' : ο' → ω)
    (hstep : ∀ s t e e', R s t → E e e' →
      R (step s e).1 (step' t e').1 ∧ view (step s e).2 = view' (step' t e').2)
    {s : σ} {t : τ} (hst : R s t) {es : List ε} {es' : List ε'} (hes : List.Forall₂ E es es') :
    R (run step s es) (run step' t es') ∧
      (outputs step s es).map view = (outputs step' t es').map view' := by
  induction hes generalizing s t with
  | nil => exact ⟨hst, rfl⟩
  | cons he _ ih =>
    obtain ⟨hnext, hout⟩ := hstep s t _ _ hst he
    obtain ⟨hrun, houts⟩ := ih hnext
    exact ⟨hrun, congrArg₂ List.cons hout houts⟩

/-- Of two components that take the same events, `C` holds along a run of the one that gives
what the other gives, where every step that gives the same had `C` and keeps them related. -/
theorem along_of_outputs {τ : Type*} {step' : τ → ε → τ × ο} {R : σ → τ → Prop}
    {C : σ → ε → Prop} {Q : ε → Prop}
    (hstep : ∀ s t e, R s t → Q e → (step s e).2 = (step' t e).2 →
      C s e ∧ R (step s e).1 (step' t e).1)
    {s : σ} {t : τ} (hst : R s t) {es : List ε} (hQ : ∀ e ∈ es, Q e)
    (houts : outputs step s es = outputs step' t es) : Along step C s es := by
  induction es generalizing s t with
  | nil => trivial
  | cons e es ih =>
    obtain ⟨hout, hrest⟩ := List.cons.inj houts
    obtain ⟨hC, hnext⟩ := hstep s t e hst (hQ e (List.mem_cons_self ..)) hout
    exact ⟨hC, ih hnext (fun e' he' => hQ e' (List.mem_cons_of_mem e he')) hrest⟩

end Delivery
