import Mathlib.Data.List.Perm.Basic
import XmipAs4.Delivery.Refinement

/-!
# Steps that commute

Two events commute in a state where each of them gives the same whether it comes before or
after the other, and both orders lead to states that cannot be told apart.  Exchanging two such
neighbours in a run gives every event of the run what it was given before, and leaves the
component in a state that cannot be told apart from the one it reached.
-/

namespace Delivery

variable {σ ε ο : Type*} (step : σ → ε → σ × ο) (R : σ → σ → Prop)

/-- Two events commute in a state, up to what `R` does not tell apart. -/
structure Commutes (s : σ) (a b : ε) : Prop where
  first : (step s a).2 = (step (step s b).1 a).2
  second : (step (step s a).1 b).2 = (step s b).2
  same : R (step (step s a).1 b).1 (step (step s b).1 a).1

variable {step R}

/-- It does not matter which of the two is named first. -/
theorem Commutes.symm (hR : ∀ s t, R s t → R t s) {s : σ} {a b : ε}
    (h : Commutes step R s a b) : Commutes step R s b a where
  first := h.second.symm
  second := h.first.symm
  same := hR _ _ h.same

/-- States that cannot be told apart are not told apart by a run. -/
theorem run_same
    (hstep : ∀ s t e, R s t → R (step s e).1 (step t e).1 ∧ (step s e).2 = (step t e).2)
    {s t : σ} (hst : R s t) (es : List ε) :
    R (run step s es) (run step t es) ∧ outputs step s es = outputs step t es := by
  refine run_lockstep (C := fun _ _ => True) (fun s t e h _ => hstep s t e h) hst ?_
  exact along_of_forall fun _ _ => trivial

/-- Neighbours that commute may be exchanged: every event is given what it was given before,
and the states reached cannot be told apart. -/
theorem run_exchange
    (hstep : ∀ s t e, R s t → R (step s e).1 (step t e).1 ∧ (step s e).2 = (step t e).2)
    {s : σ} {pre : List ε} {a b : ε} (h : Commutes step R (run step s pre) a b) (post : List ε) :
    R (run step s (pre ++ a :: b :: post)) (run step s (pre ++ b :: a :: post)) ∧
      ((pre ++ a :: b :: post).zip (outputs step s (pre ++ a :: b :: post))).Perm
        ((pre ++ b :: a :: post).zip (outputs step s (pre ++ b :: a :: post))) := by
  obtain ⟨hrun, houts⟩ := run_same hstep h.same post
  have hlength := (length_outputs step s pre).symm
  refine ⟨?_, ?_⟩
  · rw [run_append, run_append]
    exact hrun
  · rw [outputs_append, outputs_append, List.zip_append hlength, List.zip_append hlength]
    simp only [outputs_cons, List.zip_cons_cons]
    rw [houts, h.first, h.second]
    exact (List.Perm.swap _ _ _).append_left _

end Delivery
