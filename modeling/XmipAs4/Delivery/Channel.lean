import Mathlib.Data.Multiset.Count
import Mathlib.Data.Multiset.UnionInter
import Mathlib.Data.Set.Insert
import XmipAs4.Delivery.Refinement

/-!
# A confirmed channel

What a reliable exchange is for.  Contents are sent under keys; what was sent may be delivered,
under one key once; and a sending may be confirmed to its sender once its key was delivered.
Everything else that happens, happens to none of these.

Where all that is sent under one key is one content, a sending that was confirmed was delivered
exactly once.
-/

namespace Delivery

open Relation (ReflTransGen)

variable {κ μ : Type*}

/-- The contents sent, delivered and confirmed, each under its key. -/
@[ext] structure Channel (κ μ : Type*) where
  sent : Set (κ × μ)
  delivered : Multiset (κ × μ)
  confirmed : Set (κ × μ)

namespace Channel

/-- The channel before anything was sent. -/
def empty : Channel κ μ := ⟨∅, 0, ∅⟩

/-- What may happen on the channel. -/
inductive Next (c : Channel κ μ) : Channel κ μ → Prop where
  /-- A content is sent under a key. -/
  | send (x : κ × μ) : Next c { c with sent := insert x c.sent }
  /-- What was sent is delivered, under a key nothing was delivered under. -/
  | deliver {x : κ × μ} (hsent : x ∈ c.sent) (hnew : x.1 ∉ c.delivered.map Prod.fst) :
      Next c { c with delivered := x ::ₘ c.delivered }
  /-- A sending is confirmed, something having been delivered under its key. -/
  | confirm {x : κ × μ} (hsent : x ∈ c.sent) (hdelivered : x.1 ∈ c.delivered.map Prod.fst) :
      Next c { c with confirmed := insert x c.confirmed }

/-- What every channel keeps that began with nothing sent. -/
structure Kept (c : Channel κ μ) : Prop where
  /-- Only what was sent is delivered. -/
  sent : ∀ x ∈ c.delivered, x ∈ c.sent
  /-- Under one key there is one delivery. -/
  once : (c.delivered.map Prod.fst).Nodup
  /-- Only what was sent is confirmed, and not before its key was delivered. -/
  confirmed : ∀ x ∈ c.confirmed, x ∈ c.sent ∧ x.1 ∈ c.delivered.map Prod.fst

/-- A channel on which nothing was sent keeps this. -/
theorem kept_empty : Kept (empty : Channel κ μ) where
  sent := by
    intro x hx
    exact absurd hx (Multiset.notMem_zero x)
  once := Multiset.nodup_zero
  confirmed := by
    intro x hx
    exact absurd hx (Set.notMem_empty x)

/-- Whatever happens on a channel keeps this. -/
theorem Kept.next {c c' : Channel κ μ} (hc : Kept c) (h : Next c c') : Kept c' := by
  cases h with
  | send x =>
    refine ⟨fun y hy => Set.mem_insert_of_mem x (hc.sent y hy), hc.once, fun y hy => ?_⟩
    exact ⟨Set.mem_insert_of_mem x (hc.confirmed y hy).1, (hc.confirmed y hy).2⟩
  | @deliver x hsent hnew =>
    refine ⟨?_, ?_, ?_⟩
    · intro y hy
      rcases Multiset.mem_cons.mp hy with rfl | hy
      · exact hsent
      · exact hc.sent y hy
    · rw [Multiset.map_cons, Multiset.nodup_cons]
      exact ⟨hnew, hc.once⟩
    · intro y hy
      rw [Multiset.map_cons]
      exact ⟨(hc.confirmed y hy).1, Multiset.mem_cons_of_mem (hc.confirmed y hy).2⟩
  | @confirm x hsent hdelivered =>
    refine ⟨hc.sent, hc.once, ?_⟩
    intro y hy
    rcases Set.mem_insert_iff.mp hy with rfl | hy
    · exact ⟨hsent, hdelivered⟩
    · exact hc.confirmed y hy

/-- Every channel that began with nothing sent keeps this. -/
theorem kept_of_reaches {c : Channel κ μ} (h : ReflTransGen Next empty c) : Kept c :=
  reaches_invariant (fun _ _ hc hnext => hc.next hnext) kept_empty h

/-- Whatever is sent under one key is one content. -/
def OneContent (c : Channel κ μ) : Prop :=
  ∀ x ∈ c.sent, ∀ y ∈ c.sent, x.1 = y.1 → x = y

/-- Where whatever is sent under one key is one content, what was confirmed was delivered. -/
theorem Kept.mem_delivered {c : Channel κ μ} (hc : Kept c) (hone : c.OneContent) {x : κ × μ}
    (hx : x ∈ c.confirmed) : x ∈ c.delivered := by
  obtain ⟨hsent, hdelivered⟩ := hc.confirmed x hx
  obtain ⟨y, hy, hkey⟩ := Multiset.mem_map.mp hdelivered
  rwa [hone x hsent y (hc.sent y hy) hkey.symm]

/-- Where whatever is sent under one key is one content, what was confirmed was delivered
exactly once. -/
theorem Kept.count_eq_one [DecidableEq κ] [DecidableEq μ] {c : Channel κ μ} (hc : Kept c)
    (hone : c.OneContent) {x : κ × μ} (hx : x ∈ c.confirmed) : c.delivered.count x = 1 :=
  Multiset.count_eq_one_of_mem (Multiset.Nodup.of_map Prod.fst hc.once) (hc.mem_delivered hone hx)

end Channel

end Delivery
