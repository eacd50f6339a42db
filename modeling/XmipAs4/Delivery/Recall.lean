import Mathlib.Data.Finset.Card
import Mathlib.Data.List.Nodup

/-!
# Bounded recall

A receiver that remembers the last `n` keys it took, the oldest forgotten first and a
key it remembers not moved, has a memory that is a function of the history of what it
took: `window n h`, the last `n` entries of `h`.  `Spaced n h` says of a history that
no entry was taken while it was remembered, which is how such a receiver takes.

The two facts used of it are opposite limits.  Between two takings of one key there
are `n` takings of other keys, all different (`Spaced.between`); and as long as no more
than `n` keys are taken at all, none is forgotten (`mem_remember_of_card_le`).
-/

namespace Delivery

variable {α : Type*}

/-! ## The window -/

/-- The last `n` entries of a history. -/
def window (n : ℕ) (h : List α) : List α :=
  h.drop (h.length - n)

/-- A window has at most `n` entries. -/
theorem length_window_le (n : ℕ) (h : List α) : (window n h).length ≤ n := by
  rw [window, List.length_drop]
  omega

/-- The window has all the history there is, up to `n` entries. -/
theorem length_window (n : ℕ) (h : List α) : (window n h).length = min n h.length := by
  rw [window, List.length_drop]
  omega

/-- The window ends the history. -/
theorem window_suffix (n : ℕ) (h : List α) : window n h <:+ h :=
  List.drop_suffix _ h

/-- A history no longer than the window is the window. -/
theorem window_of_length_le {n : ℕ} {h : List α} (hle : h.length ≤ n) : window n h = h := by
  rw [window, Nat.sub_eq_zero_of_le hle, List.drop_zero]

/-- An entry comes into the window, and the oldest leaves it when it is full. -/
theorem window_append_singleton {n : ℕ} (hn : 0 < n) (h : List α) (x : α) :
    window n (h ++ [x]) =
      (if (window n h).length = n then (window n h).drop 1 else window n h) ++ [x] := by
  have hlen : (h ++ [x]).length = h.length + 1 := by simp
  by_cases hfull : n ≤ h.length
  · have hw : (window n h).length = n := by rw [length_window, min_eq_left hfull]
    rw [if_pos hw, window, window, hlen, List.drop_append_of_le_length (by omega),
      List.drop_drop]
    congr 2
    omega
  · have hw : (window n h).length ≠ n := by
      rw [length_window]
      omega
    rw [if_neg hw, window_of_length_le (by omega), window_of_length_le (by omega)]

/-- A window that does not reach an entry ends what follows that entry. -/
theorem window_append_cons {n : ℕ} {xs ys : List α} {x : α} (h : n ≤ ys.length) :
    window n (xs ++ x :: ys) = window n ys := by
  have hlen : (xs ++ x :: ys).length - n = xs.length + (1 + (ys.length - n)) := by
    simp only [List.length_append, List.length_cons]
    omega
  rw [window, window, hlen, ← List.drop_drop, List.drop_left, ← List.drop_drop]
  rfl

/-- An entry stands in the window exactly where fewer than `n` entries follow its last
occurrence. -/
theorem mem_window_iff {n : ℕ} {h : List α} {x : α} :
    x ∈ window n h ↔ ∃ xs ys, h = xs ++ x :: ys ∧ x ∉ ys ∧ ys.length < n := by
  constructor
  · intro hx
    obtain ⟨pre, hpre⟩ := window_suffix n h
    obtain ⟨as, bs, hrev, hlast⟩ := List.eq_append_cons_of_mem (List.mem_reverse.mpr hx)
    have hw : window n h = bs.reverse ++ x :: as.reverse := by
      simpa using congrArg List.reverse hrev
    have hlen := length_window_le n h
    refine ⟨pre ++ bs.reverse, as.reverse, ?_, by simpa using hlast, ?_⟩
    · rw [← hpre, hw, List.append_assoc]
    · rw [hw] at hlen
      simp only [List.length_append, List.length_cons, List.length_reverse] at hlen ⊢
      omega
  · rintro ⟨xs, ys, rfl, -, hlen⟩
    have hdrop : (xs ++ x :: ys).length - n ≤ xs.length := by
      simp only [List.length_append, List.length_cons]
      omega
    rw [window, List.drop_append_of_le_length hdrop]
    simp

/-! ## Histories -/

/-- No entry of the history was taken while it was remembered. -/
def Spaced (n : ℕ) (h : List α) : Prop :=
  ∀ pre x post, h = pre ++ x :: post → x ∉ window n pre

/-- A history with nothing in it is spaced. -/
theorem spaced_nil (n : ℕ) : Spaced n ([] : List α) := by
  intro pre x post h
  simp at h

/-- A history stays spaced by an entry that was not remembered. -/
theorem Spaced.append_singleton {n : ℕ} {h : List α} (hs : Spaced n h) {x : α}
    (hx : x ∉ window n h) : Spaced n (h ++ [x]) := by
  intro pre y post heq
  rcases List.eq_nil_or_concat post with rfl | ⟨post', z, rfl⟩
  · obtain ⟨rfl, hxy⟩ := List.append_inj' heq rfl
    rw [List.cons.injEq] at hxy
    exact hxy.1 ▸ hx
  · rw [List.concat_eq_append] at heq
    have heq' : h ++ [x] = (pre ++ y :: post') ++ [z] := by simpa using heq
    exact hs pre y post' (List.append_inj' heq' rfl).1

/-- What ends a spaced history is spaced: it remembers no more than the whole does. -/
theorem Spaced.of_append {n : ℕ} {xs ys : List α} (hs : Spaced n (xs ++ ys)) : Spaced n ys := by
  intro pre x post heq hx
  refine hs (xs ++ pre) x post (by rw [heq, List.append_assoc]) ?_
  have hlen : (xs ++ pre).length = xs.length + pre.length := List.length_append
  by_cases hle : n ≤ pre.length
  · have hdrop : xs.length + pre.length - n = xs.length + (pre.length - n) := by omega
    rw [window, hlen, hdrop, ← List.drop_drop, List.drop_left]
    exact hx
  · have hpre : window n pre = pre := window_of_length_le (by omega)
    rw [hpre] at hx
    rw [window, hlen, List.drop_append_of_le_length (by omega)]
    exact List.mem_append_right _ hx

/-- What begins a spaced history is spaced. -/
theorem Spaced.left {n : ℕ} {xs ys : List α} (hs : Spaced n (xs ++ ys)) : Spaced n xs := by
  intro pre x post heq
  exact hs pre x (post ++ ys) (by rw [heq, List.append_assoc, List.cons_append])

/-- A key taken and taken again was forgotten in between: the last `n` takings between
the two are of other keys, no two of them the same. -/
theorem Spaced.between {n : ℕ} {h : List α} (hs : Spaced n h) {xs ys zs : List α} {x : α}
    (heq : h = xs ++ x :: (ys ++ x :: zs)) :
    n ≤ ys.length ∧ x ∉ window n ys := by
  have hx : x ∉ window n (xs ++ x :: ys) := hs (xs ++ x :: ys) x zs (by simpa using heq)
  by_cases hle : n ≤ ys.length
  · exact ⟨hle, window_append_cons hle ▸ hx⟩
  · exfalso
    apply hx
    have hdrop : (xs ++ x :: ys).length - n ≤ xs.length := by
      simp only [List.length_append, List.length_cons]
      omega
    rw [window, List.drop_append_of_le_length hdrop]
    simp

/-- What a spaced history remembers is without repetition. -/
theorem Spaced.nodup_window {n : ℕ} {h : List α} (hs : Spaced n h) : (window n h).Nodup := by
  rw [List.nodup_iff_sublist]
  intro x hsub
  obtain ⟨pre, hpre⟩ := window_suffix n h
  -- Two occurrences in the window are two takings fewer than `n` apart.
  obtain ⟨xs, ys, zs, hw⟩ : ∃ xs ys zs, window n h = xs ++ x :: (ys ++ x :: zs) := by
    obtain ⟨l₁, l₂, hl, h₁, h₂⟩ := List.cons_sublist_iff.mp hsub
    obtain ⟨xs, us, rfl⟩ := List.append_of_mem h₁
    obtain ⟨vs, zs, rfl⟩ := List.append_of_mem (List.singleton_sublist.mp h₂)
    exact ⟨xs, us ++ vs, zs, by simp [hl]⟩
  have heq : h = (pre ++ xs) ++ x :: (ys ++ x :: zs) := by
    rw [← hpre, hw, List.append_assoc]
  have hn := (hs.between heq).1
  have hlen := length_window_le n h
  rw [hw] at hlen
  simp only [List.length_append, List.length_cons] at hlen
  omega

/-- Between two takings of a key there are `n` takings of other keys, no two the same. -/
theorem Spaced.exists_others {n : ℕ} {h : List α} (hs : Spaced n h) {xs ys zs : List α} {x : α}
    (heq : h = xs ++ x :: (ys ++ x :: zs)) :
    ∃ ws, ws <:+ ys ∧ ws.length = n ∧ ws.Nodup ∧ x ∉ ws := by
  obtain ⟨hlen, hx⟩ := hs.between heq
  have hys : Spaced n ys := by
    rw [heq] at hs
    have htail : xs ++ x :: (ys ++ x :: zs) = (xs ++ [x]) ++ (ys ++ x :: zs) := by simp
    rw [htail] at hs
    exact hs.of_append.left
  refine ⟨window n ys, window_suffix n ys, ?_, hys.nodup_window, hx⟩
  rw [length_window, min_eq_left hlen]

/-! ## Remembering -/

variable [DecidableEq α]

/-- The memory after `x` was taken: as it was where `x` is remembered, else with `x`
last and the oldest forgotten where the memory was full. -/
def remember (n : ℕ) (x : α) (l : List α) : List α :=
  if x ∈ l then l else (if l.length = n then l.drop 1 else l) ++ [x]

/-- What was taken is remembered. -/
theorem mem_remember_self (n : ℕ) (x : α) (l : List α) : x ∈ remember n x l := by
  unfold remember
  split_ifs with h
  · exact h
  · simp
  · simp

/-- Nothing else comes to be remembered. -/
theorem mem_of_mem_remember {n : ℕ} {x y : α} {l : List α} (h : y ∈ remember n x l) :
    y ∈ l ∨ y = x := by
  unfold remember at h
  split_ifs at h with hx hlen
  · exact .inl h
  · rcases List.mem_append.mp h with h | h
    · exact .inl (List.mem_of_mem_drop h)
    · exact .inr (List.mem_singleton.mp h)
  · rcases List.mem_append.mp h with h | h
    · exact .inl h
    · exact .inr (List.mem_singleton.mp h)

/-- No key is remembered twice. -/
theorem nodup_remember {n : ℕ} {x : α} {l : List α} (h : l.Nodup) : (remember n x l).Nodup := by
  unfold remember
  split_ifs with hx hlen
  · exact h
  · apply List.Nodup.append (h.sublist (List.drop_sublist 1 l)) (List.nodup_singleton x)
    intro y hy hyx
    rw [List.mem_singleton.mp hyx] at hy
    exact hx (List.mem_of_mem_drop hy)
  · apply List.Nodup.append h (List.nodup_singleton x)
    intro y hy hyx
    rw [List.mem_singleton.mp hyx] at hy
    exact hx hy

/-- Where no more keys than fit are ever taken, none is forgotten. -/
theorem mem_remember_of_card_le {n : ℕ} {x y : α} {l : List α} {keys : Finset α}
    (hcard : keys.card ≤ n) (hnodup : l.Nodup) (hl : ∀ z ∈ l, z ∈ keys) (hx : x ∈ keys)
    (hy : y ∈ l) : y ∈ remember n x l := by
  unfold remember
  split_ifs with hmem hlen
  · exact hy
  · exfalso
    have hsub : insert x l.toFinset ⊆ keys := by
      intro z hz
      rcases Finset.mem_insert.mp hz with rfl | hz
      · exact hx
      · exact hl z (List.mem_toFinset.mp hz)
    have hle := Finset.card_le_card hsub
    rw [Finset.card_insert_of_notMem (by simpa using hmem), List.toFinset_card_of_nodup hnodup]
      at hle
    omega
  · exact List.mem_append_left _ hy

/-- Remembering keeps the memory the window of the history. -/
theorem remember_window {n : ℕ} (hn : 0 < n) {h : List α} {x : α} (hx : x ∉ window n h) :
    remember n x (window n h) = window n (h ++ [x]) := by
  rw [remember, if_neg hx, window_append_singleton hn]

end Delivery
