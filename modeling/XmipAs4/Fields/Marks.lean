import Mathlib.Data.List.Infix

/-!
# Fields between marks

Texts put one after another with a mark between them, and when they can be told apart
again.  A mark begins with a character that it does not hold a second time, so two marks
never overlap: in one text they begin in one place, or one stands wholly behind the other.

Of three fields behind one another the joined text has one reading exactly where no field
holds a mark that could stand in the place of the one that was written.  The readings in
question are those in which neither the second nor the third field is empty, so a mark at
the very end or the very beginning of such a field does no harm.
-/

namespace Fields

variable {α : Type*} {c : α}

/-! ## Marks -/

/-- The mark begins with the character and does not hold it again. -/
def IsMark (c : α) (m : List α) : Prop :=
  ∃ w, m = c :: w ∧ c ∉ w

/-- A mark is not empty. -/
theorem IsMark.ne_nil {m : List α} (hm : IsMark c m) : m ≠ [] := by
  obtain ⟨w, rfl, -⟩ := hm
  exact List.cons_ne_nil c w

/-- No mark begins within a mark. -/
theorem IsMark.eq_nil_of_split {m m' x y y' z : List α} (hm : IsMark c m) (hm' : IsMark c m')
    (hx : x ≠ []) (hsplit : m = x ++ z) (h : m' ++ y' = z ++ y) : z = [] := by
  obtain ⟨w, rfl, hw⟩ := hm
  obtain ⟨w', rfl, -⟩ := hm'
  cases z with
  | nil => rfl
  | cons d z =>
    cases x with
    | nil => exact absurd rfl hx
    | cons e x =>
      rw [List.cons_append, List.cons.injEq] at hsplit
      rw [List.cons_append, List.cons_append, List.cons.injEq] at h
      refine absurd ?_ hw
      rw [hsplit.2, h.1]
      exact List.mem_append_right x List.mem_cons_self

/-- Of two marks in one text of which the second begins later, the second stands behind the
first. -/
theorem IsMark.behind {m m' x y y' : List α} (hm : IsMark c m) (hm' : IsMark c m') (hx : x ≠ [])
    (h : m ++ y = x ++ (m' ++ y')) : ∃ z, x = m ++ z ∧ y = z ++ (m' ++ y') := by
  rcases List.append_eq_append_iff.mp h with ⟨z, hxz, hy⟩ | ⟨z, hsplit, hrest⟩
  · exact ⟨z, hxz, hy⟩
  · have hz := hm.eq_nil_of_split hm' hx hsplit hrest
    subst hz
    rw [List.append_nil] at hsplit
    refine ⟨[], by rw [hsplit, List.append_nil], ?_⟩
    rw [List.nil_append, hrest, List.nil_append]

/-- Two marks in one text stand one behind the other, or begin in one place. -/
theorem IsMark.apart {m m' x y x' y' : List α} (hm : IsMark c m) (hm' : IsMark c m')
    (h : x ++ (m ++ y) = x' ++ (m' ++ y')) :
    (∃ z, x' = x ++ (m ++ z) ∧ y = z ++ (m' ++ y')) ∨
      (∃ z, x = x' ++ (m' ++ z) ∧ y' = z ++ (m ++ y)) ∨ x = x' ∧ m ++ y = m' ++ y' := by
  rcases List.append_eq_append_iff.mp h with ⟨u, hx, hrest⟩ | ⟨u, hx, hrest⟩
  · by_cases hu : u = []
    · subst hu
      rw [List.append_nil] at hx
      exact .inr (.inr ⟨hx.symm, hrest⟩)
    · obtain ⟨z, rfl, hy⟩ := hm.behind hm' hu hrest
      exact .inl ⟨z, hx, hy⟩
  · by_cases hu : u = []
    · subst hu
      rw [List.append_nil] at hx
      exact .inr (.inr ⟨hx, hrest.symm⟩)
    · obtain ⟨z, rfl, hy⟩ := hm'.behind hm hu hrest
      exact .inr (.inl ⟨z, hx, hy⟩)

/-- A mark stands in a list before its end where it stands in the list without its last
element. -/
theorem infix_dropLast_iff {m xs : List α} (hm : m ≠ []) :
    m <:+: xs.dropLast ↔ ∃ x y, xs = x ++ (m ++ y) ∧ y ≠ [] := by
  constructor
  · rintro ⟨x, y, h⟩
    have hxs : xs ≠ [] := by
      rintro rfl
      simp [hm] at h
    refine ⟨x, y ++ [xs.getLast hxs], ?_, by simp⟩
    rw [← List.append_assoc, ← List.append_assoc, h, List.dropLast_append_getLast]
  · rintro ⟨x, y, rfl, hy⟩
    refine ⟨x, y.dropLast, ?_⟩
    rw [List.dropLast_append_of_ne_nil (by simp [hy]), List.dropLast_append_of_ne_nil hy,
      List.append_assoc]

/-- A mark stands in a list after its beginning where it stands in the list without its first
element. -/
theorem infix_tail_iff {m xs : List α} (hm : m ≠ []) :
    m <:+: xs.tail ↔ ∃ x y, xs = x ++ (m ++ y) ∧ x ≠ [] := by
  constructor
  · rintro ⟨x, y, h⟩
    cases xs with
    | nil => simp [hm] at h
    | cons d xs =>
      refine ⟨d :: x, y, ?_, List.cons_ne_nil d x⟩
      rw [List.cons_append, ← List.append_assoc, h, List.tail_cons]
  · rintro ⟨x, y, rfl, hx⟩
    refine ⟨x.tail, y, ?_⟩
    rw [List.tail_append_of_ne_nil hx, List.append_assoc]

/-! ## Three fields -/

/-- Three fields, the one mark before the second and the other before the third. -/
def joined (a b f g h : List α) : List α :=
  f ++ (a ++ (g ++ (b ++ h)))

/-- No field holds a mark that could stand in the place of one that was written. -/
structure Clear (a b f g h : List α) : Prop where
  first : ¬ a <:+: f
  second : ¬ a <:+: g.dropLast ∧ ¬ b <:+: g.tail
  third : ¬ b <:+: h.dropLast

/-- The joined text has no other reading with a second and a third field. -/
def ReadsOnce (a b f g h : List α) : Prop :=
  ∀ f' g' h', g' ≠ [] → h' ≠ [] → joined a b f' g' h' = joined a b f g h →
    f' = f ∧ g' = g ∧ h' = h

section Readings

variable {a b f g h : List α} (ha : IsMark c a) (hb : IsMark c b)
include ha hb

/-- Clear fields are told apart again, where neither mark may begin as the other does. -/
theorem Clear.readsOnce (hab : ∀ y y', a ++ y ≠ b ++ y') (hclear : Clear a b f g h) :
    ReadsOnce a b f g h := by
  have hthird : ∀ x y, h = x ++ (b ++ y) → y = [] := by
    intro x y hxy
    by_contra hy
    exact hclear.third ((infix_dropLast_iff hb.ne_nil).mpr ⟨x, y, hxy, hy⟩)
  intro f' g' h' hg' hh' hjoined
  rcases ha.apart ha hjoined with ⟨z, hf, hrest⟩ | ⟨z, -, hrest⟩ | ⟨hf, hrest⟩
  · -- The mark that was written stands behind the one that is read, which is in `f`.
    exact absurd ⟨f', z, by rw [hf, List.append_assoc]⟩ hclear.first
  · -- The mark that is read stands behind the one that was written.
    rcases hb.apart ha hrest with ⟨w, -, hh⟩ | ⟨w, hg, hrest⟩ | ⟨-, hmarks⟩
    · exact absurd (hthird (w ++ (a ++ g')) h' (by simp [hh])) hh'
    · by_cases hw : w = []
      · subst hw
        rw [List.nil_append] at hrest
        obtain ⟨v, -, hh⟩ := hb.behind hb hg' hrest.symm
        exact absurd (hthird v h' hh) hh'
      · refine absurd ?_ hclear.second.1
        exact (infix_dropLast_iff ha.ne_nil).mpr ⟨z, w, hg, hw⟩
    · exact absurd hmarks.symm (hab _ _)
  · rcases hb.apart hb (List.append_cancel_left hrest) with ⟨w, hg, -⟩ | ⟨w, -, hh⟩ | ⟨hg, hh⟩
    · refine absurd ?_ hclear.second.2
      exact (infix_tail_iff hb.ne_nil).mpr ⟨g', w, hg, hg'⟩
    · exact absurd (hthird w h' hh) hh'
    · exact ⟨hf, hg, List.append_cancel_left hh⟩

/-- Where a mark stands in a field so that it could be the one that was written, the text has
another reading. -/
theorem ReadsOnce.clear (hh : h ≠ []) (honce : ReadsOnce a b f g h) : Clear a b f g h := by
  have hna := ha.ne_nil
  have hnb := hb.ne_nil
  refine ⟨?_, ⟨?_, ?_⟩, ?_⟩
  · rintro ⟨x, y, rfl⟩
    obtain ⟨-, hg, -⟩ := honce x (y ++ (a ++ g)) h (by simp [hna]) hh (by simp [joined])
    rw [← List.append_assoc, List.append_left_eq_self] at hg
    exact hna (List.append_eq_nil_iff.mp hg).2
  · intro hin
    obtain ⟨x, y, rfl, hy⟩ := (infix_dropLast_iff hna).mp hin
    obtain ⟨-, hg, -⟩ := honce (f ++ (a ++ x)) y h hy hh (by simp [joined])
    rw [← List.append_assoc, List.self_eq_append_left] at hg
    exact hna (List.append_eq_nil_iff.mp hg).2
  · intro hin
    obtain ⟨x, y, rfl, hx⟩ := (infix_tail_iff hnb).mp hin
    obtain ⟨-, hg, -⟩ := honce f x (y ++ (b ++ h)) hx (by simp [hnb]) (by simp [joined])
    rw [List.self_eq_append_right] at hg
    exact hnb (List.append_eq_nil_iff.mp hg).1
  · intro hin
    obtain ⟨x, y, rfl, hy⟩ := (infix_dropLast_iff hnb).mp hin
    obtain ⟨-, -, hh⟩ := honce f (g ++ (b ++ x)) y (by simp [hnb]) hy (by simp [joined])
    rw [← List.append_assoc, List.self_eq_append_left] at hh
    exact hnb (List.append_eq_nil_iff.mp hh).2

/-- The joined text has one reading exactly where its fields are clear. -/
theorem readsOnce_iff (hab : ∀ y y', a ++ y ≠ b ++ y') (hh : h ≠ []) :
    ReadsOnce a b f g h ↔ Clear a b f g h :=
  ⟨ReadsOnce.clear ha hb hh, Clear.readsOnce ha hb hab⟩

end Readings

end Fields
