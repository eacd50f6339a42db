import XmipAs4.Markup.Reader

/-!
# Layout

Two writers of one document choose their own prefixes, declare their namespaces where they
like, and put what text they like between elements.  `core` takes all that away: what is left
is the elements by their local names, their attributes without a prefix and the character data
of those that hold nothing else.  A reader of trees takes the same from a forest as from its
core.
-/

namespace Markup

/-- The attribute is prefixed, or declares a namespace. -/
def isQualified (name : String) : Bool :=
  name == "xmlns" || name.toList.contains ':'

/-- The tag without its prefix, the namespaces it declares and its attributes of others. -/
def Tag.core (t : Tag) : Tag :=
  ⟨"", t.name, t.attrs.filter fun a => !isQualified a.1⟩

/-- An attribute without a prefix is the same in the core. -/
theorem Tag.lookup_core (t : Tag) {a : String} (ha : isQualified a = false) :
    t.core.attrs.lookup a = t.attrs.lookup a := by
  obtain ⟨space, name, attrs⟩ := t
  unfold Tag.core
  simp only
  induction attrs with
  | nil => rfl
  | cons b attrs ih =>
    obtain ⟨k, v⟩ := b
    by_cases hk : isQualified k = true
    · have hne : (a == k) = false := by
        rw [beq_eq_false_iff_ne]
        rintro rfl
        rw [ha] at hk
        cases hk
      rw [List.filter_cons_of_neg (by simp [hk]), List.lookup_cons, hne, ih]
    · rw [List.filter_cons_of_pos (by simp [hk]), List.lookup_cons, List.lookup_cons, ih]

namespace Forest

/-- The elements of the forest, each with its core inside, and nothing between them. -/
def elems : Forest → Forest
  | nil => nil
  | text _ r => r.elems
  | elem t i r =>
    elem t.core (match i.plain? with | some s => text s nil | none => i.elems) r.elems
  | void t r => void t.core r.elems
  | decl _ r => r.elems

/-- The forest without its layout: character data where it is nothing else, and its elements
where it is not. -/
def core (f : Forest) : Forest :=
  match f.plain? with
  | some s => text s nil
  | none => f.elems

end Forest

/-- The element without its layout. -/
def Elem.core (e : Elem) : Elem :=
  ⟨e.tag.core, e.inner.map Forest.core⟩

namespace Forest

/-- The elements of a name are the same in the core. -/
theorem all_elems (n : String) (f : Forest) : f.elems.all n = (f.all n).map Elem.core := by
  have hcore : ∀ i : Forest, i.elems.all n = (i.all n).map Elem.core →
      i.core.all n = (i.all n).map Elem.core := by
    intro i hi
    unfold core
    cases hplain : i.plain? with
    | none => exact hi
    | some s =>
      rw [all_of_plain hplain]
      rfl
  induction f with
  | nil => rfl
  | text s r ih => exact ih
  | decl s r ih => exact ih
  | void t r ih =>
    change (if t.name = n then [_] else []) ++ r.elems.all n = _
    rw [ih, all, List.map_append]
    split_ifs <;> rfl
  | elem t i r ihi ihr =>
    change (if t.name = n then [_] else []) ++ (i.core.all n ++ r.elems.all n) = _
    rw [hcore i ihi, ihr, all, List.map_append, List.map_append]
    split_ifs <;> rfl

/-- The elements of a name are the same without the layout. -/
theorem all_core (n : String) (f : Forest) : f.core.all n = (f.all n).map Elem.core := by
  unfold core
  cases hplain : f.plain? with
  | none => exact all_elems n f
  | some s =>
    rw [all_of_plain hplain]
    rfl

/-- The first element of a name is the same without the layout. -/
theorem find_core (n : String) (f : Forest) : f.core.find n = (f.find n).map Elem.core := by
  rw [find_eq_head?, find_eq_head?, all_core, List.head?_map]

/-- Character data is the same without the layout. -/
theorem plain?_core {f : Forest} {s : String} (h : f.plain? = some s) :
    f.core.plain? = some s := by
  rw [core, h]
  rfl

/-- What stands inside an element is the same without the layout. -/
theorem inside_core (n : String) (f : Forest) : f.core.inside n = (f.inside n).map core := by
  rw [inside, inside, find_core]
  cases f.find n <;> rfl

/-- Attributes are the same without the layout. -/
theorem attributeOf_core (n : String) {a : String} (ha : isQualified a = false) (f : Forest) :
    f.core.attributeOf n a = f.attributeOf n a := by
  rw [attributeOf, attributeOf, find_core]
  cases f.find n with
  | none => rfl
  | some e => exact e.tag.lookup_core ha

/-- Character data that can be read is the same without the layout. -/
theorem textOf_core {n : String} {f : Forest} (h : f.readsText n = true) :
    f.core.textOf n = f.textOf n := by
  rw [textOf, textOf, find_core]
  rw [readsText] at h
  cases hfind : f.find n with
  | none => rfl
  | some e =>
    rw [hfind, Option.all_some] at h
    obtain ⟨tag, inner⟩ := e
    cases inner with
    | none => rfl
    | some inner =>
      obtain ⟨s, hs⟩ := Option.isSome_iff_exists.mp h
      exact (plain?_core hs).trans hs.symm

/-- Values that can be read are the same without the layout. -/
theorem valuesOf_core {n a : String} (ha : isQualified a = false) {f : Forest}
    (h : f.readsValues n a = true) : f.core.valuesOf n a = f.valuesOf n a := by
  rw [valuesOf, valuesOf, all_core, List.filterMap_map]
  apply List.filterMap_congr
  intro e he
  have hvalue := List.all_eq_true.mp h e he
  obtain ⟨tag, inner⟩ := e
  cases inner with
  | none => rfl
  | some inner =>
    change (tag.core.attrs.lookup a).map _ = (tag.attrs.lookup a).map _
    rw [tag.lookup_core ha]
    rw [Elem.isValue, Option.all_some, Bool.and_eq_true, Bool.or_eq_true] at hvalue
    rcases hvalue.2 with hplain | hnone
    · obtain ⟨s, hs⟩ := Option.isSome_iff_exists.mp hplain
      rw [plain?_core hs, hs]
    · rw [Bool.and_eq_true] at hnone
      rw [Option.isNone_iff_eq_none.mp hnone.2]
      rfl

end Forest

end Markup
