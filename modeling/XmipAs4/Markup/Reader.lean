import XmipAs4.Markup.Scanner

/-!
# Reading trees

What a reader that holds the whole tree takes from it by the local part of names: the
character data of the first element of a name, what stands inside it, an attribute of it, and
the named values of all elements of a name.  On the text of a forest a lawful flat scan gives
the same, wherever the elements it is asked for are such as it promises to read.
-/

namespace Markup

/-! ## What is taken from a tree -/

/-- None of the tag's attributes is prefixed. -/
def Tag.isUnprefixed (t : Tag) : Bool :=
  t.attrs.all fun a => !a.1.toList.contains ':'

/-- The element holds character data alone. -/
def Elem.isText (e : Elem) : Bool :=
  e.inner.any fun inner => inner.plain?.isSome

/-- The element did not close itself, and none of its own name stands in it. -/
def Elem.isOpen (e : Elem) : Bool :=
  e.inner.any fun inner => (inner.find e.tag.name).isNone

/-- The element's value under the attribute can be read: it closed itself, or holds character
data alone, or is not asked for and holds none of its own name. -/
def Elem.isValue (a : String) (e : Elem) : Bool :=
  e.tag.isUnprefixed && e.inner.all fun inner => inner.plain?.isSome ||
    ((inner.find e.tag.name).isNone && (e.tag.attrs.lookup a).isNone)

/-- The value of the element under the name the attribute gives it, where there is one. -/
def Elem.value (a : String) (e : Elem) : Option (String × String) :=
  e.inner.bind fun inner =>
    (e.tag.attrs.lookup a).map fun name => (name, inner.plain?.getD "")

namespace Forest

/-- The character data of the first element of the name. -/
def textOf (n : String) (f : Forest) : Option String :=
  (f.find n).bind fun e => e.inner.bind plain?

/-- What stands inside the first element of the name. -/
def inside (n : String) (f : Forest) : Option Forest :=
  (f.find n).bind Elem.inner

/-- The attribute of the first element of the name. -/
def attributeOf (n a : String) (f : Forest) : Option String :=
  (f.find n).bind fun e => e.tag.attrs.lookup a

/-- The values of all elements of the name, each under the name the attribute gives it. -/
def valuesOf (n a : String) (f : Forest) : List (String × String) :=
  (f.all n).filterMap (Elem.value a)

/-- The first element of the name can be read for its character data. -/
def readsText (n : String) (f : Forest) : Bool :=
  (f.find n).all Elem.isText

/-- The first element of the name can be read for what stands inside it. -/
def readsInside (n : String) (f : Forest) : Bool :=
  (f.find n).all Elem.isOpen

/-- The first element of the name can be read for its attributes. -/
def readsAttributes (n : String) (f : Forest) : Bool :=
  (f.find n).all fun e => e.tag.isUnprefixed

/-- All elements of the name can be read for their values. -/
def readsValues (n a : String) (f : Forest) : Bool :=
  (f.all n).all (Elem.isValue a)

/-! ## Elements of a well-formed forest -/

/-- An element of the name is found where there is one among all. -/
theorem mem_all_of_find {n : String} {f : Forest} {e : Elem} (h : f.find n = some e) :
    e ∈ f.all n := by
  rw [find_eq_head?] at h
  exact List.mem_of_head? h

/-- What stands in an element of a well-formed forest is well formed, and the element has the
name it was found by. -/
theorem wf_of_mem_all {n : String} {f : Forest} (hf : f.wf = true) {e : Elem}
    (he : e ∈ f.all n) : e.tag.name = n ∧ ∀ inner, e.inner = some inner → inner.wf = true := by
  induction f with
  | nil => exact absurd he List.not_mem_nil
  | text s r ih => exact ih hf he
  | decl s r ih =>
    rw [wf, Bool.and_eq_true] at hf
    exact ih hf.2 he
  | void t r ih =>
    rw [wf, Bool.and_eq_true] at hf
    rcases List.mem_append.mp he with he | he
    · split_ifs at he with hname
      · rw [List.mem_singleton] at he
        subst he
        exact ⟨hname, fun inner h => by cases h⟩
      · exact absurd he List.not_mem_nil
    · exact ih hf.2 he
  | elem t i r ihi ihr =>
    rw [wf, Bool.and_eq_true, Bool.and_eq_true] at hf
    rcases List.mem_append.mp he with he | he
    · split_ifs at he with hname
      · rw [List.mem_singleton] at he
        subst he
        refine ⟨hname, fun inner h => ?_⟩
        cases h
        exact hf.1.2
      · exact absurd he List.not_mem_nil
    · rcases List.mem_append.mp he with he | he
      · exact ihi hf.1.2 he
      · exact ihr hf.2 he

/-- What stands inside an element of a well-formed forest is well formed. -/
theorem wf_inside {n : String} {f : Forest} (hf : f.wf = true) {inner : Forest}
    (h : f.inside n = some inner) : inner.wf = true := by
  obtain ⟨e, he, hinner⟩ := Option.bind_eq_some_iff.mp h
  exact (wf_of_mem_all hf (mem_all_of_find he)).2 inner hinner

/-- In character data alone there is no element. -/
theorem all_of_plain {f : Forest} {s : String} (h : f.plain? = some s) (n : String) :
    f.all n = [] := by
  cases f with
  | nil => rfl
  | text s r =>
    cases r with
    | nil => rfl
    | text _ _ => cases h
    | elem _ _ _ => cases h
    | void _ _ => cases h
    | decl _ _ => cases h
  | elem _ _ _ => cases h
  | void _ _ => cases h
  | decl _ _ => cases h

/-- In character data alone nothing is found. -/
theorem find_of_plain {f : Forest} {s : String} (h : f.plain? = some s) (n : String) :
    f.find n = none :=
  all_eq_nil_iff.mp (all_of_plain h n)

end Forest

/-- A tag whose attributes have no colon has none that is prefixed. -/
theorem Tag.unprefixed_of_isUnprefixed {t : Tag} (h : t.isUnprefixed = true) : t.Unprefixed := by
  intro a ha
  simpa using List.all_eq_true.mp h a ha

/-! ## What a lawful scan reads -/

namespace Scanner.Lawful

open Forest

variable {ε : Type} {X : Scanner ε} (hX : X.Lawful) {f : Forest} (hf : f.wf = true) {n : String}
include hX hf

/-- The character data read is the tree's. -/
theorem text_eq (h : f.readsText n = true) :
    X.text (f.render X.escape) n = .ok (f.textOf n) := by
  cases hfind : f.find n with
  | none =>
    rw [hX.text_none f n hf hfind, textOf, hfind]
    rfl
  | some e =>
    rw [readsText, hfind, Option.all_some] at h
    obtain ⟨tag, inner⟩ := e
    cases inner with
    | none => cases h
    | some inner =>
      obtain ⟨s, hs⟩ := Option.isSome_iff_exists.mp h
      rw [hX.text_some f n tag inner s hf hfind hs, textOf, hfind]
      exact congrArg Except.ok hs.symm

/-- What is read inside an element is the text of what stands there in the tree. -/
theorem content_eq (h : f.readsInside n = true) :
    X.content (f.render X.escape) n = (f.inside n).map fun g => g.render X.escape := by
  cases hfind : f.find n with
  | none =>
    rw [hX.content_none f n hf hfind, inside, hfind]
    rfl
  | some e =>
    rw [readsInside, hfind, Option.all_some] at h
    have hname := name_of_find hfind
    obtain ⟨tag, inner⟩ := e
    cases inner with
    | none => cases h
    | some inner =>
      have hnone : inner.find n = none := by
        rw [← hname]
        exact Option.isNone_iff_eq_none.mp h
      rw [hX.content_some f n tag inner hf hfind hnone, inside, hfind]
      rfl

/-- The attribute read is the tree's. -/
theorem attribute_eq (h : f.readsAttributes n = true) (a : String) :
    X.attributeOf (f.render X.escape) n a = .ok (f.attributeOf n a) := by
  cases hfind : f.find n with
  | none =>
    rw [hX.attribute_none f n a hf hfind, Forest.attributeOf, hfind]
    rfl
  | some e =>
    rw [readsAttributes, hfind, Option.all_some] at h
    rw [hX.attribute_some f n e a hf hfind (Tag.unprefixed_of_isUnprefixed h),
      Forest.attributeOf, hfind]
    rfl

/-- The handles read are on the tree's elements. -/
theorem elements_eq {a : String} (h : f.readsValues n a = true) :
    List.Forall₂ Handle.Matches (X.elements (f.render X.escape) n) (f.all n) := by
  apply hX.elements_all f n hf
  intro e he inner hinner
  have hvalue := List.all_eq_true.mp h e he
  rw [Elem.isValue, hinner, Option.all_some, Bool.and_eq_true, Bool.or_eq_true] at hvalue
  rcases hvalue.2 with hplain | hnone
  · obtain ⟨s, hs⟩ := Option.isSome_iff_exists.mp hplain
    exact find_of_plain hs n
  · rw [Bool.and_eq_true, (wf_of_mem_all hf he).1] at hnone
    exact Option.isNone_iff_eq_none.mp hnone.1

end Scanner.Lawful

end Markup
