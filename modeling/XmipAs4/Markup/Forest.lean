import Mathlib.Data.List.Basic

/-!
# Markup forests

A forest is a piece of well-nested markup: character data, elements with what
stands between their tags, self-closed elements and declarations, in document
order.  It is kept in first-child/next-sibling form (`inner` is what an element
holds, `rest` is what follows it), so that every function on it is a plain
structural recursion.

`render` writes a forest as text under an escaping of character data.  `find` and
`all` say what a reader that goes by the local part of names, in document order
and at any depth, is meant to see in it.
-/

namespace Markup

/-! ## Tags -/

/-- A tag: the prefix of its name (empty where it has none), the local part, and
its attributes, name and value, in order. -/
structure Tag where
  space : String
  name : String
  attrs : List (String × String)

/-- The name as the tag writes it, prefix and local part. -/
def Tag.label (t : Tag) : String :=
  if t.space = "" then t.name else t.space ++ ":" ++ t.name

/-- Attributes as a start tag writes them, each value escaped. -/
def attrText (esc : String → String) : List (String × String) → String
  | [] => ""
  | a :: as => " " ++ a.1 ++ "=\"" ++ esc a.2 ++ "\"" ++ attrText esc as

/-- A character that may stand in a name. -/
def nameChar (c : Char) : Bool :=
  !(['<', '>', '&', '"', '\'', '/', '=', '?', '!', ':', ' ', '\t', '\r', '\n'].contains c)

/-- A prefix or a local part: not empty, and no markup or separator in it. -/
def isName (s : String) : Bool :=
  !s.toList.isEmpty && s.toList.all nameChar

/-- An attribute's name, which may be prefixed. -/
def isAttrName (s : String) : Bool :=
  !s.toList.isEmpty && s.toList.all fun c => nameChar c || c == ':'

/-- A tag that XML would accept: its names are names. -/
def Tag.wf (t : Tag) : Bool :=
  isName t.name && (t.space == "" || isName t.space) && t.attrs.all fun a => isAttrName a.1

/-- None of the tag's attributes is prefixed, so an attribute's name is its local name. -/
def Tag.Unprefixed (t : Tag) : Prop :=
  ∀ a ∈ t.attrs, ':' ∉ a.1.toList

/-! ## Forests -/

/-- A piece of well-nested markup, as the first thing in it and the rest. -/
inductive Forest where
  | nil
  | text (s : String) (rest : Forest)
  | elem (tag : Tag) (inner rest : Forest)
  | void (tag : Tag) (rest : Forest)
  | decl (s : String) (rest : Forest)

namespace Forest

/-- One forest after another. -/
def append : Forest → Forest → Forest
  | nil, g => g
  | text s r, g => text s (r.append g)
  | elem t i r, g => elem t i (r.append g)
  | void t r, g => void t (r.append g)
  | decl s r, g => decl s (r.append g)

instance : Append Forest := ⟨append⟩

@[simp] theorem nil_append (g : Forest) : nil ++ g = g := rfl
@[simp] theorem text_append (s : String) (r g : Forest) : text s r ++ g = text s (r ++ g) := rfl
@[simp] theorem elem_append (t : Tag) (i r g : Forest) : elem t i r ++ g = elem t i (r ++ g) := rfl
@[simp] theorem void_append (t : Tag) (r g : Forest) : void t r ++ g = void t (r ++ g) := rfl
@[simp] theorem decl_append (s : String) (r g : Forest) : decl s r ++ g = decl s (r ++ g) := rfl

/-- Nothing after a forest leaves it as it is. -/
@[simp] theorem append_nil (f : Forest) : f ++ nil = f := by
  induction f with
  | nil => rfl
  | text s r ih => rw [text_append, ih]
  | elem t i r _ ih => rw [elem_append, ih]
  | void t r ih => rw [void_append, ih]
  | decl s r ih => rw [decl_append, ih]

/-- A forest as text, character data and attribute values escaped by `esc`. -/
def render (esc : String → String) : Forest → String
  | nil => ""
  | text s r => esc s ++ r.render esc
  | elem t i r =>
    "<" ++ t.label ++ attrText esc t.attrs ++ ">" ++ i.render esc ++ "</" ++ t.label ++ ">" ++
      r.render esc
  | void t r => "<" ++ t.label ++ attrText esc t.attrs ++ "/>" ++ r.render esc
  | decl s r => "<?" ++ s ++ "?>" ++ r.render esc

/-- Rendering goes piece by piece. -/
theorem render_append (esc : String → String) (f g : Forest) :
    (f ++ g).render esc = f.render esc ++ g.render esc := by
  induction f with
  | nil => simp [render]
  | text s r ih => simp [render, ih, String.append_assoc]
  | elem t i r _ ih => simp [render, ih, String.append_assoc]
  | void t r ih => simp [render, ih, String.append_assoc]
  | decl s r ih => simp [render, ih, String.append_assoc]

/-- Every tag of the forest is well formed, and no declaration holds an angle bracket. -/
def wf : Forest → Bool
  | nil => true
  | text _ r => r.wf
  | elem t i r => t.wf && i.wf && r.wf
  | void t r => t.wf && r.wf
  | decl s r => s.toList.all (fun c => c != '<' && c != '>') && r.wf

@[simp] theorem wf_append (f g : Forest) : (f ++ g).wf = (f.wf && g.wf) := by
  induction f with
  | nil => simp [wf]
  | text s r ih => simpa [wf] using ih
  | elem t i r _ ih => simp [wf, ih, Bool.and_assoc]
  | void t r ih => simp [wf, ih, Bool.and_assoc]
  | decl s r ih => simp [wf, ih, Bool.and_assoc]

/-- The text of a forest that is character data alone, or nothing at all. -/
def plain? : Forest → Option String
  | nil => some ""
  | text s nil => some s
  | _ => none

@[simp] theorem plain?_text (s : String) : (text s nil).plain? = some s := rfl

end Forest

/-! ## What a reader by local name sees -/

/-- An element as it is found: its tag, and what it holds unless it closed itself. -/
structure Elem where
  tag : Tag
  inner : Option Forest

namespace Forest

/-- The first element named `n`, in document order and at any depth. -/
def find (n : String) : Forest → Option Elem
  | nil => none
  | text _ r => r.find n
  | elem t i r =>
    if t.name = n then some ⟨t, some i⟩
    else match i.find n with
      | some e => some e
      | none => r.find n
  | void t r => if t.name = n then some ⟨t, none⟩ else r.find n
  | decl _ r => r.find n

/-- Every element named `n`, in document order and at any depth. -/
def all (n : String) : Forest → List Elem
  | nil => []
  | text _ r => r.all n
  | elem t i r => (if t.name = n then [⟨t, some i⟩] else []) ++ (i.all n ++ r.all n)
  | void t r => (if t.name = n then [⟨t, none⟩] else []) ++ r.all n
  | decl _ r => r.all n

@[simp] theorem find_nil (n : String) : nil.find n = none := rfl
@[simp] theorem find_text (n s : String) (r : Forest) : (text s r).find n = r.find n := rfl
@[simp] theorem find_decl (n s : String) (r : Forest) : (decl s r).find n = r.find n := rfl

/-- An element of the name looked for is what is found. -/
theorem find_elem_self {n : String} {t : Tag} (h : t.name = n) (i r : Forest) :
    (elem t i r).find n = some ⟨t, some i⟩ := by
  simp [find, h]

/-- An element of another name is looked into, and then passed over. -/
theorem find_elem_of_ne {n : String} {t : Tag} (h : t.name ≠ n) (i r : Forest) :
    (elem t i r).find n = (i.find n).or (r.find n) := by
  rw [find, if_neg h]
  cases i.find n <;> rfl

/-- A self-closed element of another name is passed over. -/
theorem find_void_of_ne {n : String} {t : Tag} (h : t.name ≠ n) (r : Forest) :
    (void t r).find n = r.find n := by
  simp [find, h]

/-- What one forest does not have is found in the one after it. -/
theorem find_append (n : String) (f g : Forest) :
    (f ++ g).find n = (f.find n).or (g.find n) := by
  induction f with
  | nil => rfl
  | text s r ih => simpa using ih
  | elem t i r _ ih =>
    by_cases h : t.name = n
    · simp [find, h]
    · simp only [elem_append, find_elem_of_ne h, ih]
      cases i.find n <;> rfl
  | void t r ih =>
    by_cases h : t.name = n
    · simp [find, h]
    · simp only [void_append, find_void_of_ne h, ih]
  | decl s r ih => simpa using ih

/-- The element found has the name looked for. -/
theorem name_of_find {n : String} {f : Forest} {e : Elem} (h : f.find n = some e) :
    e.tag.name = n := by
  induction f with
  | nil => simp at h
  | text s r ih => exact ih h
  | elem t i r ihi ihr =>
    by_cases hname : t.name = n
    · rw [find_elem_self hname, Option.some.injEq] at h
      subst h
      exact hname
    · rw [find_elem_of_ne hname] at h
      cases hi : i.find n with
      | some e' =>
        rw [hi, Option.some_or] at h
        exact ihi (hi.trans h)
      | none =>
        rw [hi, Option.none_or] at h
        exact ihr h
  | void t r ih =>
    by_cases hname : t.name = n
    · rw [find, if_pos hname, Option.some.injEq] at h
      subst h
      exact hname
    · rw [find_void_of_ne hname] at h
      exact ih h
  | decl s r ih => exact ih h

/-- The elements of two forests in a row are those of the first and then of the second. -/
theorem all_append (n : String) (f g : Forest) : (f ++ g).all n = f.all n ++ g.all n := by
  induction f with
  | nil => rfl
  | text s r ih => simpa [all] using ih
  | elem t i r _ ih => simp [all, ih]
  | void t r ih => simp [all, ih]
  | decl s r ih => simpa [all] using ih

/-- The element found is the first of all of the name. -/
theorem find_eq_head? (n : String) (f : Forest) : f.find n = (f.all n).head? := by
  induction f with
  | nil => rfl
  | text s r ih => exact ih
  | elem t i r ihi ihr =>
    by_cases h : t.name = n
    · simp [find, all, h]
    · rw [find_elem_of_ne h, ihi, ihr, all, if_neg h, List.nil_append, List.head?_append]
  | void t r ih =>
    by_cases h : t.name = n
    · simp [find, all, h]
    · rw [find_void_of_ne h, ih, all, if_neg h, List.nil_append]
  | decl s r ih => exact ih

/-- There is no element of a name exactly where none is found. -/
theorem all_eq_nil_iff {n : String} {f : Forest} : f.all n = [] ↔ f.find n = none := by
  rw [find_eq_head?, List.head?_eq_none_iff]

end Forest

end Markup
