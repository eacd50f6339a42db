import XmipAs4.Markup.Forest
import Mathlib.Data.List.Forall2

/-!
# Flat scanners

The interface of a reader that scans text for elements by the local part of their
names, in document order and whatever their nesting, together with the escaping
whose writing it reads.  `Scanner.Lawful` says what such a reader promises, on
rendered forests only: what it makes of other text is left open.

The promises are kept to what a scan that never builds a tree can keep.  An element
is read by `content` where no element of its own name stands inside it, by `text`
where it holds character data alone, and what `content` and `text` say of an element
that closed itself is left open.
-/

namespace Markup

/-- One element as `Scanner.elements` hands it out. -/
structure Handle (ε : Type) where
  closedItself : Bool
  attributeOf : String → Except ε (Option String)
  text : Except ε String

/-- A flat scanner and the escaping that goes with it; `ε` is how it refuses. -/
structure Scanner (ε : Type) where
  /-- Character data as it is written. -/
  escape : String → String
  /-- What stands inside the first element of a local name. -/
  content : String → String → Option String
  /-- The character data of the first element of a local name. -/
  text : String → String → Except ε (Option String)
  /-- An attribute of the first element of a local name. -/
  attributeOf : String → String → String → Except ε (Option String)
  /-- Every element of a local name. -/
  elements : String → String → List (Handle ε)

/-- No markup character stands in the text. -/
def isPlain (s : String) : Bool :=
  s.toList.all fun c => !(['<', '>', '&', '"', '\''].contains c)

variable {ε : Type}

/-- A handle tells of an element what the scanner's own functions would. -/
structure Handle.Matches (h : Handle ε) (e : Elem) : Prop where
  closedItself : h.closedItself = e.inner.isNone
  attributeOf : e.tag.Unprefixed → ∀ a, h.attributeOf a = .ok (e.tag.attrs.lookup a)
  text : ∀ inner s, e.inner = some inner → inner.plain? = some s → h.text = .ok s

/-- What a flat scanner promises of the text of a well-formed forest. -/
structure Scanner.Lawful (X : Scanner ε) : Prop where
  escape_append : ∀ a b, X.escape (a ++ b) = X.escape a ++ X.escape b
  escape_plain : ∀ s, isPlain s → X.escape s = s
  content_none : ∀ (f : Forest) n, f.wf → f.find n = none → X.content (f.render X.escape) n = none
  content_some : ∀ (f : Forest) n t inner, f.wf → f.find n = some ⟨t, some inner⟩ →
    inner.find n = none → X.content (f.render X.escape) n = some (inner.render X.escape)
  text_none : ∀ (f : Forest) n, f.wf → f.find n = none → X.text (f.render X.escape) n = .ok none
  text_some : ∀ (f : Forest) n t inner s, f.wf → f.find n = some ⟨t, some inner⟩ →
    inner.plain? = some s → X.text (f.render X.escape) n = .ok (some s)
  attribute_none : ∀ (f : Forest) n a, f.wf → f.find n = none →
    X.attributeOf (f.render X.escape) n a = .ok none
  attribute_some : ∀ (f : Forest) n e a, f.wf → f.find n = some e → e.tag.Unprefixed →
    X.attributeOf (f.render X.escape) n a = .ok (e.tag.attrs.lookup a)
  elements_all : ∀ (f : Forest) n, f.wf →
    (∀ e ∈ f.all n, ∀ inner, e.inner = some inner → inner.find n = none) →
    List.Forall₂ Handle.Matches (X.elements (f.render X.escape) n) (f.all n)

namespace Scanner.Lawful

variable {X : Scanner ε}

/-- Plain text may stand before escaped text under one escaping. -/
theorem escape_plain_append (hX : X.Lawful) {s : String} (hs : isPlain s) (r : String) :
    X.escape (s ++ r) = s ++ X.escape r := by
  rw [hX.escape_append, hX.escape_plain s hs]

end Scanner.Lawful

end Markup
