import XmipAs4.Markup.FlatScan

/-!
# The flat scan is lawful

`flatScan_lawful` shows that the flat scan keeps the promises of `Scanner.Lawful`, so
that what is proved of lawful scanners is proved of something that runs.

The walk over a rendered forest is compared with the forest in three steps: what
escaping leaves and how a tag's text is taken apart, what the tokens of a forest are,
and what the readers find in those tokens.
-/

namespace Markup

namespace FlatScan

/-! ## What escaping leaves -/

/-- The characters an escaped text holds none of. -/
def Quiet (cs : List Char) : Prop :=
  '<' ∉ cs ∧ '>' ∉ cs ∧ '"' ∉ cs

/-- Texts without markup make a text without markup. -/
theorem Quiet.append {as bs : List Char} (ha : Quiet as) (hb : Quiet bs) : Quiet (as ++ bs) := by
  obtain ⟨ha1, ha2, ha3⟩ := ha
  obtain ⟨hb1, hb2, hb3⟩ := hb
  simp_all [Quiet]

/-- No markup character is left by the escaping of a character. -/
theorem escapeChar_quiet (c : Char) : Quiet (escapeChar c) := by
  unfold escapeChar
  split_ifs with h1 h2 h3 h4 h5
  all_goals simp_all [Quiet, eq_comm]

/-- No markup character is left by the escaping of a text. -/
theorem escape_quiet (cs : List Char) : Quiet (escape cs) := by
  induction cs with
  | nil => simp [Quiet, escape]
  | cons c cs ih => exact (escapeChar_quiet c).append ih

/-- A character that is no markup character is its own escaping. -/
theorem escapeChar_of_plain {c : Char} (h : ['<', '>', '&', '"', '\''].contains c = false) :
    escapeChar c = [c] := by
  simp at h
  simp [escapeChar, h]

/-- A text without markup characters is its own escaping. -/
theorem escape_of_plain {cs : List Char}
    (h : cs.all (fun c => !(['<', '>', '&', '"', '\''].contains c)) = true) : escape cs = cs := by
  induction cs with
  | nil => rfl
  | cons c cs ih =>
    rw [List.all_cons, Bool.and_eq_true] at h
    have hc : escapeChar c = [c] := escapeChar_of_plain (by simpa using h.1)
    rw [escape, List.flatMap_cons, hc, ← escape, ih h.2]
    rfl

/-- An ordinary character is read back as it stands. -/
theorem unescape_cons {c : Char} (h : c ≠ '&') (cs : List Char) :
    unescape (c :: cs) = (unescape cs).map (c :: ·) := by
  rw [unescape]
  · rw [if_neg h]
  all_goals (intro _ hc; exact absurd hc h)

/-- Reading undoes escaping. -/
theorem unescape_escape (cs : List Char) : unescape (escape cs) = some cs := by
  induction cs with
  | nil => rfl
  | cons c cs ih =>
    rw [escape, List.flatMap_cons, ← escape]
    unfold escapeChar
    split_ifs with h1 h2 h3 h4 h5
    · subst h1; simp [unescape, ih]
    · subst h2; simp [unescape, ih]
    · subst h3; simp [unescape, ih]
    · subst h4; simp [unescape, ih]
    · subst h5; simp [unescape, ih]
    · simp [unescape_cons h1, ih]

/-! ## What text is cut into -/

/-- Text with no tag in it is cut into its characters. -/
theorem cut_text {cs : List Char} (h : '<' ∉ cs) (rest : List Char) :
    cut none (cs ++ rest) = cs.map .char ++ cut none rest := by
  induction cs with
  | nil => rfl
  | cons c cs ih =>
    simp only [List.mem_cons, not_or] at h
    simp [cut, Ne.symm h.1, ih h.2]

/-- The rest of a tag is read into its body. -/
theorem cut_body {body : List Char} (h : '>' ∉ body) (acc rest : List Char) :
    cut (some acc) (body ++ '>' :: rest) = .tag (acc.reverse ++ body) :: cut none rest := by
  induction body generalizing acc with
  | nil => simp [cut]
  | cons c body ih =>
    simp only [List.mem_cons, not_or] at h
    simp [cut, Ne.symm h.1, ih h.2]

/-- A tag is cut into one token. -/
theorem cut_tag {body : List Char} (h : '>' ∉ body) (rest : List Char) :
    cut none ('<' :: (body ++ '>' :: rest)) = .tag body :: cut none rest := by
  rw [cut, if_pos rfl, cut_body h]
  rfl

/-! ## What a tag is taken apart into -/

/-- What stands between the angle brackets of a start tag, `slash` where it closes itself. -/
def startBody (t : Tag) (slash : List Char) : List Char :=
  t.label.toList ++ ((attrText quote t.attrs).toList ++ slash)

/-- What stands between the angle brackets of an end tag. -/
def endBody (t : Tag) : List Char :=
  '/' :: t.label.toList

/-- A start tag ends in nothing or in the slash that closes it. -/
def IsSlash (slash : List Char) : Prop :=
  slash = [] ∨ slash = ['/']

/-- The label and what follows it are told apart by this. -/
def inLabel (c : Char) : Bool :=
  c != ' ' && c != '/'

/-- A character of a name is none of the characters that end one. -/
theorem nameChar_ne {c : Char} (h : nameChar c = true) :
    c ≠ '<' ∧ c ≠ '>' ∧ c ≠ '"' ∧ c ≠ '/' ∧ c ≠ '=' ∧ c ≠ '?' ∧ c ≠ ':' ∧ c ≠ ' ' := by
  simp [nameChar] at h
  simp_all

section Tags

variable {t : Tag}

/-- A well-formed tag's local name is a name. -/
theorem wf_name (h : t.wf = true) : t.name.toList ≠ [] ∧ ∀ c ∈ t.name.toList, nameChar c := by
  simp only [Tag.wf, isName, Bool.and_eq_true, Bool.not_eq_true', List.isEmpty_eq_false_iff,
    List.all_eq_true] at h
  exact h.1.1

/-- The label of a tag, prefixed or not. -/
theorem label_toList (t : Tag) :
    t.label.toList = if t.space = "" then t.name.toList
      else t.space.toList ++ ':' :: t.name.toList := by
  unfold Tag.label
  split_ifs <;> simp

/-- A prefixed tag's prefix is a name. -/
theorem wf_space (h : t.wf = true) (hs : t.space ≠ "") :
    t.space.toList ≠ [] ∧ ∀ c ∈ t.space.toList, nameChar c := by
  simp only [Tag.wf, isName, Bool.and_eq_true, Bool.or_eq_true, beq_iff_eq, Bool.not_eq_true',
    List.isEmpty_eq_false_iff, List.all_eq_true, hs, false_or] at h
  exact h.1.2

/-- The characters of a label are those of names, and the colon. -/
theorem mem_label (h : t.wf = true) {c : Char} (hc : c ∈ t.label.toList) :
    nameChar c = true ∨ c = ':' := by
  rw [label_toList] at hc
  split_ifs at hc with hs
  · exact .inl ((wf_name h).2 c hc)
  · rcases List.mem_append.mp hc with hc | hc
    · exact .inl ((wf_space h hs).2 c hc)
    · rcases List.mem_cons.mp hc with hc | hc
      · exact .inr hc
      · exact .inl ((wf_name h).2 c hc)

/-- A label is read as one: no character of it ends it. -/
theorem label_inLabel (h : t.wf = true) : ∀ c ∈ t.label.toList, inLabel c = true := by
  intro c hc
  rcases mem_label h hc with hn | rfl
  · have := nameChar_ne hn
    simp [inLabel, this]
  · rfl

/-- A label begins with a character of a name. -/
theorem label_cons (h : t.wf = true) :
    ∃ c cs, t.label.toList = c :: cs ∧ nameChar c = true := by
  rw [label_toList]
  split_ifs with hs
  · obtain ⟨hne, hall⟩ := wf_name h
    obtain ⟨c, cs, hcs⟩ := List.exists_cons_of_ne_nil hne
    exact ⟨c, cs, hcs, hall c (by simp [hcs])⟩
  · obtain ⟨hne, hall⟩ := wf_space h hs
    obtain ⟨c, cs, hcs⟩ := List.exists_cons_of_ne_nil hne
    exact ⟨c, cs ++ ':' :: t.name.toList, by simp [hcs], hall c (by simp [hcs])⟩

/-- The local part of a tag's label is its local name. -/
theorem localPart_label (h : t.wf = true) : localPart t.label.toList = t.name.toList := by
  have hcolon : ∀ s : List Char, (∀ c ∈ s, nameChar c = true) → ':' ∉ s := fun s hs hc =>
    (nameChar_ne (hs _ hc)).2.2.2.2.2.2.1 rfl
  rw [label_toList]
  split_ifs with hs
  · simp [localPart, hcolon _ (wf_name h).2]
  · have hdrop : (t.space.toList ++ ':' :: t.name.toList).dropWhile (· != ':') =
        ':' :: t.name.toList := by
      rw [List.dropWhile_append_of_pos]
      · simp
      · intro c hc
        simpa using (nameChar_ne ((wf_space h hs).2 c hc)).2.2.2.2.2.2.1
    simp [localPart, hdrop]

/-- What follows a label is not read as part of it. -/
theorem tail_not_inLabel (as : List (String × String)) {slash : List Char} (hs : IsSlash slash) :
    ((attrText quote as).toList ++ slash).takeWhile inLabel = [] ∧
      ((attrText quote as).toList ++ slash).dropWhile inLabel =
        (attrText quote as).toList ++ slash := by
  cases as with
  | nil => rcases hs with rfl | rfl <;> simp [attrText, inLabel]
  | cons a as => simp [attrText, inLabel]

/-- The label is read off the start tag it begins. -/
theorem labelOf_startBody (h : t.wf = true) {slash : List Char} (hs : IsSlash slash) :
    labelOf (startBody t slash) = t.label.toList := by
  have htail := (tail_not_inLabel t.attrs hs).1
  change (t.label.toList ++ _).takeWhile inLabel = _
  rw [List.takeWhile_append_of_pos (label_inLabel h), htail, List.append_nil]

/-- A start tag is one of the local name it has. -/
theorem starts_startBody (h : t.wf = true) {slash : List Char} (hs : IsSlash slash)
    (n : String) : starts n.toList (startBody t slash) = decide (t.name = n) := by
  obtain ⟨c, cs, hc, hn⟩ := label_cons h
  have hne := nameChar_ne hn
  have hhead : (startBody t slash).head? = some c := by simp [startBody, hc]
  rw [starts, labelOf_startBody h hs, localPart_label h, hhead]
  simp [hne, String.toList_inj, beq_eq_decide]

/-- A start tag is no end tag. -/
theorem ends_startBody (h : t.wf = true) (slash n : List Char) :
    ends n (startBody t slash) = false := by
  obtain ⟨c, cs, hc, hn⟩ := label_cons h
  have hne := nameChar_ne hn
  simp [ends, startBody, hc, hne]

/-- An end tag is one of the local name it has. -/
theorem ends_endBody (h : t.wf = true) (n : String) :
    ends n.toList (endBody t) = decide (t.name = n) := by
  simp [ends, endBody, localPart_label h, String.toList_inj, beq_eq_decide]

/-- An end tag is no start tag. -/
theorem starts_endBody (t : Tag) (n : List Char) : starts n (endBody t) = false := by
  simp [starts, endBody]

/-- Attributes end in a quotation mark. -/
theorem getLast?_attrText (a : String × String) (as : List (String × String)) :
    (attrText quote (a :: as)).toList.getLast? = some '"' := by
  induction as generalizing a with
  | nil =>
    rw [attrText, attrText, String.append_empty, String.toList_append, List.getLast?_append]
    rfl
  | cons b bs ih =>
    have hb := ih b
    rw [attrText, String.toList_append, List.getLast?_append, hb]
    rfl

/-- A start tag without the slash does not close itself. -/
theorem closesItself_startBody_nil (h : t.wf = true) : closesItself (startBody t []) = false := by
  obtain ⟨c, cs, hc, hn⟩ := label_cons h
  have hlast : ∃ c, (startBody t []).getLast? = some c ∧ c ≠ '/' := by
    cases ha : t.attrs with
    | nil =>
      have hne : t.label.toList ≠ [] := by simp [hc]
      refine ⟨t.label.toList.getLast hne, ?_, ?_⟩
      · simp [startBody, ha, attrText, List.getLast?_eq_getLast_of_ne_nil hne]
      · rintro heq
        have := label_inLabel h _ (List.getLast_mem hne)
        simp [inLabel, heq] at this
    | cons a as =>
      refine ⟨'"', ?_, by decide⟩
      rw [startBody, ha, List.append_nil, List.getLast?_append, getLast?_attrText]
      rfl
  obtain ⟨d, hd, hne⟩ := hlast
  simp [closesItself, hd, hne]

/-- A start tag with the slash closes itself. -/
theorem closesItself_startBody_slash (t : Tag) : closesItself (startBody t ['/']) = true := by
  simp [closesItself, startBody, ← List.append_assoc]

/-- A character of an attribute's name is read as part of it. -/
theorem attrName_ne {s : String} (h : isAttrName s = true) {c : Char} (hc : c ∈ s.toList) :
    c ≠ '"' ∧ c ≠ '=' ∧ c ≠ ' ' ∧ c ≠ '<' ∧ c ≠ '>' := by
  simp only [isAttrName, Bool.and_eq_true, List.all_eq_true, Bool.or_eq_true, beq_iff_eq] at h
  rcases h.2 c hc with hn | rfl
  · have := nameChar_ne hn
    simp [this]
  · decide

/-- The rest of an attribute's name is read up to its value. -/
theorem attributes_inName {cs : List Char} (h : ∀ c ∈ cs, c ≠ '"' ∧ c ≠ '=')
    (acc rest : List Char) :
    attributes (.inName acc) (cs ++ '=' :: '"' :: rest) =
      attributes (.inValue (acc.reverse ++ cs) []) rest := by
  induction cs generalizing acc with
  | nil => simp [attributes]
  | cons c cs ih =>
    obtain ⟨hq, heq⟩ := h c (by simp)
    simp only [List.cons_append, attributes, hq, heq, if_false]
    rw [ih fun d hd => h d (by simp [hd])]
    simp

/-- The rest of an attribute's value is read up to the mark that ends it. -/
theorem attributes_inValue {cs : List Char} (h : '"' ∉ cs) (name acc rest : List Char) :
    attributes (.inValue name acc) (cs ++ '"' :: rest) =
      (name, acc.reverse ++ cs) :: attributes .between rest := by
  induction cs generalizing acc with
  | nil => simp [attributes]
  | cons c cs ih =>
    simp only [List.mem_cons, not_or] at h
    simp [attributes, Ne.symm h.1, ih h.2]

/-- Attributes are read back as they were written, their values escaped. -/
theorem attributes_attrText {as : List (String × String)}
    (h : as.all (fun a => isAttrName a.1) = true) {slash : List Char} (hs : IsSlash slash) :
    attributes .between ((attrText quote as).toList ++ slash) =
      as.map fun a => (a.1.toList, escape a.2.toList) := by
  induction as with
  | nil => rcases hs with rfl | rfl <;> simp [attrText, attributes]
  | cons a as ih =>
    rw [List.all_cons, Bool.and_eq_true] at h
    have hname := @attrName_ne a.1 h.1
    have hne : a.1.toList ≠ [] := by
      have := h.1
      simp only [isAttrName, Bool.and_eq_true, Bool.not_eq_true', List.isEmpty_eq_false_iff] at this
      exact this.1
    obtain ⟨c, cs, hc⟩ := List.exists_cons_of_ne_nil hne
    have hcs : ∀ d ∈ cs, d ≠ '"' ∧ d ≠ '=' := fun d hd =>
      let hd := hname (show d ∈ a.1.toList by simp [hc, hd])
      ⟨hd.1, hd.2.1⟩
    have hsp : c ≠ ' ' := (hname (show c ∈ a.1.toList by simp [hc])).2.2.1
    have htext : (attrText quote (a :: as)).toList ++ slash = ' ' :: c :: (cs ++ '=' :: '"' ::
        (escape a.2.toList ++ '"' :: ((attrText quote as).toList ++ slash))) := by
      simp [attrText, quote, hc]
    rw [htext, attributes, if_pos rfl, attributes, if_neg hsp, attributes_inName hcs,
      attributes_inValue (escape_quiet _).2.2, ih h.2]
    simp [hc]

/-- The attributes of a start tag are read off its body. -/
theorem attributesOf_startBody (h : t.wf = true) {slash : List Char} (hs : IsSlash slash) :
    attributesOf (startBody t slash) = t.attrs.map fun a => (a.1.toList, escape a.2.toList) := by
  have hall : t.attrs.all (fun a => isAttrName a.1) = true := by
    simp only [Tag.wf, Bool.and_eq_true] at h
    exact h.2
  have hdrop : (startBody t slash).dropWhile inLabel =
      (attrText quote t.attrs).toList ++ slash := by
    rw [startBody, List.dropWhile_append_of_pos (label_inLabel h), (tail_not_inLabel _ hs).2]
  change attributes .between ((startBody t slash).dropWhile inLabel) = _
  rw [hdrop, attributes_attrText hall hs]

/-- An attribute is looked up in a start tag as in the tag it was written from. -/
theorem attributeIn_startBody {ε : Type} (bad : ε) (h : t.wf = true) {slash : List Char}
    (hs : IsSlash slash) (a : String) :
    attributeIn bad (startBody t slash) a = .ok (t.attrs.lookup a) := by
  have hlook : ∀ as : List (String × String),
      (as.map fun a => (a.1.toList, escape a.2.toList)).lookup a.toList =
        (as.lookup a).map fun v => escape v.toList := by
    intro as
    induction as with
    | nil => rfl
    | cons b bs ih =>
      obtain ⟨k, v⟩ := b
      simp only [List.map_cons, List.lookup_cons, ih, beq_eq_decide, String.toList_inj]
      by_cases hk : a = k <;> simp [hk]
  rw [attributeIn, attributesOf_startBody h hs, hlook]
  cases t.attrs.lookup a with
  | none => rfl
  | some v => simp [decoded, unescape_escape, Except.map]

/-- No bracket stands in a start tag's body. -/
theorem startBody_quiet (h : t.wf = true) {slash : List Char} (hs : IsSlash slash) :
    '>' ∉ startBody t slash := by
  have hall : t.attrs.all (fun a => isAttrName a.1) = true := by
    simp only [Tag.wf, Bool.and_eq_true] at h
    exact h.2
  have hattr : ∀ as : List (String × String), as.all (fun a => isAttrName a.1) = true →
      '>' ∉ (attrText quote as).toList := by
    intro as has
    induction as with
    | nil => simp [attrText]
    | cons a as ih =>
      rw [List.all_cons, Bool.and_eq_true] at has
      have hname : '>' ∉ a.1.toList := fun hm => (attrName_ne has.1 hm).2.2.2.2 rfl
      simp [attrText, quote, hname, (escape_quiet _).2.1, ih has.2]
  have hlabel : '>' ∉ t.label.toList := fun hm => by
    rcases mem_label h hm with hn | hn
    · exact (nameChar_ne hn).2.1 rfl
    · exact absurd hn (by decide)
  rcases hs with rfl | rfl <;> simp [startBody, hlabel, hattr _ hall]

/-- No bracket stands in an end tag's body. -/
theorem endBody_quiet (h : t.wf = true) : '>' ∉ endBody t := by
  have hlabel : '>' ∉ t.label.toList := fun hm => by
    rcases mem_label h hm with hn | hn
    · exact (nameChar_ne hn).2.1 rfl
    · exact absurd hn (by decide)
  simp [endBody, hlabel]

end Tags

/-! ## What a forest is cut into -/

/-- The tokens of a forest. -/
def tokensOf : Forest → List Token
  | .nil => []
  | .text s r => (quote s).toList.map .char ++ tokensOf r
  | .elem t i r => .tag (startBody t []) :: tokensOf i ++ .tag (endBody t) :: tokensOf r
  | .void t r => .tag (startBody t ['/']) :: tokensOf r
  | .decl s r => .tag ('?' :: s.toList ++ ['?']) :: tokensOf r

/-- A rendered forest is cut into the tokens of the forest. -/
theorem cut_render {f : Forest} (h : f.wf = true) (rest : List Char) :
    cut none ((f.render quote).toList ++ rest) = tokensOf f ++ cut none rest := by
  induction f generalizing rest with
  | nil => simp [Forest.render, tokensOf]
  | text s r ih =>
    have hq : '<' ∉ (quote s).toList := by simpa [quote] using (escape_quiet s.toList).1
    rw [Forest.render, String.toList_append, List.append_assoc, cut_text hq, ih h]
    simp [tokensOf]
  | elem t i r ihi ihr =>
    simp only [Forest.wf, Bool.and_eq_true] at h
    obtain ⟨⟨ht, hi⟩, hr⟩ := h
    have htext : ((Forest.elem t i r).render quote).toList ++ rest =
        '<' :: (startBody t [] ++ '>' :: ((i.render quote).toList ++
          ('<' :: (endBody t ++ '>' :: ((r.render quote).toList ++ rest))))) := by
      simp [Forest.render, startBody, endBody]
    rw [htext, cut_tag (startBody_quiet ht (.inl rfl)), ihi hi, cut_tag (endBody_quiet ht), ihr hr]
    simp [tokensOf]
  | void t r ih =>
    simp only [Forest.wf, Bool.and_eq_true] at h
    have htext : ((Forest.void t r).render quote).toList ++ rest =
        '<' :: (startBody t ['/'] ++ '>' :: ((r.render quote).toList ++ rest)) := by
      simp [Forest.render, startBody]
    rw [htext, cut_tag (startBody_quiet h.1 (.inr rfl)), ih h.2]
    simp [tokensOf]
  | decl s r ih =>
    simp only [Forest.wf, Bool.and_eq_true, List.all_eq_true] at h
    have htext : ((Forest.decl s r).render quote).toList ++ rest =
        '<' :: (('?' :: s.toList ++ ['?']) ++ '>' :: ((r.render quote).toList ++ rest)) := by
      simp [Forest.render]
    have hs : '>' ∉ '?' :: s.toList ++ ['?'] := by
      have := h.1 '>'
      simp_all
    rw [htext, cut_tag hs, ih h.2]
    simp [tokensOf]

/-- The tokens of a forest put together again are the forest's text. -/
theorem flatMap_raw_tokensOf (f : Forest) :
    (tokensOf f).flatMap Token.raw = (f.render quote).toList := by
  induction f with
  | nil => simp [tokensOf, Forest.render]
  | text s r ih => simp [tokensOf, Forest.render, List.flatMap_append, ih, List.flatMap_map,
      Token.raw]
  | elem t i r ihi ihr => simp [tokensOf, Forest.render, List.flatMap_append, ihi, ihr, Token.raw,
      startBody, endBody]
  | void t r ih => simp [tokensOf, Forest.render, ih, Token.raw, startBody]
  | decl s r ih => simp [tokensOf, Forest.render, ih, Token.raw]

/-! ## Text in front of other text -/

/-- What is being read where the text ends: nothing, or the reversed body of a tag. -/
def pending : Option (List Char) → List Char → Option (List Char)
  | o, [] => o
  | none, c :: cs => if c = '<' then pending (some []) cs else pending none cs
  | some body, c :: cs => if c = '>' then pending none cs else pending (some (c :: body)) cs

/-- Cutting goes on from where the text in front ends. -/
theorem cut_append (o : Option (List Char)) (cs rest : List Char) :
    cut o (cs ++ rest) = cut o cs ++ cut (pending o cs) rest := by
  induction cs generalizing o with
  | nil => cases o <;> rfl
  | cons c cs ih =>
    cases o with
    | none =>
      simp only [List.cons_append, cut, pending]
      split_ifs with h
      · exact ih (some [])
      · rw [ih none, List.cons_append]
    | some body =>
      simp only [List.cons_append, cut, pending]
      split_ifs with h
      · rw [ih none, List.cons_append]
      · exact ih (some (c :: body))

/-- Where there is no start tag of the name, the search goes on after it. -/
theorem after_append_none {n : List Char} {ts : List Token} (h : after n ts = none)
    (us : List Token) : after n (ts ++ us) = after n us := by
  induction ts with
  | nil => rfl
  | cons t ts ih =>
    cases t with
    | char c => exact ih h
    | tag body =>
      by_cases hbody : starts n body = true
      · rw [after, if_pos hbody] at h
        cases h
      · rw [after, if_neg hbody] at h
        rw [List.cons_append, after, if_neg hbody, ih h]

/-- Whole tags, none of them a start tag of the name, may stand in front of what is read. -/
theorem content_append {ε : Type} (bad : ε) {front n : String}
    (hwhole : pending none front.toList = none)
    (hnone : after n.toList (cut none front.toList) = none) (rest : String) :
    (flatScan bad).content (front ++ rest) n = (flatScan bad).content rest n := by
  change (after n.toList (cut none (front ++ rest).toList)).map _ = _
  rw [String.toList_append, cut_append, hwhole, after_append_none hnone]
  rfl

/-! ## What is found in the tokens of a forest -/

/-- Characters are passed over in the search for a start tag. -/
theorem after_chars (n cs : List Char) (ts : List Token) :
    after n (cs.map .char ++ ts) = after n ts := by
  induction cs with
  | nil => rfl
  | cons c cs ih => simpa [after] using ih

/-- Characters are no end tag. -/
theorem upTo_chars (n cs : List Char) (ts : List Token) :
    upTo n (cs.map .char ++ ts) = cs.map .char ++ upTo n ts := by
  induction cs with
  | nil => rfl
  | cons c cs ih => simpa [upTo] using ih

/-- There is no element among characters. -/
theorem handles_chars {ε : Type} (bad : ε) (n cs : List Char) (ts : List Token) :
    handles bad n (cs.map .char ++ ts) = handles bad n ts := by
  induction cs with
  | nil => rfl
  | cons c cs ih => simpa [handles] using ih

/-- A declaration is no start tag. -/
theorem starts_decl (n cs : List Char) : starts n ('?' :: cs) = false := by
  simp [starts]

/-- A declaration is no end tag. -/
theorem ends_decl (n cs : List Char) : ends n ('?' :: cs) = false := by
  simp [ends]

section Find

variable {n : String}

/-- Where a forest has no element of the name, the search goes on after it. -/
theorem after_tokensOf_none {f : Forest} (h : f.wf = true) (hn : f.find n = none)
    (ts : List Token) : after n.toList (tokensOf f ++ ts) = after n.toList ts := by
  induction f generalizing ts with
  | nil => rfl
  | text s r ih => rw [tokensOf, List.append_assoc, after_chars, ih h hn]
  | elem t i r ihi ihr =>
    simp only [Forest.wf, Bool.and_eq_true] at h
    obtain ⟨⟨ht, hi⟩, hr⟩ := h
    by_cases hname : t.name = n
    · simp [Forest.find, hname] at hn
    rw [Forest.find_elem_of_ne hname, Option.or_eq_none_iff] at hn
    simp [tokensOf, after, starts_startBody ht (.inl rfl), hname, starts_endBody,
      ihi hi hn.1, ihr hr hn.2]
  | void t r ih =>
    simp only [Forest.wf, Bool.and_eq_true] at h
    by_cases hname : t.name = n
    · simp [Forest.find, hname] at hn
    rw [Forest.find_void_of_ne hname] at hn
    simp [tokensOf, after, starts_startBody h.1 (.inr rfl), hname, ih h.2 hn]
  | decl s r ih =>
    simp only [Forest.wf, Bool.and_eq_true] at h
    simp only [tokensOf, List.cons_append, after, starts_decl]
    exact ih h.2 hn ts

/-- How the element found in a forest stands among its tokens, before `ts`. -/
def Stands (e : Elem) (body : List Char) (ts : List Token) : Prop :=
  e.tag.wf = true ∧
    match e.inner with
    | some i => i.wf = true ∧ body = startBody e.tag [] ∧
        ∃ more, ts = tokensOf i ++ .tag (endBody e.tag) :: more
    | none => body = startBody e.tag ['/']

/-- The first element of the name in a forest is the one whose start tag is found. -/
theorem after_tokensOf_some {f : Forest} {e : Elem} (h : f.wf = true) (hn : f.find n = some e)
    (ts : List Token) :
    ∃ body more, after n.toList (tokensOf f ++ ts) = some (body, more) ∧ Stands e body more := by
  induction f generalizing ts with
  | nil => simp at hn
  | text s r ih => rw [tokensOf, List.append_assoc, after_chars]; exact ih h hn ts
  | elem t i r ihi ihr =>
    simp only [Forest.wf, Bool.and_eq_true] at h
    obtain ⟨⟨ht, hi⟩, hr⟩ := h
    by_cases hname : t.name = n
    · rw [Forest.find_elem_self hname, Option.some.injEq] at hn
      subst hn
      refine ⟨startBody t [], tokensOf i ++ .tag (endBody t) :: (tokensOf r ++ ts), ?_,
        ht, hi, rfl, _, rfl⟩
      simp [tokensOf, after, starts_startBody ht (.inl rfl), hname]
    · have hstep : after n.toList (tokensOf (.elem t i r) ++ ts) =
          after n.toList (tokensOf i ++ (.tag (endBody t) :: (tokensOf r ++ ts))) := by
        simp [tokensOf, after, starts_startBody ht (.inl rfl), hname]
      rw [hstep]
      rw [Forest.find_elem_of_ne hname] at hn
      cases hi' : i.find n with
      | some e' =>
        rw [hi', Option.some_or] at hn
        exact ihi hi (hi'.trans hn) _
      | none =>
        rw [hi', Option.none_or] at hn
        rw [after_tokensOf_none hi hi', after, starts_endBody]
        exact ihr hr hn ts
  | void t r ih =>
    simp only [Forest.wf, Bool.and_eq_true] at h
    by_cases hname : t.name = n
    · rw [Forest.find, if_pos hname, Option.some.injEq] at hn
      subst hn
      refine ⟨startBody t ['/'], tokensOf r ++ ts, ?_, h.1, rfl⟩
      simp [tokensOf, after, starts_startBody h.1 (.inr rfl), hname]
    · rw [Forest.find_void_of_ne hname] at hn
      have hstep : after n.toList (tokensOf (.void t r) ++ ts) =
          after n.toList (tokensOf r ++ ts) := by
        simp [tokensOf, after, starts_startBody h.1 (.inr rfl), hname]
      rw [hstep]
      exact ih h.2 hn ts
  | decl s r ih =>
    simp only [Forest.wf, Bool.and_eq_true] at h
    simp only [tokensOf, List.cons_append, after, starts_decl]
    exact ih h.2 hn ts

/-- A forest with no element of the name has no end tag of it, so it is read whole. -/
theorem upTo_tokensOf {f : Forest} (h : f.wf = true) (hn : f.find n = none) (ts : List Token) :
    upTo n.toList (tokensOf f ++ ts) = tokensOf f ++ upTo n.toList ts := by
  induction f generalizing ts with
  | nil => rfl
  | text s r ih => rw [tokensOf, List.append_assoc, upTo_chars, ih h hn, List.append_assoc]
  | elem t i r ihi ihr =>
    simp only [Forest.wf, Bool.and_eq_true] at h
    obtain ⟨⟨ht, hi⟩, hr⟩ := h
    by_cases hname : t.name = n
    · simp [Forest.find, hname] at hn
    rw [Forest.find_elem_of_ne hname, Option.or_eq_none_iff] at hn
    simp [tokensOf, upTo, ends_startBody ht, ends_endBody ht, hname, ihi hi hn.1, ihr hr hn.2]
  | void t r ih =>
    simp only [Forest.wf, Bool.and_eq_true] at h
    by_cases hname : t.name = n
    · simp [Forest.find, hname] at hn
    rw [Forest.find_void_of_ne hname] at hn
    simp [tokensOf, upTo, ends_startBody h.1, ih h.2 hn]
  | decl s r ih =>
    simp only [Forest.wf, Bool.and_eq_true] at h
    simp only [tokensOf, List.cons_append, upTo, ends_decl]
    rw [ih h.2 hn]
    rfl

/-- What stands in an element with none of its own name inside is read whole. -/
theorem innerText_of_stands {t : Tag} {i : Forest} {body : List Char} {ts : List Token}
    (hs : Stands ⟨t, some i⟩ body ts) (hname : t.name = n) (hi : i.find n = none) :
    innerText n.toList body ts = (i.render quote).toList := by
  obtain ⟨ht, hwf, rfl, more, rfl⟩ := hs
  rw [innerText, closesItself_startBody_nil ht, upTo_tokensOf hwf hi, upTo, ends_endBody ht]
  simp [hname, flatMap_raw_tokensOf]

/-- Character data has no element in it. -/
theorem find_of_plain {i : Forest} {s : String} (h : i.plain? = some s) : i.find n = none := by
  unfold Forest.plain? at h
  split at h <;> simp_all

/-- Character data is written as its escaping. -/
theorem render_of_plain {i : Forest} {s : String} (h : i.plain? = some s) :
    (i.render quote).toList = escape s.toList := by
  unfold Forest.plain? at h
  split at h
  · rw [Option.some.injEq] at h
    subst h
    simp [Forest.render, escape]
  · rw [Option.some.injEq] at h
    subst h
    simp [Forest.render, quote]
  · simp at h

/-- The text of an element that holds character data alone is read back. -/
theorem decoded_of_stands {ε : Type} (bad : ε) {t : Tag} {i : Forest} {s : String}
    {body : List Char} {ts : List Token} (hs : Stands ⟨t, some i⟩ body ts) (hname : t.name = n)
    (hp : i.plain? = some s) : decoded bad (innerText n.toList body ts) = .ok s := by
  rw [innerText_of_stands hs hname (find_of_plain hp), render_of_plain hp, decoded,
    unescape_escape]
  simp

/-- The attributes of an element found are read off its start tag. -/
theorem attributeIn_of_stands {ε : Type} (bad : ε) {e : Elem} {body : List Char}
    {ts : List Token} (hs : Stands e body ts) (a : String) :
    attributeIn bad body a = .ok (e.tag.attrs.lookup a) := by
  obtain ⟨t, inner⟩ := e
  cases inner with
  | some i =>
    obtain ⟨ht, -, rfl, -⟩ := hs
    exact attributeIn_startBody bad ht (.inl rfl) a
  | none =>
    obtain ⟨ht, rfl⟩ := hs
    exact attributeIn_startBody bad ht (.inr rfl) a

/-- A handle on an element found tells of it what it should. -/
theorem handle_matches {ε : Type} (bad : ε) {e : Elem} {body : List Char} {ts : List Token}
    (hs : Stands e body ts) (hname : e.tag.name = n) :
    (handle bad n.toList body ts).Matches e where
  closedItself := by
    obtain ⟨t, inner⟩ := e
    cases inner with
    | some i =>
      obtain ⟨ht, -, rfl, -⟩ := hs
      exact closesItself_startBody_nil ht
    | none =>
      obtain ⟨-, rfl⟩ := hs
      exact closesItself_startBody_slash t
  attributeOf _ a := attributeIn_of_stands bad hs a
  text i s hi hp := by
    obtain ⟨t, inner⟩ := e
    subst hi
    exact decoded_of_stands bad hs hname hp

/-- The handles on a forest's elements come before those on what follows it. -/
theorem handles_tokensOf {ε : Type} (bad : ε) {f : Forest} (h : f.wf = true) (ts : List Token) :
    ∃ hs, handles bad n.toList (tokensOf f ++ ts) = hs ++ handles bad n.toList ts ∧
      List.Forall₂ Handle.Matches hs (f.all n) := by
  induction f generalizing ts with
  | nil => exact ⟨[], rfl, .nil⟩
  | text s r ih =>
    rw [tokensOf, List.append_assoc, handles_chars]
    exact ih h ts
  | elem t i r ihi ihr =>
    simp only [Forest.wf, Bool.and_eq_true] at h
    obtain ⟨⟨ht, hi⟩, hr⟩ := h
    obtain ⟨hsr, hr1, hr2⟩ := ihr hr ts
    obtain ⟨hsi, hi1, hi2⟩ := ihi hi (.tag (endBody t) :: (tokensOf r ++ ts))
    have hrest : handles bad n.toList (tokensOf i ++ .tag (endBody t) :: (tokensOf r ++ ts)) =
        hsi ++ (hsr ++ handles bad n.toList ts) := by
      simp [hi1, handles, starts_endBody, hr1]
    have htokens : tokensOf (.elem t i r) ++ ts = .tag (startBody t []) ::
        (tokensOf i ++ .tag (endBody t) :: (tokensOf r ++ ts)) := by
      simp [tokensOf]
    have hstands : Stands ⟨t, some i⟩ (startBody t [])
        (tokensOf i ++ .tag (endBody t) :: (tokensOf r ++ ts)) := ⟨ht, hi, rfl, _, rfl⟩
    rw [htokens, handles, starts_startBody ht (.inl rfl), hrest, Forest.all]
    have hboth := List.rel_append hi2 hr2
    by_cases hname : t.name = n
    · refine ⟨handle bad n.toList (startBody t [])
        (tokensOf i ++ .tag (endBody t) :: (tokensOf r ++ ts)) :: (hsi ++ hsr), by simp [hname], ?_⟩
      simpa [hname] using ⟨handle_matches bad hstands hname, hboth⟩
    · exact ⟨hsi ++ hsr, by simp [hname], by simpa [hname] using hboth⟩
  | void t r ih =>
    simp only [Forest.wf, Bool.and_eq_true] at h
    obtain ⟨hsr, hr1, hr2⟩ := ih h.2 ts
    have hstands : Stands ⟨t, none⟩ (startBody t ['/']) (tokensOf r ++ ts) := ⟨h.1, rfl⟩
    rw [tokensOf, List.cons_append, handles, starts_startBody h.1 (.inr rfl), hr1, Forest.all]
    by_cases hname : t.name = n
    · refine ⟨handle bad n.toList (startBody t ['/']) (tokensOf r ++ ts) :: hsr,
        by simp [hname], ?_⟩
      simpa [hname] using ⟨handle_matches bad hstands hname, hr2⟩
    · exact ⟨hsr, by simp [hname], by simpa [hname] using hr2⟩
  | decl s r ih =>
    simp only [Forest.wf, Bool.and_eq_true] at h
    simp only [tokensOf, List.cons_append, handles, starts_decl]
    exact ih h.2 ts

end Find

end FlatScan

open FlatScan

section Lawful

variable {ε : Type} (bad : ε) {f : Forest} {n : String}

/-- The text of a forest is cut into its tokens. -/
theorem cut_quote_render (h : f.wf = true) : cut none (f.render quote).toList = tokensOf f := by
  have := cut_render h []
  simpa [cut] using this

/-- The content the flat scan finds in a rendered forest. -/
theorem flatScan_content (h : f.wf = true) :
    (flatScan bad).content (f.render quote) n =
      (after n.toList (tokensOf f)).map fun p => String.ofList (innerText n.toList p.1 p.2) := by
  simp only [flatScan, cut_quote_render h]

/-- The text the flat scan finds in a rendered forest. -/
theorem flatScan_text (h : f.wf = true) :
    (flatScan bad).text (f.render quote) n = match after n.toList (tokensOf f) with
      | some p => (decoded bad (innerText n.toList p.1 p.2)).map some
      | none => .ok none := by
  rw [← cut_quote_render h]
  rfl

/-- The attribute the flat scan finds in a rendered forest. -/
theorem flatScan_attributeOf (h : f.wf = true) (a : String) :
    (flatScan bad).attributeOf (f.render quote) n a = match after n.toList (tokensOf f) with
      | some p => attributeIn bad p.1 a
      | none => .ok none := by
  rw [← cut_quote_render h]
  rfl

/-- No element is found where there is none. -/
theorem after_none (h : f.wf = true) (hn : f.find n = none) :
    after n.toList (tokensOf f) = none := by
  simpa [after] using after_tokensOf_none h hn []

/-- The first element is found where there is one. -/
theorem after_some {e : Elem} (h : f.wf = true) (hn : f.find n = some e) :
    ∃ body more, after n.toList (tokensOf f) = some (body, more) ∧ Stands e body more := by
  simpa using after_tokensOf_some h hn []

/-- The flat scan keeps the promises of a flat scanner. -/
theorem flatScan_lawful : (flatScan bad).Lawful where
  escape_append a b := by simp [flatScan, quote, escape, String.ofList_append]
  escape_plain s h := by
    change String.ofList (escape s.toList) = s
    rw [escape_of_plain h, String.ofList_toList]
  content_none f n h hn := by
    change (flatScan bad).content (f.render quote) n = none
    rw [flatScan_content bad h, after_none h hn, Option.map_none]
  content_some f n t i h hn hi := by
    obtain ⟨body, more, hafter, hs⟩ := after_some h hn
    change (flatScan bad).content (f.render quote) n = some (i.render quote)
    rw [flatScan_content bad h, hafter, Option.map_some,
      innerText_of_stands hs (Forest.name_of_find hn) hi, String.ofList_toList]
  text_none f n h hn := by
    change (flatScan bad).text (f.render quote) n = .ok none
    rw [flatScan_text bad h, after_none h hn]
  text_some f n t i s h hn hp := by
    obtain ⟨body, more, hafter, hs⟩ := after_some h hn
    change (flatScan bad).text (f.render quote) n = .ok (some s)
    rw [flatScan_text bad h, hafter]
    simp only
    rw [decoded_of_stands bad hs (Forest.name_of_find hn) hp]
    rfl
  attribute_none f n a h hn := by
    change (flatScan bad).attributeOf (f.render quote) n a = .ok none
    rw [flatScan_attributeOf bad h, after_none h hn]
  attribute_some f n e a h hn _ := by
    obtain ⟨body, more, hafter, hs⟩ := after_some h hn
    change (flatScan bad).attributeOf (f.render quote) n a = .ok (e.tag.attrs.lookup a)
    rw [flatScan_attributeOf bad h, hafter]
    exact attributeIn_of_stands bad hs a
  elements_all f n h _ := by
    obtain ⟨hs, h1, h2⟩ := handles_tokensOf bad (n := n) h []
    change List.Forall₂ _ (handles bad n.toList (cut none (f.render quote).toList)) _
    rw [List.append_nil] at h1
    rw [cut_quote_render h, h1]
    simpa [handles] using h2

end Lawful

end Markup
