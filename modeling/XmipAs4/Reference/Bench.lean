import XmipAs4.Markup.FlatScanLawful
import XmipAs4.Multipart.DelimitedLawful
import XmipAs4.Wire.Foreign
import XmipAs4.Exchange.Posting

/-!
# A bench

An estate that can be run: the flat scan, the delimited codec, and the few answers of the
`http` crate.  It keeps every promise the transport relies on, so what is proved of any
lawful estate is proved of one there is.
-/

namespace As4

open Markup (Forest Tag)
open Multipart (Bytes Part Absent asBytes folded isContentId)

/-- The bench's estate. -/
def bench : Estate where
  xml := Markup.flatScan ⟨"an entity XML does not define", false⟩
  mime := Multipart.delimited
  protocolError text := ⟨text, false⟩
  utf8Error _ := "invalid utf-8 sequence"
  headerValue headers name := (headers.find? fun h => folded h.1 == folded name).map Prod.snd
  parseUnder text _ := .ok ⟨"/msh", text⟩
  refused
    | .Unidentified => 401
    | .Forbidden => 403
    | .Unacceptable => 422
  failed := 503
  retryable status := decide (500 ≤ status)

/-- The bench keeps what the transport relies on. -/
theorem bench_lawful : bench.Lawful where
  xml := Markup.flatScan_lawful _
  mime := Multipart.delimited_lawful
  protocolError_final _ := rfl
  headerValue_of := by
    intro pre name value hpre
    have hnone : (pre.find? fun h => folded h.1 == folded name) = none := by
      rw [List.find?_eq_none]
      intro h hh
      simpa using hpre h hh
    simp [bench, List.find?_append, hnone]

/-- The bench's statuses are those of the `http` crate. -/
theorem bench_statuses : bench.Statuses where
  refused_mem := by
    intro why
    cases why <;> decide
  failed_eq := rfl
  retryable_of := by decide
  final_of := by decide

/-- A moment of the bench: the tick is all that moves. -/
def moment (tick : ℕ) : Moment where
  clock := "2026-01-01T00:00:00Z"
  random := "00"
  boundary := "=_xmip_0"
  tick := tick
  clock_plain := by decide
  boundary_wf := by decide

/-! ## Boundaries on the bench -/

/-- The boundary of the bench holds a character that no envelope need hold. -/
def mark : Char := '_'

/-- The mark stands neither in the tag's name nor in its attributes. -/
def unmarkedTag (t : Tag) : Bool :=
  !t.label.toList.contains mark && t.attrs.all fun a =>
    !a.1.toList.contains mark && !a.2.toList.contains mark

/-- The mark stands in none of the forest's names, texts and attribute values. -/
def unmarked : Forest → Bool
  | .nil => true
  | .text s r => !s.toList.contains mark && unmarked r
  | .elem t i r => unmarkedTag t && (unmarked i && unmarked r)
  | .void t r => unmarkedTag t && unmarked r
  | .decl s r => !s.toList.contains mark && unmarked r

/-- One unmarked forest after another is unmarked. -/
theorem unmarked_append {f g : Forest} (hf : unmarked f = true) (hg : unmarked g = true) :
    unmarked (f ++ g) = true := by
  induction f with
  | nil => exact hg
  | text s r ih =>
    simp only [unmarked, Bool.and_eq_true] at hf
    rw [Forest.text_append, unmarked, hf.1, ih hf.2, Bool.and_true]
  | elem t i r _ ih =>
    simp only [unmarked, Bool.and_eq_true] at hf
    rw [Forest.elem_append, unmarked, hf.1, hf.2.1, ih hf.2.2, Bool.and_true, Bool.and_true]
  | void t r ih =>
    simp only [unmarked, Bool.and_eq_true] at hf
    rw [Forest.void_append, unmarked, hf.1, ih hf.2, Bool.and_true]
  | decl s r ih =>
    simp only [unmarked, Bool.and_eq_true] at hf
    rw [Forest.decl_append, unmarked, hf.1, ih hf.2, Bool.and_true]

/-- What is unmarked may stand in an element whose tag is. -/
theorem unmarked_node {name : String} {attrs : List (String × String)} {f : Forest}
    (htag : unmarkedTag ⟨"eb", name, attrs⟩ = true) (hf : unmarked f = true) :
    unmarked (node name attrs f) = true := by
  rw [node, unmarked, htag, hf]
  rfl

/-- There is no mark in what stands around the messaging header. -/
theorem unmarked_wrapForest {f : Forest} (hf : unmarked f = true) :
    unmarked (wrapForest f) = true := by
  have hprolog : (!"xml version=\"1.0\" encoding=\"UTF-8\"".toList.contains mark) = true := by
    decide
  have henvelope : unmarkedTag ⟨"S12", "Envelope",
      [("xmlns:S12", soapNamespace), ("xmlns:eb", ebms)]⟩ = true := by decide +kernel
  have hheader : unmarkedTag ⟨"S12", "Header", []⟩ = true := by decide
  have hmessaging : unmarkedTag ⟨"eb", "Messaging", [("S12:mustUnderstand", "true")]⟩ = true := by
    decide
  have hbody : unmarkedTag ⟨"S12", "Body", []⟩ = true := by decide
  simp only [wrapForest, unmarked, hprolog, henvelope, hheader, hmessaging, hbody, hf,
    Bool.and_self]

/-- The bench's escaping writes no mark of its own. -/
theorem mark_notMem_escape {s : String} (h : mark ∉ s.toList) :
    mark ∉ (bench.xml.escape s).toList := by
  have hentities : ∀ c, mark ∈ Markup.FlatScan.escapeChar c → mark = c := by
    intro c hc
    unfold Markup.FlatScan.escapeChar at hc
    split_ifs at hc
    all_goals first
      | exact absurd hc (by decide)
      | exact List.mem_singleton.mp hc
  change mark ∉ (String.ofList (s.toList.flatMap Markup.FlatScan.escapeChar)).toList
  rw [String.toList_ofList, List.mem_flatMap]
  rintro ⟨c, hc, hmark⟩
  rw [← hentities c hmark] at hc
  exact h hc

/-- The text of unmarked attributes holds no mark. -/
theorem mark_notMem_attrText (attrs : List (String × String))
    (h : (attrs.all fun a => !a.1.toList.contains mark && !a.2.toList.contains mark) = true) :
    mark ∉ (Markup.attrText bench.xml.escape attrs).toList := by
  have hfixed : ∀ s ∈ ["", " ", "=\"", "\""], mark ∉ s.toList := by decide
  induction attrs with
  | nil => exact hfixed "" (by decide)
  | cons a as ih =>
    simp only [List.all_cons, Bool.and_eq_true, Bool.not_eq_true', List.contains_eq_mem,
      decide_eq_false_iff_not] at h
    obtain ⟨⟨hname, hvalue⟩, has⟩ := h
    have hrest := ih (by simpa using has)
    simp only [Markup.attrText, String.toList_append, List.mem_append, not_or]
    exact ⟨⟨⟨⟨⟨hfixed " " (by decide), hname⟩, hfixed "=\"" (by decide)⟩,
      mark_notMem_escape hvalue⟩, hfixed "\"" (by decide)⟩, hrest⟩

/-- The text of an unmarked forest holds no mark. -/
theorem mark_notMem_render {f : Forest} (h : unmarked f = true) :
    mark ∉ (f.render bench.xml.escape).toList := by
  have hfixed : ∀ s ∈ ["", "<", "</", ">", "/>", "<?", "?>"], mark ∉ s.toList := by decide
  induction f with
  | nil => exact hfixed "" (by decide)
  | text s r ih =>
    simp only [unmarked, Bool.and_eq_true, Bool.not_eq_true', List.contains_eq_mem,
      decide_eq_false_iff_not] at h
    simp only [Forest.render, String.toList_append, List.mem_append, not_or]
    exact ⟨mark_notMem_escape h.1, ih h.2⟩
  | elem t i r ihi ihr =>
    simp only [unmarked, unmarkedTag, Bool.and_eq_true, Bool.not_eq_true', List.contains_eq_mem,
      decide_eq_false_iff_not] at h
    obtain ⟨⟨hlabel, hattrs⟩, hi, hr⟩ := h
    have hattr := mark_notMem_attrText t.attrs (by simpa using hattrs)
    simp only [Forest.render, String.toList_append, List.mem_append, not_or]
    refine ⟨⟨⟨⟨⟨⟨⟨⟨?_, hlabel⟩, hattr⟩, ?_⟩, ihi hi⟩, ?_⟩, hlabel⟩, ?_⟩, ihr hr⟩
    all_goals exact hfixed _ (by decide)
  | void t r ih =>
    simp only [unmarked, unmarkedTag, Bool.and_eq_true, Bool.not_eq_true', List.contains_eq_mem,
      decide_eq_false_iff_not] at h
    obtain ⟨⟨hlabel, hattrs⟩, hr⟩ := h
    have hattr := mark_notMem_attrText t.attrs (by simpa using hattrs)
    simp only [Forest.render, String.toList_append, List.mem_append, not_or]
    refine ⟨⟨⟨⟨?_, hlabel⟩, hattr⟩, ?_⟩, ih hr⟩
    all_goals exact hfixed _ (by decide)
  | decl s r ih =>
    simp only [unmarked, Bool.and_eq_true, Bool.not_eq_true', List.contains_eq_mem,
      decide_eq_false_iff_not] at h
    simp only [Forest.render, String.toList_append, List.mem_append, not_or]
    refine ⟨⟨⟨?_, h.1⟩, ?_⟩, ih h.2⟩
    all_goals exact hfixed _ (by decide)

/-- The bench's boundary occurs in no bytes of unmarked text. -/
theorem boundary_absent {s : String} (h : mark ∉ s.toList) (tick : ℕ) :
    ¬ asBytes (moment tick).boundary <:+: asBytes s := by
  have hmem : UInt8.ofNat mark.val.toNat ∈ asBytes "=_xmip_0" := by decide
  apply Multipart.not_infix_of_not_mem hmem
  intro hs
  exact h (Multipart.mem_asBytes (by decide) hs)

/-- The mark's byte. -/
def markByte : UInt8 := UInt8.ofNat mark.val.toNat

/-- An attachment with no mark in its content id or its bytes, whose content id may stand in
angle brackets. -/
def unmarkedAttachment (a : String × Bytes) : Bool :=
  isContentId a.1 && !a.1.toList.contains mark && !a.2.contains markByte

/-- The bench's boundary does not occur in an unmarked part. -/
theorem part_absent {cid kind : String} {bytes : Bytes} (hcid : mark ∉ cid.toList)
    (hkind : mark ∉ kind.toList) (hbytes : markByte ∉ bytes) (tick : ℕ) :
    Absent (moment tick).boundary [Mime.part cid kind bytes] := by
  have hmem : markByte ∈ asBytes "=_xmip_0" := by decide
  have hnames : ∀ s ∈ ["Content-Type", "Content-Transfer-Encoding", "Content-ID", "binary",
      "<", ">"], mark ∉ s.toList := by decide
  have hbracket : mark ∉ ("<" ++ cid ++ ">").toList := by
    simp only [String.toList_append, List.mem_append, not_or]
    exact ⟨⟨hnames "<" (by decide), hcid⟩, hnames ">" (by decide)⟩
  intro p hp
  rw [List.mem_singleton] at hp
  subst hp
  refine ⟨Multipart.not_infix_of_not_mem hmem hbytes, ?_⟩
  intro h hh
  simp only [Mime.part, Part.header, Part.new, List.nil_append, List.cons_append,
    List.mem_cons, List.not_mem_nil, or_false] at hh
  rcases hh with rfl | rfl | rfl
  · exact ⟨boundary_absent (hnames "Content-Type" (by decide)) tick, boundary_absent hkind tick⟩
  · exact ⟨boundary_absent (hnames "Content-Transfer-Encoding" (by decide)) tick,
      boundary_absent (hnames "binary" (by decide)) tick⟩
  · exact ⟨boundary_absent (hnames "Content-ID" (by decide)) tick, boundary_absent hbracket tick⟩

/-- The bench's boundary occurs in none of the parts of an unmarked envelope with unmarked
attachments. -/
theorem parts_absent {f : Forest} (hf : unmarked f = true) {attachments : Attachments}
    (hattachments : ∀ a ∈ attachments, unmarkedAttachment a = true) (tick : ℕ) :
    Absent (moment tick).boundary (Mime.parts (f.render bench.xml.escape) attachments) := by
  have hfixed : ∀ s ∈ [rootCid, Mime.soap, "application/octet-stream"], mark ∉ s.toList := by
    decide
  have hbyte : markByte ∉ asBytes (f.render bench.xml.escape) := fun h =>
    mark_notMem_render hf (Multipart.mem_asBytes (by decide) h)
  intro p hp
  rw [Mime.parts, List.mem_cons, List.mem_map] at hp
  rcases hp with rfl | ⟨a, ha, rfl⟩
  · exact part_absent (hfixed _ (by decide)) (hfixed _ (by decide)) hbyte tick _
      (List.mem_singleton.mpr rfl)
  · have hunmarked := hattachments a ha
    simp only [unmarkedAttachment, Bool.and_eq_true, Bool.not_eq_true', List.contains_eq_mem,
      decide_eq_false_iff_not] at hunmarked
    exact part_absent hunmarked.1.2 (hfixed _ (by decide)) hunmarked.2 tick _
      (List.mem_singleton.mpr rfl)

/-- On the bench, the text of an unmarked forest is carried with unmarked attachments. -/
theorem carries_unmarked {f : Forest} (hf : unmarked f = true) {attachments : Attachments}
    (hne : attachments ≠ []) (hattachments : ∀ a ∈ attachments, unmarkedAttachment a = true)
    (tick : ℕ) (endpoint : Endpoint) :
    Carries bench (packed bench (moment tick) endpoint (f.render bench.xml.escape) attachments)
      (f.render bench.xml.escape) attachments := by
  refine carries_packed bench_lawful endpoint hne ?_ (parts_absent hf hattachments tick)
  intro a ha
  have hunmarked := hattachments a ha
  simp only [unmarkedAttachment, Bool.and_eq_true] at hunmarked
  exact hunmarked.1.1

/-! ## Messages on the bench -/

/-- The texts that a message holds. -/
def UserMessage.texts (m : UserMessage) : List String :=
  [m.timestamp, m.messageId, m.fromParty, m.toParty, m.service, m.action, m.conversationId,
    m.payloadCid] ++ (m.partyType.toList ++ (m.serviceType.toList ++ (m.agreement.toList ++
    (m.properties ++ m.payloadProperties).flatMap fun p => [p.1, p.2])))

/-- A tag is unmarked where its name and the values of its attributes are. -/
theorem unmarkedTag_of {name : String} (hname : mark ∉ name.toList)
    {attrs : List (String × String)} (hattrs : ∀ a ∈ attrs, mark ∉ a.1.toList ∧ mark ∉ a.2.toList) :
    unmarkedTag ⟨"eb", name, attrs⟩ = true := by
  have hne : ("eb" : String) ≠ "" := by decide
  have hlabel : Tag.label ⟨"eb", name, attrs⟩ = "eb" ++ ":" ++ name := if_neg hne
  have hprefix : mark ∉ ("eb" : String).toList ∧ mark ∉ (":" : String).toList := by decide
  rw [unmarkedTag, hlabel]
  simp only [String.toList_append, List.contains_eq_mem, List.mem_append, hprefix.1, hprefix.2,
    hname, or_self, decide_false, Bool.not_false, Bool.true_and, List.all_eq_true, Bool.and_eq_true,
    Bool.not_eq_true', decide_eq_false_iff_not]
  exact hattrs

/-- Text is unmarked in a leaf whose tag is. -/
theorem unmarked_leaf {name s : String} {attrs : List (String × String)}
    (htag : unmarkedTag ⟨"eb", name, attrs⟩ = true) (hs : mark ∉ s.toList) :
    unmarked (leaf name attrs s) = true := by
  apply unmarked_node htag
  simp [unmarked, hs]

/-- Properties are unmarked where their names and values are. -/
theorem unmarked_properties {ps : List (String × String)}
    (hps : ∀ p ∈ ps, mark ∉ p.1.toList ∧ mark ∉ p.2.toList) :
    unmarked (propertyForest ps) = true := by
  induction ps with
  | nil => rfl
  | cons p ps ih =>
    obtain ⟨⟨hname, hvalue⟩, hps⟩ := List.forall_mem_cons.mp hps
    have hfixed : mark ∉ ("name" : String).toList := by decide
    have htag : unmarkedTag ⟨"eb", "Property", [("name", p.1)]⟩ = true :=
      unmarkedTag_of (by decide) (List.forall_mem_singleton.mpr ⟨hfixed, hname⟩)
    exact unmarked_append (unmarked_leaf htag hvalue) (ih hps)

/-- So is a group of them. -/
theorem unmarked_group {name : String} (hname : mark ∉ name.toList) {ps : List (String × String)}
    (hps : ∀ p ∈ ps, mark ∉ p.1.toList ∧ mark ∉ p.2.toList) :
    unmarked (groupForest name ps) = true := by
  unfold groupForest
  split_ifs
  · rfl
  · exact unmarked_node (unmarkedTag_of hname (by simp)) (unmarked_properties hps)

/-- The two roles, and the names that stand in a message. -/
theorem mark_notMem_fixed : ∀ s ∈ [initiator, responder, "type", "href", "cid:"],
    mark ∉ s.toList := by decide +kernel

/-- A tag with no attribute but a type, if any, is unmarked where its name and the type are. -/
theorem unmarkedTag_typed {name : String} (hname : mark ∉ name.toList) {kind : Option String}
    (hkind : ∀ s ∈ kind.toList, mark ∉ s.toList) :
    unmarkedTag ⟨"eb", name, typeAttr kind⟩ = true := by
  apply unmarkedTag_of hname
  cases kind with
  | none => simp [typeAttr]
  | some s =>
    refine List.forall_mem_singleton.mpr ⟨mark_notMem_fixed "type" (by decide), ?_⟩
    exact hkind s (by simp)

/-- One side of a message is unmarked where what stands in it is. -/
theorem unmarked_side {side id role : String} {kind : Option String}
    (hside : mark ∉ side.toList) (hkind : ∀ s ∈ kind.toList, mark ∉ s.toList)
    (hid : mark ∉ id.toList) (hrole : mark ∉ role.toList) :
    unmarked (sideForest side kind id role) = true := by
  have hparty : unmarkedTag ⟨"eb", "PartyId", typeAttr kind⟩ = true :=
    unmarkedTag_typed (by decide) hkind
  exact unmarked_node (unmarkedTag_of hside (by simp))
    (unmarked_append (unmarked_leaf hparty hid) (unmarked_leaf (by decide) hrole))

/-- An agreement is unmarked where its text is. -/
theorem unmarked_agreement {agreement : Option String}
    (hagreement : ∀ s ∈ agreement.toList, mark ∉ s.toList) :
    unmarked (agreementForest agreement) = true := by
  cases agreement with
  | none => rfl
  | some s => exact unmarked_leaf (by decide) (hagreement s (by simp))

/-- A part is unmarked where its content id and its properties are. -/
theorem unmarked_part {cid : String} (hcid : mark ∉ cid.toList) {f : Forest}
    (hf : unmarked f = true) : unmarked (node "PartInfo" [("href", "cid:" ++ cid)] f) = true := by
  have hhref : mark ∉ ("cid:" ++ cid).toList := by
    rw [String.toList_append, List.mem_append, not_or]
    exact ⟨mark_notMem_fixed "cid:" (by decide), hcid⟩
  refine unmarked_node (unmarkedTag_of (by decide) ?_) hf
  exact List.forall_mem_singleton.mpr ⟨mark_notMem_fixed "href" (by decide), hhref⟩

/-- So are parts without properties. -/
theorem unmarked_parts {cids : List String} (hcids : ∀ cid ∈ cids, mark ∉ cid.toList) :
    unmarked (partForest cids) = true := by
  induction cids with
  | nil => rfl
  | cons cid cids ih =>
    obtain ⟨hcid, hcids⟩ := List.forall_mem_cons.mp hcids
    exact unmarked_append (unmarked_part hcid rfl) (ih hcids)

/-- There is no mark in what says what a message says where the texts of the message hold
none, nor what is said besides. -/
theorem unmarked_foreign {m : UserMessage} (hm : ∀ s ∈ m.texts, mark ∉ s.toList)
    {senderRole receiverRole : String} {receiverType : Option String} {further : List String}
    (hsender : mark ∉ senderRole.toList) (hreceiver : mark ∉ receiverRole.toList)
    (hreceiverType : ∀ s ∈ receiverType.toList, mark ∉ s.toList)
    (hfurther : ∀ cid ∈ further, mark ∉ cid.toList) :
    unmarked (m.foreign senderRole receiverType receiverRole further) = true := by
  have hplain : ∀ name ∈ ["MessageInfo", "Timestamp", "MessageId", "PartyInfo",
      "CollaborationInfo", "Action", "ConversationId", "PayloadInfo"],
      unmarkedTag ⟨"eb", name, []⟩ = true := by decide
  simp only [UserMessage.texts, List.forall_mem_append, List.forall_mem_cons,
    List.forall_mem_flatMap, List.not_mem_nil, false_implies, implies_true, and_true] at hm
  obtain ⟨⟨htimestamp, hid, hfrom, hto, hservice, haction, hconversation, hcid⟩, hkind, htype,
    hagreement, hproperties, hpayload⟩ := hm
  have hinfo := unmarked_append
    (unmarked_leaf (hplain "Timestamp" (by decide)) htimestamp)
    (unmarked_leaf (hplain "MessageId" (by decide)) hid)
  have hparties := unmarked_append
    (unmarked_side (by decide : mark ∉ ("From" : String).toList) hkind hfrom hsender)
    (unmarked_side (by decide : mark ∉ ("To" : String).toList) hreceiverType hto hreceiver)
  have hcollaboration : unmarked (agreementForest m.agreement ++
      (leaf "Service" (typeAttr m.serviceType) m.service ++
        (leaf "Action" [] m.action ++ leaf "ConversationId" [] m.conversationId))) = true := by
    refine unmarked_append (unmarked_agreement hagreement)
      (unmarked_append ?_ (unmarked_append ?_ ?_))
    · exact unmarked_leaf (unmarkedTag_typed (by decide) htype) hservice
    · exact unmarked_leaf (hplain "Action" (by decide)) haction
    · exact unmarked_leaf (hplain "ConversationId" (by decide)) hconversation
  have hgroup : unmarked (groupForest "MessageProperties" m.properties) = true :=
    unmarked_group (by decide) hproperties
  have hparts := unmarked_append
    (unmarked_part hcid (unmarked_group (by decide : mark ∉ ("PartProperties" : String).toList)
      hpayload))
    (unmarked_parts hfurther)
  exact unmarked_append (unmarked_node (hplain "MessageInfo" (by decide)) hinfo)
    (unmarked_append (unmarked_node (hplain "PartyInfo" (by decide)) hparties)
      (unmarked_append (unmarked_node (hplain "CollaborationInfo" (by decide)) hcollaboration)
        (unmarked_append hgroup (unmarked_node (hplain "PayloadInfo" (by decide)) hparts))))

/-- There is no mark in a message whose texts hold none. -/
theorem unmarked_message {m : UserMessage} (hm : ∀ s ∈ m.texts, mark ∉ s.toList) :
    unmarked m.forest = true := by
  -- What this crate writes is a foreign message with its fixed roles and no further part.
  rw [UserMessage.forest, m.inner_eq_foreign]
  apply unmarked_node (by decide)
  refine unmarked_foreign hm (mark_notMem_fixed initiator (by decide))
    (mark_notMem_fixed responder (by decide)) ?_ (by simp)
  intro s hs
  exact hm s (by simp [UserMessage.texts, Option.mem_toList.mp hs])

/-- The bench's boundary does not occur in the root part of an unmarked message. -/
theorem message_root_absent {m : UserMessage} (hm : unmarked m.forest = true) (tick : ℕ) :
    Absent (moment tick).boundary
      [Mime.part rootCid Mime.soap (asBytes (m.envelope bench))] := by
  have henvelope : markByte ∉ asBytes (m.envelope bench) := by
    rw [m.envelope_eq bench_lawful.xml]
    exact fun h =>
      mark_notMem_render (unmarked_wrapForest hm) (Multipart.mem_asBytes (by decide) h)
  exact part_absent (by decide) (by decide) henvelope tick

/-- It occurs in none of the parts of an unmarked message with unmarked attachments. -/
theorem message_absent {m : UserMessage} (hm : unmarked m.forest = true)
    {attachments : Attachments}
    (hattachments : ∀ a ∈ attachments, unmarkedAttachment a = true) (tick : ℕ) :
    Absent (moment tick).boundary (Mime.parts (m.envelope bench) attachments) := by
  rw [m.envelope_eq bench_lawful.xml]
  exact parts_absent (unmarked_wrapForest hm) hattachments tick

/-- On the bench, an unmarked message is carried with unmarked attachments. -/
theorem message_carried {m : UserMessage} (hm : unmarked m.forest = true)
    {attachments : Attachments} (hne : attachments ≠ [])
    (hattachments : ∀ a ∈ attachments, unmarkedAttachment a = true) (tick : ℕ)
    (endpoint : Endpoint) :
    Carries bench (packed bench (moment tick) endpoint (m.envelope bench) attachments)
      (m.envelope bench) attachments := by
  rw [m.envelope_eq bench_lawful.xml]
  exact carries_unmarked (unmarked_wrapForest hm) hne hattachments tick endpoint

/-! ## Two parties on the bench -/

/-- The party that sends. -/
def buyer : As4Transport :=
  (As4Transport.new (moment 0) "as4://bench/msh" "Buyer" "Seller").under "urn:svc" "Submit"

/-- The party that is sent to. -/
def seller : As4Transport :=
  As4Transport.new (moment 0) "as4://bench/msh" "Seller" "Buyer"

/-- The message that every keyed send of the one party is. -/
def order : UserMessage :=
  (buyer.template.fresh (moment 0)).keyed (some "order")

/-- The payload sent. -/
def goods : Bytes := [1, 2, 3]

/-- The request that carries the message. -/
def orderRequest : Request :=
  packed bench (moment 0) ⟨"/msh", "as4://bench/msh"⟩ (order.envelope bench)
    [(order.payloadCid, goods)]

/-- There is no mark in the message. -/
theorem unmarked_order : unmarked order.forest = true :=
  unmarked_message (by decide)

/-- The bench's boundary occurs in none of the message's parts. -/
theorem order_absent (tick : ℕ) : Absent (moment tick).boundary
    (Mime.parts (order.envelope bench) [(order.payloadCid, goods)]) :=
  message_absent unmarked_order (by decide) tick

/-- The request carries the message's envelope and the payload. -/
theorem order_carried :
    Carries bench orderRequest (order.envelope bench) [(order.payloadCid, goods)] :=
  message_carried unmarked_order (by simp) (by decide) 0 _

/-- The message is what the one party posts under the key. -/
theorem order_posts : Posts bench buyer (moment 0) "" goods (some "order") order
    (order.envelope bench) orderRequest where
  posting := ⟨⟨"/msh", "as4://bench/msh"⟩, rfl⟩
  sign := rfl
  absent := order_absent 0

/-- A far end that verifies everything reads the message and its payload. -/
theorem unpack_order {far : As4Transport}
    (hverify : ∀ now envelope attachments,
      far.receipting.signer.verify now envelope attachments = .ok ()) (later : Moment) :
    far.unpack bench later orderRequest = .ok (order, goods) := by
  have hclean := unpack_posted_clean bench_lawful order_posts (unsigned_leaves bench "UserMessage")
    (by decide) (by decide) (by decide) (by decide) far later
  rw [hclean, hverify, ok_bind]

/-- The seller reads the order, admits it and can sign its Receipt. -/
theorem seller_takes_order (tick : ℕ) (ids : List String) :
    (seller.remembering ids).unpack bench (moment tick) orderRequest = .ok (order, goods) ∧
      (seller.remembering ids).admits bench (moment tick) order goods = .ok () ∧
      (seller.remembering ids).receipting.receipt bench (moment tick) order =
        .ok (soap bench (moment tick) 200 (Signal.receipt bench (moment tick) order)) :=
  ⟨unpack_order (fun _ _ _ => rfl) _, rfl, rfl⟩

/-- The seller hears the order as new. -/
theorem seller_hears_order (tick : ℕ) :
    seller.hear bench (moment tick) orderRequest "peer" = .Waiting (.ok (some (order,
      originOf orderRequest "peer" order, goods, ⟨orderRequest, "peer"⟩))) := by
  obtain ⟨hunpack, hadmits, -⟩ := seller_takes_order tick []
  exact (Hears.new hunpack hadmits List.not_mem_nil).eq_hear

/-- The envelope that holds the element of another MSH. -/
def foreignEnvelope (f : Forest) : String :=
  (wrapForest (node "UserMessage" [] f)).render bench.xml.escape

/-- The request that carries it. -/
def foreignRequest (f : Forest) (attachments : Attachments) : Request :=
  packed bench (moment 0) ⟨"/msh", "as4://bench/msh"⟩ (foreignEnvelope f) attachments

/-- The seller reads the order off any element that says what the order says. -/
theorem seller_reads_shown {f : Forest} (hshows : order.Shows f)
    (hnone : f.find "UserMessage" = none)
    (hunmarked : unmarked f = true)
    {attachments : Attachments} (hne : attachments ≠ [])
    (hattachments : ∀ a ∈ attachments, unmarkedAttachment a = true)
    (hpayload : payloadOf bench order attachments = .ok (order, goods)) :
    Carries bench (foreignRequest f attachments) (foreignEnvelope f) attachments ∧
      bench.xml.content (foreignEnvelope f) "UserMessage" = some (f.render bench.xml.escape) ∧
      seller.unpack bench (moment 1) (foreignRequest f attachments) = .ok (order, goods) := by
  have hcarries : Carries bench (foreignRequest f attachments) (foreignEnvelope f) attachments :=
    carries_unmarked (unmarked_wrapForest (unmarked_node (by decide) hunmarked)) hne
      hattachments 0 _
  have hcontent : bench.xml.content (foreignEnvelope f) "UserMessage" =
      some (f.render bench.xml.escape) :=
    UserMessage.content_wrapped bench_lawful.xml hshows.wf hnone
  refine ⟨hcarries, hcontent, ?_⟩
  rw [seller.unpack_of_carries (moment 1) hcarries,
    UserMessage.fromEnvelope_of_content hcontent,
    UserMessage.fromElement_of_named bench_lawful.xml hshows (by decide) (by decide) (by decide),
    UserMessage.readBack_of_clean (by decide)]
  exact hpayload

end As4
