import XmipAs4.Model.Signal

/-!
# The forests the envelopes are written from

Each text that `element`, `wrap`, `receipt` and `error` format is the rendering of a
forest, with every text a sender chooses in the place of character data or of an
attribute's value.  What a reader finds in the text is then what there is in the forest.
-/

namespace As4

open Markup (Forest Tag)

/-! ## Elements of the `eb` prefix -/

/-- An element of the `eb` prefix. -/
def node (name : String) (attrs : List (String × String)) (inner : Forest) : Forest :=
  .elem ⟨"eb", name, attrs⟩ inner .nil

/-- An element of the `eb` prefix that holds character data alone. -/
def leaf (name : String) (attrs : List (String × String)) (s : String) : Forest :=
  node name attrs (.text s .nil)

/-- The text of an element of the `eb` prefix. -/
theorem render_node (esc : String → String) (name : String) (attrs : List (String × String))
    (inner : Forest) :
    (node name attrs inner).render esc = "<" ++ ("eb" ++ ":" ++ name) ++
      Markup.attrText esc attrs ++ ">" ++ inner.render esc ++ "</" ++ ("eb" ++ ":" ++ name) ++
      ">" := by
  have hne : ("eb" : String) ≠ "" := by decide
  have hlabel : Tag.label ⟨"eb", name, attrs⟩ = "eb" ++ ":" ++ name := if_neg hne
  rw [node, Forest.render, Forest.render, String.append_empty, hlabel]

@[simp] theorem find_node (n name : String) (attrs : List (String × String)) (inner : Forest) :
    (node name attrs inner).find n =
      if name = n then some ⟨⟨"eb", name, attrs⟩, some inner⟩ else inner.find n := by
  by_cases h : name = n
  · rw [if_pos h]
    exact Forest.find_elem_self h inner .nil
  · rw [if_neg h, node, Forest.find_elem_of_ne h, Forest.find_nil, Option.or_none]

@[simp] theorem find_leaf (n name : String) (attrs : List (String × String)) (s : String) :
    (leaf name attrs s).find n =
      if name = n then some ⟨⟨"eb", name, attrs⟩, some (.text s .nil)⟩ else none := by
  rw [leaf, find_node, Forest.find_text, Forest.find_nil]

@[simp] theorem all_node (n name : String) (attrs : List (String × String)) (inner : Forest) :
    (node name attrs inner).all n =
      (if name = n then [⟨⟨"eb", name, attrs⟩, some inner⟩] else []) ++ inner.all n := by
  rw [node, Forest.all, Forest.all, List.append_nil]

@[simp] theorem all_leaf (n name : String) (attrs : List (String × String)) (s : String) :
    (leaf name attrs s).all n =
      if name = n then [⟨⟨"eb", name, attrs⟩, some (.text s .nil)⟩] else [] := by
  rw [leaf, all_node, Forest.all, Forest.all, List.append_nil]

@[simp] theorem wf_node (name : String) (attrs : List (String × String)) (inner : Forest) :
    (node name attrs inner).wf = (Tag.wf ⟨"eb", name, attrs⟩ && inner.wf) := by
  simp [node, Forest.wf]

@[simp] theorem wf_leaf (name : String) (attrs : List (String × String)) (s : String) :
    (leaf name attrs s).wf = Tag.wf ⟨"eb", name, attrs⟩ := by
  simp [leaf, Forest.wf]

/-! ## The User Message -/

/-- The `type` attribute, where a type is given. -/
def typeAttr : Option String → List (String × String)
  | some kind => [("type", kind)]
  | none => []

/-- Properties as `Property` elements, in order. -/
def propertyForest : List (String × String) → Forest
  | [] => .nil
  | p :: ps => leaf "Property" [("name", p.1)] p.2 ++ propertyForest ps

/-- A group of properties, where there are any. -/
def groupForest (name : String) (ps : List (String × String)) : Forest :=
  if ps.isEmpty then .nil else node name [] (propertyForest ps)

/-- The agreement, where there is one. -/
def agreementForest : Option String → Forest
  | some agreement => leaf "AgreementRef" [] agreement
  | none => .nil

/-- One side of the message: the party's id and its role. -/
def sideForest (side : String) (kind : Option String) (id role : String) : Forest :=
  node side [] (leaf "PartyId" (typeAttr kind) id ++ leaf "Role" [] role)

namespace UserMessage

/-- What an `eb:UserMessage` element holds. -/
def inner (m : UserMessage) : Forest :=
  node "MessageInfo" [] (leaf "Timestamp" [] m.timestamp ++ leaf "MessageId" [] m.messageId) ++
    (node "PartyInfo" [] (sideForest "From" m.partyType m.fromParty initiator ++
      sideForest "To" m.partyType m.toParty responder) ++
    (node "CollaborationInfo" [] (agreementForest m.agreement ++
      (leaf "Service" (typeAttr m.serviceType) m.service ++
        (leaf "Action" [] m.action ++ leaf "ConversationId" [] m.conversationId))) ++
    (groupForest "MessageProperties" m.properties ++
    node "PayloadInfo" [] (node "PartInfo" [("href", "cid:" ++ m.payloadCid)]
      (groupForest "PartProperties" m.payloadProperties)))))

/-- The `eb:UserMessage` element. -/
def forest (m : UserMessage) : Forest :=
  node "UserMessage" [] m.inner

end UserMessage

/-! ## Signals -/

/-- What a signal answers, where it names it. -/
def referenceForest : Option String → Forest
  | some id => leaf "RefToMessageId" [] id
  | none => .nil

/-- The `eb:MessageInfo` of a signal. -/
def infoForest (now : Moment) (refTo : Option String) : Forest :=
  node "MessageInfo" [] (leaf "Timestamp" [] now.clock ++
    (leaf "MessageId" [] (nextId now) ++ referenceForest refTo))

/-- What the `eb:SignalMessage` of a Receipt holds. -/
def receiptInner (now : Moment) (m : UserMessage) : Forest :=
  infoForest now (some m.messageId) ++ node "Receipt" [] m.forest

/-- What the `eb:SignalMessage` of an Error holds. -/
def errorInner (now : Moment) (refTo : Option String) (code description : String) : Forest :=
  infoForest now refTo ++
    node "Error" [("category", "Content"), ("errorCode", code), ("origin", "ebMS"),
      ("severity", "failure")] (leaf "Description" [("xml:lang", "en")] description)

/-- A SOAP envelope with the messaging header given and an empty body. -/
def wrapForest (messaging : Forest) : Forest :=
  .decl "xml version=\"1.0\" encoding=\"UTF-8\""
    (.elem ⟨"S12", "Envelope", [("xmlns:S12", soapNamespace), ("xmlns:eb", ebms)]⟩
      (.elem ⟨"S12", "Header", []⟩
        (.elem ⟨"eb", "Messaging", [("S12:mustUnderstand", "true")]⟩ messaging .nil)
        (.void ⟨"S12", "Body", []⟩ .nil)) .nil)

/-! ## What is found in them -/

/-- In an envelope, what is not the envelope's own is found in its messaging header. -/
theorem find_wrapForest {n : String} (hE : n ≠ "Envelope") (hH : n ≠ "Header")
    (hM : n ≠ "Messaging") (hB : n ≠ "Body") (f : Forest) : (wrapForest f).find n = f.find n := by
  rw [wrapForest, Forest.find_decl, Forest.find_elem_of_ne (Ne.symm hE),
    Forest.find_elem_of_ne (Ne.symm hH), Forest.find_elem_of_ne (Ne.symm hM),
    Forest.find_void_of_ne (Ne.symm hB)]
  simp

/-- Among properties there is no other element. -/
theorem find_propertyForest {n : String} (hn : n ≠ "Property") (ps : List (String × String)) :
    (propertyForest ps).find n = none := by
  induction ps with
  | nil => rfl
  | cons p ps ih =>
    rw [propertyForest, Forest.find_append, find_leaf, if_neg (Ne.symm hn), ih]
    rfl

/-- A group of properties is found where there are any, and nothing else but they is. -/
theorem find_groupForest {n : String} (hn : n ≠ "Property") (name : String)
    (ps : List (String × String)) :
    (groupForest name ps).find n =
      if name = n ∧ ps ≠ [] then some ⟨⟨"eb", name, []⟩, some (propertyForest ps)⟩ else none := by
  unfold groupForest
  cases ps with
  | nil => simp
  | cons p ps => simp [find_propertyForest hn]

/-- Every property is an element of its own, in order. -/
theorem all_propertyForest (ps : List (String × String)) :
    (propertyForest ps).all "Property" = ps.map fun p =>
      ⟨⟨"eb", "Property", [("name", p.1)]⟩, some (.text p.2 .nil)⟩ := by
  induction ps with
  | nil => rfl
  | cons p ps ih =>
    rw [propertyForest, Forest.all_append, ih]
    rfl

/-- The agreement is found where there is one. -/
theorem find_agreementForest (n : String) (agreement : Option String) :
    (agreementForest agreement).find n =
      if n = "AgreementRef" then
        agreement.map fun a => ⟨⟨"eb", "AgreementRef", []⟩, some (.text a .nil)⟩
      else none := by
  cases agreement with
  | none => simp [agreementForest]
  | some a =>
    rw [agreementForest, find_leaf]
    by_cases h : n = "AgreementRef"
    · rw [if_pos h.symm, if_pos h]
      rfl
    · rw [if_neg (Ne.symm h), if_neg h]

/-- The reference is found where there is one. -/
theorem find_referenceForest (n : String) (refTo : Option String) :
    (referenceForest refTo).find n =
      if n = "RefToMessageId" then
        refTo.map fun id => ⟨⟨"eb", "RefToMessageId", []⟩, some (.text id .nil)⟩
      else none := by
  cases refTo with
  | none => simp [referenceForest]
  | some id =>
    rw [referenceForest, find_leaf]
    by_cases h : n = "RefToMessageId"
    · rw [if_pos h.symm, if_pos h]
      rfl
    · rw [if_neg (Ne.symm h), if_neg h]

/-! ## They are well formed -/

/-- A type's attribute makes no name ill formed. -/
theorem wf_typed (name : String) (h : Markup.isName name = true) (kind : Option String) :
    Tag.wf ⟨"eb", name, typeAttr kind⟩ = true := by
  have heb : Markup.isName "eb" = true := by decide
  have htype : Markup.isAttrName "type" = true := by decide
  cases kind <;> simp [Tag.wf, typeAttr, h, heb, htype]

@[simp] theorem wf_propertyForest (ps : List (String × String)) :
    (propertyForest ps).wf = true := by
  induction ps with
  | nil => rfl
  | cons p ps ih =>
    rw [propertyForest, Forest.wf_append, wf_leaf, ih, Bool.and_true]
    exact (by decide : Tag.wf ⟨"eb", "Property", [("name", "")]⟩ = true)

@[simp] theorem wf_agreementForest (agreement : Option String) :
    (agreementForest agreement).wf = true := by
  cases agreement with
  | none => rfl
  | some a =>
    rw [agreementForest, wf_leaf]
    decide

@[simp] theorem wf_referenceForest (refTo : Option String) :
    (referenceForest refTo).wf = true := by
  cases refTo with
  | none => rfl
  | some a =>
    rw [referenceForest, wf_leaf]
    decide

/-- A group of properties is well formed under any name. -/
theorem wf_groupForest (name : String) (h : Markup.isName name = true)
    (ps : List (String × String)) : (groupForest name ps).wf = true := by
  have heb : Markup.isName "eb" = true := by decide
  unfold groupForest
  split_ifs
  · rfl
  · simp [Tag.wf, h, heb]

/-- The side of a message is well formed. -/
theorem wf_sideForest (side : String) (h : Markup.isName side = true) (kind : Option String)
    (id role : String) : (sideForest side kind id role).wf = true := by
  have heb : Markup.isName "eb" = true := by decide
  have hid := wf_typed "PartyId" (by decide) kind
  have hrole : Tag.wf ⟨"eb", "Role", []⟩ = true := by decide
  rw [sideForest, wf_node, Forest.wf_append, wf_leaf, wf_leaf, hid, hrole]
  simp [Tag.wf, h, heb]

/-- The element of a User Message is well formed, whatever its texts. -/
theorem UserMessage.inner_wf (m : UserMessage) : m.inner.wf = true := by
  have hservice := wf_typed "Service" (by decide) m.serviceType
  have hfrom := wf_sideForest "From" (by decide) m.partyType m.fromParty initiator
  have hto := wf_sideForest "To" (by decide) m.partyType m.toParty responder
  have hprops := wf_groupForest "MessageProperties" (by decide) m.properties
  have hpart := wf_groupForest "PartProperties" (by decide) m.payloadProperties
  have hhref : Tag.wf ⟨"eb", "PartInfo", [("href", "cid:" ++ m.payloadCid)]⟩ = true :=
    (by decide : Tag.wf ⟨"eb", "PartInfo", [("href", "")]⟩ = true)
  have hplain : ∀ name ∈ ["MessageInfo", "Timestamp", "MessageId", "PartyInfo",
      "CollaborationInfo", "Action", "ConversationId", "PayloadInfo"],
      Tag.wf ⟨"eb", name, []⟩ = true := by decide
  simp only [UserMessage.inner, Forest.wf_append, wf_node, wf_leaf, wf_agreementForest, hservice,
    hfrom, hto, hprops, hpart, hhref, Bool.and_self, Bool.and_true, Bool.true_and]
  simp [hplain]

/-- The element of a User Message is well formed, whatever its texts. -/
theorem UserMessage.forest_wf (m : UserMessage) : m.forest.wf = true := by
  rw [UserMessage.forest, wf_node, m.inner_wf, Bool.and_true]
  decide

/-- The information of a signal is well formed. -/
theorem infoForest_wf (now : Moment) (refTo : Option String) :
    (infoForest now refTo).wf = true := by
  have hplain : ∀ name ∈ ["MessageInfo", "Timestamp", "MessageId"],
      Tag.wf ⟨"eb", name, []⟩ = true := by decide
  simp only [infoForest, wf_node, Forest.wf_append, wf_leaf, wf_referenceForest, Bool.and_true]
  simp [hplain]

/-- A Receipt is well formed, whatever the texts of the message it answers. -/
theorem receiptInner_wf (now : Moment) (m : UserMessage) : (receiptInner now m).wf = true := by
  rw [receiptInner, Forest.wf_append, infoForest_wf, wf_node, m.forest_wf, Bool.and_true,
    Bool.true_and]
  decide

/-- An Error is well formed, whatever its texts. -/
theorem errorInner_wf (now : Moment) (refTo : Option String) (code description : String) :
    (errorInner now refTo code description).wf = true := by
  have herror : Tag.wf ⟨"eb", "Error", [("category", "Content"), ("errorCode", code),
      ("origin", "ebMS"), ("severity", "failure")]⟩ = true :=
    (by decide : Tag.wf ⟨"eb", "Error", [("category", ""), ("errorCode", ""), ("origin", ""),
      ("severity", "")]⟩ = true)
  have hdesc : Tag.wf ⟨"eb", "Description", [("xml:lang", "en")]⟩ = true := by decide
  rw [errorInner, Forest.wf_append, infoForest_wf, wf_node, wf_leaf, herror, hdesc]
  rfl

/-- An envelope is well formed where its messaging header is. -/
theorem wrapForest_wf {f : Forest} (h : f.wf = true) : (wrapForest f).wf = true := by
  have henv : Tag.wf ⟨"S12", "Envelope", [("xmlns:S12", soapNamespace), ("xmlns:eb", ebms)]⟩ =
      true := by decide
  have hhead : Tag.wf ⟨"S12", "Header", []⟩ = true := by decide
  have hmsg : Tag.wf ⟨"eb", "Messaging", [("S12:mustUnderstand", "true")]⟩ = true := by decide
  have hbody : Tag.wf ⟨"S12", "Body", []⟩ = true := by decide
  simp only [wrapForest, Forest.wf, henv, hhead, hmsg, hbody, h, Bool.and_true]
  decide

end As4
