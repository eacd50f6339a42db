import XmipAs4.Wire.Text

/-!
# Reading the envelopes back

What a lawful scan reads off the text of a User Message's or a Signal's envelope: the
message itself, whatever its texts, and nothing of the other kind, with the one
exception that a Receipt holds a copy of the message it answers.
-/

namespace As4

open Markup (Forest Tag Elem Handle)

/-! ## Types and properties -/

/-- A type's attribute has no prefix. -/
theorem typeAttr_unprefixed {name : String} (kind : Option String) :
    Tag.Unprefixed ⟨"eb", name, typeAttr kind⟩ := by
  have htype : ':' ∉ ("type" : String).toList := by decide
  intro a ha
  cases kind with
  | none => exact absurd ha (List.not_mem_nil)
  | some kind =>
    rw [typeAttr, List.mem_singleton] at ha
    rwa [ha]

/-- A type is read exactly where it was written. -/
theorem lookup_typeAttr (kind : Option String) : (typeAttr kind).lookup "type" = kind := by
  cases kind <;> rfl

/-- The properties of a group are those of the list it was written from, in order. -/
theorem all_groupForest {name : String} (hn : name ≠ "Property") (ps : List (String × String)) :
    (groupForest name ps).all "Property" = ps.map fun p =>
      ⟨⟨"eb", "Property", [("name", p.1)]⟩, some (.text p.2 .nil)⟩ := by
  unfold groupForest
  cases ps with
  | nil => rfl
  | cons p ps =>
    rw [if_neg (by simp), ← all_propertyForest]
    simp [node, Forest.all, hn]

/-- What a handle on a written property says. -/
theorem property_of_matches {handle : Handle TransportError} {p : String × String}
    (h : handle.Matches ⟨⟨"eb", "Property", [("name", p.1)]⟩, some (.text p.2 .nil)⟩) :
    handle.closedItself = false ∧ handle.attributeOf "name" = .ok (some p.1) ∧
      handle.text = .ok p.2 := by
  have hname : ':' ∉ ("name" : String).toList := by decide
  refine ⟨h.closedItself, (h.attributeOf ?_ "name").trans rfl, h.text _ p.2 rfl rfl⟩
  intro a ha
  rwa [List.mem_singleton.mp ha]

/-- Handles on written properties give them back. -/
theorem propertiesOf_matches {ps : List (String × String)} {hs : List (Handle TransportError)}
    (h : List.Forall₂ Handle.Matches hs (ps.map fun p =>
      ⟨⟨"eb", "Property", [("name", p.1)]⟩, some (.text p.2 .nil)⟩)) :
    propertiesOf hs = .ok ps := by
  induction ps generalizing hs with
  | nil =>
    rw [List.map_nil, List.forall₂_nil_right_iff] at h
    rw [h, propertiesOf]
  | cons p ps ih =>
    rw [List.map_cons, List.forall₂_cons_right_iff] at h
    obtain ⟨handle, rest, hp, hrest, rfl⟩ := h
    obtain ⟨hclosed, hattr, htext⟩ := property_of_matches hp
    rw [propertiesOf, hclosed, if_neg Bool.false_ne_true, hattr, ok_bind]
    simp only
    rw [htext, ok_bind, ih hrest, ok_bind]

/-- The properties in the first element of the name, and none where there is no such
element. -/
def propertyHandles (L : Estate) (user name : String) : List (Handle TransportError) :=
  match L.xml.content user name with
  | some text => L.xml.elements text "Property"
  | none => []

/-- The properties read in an element are those of its handles. -/
theorem propertiesIn_eq (L : Estate) (user name : String) :
    propertiesIn L (L.xml.content user name) = propertiesOf (propertyHandles L user name) := by
  unfold propertyHandles
  cases L.xml.content user name <;> rfl

/-! ## What stands in a User Message -/

namespace UserMessage

variable (m : UserMessage)

theorem find_messageId :
    m.inner.find "MessageId" = some ⟨⟨"eb", "MessageId", []⟩, some (.text m.messageId .nil)⟩ := by
  simp [inner, Forest.find_append]

theorem find_timestamp :
    m.inner.find "Timestamp" = some ⟨⟨"eb", "Timestamp", []⟩, some (.text m.timestamp .nil)⟩ := by
  simp [inner, Forest.find_append]

theorem find_from :
    m.inner.find "From" = some ⟨⟨"eb", "From", []⟩,
      some (leaf "PartyId" (typeAttr m.partyType) m.fromParty ++ leaf "Role" [] initiator)⟩ := by
  simp [inner, Forest.find_append, sideForest]

/-- The first party is the one that sends, so the second is reached by its side's name only. -/
theorem find_to :
    m.inner.find "To" = some ⟨⟨"eb", "To", []⟩,
      some (leaf "PartyId" (typeAttr m.partyType) m.toParty ++ leaf "Role" [] responder)⟩ := by
  simp [inner, Forest.find_append, sideForest]

theorem find_service :
    m.inner.find "Service" =
      some ⟨⟨"eb", "Service", typeAttr m.serviceType⟩, some (.text m.service .nil)⟩ := by
  simp [inner, Forest.find_append, sideForest, find_agreementForest]

theorem find_action :
    m.inner.find "Action" = some ⟨⟨"eb", "Action", []⟩, some (.text m.action .nil)⟩ := by
  simp [inner, Forest.find_append, sideForest, find_agreementForest]

theorem find_conversationId :
    m.inner.find "ConversationId" =
      some ⟨⟨"eb", "ConversationId", []⟩, some (.text m.conversationId .nil)⟩ := by
  simp [inner, Forest.find_append, sideForest, find_agreementForest]

theorem find_agreement :
    m.inner.find "AgreementRef" = m.agreement.map fun a =>
      ⟨⟨"eb", "AgreementRef", []⟩, some (.text a .nil)⟩ := by
  simp [inner, Forest.find_append, sideForest, find_agreementForest, find_groupForest]

theorem find_messageProperties :
    m.inner.find "MessageProperties" =
      if m.properties ≠ [] then
        some ⟨⟨"eb", "MessageProperties", []⟩, some (propertyForest m.properties)⟩
      else none := by
  simp [inner, Forest.find_append, sideForest, find_agreementForest, find_groupForest]

theorem find_partInfo :
    m.inner.find "PartInfo" = some ⟨⟨"eb", "PartInfo", [("href", "cid:" ++ m.payloadCid)]⟩,
      some (groupForest "PartProperties" m.payloadProperties)⟩ := by
  simp [inner, Forest.find_append, sideForest, find_agreementForest, find_groupForest]

/-- The forest says what the message says, each thing in the first element of its name.  Of
the roles nothing is asked, nor of the type that the receiving party's id carries. -/
structure Shows (f : Forest) : Prop where
  wf : f.wf = true
  messageId : f.find "MessageId" =
    some ⟨⟨"eb", "MessageId", []⟩, some (.text m.messageId .nil)⟩
  timestamp : f.find "Timestamp" =
    some ⟨⟨"eb", "Timestamp", []⟩, some (.text m.timestamp .nil)⟩
  sender : ∃ role, f.find "From" = some ⟨⟨"eb", "From", []⟩,
    some (leaf "PartyId" (typeAttr m.partyType) m.fromParty ++ leaf "Role" [] role)⟩
  receiver : ∃ kind role, f.find "To" = some ⟨⟨"eb", "To", []⟩,
    some (leaf "PartyId" (typeAttr kind) m.toParty ++ leaf "Role" [] role)⟩
  service : f.find "Service" =
    some ⟨⟨"eb", "Service", typeAttr m.serviceType⟩, some (.text m.service .nil)⟩
  action : f.find "Action" = some ⟨⟨"eb", "Action", []⟩, some (.text m.action .nil)⟩
  conversationId : f.find "ConversationId" =
    some ⟨⟨"eb", "ConversationId", []⟩, some (.text m.conversationId .nil)⟩
  agreement : f.find "AgreementRef" = m.agreement.map fun a =>
    ⟨⟨"eb", "AgreementRef", []⟩, some (.text a .nil)⟩
  messageProperties : f.find "MessageProperties" =
    if m.properties ≠ [] then
      some ⟨⟨"eb", "MessageProperties", []⟩, some (propertyForest m.properties)⟩
    else none
  partInfo : f.find "PartInfo" = some ⟨⟨"eb", "PartInfo", [("href", "cid:" ++ m.payloadCid)]⟩,
    some (groupForest "PartProperties" m.payloadProperties)⟩

/-- What a message's own element holds says what the message says. -/
theorem inner_shows : m.Shows m.inner where
  wf := m.inner_wf
  messageId := m.find_messageId
  timestamp := m.find_timestamp
  sender := ⟨_, m.find_from⟩
  receiver := ⟨_, _, m.find_to⟩
  service := m.find_service
  action := m.find_action
  conversationId := m.find_conversationId
  agreement := m.find_agreement
  messageProperties := m.find_messageProperties
  partInfo := m.find_partInfo

/-- Nothing that only a Signal has is found in a User Message. -/
theorem find_signal {n : String} (hn : n ∈ ["SignalMessage", "RefToMessageId", "Receipt",
    "Error", "Description", "UserMessage"]) : m.inner.find n = none := by
  simp only [List.mem_cons, List.not_mem_nil, or_false] at hn
  rcases hn with rfl | rfl | rfl | rfl | rfl | rfl <;>
    simp [inner, Forest.find_append, sideForest, find_agreementForest, find_groupForest]

end UserMessage

/-! ## One read at a time -/

section Reads

variable {L : Estate} (hX : L.xml.Lawful) {f : Forest} (hf : f.wf = true)
include hX hf

/-- The text of an element that holds character data alone. -/
theorem text_of_find {n s : String} {t : Tag} (h : f.find n = some ⟨t, some (.text s .nil)⟩) :
    L.xml.text (f.render L.xml.escape) n = .ok (some s) :=
  hX.text_some f n t _ s hf h (Forest.plain?_text s)

/-- An element that must not be empty, read. -/
theorem required_of_find {n s : String} {t : Tag}
    (h : f.find n = some ⟨t, some (.text s .nil)⟩) :
    required L (f.render L.xml.escape) n =
      if s = "" then .error (L.protocolError ("a UserMessage with no " ++ n)) else .ok s := by
  rw [required, text_of_find hX hf h, ok_bind]
  by_cases hs : s = "" <;> simp [Option.filter, hs]

omit hX hf in
/-- What stands on a side of a message is well formed. -/
theorem wf_side (kind : Option String) (id role : String) :
    (leaf "PartyId" (typeAttr kind) id ++ leaf "Role" [] role).wf = true := by
  have hparty := wf_typed "PartyId" (by decide) kind
  have hr : Tag.wf ⟨"eb", "Role", []⟩ = true := by decide
  rw [Forest.wf_append, wf_leaf, wf_leaf, hparty, hr]
  rfl

omit hX hf in
/-- The id is found on its side of the message. -/
theorem find_partyId (kind : Option String) (id role : String) :
    (leaf "PartyId" (typeAttr kind) id ++ leaf "Role" [] role).find "PartyId" =
      some ⟨⟨"eb", "PartyId", typeAttr kind⟩, some (.text id .nil)⟩ := by
  simp [Forest.find_append]

/-- What stands on a side of a message. -/
theorem content_of_side {side id role : String} {kind : Option String} {t : Tag}
    (h : f.find side = some ⟨t, some (leaf "PartyId" (typeAttr kind) id ++ leaf "Role" [] role)⟩)
    (hid : side ≠ "PartyId") (hrole : side ≠ "Role") :
    L.xml.content (f.render L.xml.escape) side =
      some ((leaf "PartyId" (typeAttr kind) id ++ leaf "Role" [] role).render L.xml.escape) := by
  apply hX.content_some f side t _ hf h
  simp [Forest.find_append, Ne.symm hid, Ne.symm hrole]

omit hf in
/-- The type of the id on a side of a message. -/
theorem attribute_of_side (kind : Option String) (id role : String) :
    L.xml.attributeOf ((leaf "PartyId" (typeAttr kind) id ++
      leaf "Role" [] role).render L.xml.escape) "PartyId" "type" = .ok kind := by
  rw [hX.attribute_some _ "PartyId" _ "type" (wf_side kind id role) (find_partyId kind id role)
    (typeAttr_unprefixed kind), lookup_typeAttr]

/-- A party's id and its type, read off its side of the message. -/
theorem party_of_find {side id role : String} {kind : Option String} {t : Tag}
    (h : f.find side = some ⟨t, some (leaf "PartyId" (typeAttr kind) id ++ leaf "Role" [] role)⟩)
    (hid : side ≠ "PartyId") (hrole : side ≠ "Role") :
    party L (f.render L.xml.escape) side = .ok id ∧
      ∃ text, L.xml.content (f.render L.xml.escape) side = some text ∧
        L.xml.attributeOf text "PartyId" "type" = .ok kind := by
  have hcontent := content_of_side hX hf h hid hrole
  refine ⟨?_, _, hcontent, attribute_of_side hX kind id role⟩
  rw [party, hcontent]
  simp only
  rw [text_of_find hX (wf_side kind id role) (find_partyId kind id role), ok_bind, okOr_some]

/-- Where the properties of a text are those of a list, in order, so are its handles. -/
theorem matches_of_properties {ps : List (String × String)}
    (hall : f.all "Property" = ps.map fun p =>
      ⟨⟨"eb", "Property", [("name", p.1)]⟩, some (.text p.2 .nil)⟩) :
    List.Forall₂ Handle.Matches (L.xml.elements (f.render L.xml.escape) "Property")
      (ps.map fun p => ⟨⟨"eb", "Property", [("name", p.1)]⟩, some (.text p.2 .nil)⟩) := by
  rw [← hall]
  apply hX.elements_all f "Property" hf
  intro e he inner hinner
  rw [hall, List.mem_map] at he
  obtain ⟨p, -, rfl⟩ := he
  cases hinner
  rfl

end Reads

/-! ## What was read -/

/-- Every field of the message is what the element was read for it. -/
structure Described (L : Estate) (user : String) (m : UserMessage) : Prop where
  reference : ∃ href, L.xml.attributeOf user "PartInfo" "href" = .ok (some href) ∧
    m.payloadCid = withoutCid href
  messageId : required L user "MessageId" = .ok m.messageId
  timestamp : ∃ text, L.xml.text user "Timestamp" = .ok text ∧ m.timestamp = text.getD ""
  fromParty : party L user "From" = .ok m.fromParty
  toParty : party L user "To" = .ok m.toParty
  service : required L user "Service" = .ok m.service
  action : required L user "Action" = .ok m.action
  conversationId : ∃ text, L.xml.text user "ConversationId" = .ok text ∧
    m.conversationId = text.getD ""
  partyType : partyTypeOf L user = .ok m.partyType
  serviceType : L.xml.attributeOf user "Service" "type" = .ok m.serviceType
  agreement : L.xml.text user "AgreementRef" = .ok m.agreement
  properties : propertiesIn L (L.xml.content user "MessageProperties") = .ok m.properties
  payloadProperties : propertiesIn L (L.xml.content user "PartInfo") = .ok m.payloadProperties

/-- A message is read off an element where each of its fields is. -/
theorem fromElement_eq_ok {L : Estate} {user : String} {m : UserMessage} :
    UserMessage.fromElement L user = .ok m ↔ Described L user m := by
  constructor
  · intro h
    obtain ⟨reference, hreference, h⟩ := bind_eq_ok h
    obtain ⟨href, hhref, h⟩ := bind_eq_ok h
    obtain ⟨messageId, hmessageId, h⟩ := bind_eq_ok h
    obtain ⟨timestamp, htimestamp, h⟩ := bind_eq_ok h
    obtain ⟨fromParty, hfrom, h⟩ := bind_eq_ok h
    obtain ⟨toParty, hto, h⟩ := bind_eq_ok h
    obtain ⟨service, hservice, h⟩ := bind_eq_ok h
    obtain ⟨action, haction, h⟩ := bind_eq_ok h
    obtain ⟨conversationId, hconversation, h⟩ := bind_eq_ok h
    obtain ⟨partyType, hpartyType, h⟩ := bind_eq_ok h
    obtain ⟨serviceType, hserviceType, h⟩ := bind_eq_ok h
    obtain ⟨agreement, hagreement, h⟩ := bind_eq_ok h
    obtain ⟨properties, hproperties, h⟩ := bind_eq_ok h
    obtain ⟨payloadProperties, hpayload, h⟩ := bind_eq_ok h
    rw [okOr_eq_ok hhref] at hreference
    cases h
    exact ⟨⟨href, hreference, rfl⟩, hmessageId, ⟨timestamp, htimestamp, rfl⟩, hfrom, hto, hservice,
      haction, ⟨conversationId, hconversation, rfl⟩, hpartyType, hserviceType, hagreement,
      hproperties, hpayload⟩
  · intro h
    obtain ⟨href, hhref, hcid⟩ := h.reference
    obtain ⟨timestamp, htimestamp, hstamp⟩ := h.timestamp
    obtain ⟨conversationId, hconversation, hid⟩ := h.conversationId
    unfold UserMessage.fromElement
    rw [hhref, ok_bind, okOr_some, ok_bind, h.messageId, ok_bind, htimestamp, ok_bind, h.fromParty,
      ok_bind, h.toParty, ok_bind, h.service, ok_bind, h.action, ok_bind, hconversation, ok_bind,
      h.partyType, ok_bind, h.serviceType, ok_bind, h.agreement, ok_bind, h.properties, ok_bind,
      h.payloadProperties, ok_bind, ← hcid, ← hstamp, ← hid]

/-! ## The User Message read back -/

/-- A text that begins with another is something behind it. -/
theorem exists_append_of_prefix {s t : String} (h : s.toList <+: t.toList) :
    ∃ rest : String, t = s ++ rest := by
  obtain ⟨cs, hcs⟩ := h
  refine ⟨String.ofList cs, ?_⟩
  have hrest : (String.ofList cs).toList = cs := String.toList_ofList
  rw [← String.toList_inj, String.toList_append, hrest, hcs]

/-- A content id without the `cid:` it was written with. -/
theorem withoutCid_append (cid : String) : withoutCid ("cid:" ++ cid) = withoutCid cid := by
  rw [withoutCid, String.toList_append]
  rfl

/-- A content id that does not begin with `cid:` is left as it is. -/
theorem withoutCid_of_clean {cid : String} (h : ¬ "cid:".toList <+: cid.toList) :
    withoutCid cid = cid := by
  have htrim : trimCid cid.toList = cid.toList := by
    unfold trimCid
    split
    · next cs heq => exact absurd ⟨cs, heq.symm⟩ h
    · rfl
  rw [withoutCid, htrim, String.ofList_toList]

/-- The message as it reads back: its content id loses any `cid:` it began with. -/
def UserMessage.readBack (m : UserMessage) : UserMessage :=
  { m with payloadCid := withoutCid m.payloadCid }

/-- A message whose content id does not begin with `cid:` is what it reads back as. -/
theorem UserMessage.readBack_of_clean {m : UserMessage}
    (h : ¬ "cid:".toList <+: m.payloadCid.toList) : m.readBack = m := by
  rw [readBack, withoutCid_of_clean h]

namespace UserMessage

variable {L : Estate} (hX : L.xml.Lawful) (m : UserMessage)
include hX

section Shown

variable {m} {f : Forest} (h : m.Shows f)
include h

/-- The payload reference that is shown is read. -/
theorem href_of_shows :
    L.xml.attributeOf (f.render L.xml.escape) "PartInfo" "href" =
      .ok (some ("cid:" ++ m.payloadCid)) := by
  have hcolon : ':' ∉ ("href" : String).toList := by decide
  apply hX.attribute_some f "PartInfo" _ "href" h.wf h.partInfo
  intro a ha
  rwa [List.mem_singleton.mp ha]

/-- The service's type that is shown is read. -/
theorem serviceType_of_shows :
    L.xml.attributeOf (f.render L.xml.escape) "Service" "type" = .ok m.serviceType := by
  rw [hX.attribute_some f "Service" _ "type" h.wf h.service (typeAttr_unprefixed m.serviceType),
    lookup_typeAttr]

/-- The agreement that is shown is read. -/
theorem agreement_of_shows :
    L.xml.text (f.render L.xml.escape) "AgreementRef" = .ok m.agreement := by
  have hfind := h.agreement
  cases hm : m.agreement with
  | none => exact hX.text_none f "AgreementRef" h.wf (by rw [hfind, hm]; rfl)
  | some a => exact text_of_find hX h.wf (by rw [hfind, hm]; rfl)

/-- The message properties that are shown are handed out. -/
theorem properties_of_shows :
    List.Forall₂ Handle.Matches (propertyHandles L (f.render L.xml.escape) "MessageProperties")
      (m.properties.map fun p =>
        ⟨⟨"eb", "Property", [("name", p.1)]⟩, some (.text p.2 .nil)⟩) := by
  have hfind := h.messageProperties
  unfold propertyHandles
  by_cases hm : m.properties = []
  · rw [if_neg (by simp [hm])] at hfind
    rw [hX.content_none f "MessageProperties" h.wf hfind, hm]
    exact .nil
  · rw [if_pos hm] at hfind
    rw [hX.content_some f "MessageProperties" _ _ h.wf hfind
      (find_propertyForest (by decide) m.properties)]
    exact matches_of_properties hX (wf_propertyForest m.properties)
      (all_propertyForest m.properties)

/-- The payload's properties that are shown are handed out. -/
theorem payloadProperties_of_shows :
    List.Forall₂ Handle.Matches (propertyHandles L (f.render L.xml.escape) "PartInfo")
      (m.payloadProperties.map fun p =>
        ⟨⟨"eb", "Property", [("name", p.1)]⟩, some (.text p.2 .nil)⟩) := by
  have hnone : (groupForest "PartProperties" m.payloadProperties).find "PartInfo" = none := by
    rw [find_groupForest (by decide), if_neg (by simp)]
  unfold propertyHandles
  rw [hX.content_some f "PartInfo" _ _ h.wf h.partInfo hnone]
  exact matches_of_properties hX
    (wf_groupForest "PartProperties" (by decide) m.payloadProperties)
    (all_groupForest (by decide) m.payloadProperties)

/-- A forest that says what a message says reads as the message, or is refused for the first
of the three texts that must not be empty and is. -/
theorem fromElement_of_shows :
    fromElement L (f.render L.xml.escape) =
      if m.messageId = "" then .error (L.protocolError ("a UserMessage with no " ++ "MessageId"))
      else if m.service = "" then .error (L.protocolError ("a UserMessage with no " ++ "Service"))
      else if m.action = "" then .error (L.protocolError ("a UserMessage with no " ++ "Action"))
      else .ok m.readBack := by
  have hf := h.wf
  obtain ⟨_, hsender⟩ := h.sender
  obtain ⟨_, _, hreceiver⟩ := h.receiver
  obtain ⟨hfrom, sender, hcontent, hkind⟩ :=
    party_of_find hX hf hsender (by decide) (by decide)
  obtain ⟨hto, -⟩ := party_of_find hX hf hreceiver (by decide) (by decide)
  unfold fromElement
  rw [href_of_shows hX h, ok_bind, okOr_some, ok_bind, required_of_find hX hf h.messageId]
  split_ifs with hid hservice haction
  · rfl
  all_goals
    rw [ok_bind, text_of_find hX hf h.timestamp, ok_bind, hfrom, ok_bind, hto, ok_bind,
      required_of_find hX hf h.service]
  · rw [if_pos hservice, error_bind]
  all_goals rw [if_neg hservice, ok_bind, required_of_find hX hf h.action]
  · rw [if_pos haction, error_bind]
  · rw [if_neg haction, ok_bind, text_of_find hX hf h.conversationId, ok_bind, partyTypeOf,
      hcontent]
    simp only
    rw [hkind, ok_bind, serviceType_of_shows hX h, ok_bind, agreement_of_shows hX h, ok_bind,
      propertiesIn_eq, propertiesOf_matches (properties_of_shows hX h), ok_bind, propertiesIn_eq,
      propertiesOf_matches (payloadProperties_of_shows hX h), ok_bind, withoutCid_append, readBack]
    rfl

/-- A forest that says what a message says, its three texts not empty, reads as the
message. -/
theorem fromElement_of_named (hid : m.messageId ≠ "") (hservice : m.service ≠ "")
    (haction : m.action ≠ "") : fromElement L (f.render L.xml.escape) = .ok m.readBack := by
  rw [fromElement_of_shows hX h, if_neg hid, if_neg hservice, if_neg haction]

end Shown

/-- What stands in a User Message's element reads back as the message, or is refused for
the first of the three texts that must not be empty and is. -/
theorem fromElement_inner :
    fromElement L (m.inner.render L.xml.escape) =
      if m.messageId = "" then .error (L.protocolError ("a UserMessage with no " ++ "MessageId"))
      else if m.service = "" then .error (L.protocolError ("a UserMessage with no " ++ "Service"))
      else if m.action = "" then .error (L.protocolError ("a UserMessage with no " ++ "Action"))
      else .ok m.readBack :=
  fromElement_of_shows hX m.inner_shows

omit hX m in
/-- An envelope is read by what stands in its first `UserMessage`. -/
theorem fromEnvelope_of_content {envelope text : String}
    (h : L.xml.content envelope "UserMessage" = some text) :
    fromEnvelope L envelope = fromElement L text := by
  rw [fromEnvelope, h, okOr_some, ok_bind]

omit m in
/-- What stands in the `UserMessage` of an envelope. -/
theorem content_wrapped {f : Forest} (hf : f.wf = true) (hnone : f.find "UserMessage" = none) :
    L.xml.content ((wrapForest (node "UserMessage" [] f)).render L.xml.escape) "UserMessage" =
      some (f.render L.xml.escape) := by
  have hwf : (wrapForest (node "UserMessage" [] f)).wf = true := by
    have htag : Tag.wf ⟨"eb", "UserMessage", []⟩ = true := by decide
    apply wrapForest_wf
    rw [wf_node, hf, htag]
    rfl
  have hfind : (wrapForest (node "UserMessage" [] f)).find "UserMessage" =
      some ⟨⟨"eb", "UserMessage", []⟩, some f⟩ := by
    rw [find_wrapForest (by decide) (by decide) (by decide) (by decide), find_node, if_pos rfl]
  exact hX.content_some _ _ _ _ hwf hfind hnone

/-- What stands in the `UserMessage` of a message's own envelope. -/
theorem content_envelope :
    L.xml.content (m.envelope L) "UserMessage" = some (m.inner.render L.xml.escape) := by
  rw [m.envelope_eq hX, forest]
  exact content_wrapped hX m.inner_wf (m.find_signal (by decide))

/-- A message's own envelope reads back as the message, where the three texts that must not
be empty are not. -/
theorem fromEnvelope_envelope (hid : m.messageId ≠ "") (hservice : m.service ≠ "")
    (haction : m.action ≠ "") : fromEnvelope L (m.envelope L) = .ok m.readBack := by
  rw [fromEnvelope_of_content (m.content_envelope hX),
    fromElement_of_named hX m.inner_shows hid hservice haction]

end UserMessage

/-! ## The Signal read back -/

/-- Nothing of a message is found in the information of a signal. -/
theorem find_infoForest (now : Moment) (refTo : Option String) {n : String}
    (hn : n ∈ ["SignalMessage", "Receipt", "Error", "Description", "UserMessage"]) :
    (infoForest now refTo).find n = none := by
  simp only [List.mem_cons, List.not_mem_nil, or_false] at hn
  rcases hn with rfl | rfl | rfl | rfl | rfl <;>
    simp [infoForest, Forest.find_append, find_referenceForest]

/-- The message a signal answers is found where it is named. -/
theorem find_reference (now : Moment) (refTo : Option String) :
    (infoForest now refTo).find "RefToMessageId" = refTo.map fun id =>
      ⟨⟨"eb", "RefToMessageId", []⟩, some (.text id .nil)⟩ := by
  simp [infoForest, Forest.find_append, find_referenceForest]

/-- The first message id of a signal is its own. -/
theorem find_signalId (now : Moment) (refTo : Option String) :
    (infoForest now refTo).find "MessageId" =
      some ⟨⟨"eb", "MessageId", []⟩, some (.text (nextId now) .nil)⟩ := by
  simp [infoForest, Forest.find_append]

/-- The Signal in an envelope is found there. -/
theorem find_wrapped_signal (inner : Forest) :
    (wrapForest (node "SignalMessage" [] inner)).find "SignalMessage" =
      some ⟨⟨"eb", "SignalMessage", []⟩, some inner⟩ := by
  rw [find_wrapForest (by decide) (by decide) (by decide) (by decide), find_node, if_pos rfl]

/-- An envelope with a Signal is well formed where what stands in the Signal is. -/
theorem wf_wrapped_signal {inner : Forest} (h : inner.wf = true) :
    (wrapForest (node "SignalMessage" [] inner)).wf = true := by
  have htag : Tag.wf ⟨"eb", "SignalMessage", []⟩ = true := by decide
  apply wrapForest_wf
  rw [wf_node, h, htag]
  rfl

namespace Signal

variable {L : Estate} (hX : L.xml.Lawful) (now : Moment)
include hX

omit hX in
/-- An envelope is read by what stands in its first `SignalMessage`. -/
theorem fromEnvelope_of_content {envelope text : String}
    (h : L.xml.content envelope "SignalMessage" = some text) :
    fromEnvelope L envelope = fromElement L text := by
  rw [fromEnvelope, h, okOr_some, ok_bind]

/-- What stands in the `SignalMessage` of a Receipt's envelope. -/
theorem content_receipt (m : UserMessage) :
    L.xml.content (receipt L now m) "SignalMessage" =
      some ((receiptInner now m).render L.xml.escape) := by
  have hfind : (receiptInner now m).find "SignalMessage" = none := by
    have hinfo := find_infoForest now (some m.messageId) (n := "SignalMessage") (by decide)
    have hm := m.find_signal (n := "SignalMessage") (by decide)
    simp [receiptInner, Forest.find_append, hinfo, UserMessage.forest, hm]
  rw [receipt_eq hX, hX.content_some _ _ _ _ (wf_wrapped_signal (receiptInner_wf now m))
    (find_wrapped_signal _) hfind]

/-- What stands in the `SignalMessage` of an Error's envelope. -/
theorem content_error (refTo : Option String) (code description : String) :
    L.xml.content (error L now refTo code description) "SignalMessage" =
      some ((errorInner now refTo code description).render L.xml.escape) := by
  have hfind : (errorInner now refTo code description).find "SignalMessage" = none := by
    have hinfo := find_infoForest now refTo (n := "SignalMessage") (by decide)
    simp [errorInner, Forest.find_append, hinfo]
  rw [error_eq hX, hX.content_some _ _ _ _
    (wf_wrapped_signal (errorInner_wf now refTo code description)) (find_wrapped_signal _) hfind]

/-- What stands in the `SignalMessage` of a Receipt reads back as the Receipt: it names the
message's id, whatever the texts of the message copied into it. -/
theorem fromElement_receipt (m : UserMessage) :
    fromElement L ((receiptInner now m).render L.xml.escape) =
      .ok (Receipt m.messageId (nextId now)) := by
  have hf := receiptInner_wf now m
  have href : (receiptInner now m).find "RefToMessageId" =
      some ⟨⟨"eb", "RefToMessageId", []⟩, some (.text m.messageId .nil)⟩ := by
    rw [receiptInner, Forest.find_append, find_reference]
    rfl
  have hid : (receiptInner now m).find "MessageId" =
      some ⟨⟨"eb", "MessageId", []⟩, some (.text (nextId now) .nil)⟩ := by
    rw [receiptInner, Forest.find_append, find_signalId]
    rfl
  have hreceipt : (receiptInner now m).find "Receipt" =
      some ⟨⟨"eb", "Receipt", []⟩, some m.forest⟩ := by
    rw [receiptInner, Forest.find_append, find_infoForest now _ (by decide), Option.none_or,
      find_node, if_pos rfl]
  have hinner : m.forest.find "Receipt" = none := by
    rw [UserMessage.forest, find_node, if_neg (by decide), m.find_signal (by decide)]
  rw [fromElement, text_of_find hX hf href, ok_bind,
    hX.content_some _ _ _ _ hf hreceipt hinner, if_pos Option.isSome_some, okOr_some, ok_bind,
    text_of_find hX hf hid, ok_bind]
  rfl

/-- What stands in the `SignalMessage` of an Error reads back as the Error. -/
theorem fromElement_error (refTo : Option String) (code description : String) :
    fromElement L ((errorInner now refTo code description).render L.xml.escape) =
      .ok (Error refTo code description) := by
  have hf := errorInner_wf now refTo code description
  have href : L.xml.text ((errorInner now refTo code description).render L.xml.escape)
      "RefToMessageId" = .ok refTo := by
    have hfind : (errorInner now refTo code description).find "RefToMessageId" = refTo.map fun id =>
        ⟨⟨"eb", "RefToMessageId", []⟩, some (.text id .nil)⟩ := by
      rw [errorInner, Forest.find_append, find_reference]
      cases refTo <;> simp
    cases refTo with
    | none => exact hX.text_none _ _ hf hfind
    | some id => exact text_of_find hX hf hfind
  have hreceipt : (errorInner now refTo code description).find "Receipt" = none := by
    rw [errorInner, Forest.find_append, find_infoForest now _ (by decide), Option.none_or]
    simp
  have herror : (errorInner now refTo code description).find "Error" =
      some ⟨⟨"eb", "Error", [("category", "Content"), ("errorCode", code), ("origin", "ebMS"),
        ("severity", "failure")]⟩, some (leaf "Description" [("xml:lang", "en")] description)⟩ := by
    rw [errorInner, Forest.find_append, find_infoForest now _ (by decide), Option.none_or,
      find_node, if_pos rfl]
  have hdesc : (errorInner now refTo code description).find "Description" =
      some ⟨⟨"eb", "Description", [("xml:lang", "en")]⟩, some (.text description .nil)⟩ := by
    rw [errorInner, Forest.find_append, find_infoForest now _ (by decide), Option.none_or]
    simp
  have hcode : L.xml.attributeOf ((errorInner now refTo code description).render L.xml.escape)
      "Error" "errorCode" = .ok (some code) := by
    apply hX.attribute_some _ _ _ "errorCode" hf herror
    have hnames : ∀ a ∈ ["category", "errorCode", "origin", "severity"], ':' ∉ a.toList := by decide
    intro a ha
    apply hnames
    simp only [List.mem_cons, List.not_mem_nil, or_false] at ha
    rcases ha with rfl | rfl | rfl | rfl <;> simp
  rw [fromElement, href, ok_bind, hX.content_none _ _ hf hreceipt,
    if_neg (by simp), hcode, ok_bind, okOr_some, ok_bind, text_of_find hX hf hdesc, ok_bind]
  rfl

/-- A Receipt's envelope reads back as the Receipt. -/
theorem fromEnvelope_receipt (m : UserMessage) :
    fromEnvelope L (receipt L now m) = .ok (Receipt m.messageId (nextId now)) := by
  rw [fromEnvelope_of_content (content_receipt hX now m), fromElement_receipt hX]

/-- An Error's envelope reads back as the Error. -/
theorem fromEnvelope_error (refTo : Option String) (code description : String) :
    fromEnvelope L (error L now refTo code description) =
      .ok (Error refTo code description) := by
  rw [fromEnvelope_of_content (content_error hX now refTo code description),
    fromElement_error hX]

end Signal

/-! ## One kind in the other's place -/

section Crossed

variable {L : Estate} (hX : L.xml.Lawful)
include hX

/-- There is no Signal in the envelope of a User Message. -/
theorem Signal.content_envelope (m : UserMessage) :
    L.xml.content (m.envelope L) "SignalMessage" = none := by
  rw [m.envelope_eq hX]
  apply hX.content_none _ _ (wrapForest_wf m.forest_wf)
  rw [find_wrapForest (by decide) (by decide) (by decide) (by decide), UserMessage.forest,
    find_node, if_neg (by decide), m.find_signal (by decide)]

/-- There is no User Message in the envelope of an Error. -/
theorem UserMessage.content_error (now : Moment) (refTo : Option String)
    (code description : String) :
    L.xml.content (Signal.error L now refTo code description) "UserMessage" = none := by
  rw [Signal.error_eq hX]
  apply hX.content_none _ _ (wf_wrapped_signal (errorInner_wf now refTo code description))
  rw [find_wrapForest (by decide) (by decide) (by decide) (by decide), find_node,
    if_neg (by decide), errorInner, Forest.find_append, find_infoForest now _ (by decide)]
  simp

/-- In the envelope of a Receipt there is the User Message copied into it. -/
theorem UserMessage.content_receipt (now : Moment) (m : UserMessage) :
    L.xml.content (Signal.receipt L now m) "UserMessage" = some (m.inner.render L.xml.escape) := by
  have hfind : (wrapForest (node "SignalMessage" [] (receiptInner now m))).find "UserMessage" =
      some ⟨⟨"eb", "UserMessage", []⟩, some m.inner⟩ := by
    rw [find_wrapForest (by decide) (by decide) (by decide) (by decide), find_node,
      if_neg (by decide), receiptInner, Forest.find_append, find_infoForest now _ (by decide),
      Option.none_or, find_node, if_neg (by decide), forest, find_node, if_pos rfl]
  rw [Signal.receipt_eq hX, hX.content_some _ _ _ _ (wf_wrapped_signal (receiptInner_wf now m))
    hfind (m.find_signal (by decide))]

end Crossed

end As4
