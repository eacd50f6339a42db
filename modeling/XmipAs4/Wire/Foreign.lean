import XmipAs4.Wire.Reading

/-!
# User Messages that another MSH writes

`element` writes one type for both parties, fixed roles and one part.  Another MSH may write
a role of its own for either party, a type of its own for the party sent to, and further
parts; what is read of its message is the same record, which has no place for these.
-/

namespace As4

open Markup (Forest Tag)

/-- Parts that reference the content ids, in order. -/
def partForest : List String → Forest
  | [] => .nil
  | cid :: cids => node "PartInfo" [("href", "cid:" ++ cid)] .nil ++ partForest cids

/-- Among parts without properties there is no other element. -/
theorem find_partForest {n : String} (hn : n ≠ "PartInfo") (cids : List String) :
    (partForest cids).find n = none := by
  induction cids with
  | nil => rfl
  | cons cid cids ih =>
    rw [partForest, Forest.find_append, find_node, if_neg (Ne.symm hn), ih]
    rfl

/-- Every part is an element of its own, in order. -/
theorem all_partForest (cids : List String) :
    (partForest cids).all "PartInfo" = cids.map fun cid =>
      ⟨⟨"eb", "PartInfo", [("href", "cid:" ++ cid)]⟩, some .nil⟩ := by
  induction cids with
  | nil => rfl
  | cons cid cids ih =>
    rw [partForest, Forest.all_append, ih]
    rfl

/-- A part's reference makes no name ill formed. -/
theorem wf_href (cid : String) : Tag.wf ⟨"eb", "PartInfo", [("href", "cid:" ++ cid)]⟩ = true :=
  (by decide : Tag.wf ⟨"eb", "PartInfo", [("href", "")]⟩ = true)

/-- Parts are well formed. -/
theorem wf_partForest (cids : List String) : (partForest cids).wf = true := by
  induction cids with
  | nil => rfl
  | cons cid cids ih =>
    rw [partForest, Forest.wf_append, wf_node, wf_href, ih]
    rfl

namespace UserMessage

variable (m : UserMessage) (senderRole : String) (receiverType : Option String)
  (receiverRole : String) (further : List String)

/-- What an `eb:UserMessage` element holds that says what the message says, with these roles,
this type of the receiving party's id, and these parts after the payload's. -/
def foreign : Forest :=
  node "MessageInfo" [] (leaf "Timestamp" [] m.timestamp ++ leaf "MessageId" [] m.messageId) ++
    (node "PartyInfo" [] (sideForest "From" m.partyType m.fromParty senderRole ++
      sideForest "To" receiverType m.toParty receiverRole) ++
    (node "CollaborationInfo" [] (agreementForest m.agreement ++
      (leaf "Service" (typeAttr m.serviceType) m.service ++
        (leaf "Action" [] m.action ++ leaf "ConversationId" [] m.conversationId))) ++
    (groupForest "MessageProperties" m.properties ++
    node "PayloadInfo" [] (node "PartInfo" [("href", "cid:" ++ m.payloadCid)]
      (groupForest "PartProperties" m.payloadProperties) ++ partForest further))))

/-- It is well formed, whatever its texts. -/
theorem foreign_wf : (m.foreign senderRole receiverType receiverRole further).wf = true := by
  have hservice := wf_typed "Service" (by decide) m.serviceType
  have hfrom := wf_sideForest "From" (by decide) m.partyType m.fromParty senderRole
  have hto := wf_sideForest "To" (by decide) receiverType m.toParty receiverRole
  have hprops := wf_groupForest "MessageProperties" (by decide) m.properties
  have hpart := wf_groupForest "PartProperties" (by decide) m.payloadProperties
  have hplain : ∀ name ∈ ["MessageInfo", "Timestamp", "MessageId", "PartyInfo",
      "CollaborationInfo", "Action", "ConversationId", "PayloadInfo"],
      Tag.wf ⟨"eb", name, []⟩ = true := by decide
  simp only [foreign, Forest.wf_append, wf_node, wf_leaf, wf_agreementForest, hservice, hfrom, hto,
    hprops, hpart, wf_href, wf_partForest, Bool.and_self, Bool.and_true, Bool.true_and]
  simp [hplain]

theorem find_foreign_from :
    (m.foreign senderRole receiverType receiverRole further).find "From" =
      some ⟨⟨"eb", "From", []⟩, some (leaf "PartyId" (typeAttr m.partyType) m.fromParty ++
        leaf "Role" [] senderRole)⟩ := by
  simp [foreign, Forest.find_append, sideForest]

theorem find_foreign_to :
    (m.foreign senderRole receiverType receiverRole further).find "To" =
      some ⟨⟨"eb", "To", []⟩, some (leaf "PartyId" (typeAttr receiverType) m.toParty ++
        leaf "Role" [] receiverRole)⟩ := by
  simp [foreign, Forest.find_append, sideForest]

/-- It says what the message says. -/
theorem foreign_shows : m.Shows (m.foreign senderRole receiverType receiverRole further) where
  wf := m.foreign_wf senderRole receiverType receiverRole further
  messageId := by simp [foreign, Forest.find_append]
  timestamp := by simp [foreign, Forest.find_append]
  sender := ⟨senderRole, m.find_foreign_from senderRole receiverType receiverRole further⟩
  receiver := ⟨receiverType, receiverRole,
    m.find_foreign_to senderRole receiverType receiverRole further⟩
  service := by simp [foreign, Forest.find_append, sideForest, find_agreementForest]
  action := by simp [foreign, Forest.find_append, sideForest, find_agreementForest]
  conversationId := by simp [foreign, Forest.find_append, sideForest, find_agreementForest]
  agreement := by
    simp [foreign, Forest.find_append, sideForest, find_agreementForest, find_groupForest,
      find_partForest]
  messageProperties := by
    simp [foreign, Forest.find_append, sideForest, find_agreementForest, find_groupForest,
      find_partForest]
  partInfo := by
    simp [foreign, Forest.find_append, sideForest, find_agreementForest, find_groupForest]

/-- What this crate writes has its fixed roles, one type for both parties and no further
part. -/
theorem inner_eq_foreign : m.inner = m.foreign initiator m.partyType responder [] := by
  simp [inner, foreign, partForest]

/-- Its parts are the payload's and the further ones. -/
theorem all_foreign_parts :
    (m.foreign senderRole receiverType receiverRole further).all "PartInfo" =
      ⟨⟨"eb", "PartInfo", [("href", "cid:" ++ m.payloadCid)]⟩,
        some (groupForest "PartProperties" m.payloadProperties)⟩ ::
      further.map fun cid => ⟨⟨"eb", "PartInfo", [("href", "cid:" ++ cid)]⟩, some .nil⟩ := by
  have hagreement : (agreementForest m.agreement).all "PartInfo" = [] := by
    simp [Forest.all_eq_nil_iff, find_agreementForest]
  have hgroup : ∀ name ps, name ≠ "PartInfo" → (groupForest name ps).all "PartInfo" = [] := by
    intro name ps hname
    simp [Forest.all_eq_nil_iff, find_groupForest, hname]
  have hproperties := hgroup "MessageProperties" m.properties (by decide)
  have hpart := hgroup "PartProperties" m.payloadProperties (by decide)
  simp [foreign, Forest.all_append, sideForest, hagreement, hproperties, hpart, all_partForest]

/-- It holds no other User Message. -/
theorem find_foreign_user :
    (m.foreign senderRole receiverType receiverRole further).find "UserMessage" = none := by
  simp [foreign, Forest.find_append, sideForest, find_agreementForest, find_groupForest,
    find_partForest]

end UserMessage

end As4
