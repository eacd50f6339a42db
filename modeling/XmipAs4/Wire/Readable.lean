import XmipAs4.Wire.Foreign
import XmipAs4.Wire.Trees

/-!
# What is written is readable

Every document that says what a User Message says, in this crate's elements, is readable, and
so is every Receipt and every Error, whatever the texts in them.
-/

namespace As4

open Markup (Forest Elem)

/-! ## Parts of a message -/

/-- An element of character data is readable. -/
theorem readsText_of_find {f : Forest} {n : String} {t : Markup.Tag} {s : String}
    (h : f.find n = some ⟨t, some (.text s .nil)⟩) : f.readsText n = true := by
  rw [Forest.readsText, h]
  rfl

/-- What is not there is readable. -/
theorem readsText_of_none {f : Forest} {n : String} (h : f.find n = none) :
    f.readsText n = true := by
  rw [Forest.readsText, h]
  rfl

/-- A type's attribute is readable. -/
theorem isUnprefixed_typeAttr (name : String) (kind : Option String) :
    Markup.Tag.isUnprefixed ⟨"eb", name, typeAttr kind⟩ = true := by
  have htype : (!"type".toList.contains ':') = true := by decide
  cases kind with
  | none => rfl
  | some kind => rw [Markup.Tag.isUnprefixed, typeAttr, List.all_cons, htype, List.all_nil]; rfl

/-- A side of a message is readable. -/
theorem readableSide_of_parts (kind : Option String) (id role : String) :
    readableSide (leaf "PartyId" (typeAttr kind) id ++ leaf "Role" [] role) = true := by
  have hfind := find_partyId kind id role
  rw [readableSide, readsText_of_find hfind, Forest.readsAttributes, hfind, Bool.true_and]
  exact isUnprefixed_typeAttr "PartyId" kind

/-- Properties are readable. -/
theorem isValue_property (p : String × String) :
    Elem.isValue "name" ⟨⟨"eb", "Property", [("name", p.1)]⟩, some (.text p.2 .nil)⟩ = true := by
  have hname : (!"name".toList.contains ':') = true := by decide
  rw [Elem.isValue, Markup.Tag.isUnprefixed, List.all_cons, hname, List.all_nil]
  rfl

/-- Where the properties are those of a list, they are readable. -/
theorem readsValues_of_all {f : Forest} {ps : List (String × String)}
    (hall : f.all "Property" = ps.map fun p =>
      ⟨⟨"eb", "Property", [("name", p.1)]⟩, some (.text p.2 .nil)⟩) :
    f.readsValues "Property" "name" = true := by
  rw [Forest.readsValues, hall, List.all_map, List.all_eq_true]
  intro p _
  exact isValue_property p

/-- A side of a message that is shown can be read. -/
theorem readsInside_side {f : Forest} {side id role : String} {kind : Option String}
    (h : f.find side = some ⟨⟨"eb", side, []⟩,
      some (leaf "PartyId" (typeAttr kind) id ++ leaf "Role" [] role)⟩)
    (hid : side ≠ "PartyId") (hrole : side ≠ "Role") :
    f.readsInside side = true ∧ (f.inside side).all readableSide = true := by
  constructor
  · rw [Forest.readsInside, h]
    change ((leaf "PartyId" (typeAttr kind) id ++ leaf "Role" [] role).find side).isNone = true
    simp [Forest.find_append, Ne.symm hid, Ne.symm hrole]
  · rw [Forest.inside, h]
    exact readableSide_of_parts kind id role

/-! ## User Messages -/

namespace UserMessage

variable {m : UserMessage} {f : Forest} (h : m.Shows f)
include h

/-- The message's properties that are shown can be read. -/
theorem readsInside_messageProperties : f.readsInside "MessageProperties" = true ∧
    (f.inside "MessageProperties").all (Forest.readsValues "Property" "name") = true := by
  have hfind := h.messageProperties
  by_cases hm : m.properties = []
  · rw [if_neg (not_not.mpr hm)] at hfind
    rw [Forest.readsInside, Forest.inside, hfind]
    exact ⟨rfl, rfl⟩
  · rw [if_pos hm] at hfind
    rw [Forest.readsInside, Forest.inside, hfind]
    constructor
    · change ((propertyForest m.properties).find "MessageProperties").isNone = true
      rw [find_propertyForest (by decide)]
      rfl
    · exact readsValues_of_all (all_propertyForest m.properties)

/-- The payload's properties that are shown can be read. -/
theorem readsInside_partInfo : f.readsInside "PartInfo" = true ∧
    (f.inside "PartInfo").all (Forest.readsValues "Property" "name") = true := by
  rw [Forest.readsInside, Forest.inside, h.partInfo]
  constructor
  · change ((groupForest "PartProperties" m.payloadProperties).find "PartInfo").isNone = true
    rw [find_groupForest (by decide), if_neg (by simp)]
    rfl
  · exact readsValues_of_all (all_groupForest (by decide) m.payloadProperties)

/-- A forest that says what a message says can be read. -/
theorem readableUser_of_shows : readableUser f = true := by
  obtain ⟨_, hsender⟩ := h.sender
  obtain ⟨_, _, hreceiver⟩ := h.receiver
  obtain ⟨hfrom, hfromSide⟩ := readsInside_side hsender (by decide) (by decide)
  obtain ⟨hto, htoSide⟩ := readsInside_side hreceiver (by decide) (by decide)
  obtain ⟨hgroup, hproperties⟩ := readsInside_messageProperties h
  obtain ⟨hinfo, hpayload⟩ := readsInside_partInfo h
  have hagreement : f.readsText "AgreementRef" = true := by
    rw [Forest.readsText, h.agreement]
    cases m.agreement <;> rfl
  have hservice : f.readsAttributes "Service" = true := by
    rw [Forest.readsAttributes, h.service]
    exact isUnprefixed_typeAttr "Service" m.serviceType
  have hpart : f.readsAttributes "PartInfo" = true := by
    have hhref : (!"href".toList.contains ':') = true := by decide
    rw [Forest.readsAttributes, h.partInfo, Option.all_some, Markup.Tag.isUnprefixed, List.all_cons,
      hhref, List.all_nil]
    rfl
  simp only [readableUser, List.all_cons, List.all_nil, readsText_of_find h.messageId,
    readsText_of_find h.timestamp, readsText_of_find h.service, readsText_of_find h.action,
    readsText_of_find h.conversationId, hagreement, hservice, hpart, hfrom, hfromSide, hto, htoSide,
    hgroup, hproperties, hinfo, hpayload, Bool.and_self]

/-- An envelope around a forest that says what a message says is readable, where no other
message and no Signal stand in it. -/
theorem readable_of_shows (huser : f.find "UserMessage" = none)
    (hsignal : f.find "SignalMessage" = none) :
    Readable (wrapForest (node "UserMessage" [] f)) := by
  have hwf : (wrapForest (node "UserMessage" [] f)).wf = true := by
    have htag : Markup.Tag.wf ⟨"eb", "UserMessage", []⟩ = true := by decide
    apply wrapForest_wf
    rw [wf_node, h.wf, htag]
    rfl
  have hfind : (wrapForest (node "UserMessage" [] f)).find "UserMessage" =
      some ⟨⟨"eb", "UserMessage", []⟩, some f⟩ := by
    rw [find_wrapForest (by decide) (by decide) (by decide) (by decide), find_node, if_pos rfl]
  have hnone : (wrapForest (node "UserMessage" [] f)).find "SignalMessage" = none := by
    rw [find_wrapForest (by decide) (by decide) (by decide) (by decide), find_node,
      if_neg (by decide), hsignal]
  refine ⟨hwf, ?_, ?_, ?_, ?_⟩
  · rw [Forest.readsInside, hfind]
    change (f.find "UserMessage").isNone = true
    rw [huser]
    rfl
  · rw [Forest.readsInside, hnone]
    rfl
  · intro user hinside
    rw [Forest.inside, hfind] at hinside
    cases hinside
    exact readableUser_of_shows h
  · intro signal hinside
    rw [Forest.inside, hnone] at hinside
    cases hinside

omit h in
/-- Every message's own envelope is readable. -/
theorem readable_envelope (m : UserMessage) : Readable (wrapForest m.forest) :=
  readable_of_shows m.inner_shows (m.find_signal (by decide)) (m.find_signal (by decide))

end UserMessage

/-! ## Signals -/

namespace Signal

variable (now : Moment)

/-- What stands in a Receipt can be read. -/
theorem readableSignal_receipt (m : UserMessage) : readableSignal (receiptInner now m) = true := by
  have hreference : (receiptInner now m).find "RefToMessageId" =
      some ⟨⟨"eb", "RefToMessageId", []⟩, some (.text m.messageId .nil)⟩ := by
    rw [receiptInner, Forest.find_append, find_reference]
    rfl
  have hid : (receiptInner now m).find "MessageId" =
      some ⟨⟨"eb", "MessageId", []⟩, some (.text (nextId now) .nil)⟩ := by
    rw [receiptInner, Forest.find_append, find_signalId]
    rfl
  have hforest : ∀ n ∈ ["Receipt", "Error", "Description"], m.forest.find n = none := by
    intro n hn
    have hinner : m.inner.find n = none := by
      apply m.find_signal
      simp only [List.mem_cons, List.not_mem_nil, or_false] at hn ⊢
      rcases hn with rfl | rfl | rfl <;> simp
    rw [UserMessage.forest, find_node, if_neg, hinner]
    rintro rfl
    exact absurd hn (by decide)
  have hreceipt : (receiptInner now m).find "Receipt" =
      some ⟨⟨"eb", "Receipt", []⟩, some m.forest⟩ := by
    rw [receiptInner, Forest.find_append, find_infoForest now _ (by decide), Option.none_or,
      find_node, if_pos rfl]
  have hnone : ∀ n ∈ ["Error", "Description"], (receiptInner now m).find n = none := by
    intro n hn
    have hinfo : (infoForest now (some m.messageId)).find n = none := by
      apply find_infoForest
      simp only [List.mem_cons, List.not_mem_nil, or_false] at hn ⊢
      rcases hn with rfl | rfl <;> simp
    rw [receiptInner, Forest.find_append, hinfo, Option.none_or, find_node, if_neg,
      hforest n (List.mem_cons_of_mem _ hn)]
    rintro rfl
    exact absurd hn (by decide)
  have hinside : (receiptInner now m).readsInside "Receipt" = true := by
    rw [Forest.readsInside, hreceipt]
    change (m.forest.find "Receipt").isNone = true
    rw [hforest _ (by decide)]
    rfl
  have herror : (receiptInner now m).readsAttributes "Error" = true := by
    rw [Forest.readsAttributes, hnone _ (by decide)]
    rfl
  have hdescription := readsText_of_none (hnone "Description" (by decide))
  simp only [readableSignal, List.all_cons, List.all_nil, readsText_of_find hreference,
    readsText_of_find hid, hdescription, hinside, herror, Bool.and_self]

/-- What stands in an Error can be read. -/
theorem readableSignal_error (refTo : Option String) (code description : String) :
    readableSignal (errorInner now refTo code description) = true := by
  have hreference : (errorInner now refTo code description).readsText "RefToMessageId" = true := by
    rw [Forest.readsText, errorInner, Forest.find_append, find_reference]
    cases refTo with
    | none => simp
    | some id => rfl
  have hid : (errorInner now refTo code description).find "MessageId" =
      some ⟨⟨"eb", "MessageId", []⟩, some (.text (nextId now) .nil)⟩ := by
    rw [errorInner, Forest.find_append, find_signalId]
    rfl
  have hdescription : (errorInner now refTo code description).find "Description" =
      some ⟨⟨"eb", "Description", [("xml:lang", "en")]⟩, some (.text description .nil)⟩ := by
    rw [errorInner, Forest.find_append, find_infoForest now _ (by decide), Option.none_or]
    simp
  have hreceipt : (errorInner now refTo code description).readsInside "Receipt" = true := by
    rw [Forest.readsInside, errorInner, Forest.find_append, find_infoForest now _ (by decide)]
    simp
  have herror : (errorInner now refTo code description).readsAttributes "Error" = true := by
    have hnames : ["category", "errorCode", "origin", "severity"].all
        (fun a => !a.toList.contains ':') = true := by decide
    simp only [List.all_cons, List.all_nil] at hnames
    rw [Forest.readsAttributes, errorInner, Forest.find_append, find_infoForest now _ (by decide),
      Option.none_or, find_node, if_pos rfl, Option.all_some, Markup.Tag.isUnprefixed]
    simp only [List.all_cons, List.all_nil]
    exact hnames
  simp only [readableSignal, List.all_cons, List.all_nil, hreference, readsText_of_find hid,
    readsText_of_find hdescription, hreceipt, herror, Bool.and_self]

/-- The envelope of a Signal is readable where the Signal is, and where the User Message that
stands in it is, if one does. -/
theorem readable_wrapped {inner : Forest} (hwf : inner.wf = true)
    (hnone : inner.find "SignalMessage" = none) (hinner : readableSignal inner = true)
    (huser : inner.readsInside "UserMessage" = true)
    (hinUser : ∀ user, inner.inside "UserMessage" = some user → readableUser user = true) :
    Readable (wrapForest (node "SignalMessage" [] inner)) := by
  have hfind := find_wrapped_signal inner
  have hother : (wrapForest (node "SignalMessage" [] inner)).find "UserMessage" =
      inner.find "UserMessage" := by
    rw [find_wrapForest (by decide) (by decide) (by decide) (by decide), find_node,
      if_neg (by decide)]
  refine ⟨wf_wrapped_signal hwf, ?_, ?_, ?_, ?_⟩
  · rw [Forest.readsInside, hother]
    exact huser
  · rw [Forest.readsInside, hfind]
    change (inner.find "SignalMessage").isNone = true
    rw [hnone]
    rfl
  · intro user hinside
    rw [Forest.inside, hother] at hinside
    exact hinUser user hinside
  · intro signal hinside
    rw [Forest.inside, hfind] at hinside
    cases hinside
    exact hinner

/-- Every Receipt is readable. -/
theorem readable_receipt (m : UserMessage) :
    Readable (wrapForest (node "SignalMessage" [] (receiptInner now m))) := by
  have huser : (receiptInner now m).find "UserMessage" =
      some ⟨⟨"eb", "UserMessage", []⟩, some m.inner⟩ := by
    rw [receiptInner, Forest.find_append, find_infoForest now _ (by decide), Option.none_or,
      find_node, if_neg (by decide), UserMessage.forest, find_node, if_pos rfl]
  have hnone : (receiptInner now m).find "SignalMessage" = none := by
    rw [receiptInner, Forest.find_append, find_infoForest now _ (by decide), Option.none_or,
      find_node, if_neg (by decide), UserMessage.forest, find_node, if_neg (by decide),
      m.find_signal (by decide)]
  refine readable_wrapped (receiptInner_wf now m) hnone (readableSignal_receipt now m) ?_ ?_
  · rw [Forest.readsInside, huser]
    change (m.inner.find "UserMessage").isNone = true
    rw [m.find_signal (by decide)]
    rfl
  · intro user hinside
    rw [Forest.inside, huser] at hinside
    cases hinside
    exact UserMessage.readableUser_of_shows m.inner_shows

/-- Every Error is readable. -/
theorem readable_error (refTo : Option String) (code description : String) :
    Readable (wrapForest (node "SignalMessage" [] (errorInner now refTo code description))) := by
  have hnone : ∀ n ∈ ["SignalMessage", "UserMessage"],
      (errorInner now refTo code description).find n = none := by
    intro n hn
    simp only [List.mem_cons, List.not_mem_nil, or_false] at hn
    rcases hn with rfl | rfl <;>
      rw [errorInner, Forest.find_append, find_infoForest now _ (by decide)] <;> simp
  refine readable_wrapped (errorInner_wf now refTo code description) (hnone _ (by decide))
    (readableSignal_error now refTo code description) ?_ ?_
  · rw [Forest.readsInside, hnone _ (by decide)]
    rfl
  · intro user hinside
    rw [Forest.inside, hnone _ (by decide)] at hinside
    cases hinside

end Signal

end As4
