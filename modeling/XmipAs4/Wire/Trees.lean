import XmipAs4.Markup.Layout
import XmipAs4.Wire.Reading

/-!
# The messages in a tree

What a reader with the whole tree before it takes for the User Message and for the Signal of
an envelope.  `from_envelope` never builds the tree: it scans the text, and inside what it
found the text of that.  On the text of every readable tree, whoever wrote it and whatever is
missing from it, the two come to the same message or to the same refusal.
-/

namespace As4

open Markup (Forest Elem Handle)

variable (L : Estate)

/-! ## What a tree says -/

/-- The text of an element that must be there and not be empty. -/
def requiredIn (user : Forest) (name : String) : Result String :=
  okOr ((user.textOf name).filter (· ≠ "")) (L.protocolError ("a UserMessage with no " ++ name))

/-- The party id on one side of the message. -/
def partyIn (user : Forest) (side : String) : Result String :=
  okOr ((user.inside side).bind (Forest.textOf "PartyId"))
    (L.protocolError ("a UserMessage with no " ++ side ++ " party"))

/-- The properties inside the first element of the name. -/
def propertiesUnder (user : Forest) (name : String) : List (String × String) :=
  ((user.inside name).map (Forest.valuesOf "Property" "name")).getD []

/-- The User Message that stands in a `UserMessage` element. -/
def UserMessage.fromTree (user : Forest) : Result UserMessage := do
  let href ← okOr (user.attributeOf "PartInfo" "href")
    (L.protocolError "a UserMessage with no payload reference")
  let messageId ← requiredIn L user "MessageId"
  let fromParty ← partyIn L user "From"
  let toParty ← partyIn L user "To"
  let service ← requiredIn L user "Service"
  let action ← requiredIn L user "Action"
  .ok { messageId, timestamp := (user.textOf "Timestamp").getD "", fromParty, toParty, service,
        action, conversationId := (user.textOf "ConversationId").getD "",
        payloadCid := withoutCid href,
        partyType := (user.inside "From").bind (Forest.attributeOf "PartyId" "type"),
        serviceType := user.attributeOf "Service" "type",
        agreement := user.textOf "AgreementRef",
        properties := propertiesUnder user "MessageProperties",
        payloadProperties := propertiesUnder user "PartInfo" }

/-- The User Message in a document. -/
def UserMessage.fromDocument (document : Forest) : Result UserMessage := do
  let user ← okOr (document.inside "UserMessage")
    (L.protocolError "an envelope with no UserMessage in it")
  UserMessage.fromTree L user

/-- The Signal that stands in a `SignalMessage` element. -/
def Signal.fromTree (signal : Forest) : Result Signal :=
  if (signal.inside "Receipt").isSome then do
    let refTo ← okOr (signal.textOf "RefToMessageId")
      (L.protocolError "a Receipt naming no message")
    .ok (Receipt refTo ((signal.textOf "MessageId").getD ""))
  else do
    let code ← okOr (signal.attributeOf "Error" "errorCode")
      (L.protocolError "a SignalMessage that is neither Receipt nor Error")
    .ok (Error (signal.textOf "RefToMessageId") code ((signal.textOf "Description").getD ""))

/-- The Signal in a document. -/
def Signal.fromDocument (document : Forest) : Result Signal := do
  let signal ← okOr (document.inside "SignalMessage")
    (L.protocolError "an answer with no SignalMessage in it")
  Signal.fromTree L signal

/-! ## Which trees are readable -/

/-- What stands on a side of a message can be read. -/
def readableSide (side : Forest) : Bool :=
  side.readsText "PartyId" && side.readsAttributes "PartyId"

/-- All that is asked of a `UserMessage` element can be read in the tree. -/
def readableUser (user : Forest) : Bool :=
  (["MessageId", "Timestamp", "Service", "Action", "ConversationId", "AgreementRef"].all
    fun n => user.readsText n) &&
  (["PartInfo", "Service"].all fun n => user.readsAttributes n) &&
  (["From", "To"].all fun n => user.readsInside n && (user.inside n).all readableSide) &&
  (["MessageProperties", "PartInfo"].all fun n =>
    user.readsInside n && (user.inside n).all (Forest.readsValues "Property" "name"))

/-- All that is asked of a `SignalMessage` element can be read in the tree. -/
def readableSignal (signal : Forest) : Bool :=
  (["RefToMessageId", "MessageId", "Description"].all fun n => signal.readsText n) &&
  signal.readsInside "Receipt" && signal.readsAttributes "Error"

/-- A document whose first `UserMessage` and `SignalMessage`, where there are such, can be
read. -/
structure Readable (document : Forest) : Prop where
  wf : document.wf = true
  user : document.readsInside "UserMessage" = true
  signal : document.readsInside "SignalMessage" = true
  inUser : ∀ user, document.inside "UserMessage" = some user → readableUser user = true
  inSignal : ∀ signal, document.inside "SignalMessage" = some signal → readableSignal signal = true

/-! ## Reading them -/

section Reading

variable {L} (hX : L.xml.Lawful) {f : Forest} (hf : f.wf = true)
include hX hf

/-- A text that must be there is read off the tree. -/
theorem required_eq {n : String} (h : f.readsText n = true) :
    required L (f.render L.xml.escape) n = requiredIn L f n := by
  rw [required, hX.text_eq hf h, ok_bind]
  rfl

/-- A party is read off the tree. -/
theorem party_eq {side : String} (h : f.readsInside side = true)
    (hside : (f.inside side).all readableSide = true) :
    party L (f.render L.xml.escape) side = partyIn L f side := by
  rw [party, hX.content_eq hf h, partyIn]
  cases hinside : f.inside side with
  | none => rfl
  | some g =>
    rw [hinside, Option.all_some, readableSide, Bool.and_eq_true] at hside
    simp only [Option.map_some, Option.bind_some]
    rw [hX.text_eq (Forest.wf_inside hf hinside) hside.1, ok_bind]

/-- The sending party's type is read off the tree. -/
theorem partyTypeOf_eq (h : f.readsInside "From" = true)
    (hside : (f.inside "From").all readableSide = true) :
    partyTypeOf L (f.render L.xml.escape) =
      .ok ((f.inside "From").bind (Forest.attributeOf "PartyId" "type")) := by
  rw [partyTypeOf, hX.content_eq hf h]
  cases hinside : f.inside "From" with
  | none => rfl
  | some g =>
    rw [hinside, Option.all_some, readableSide, Bool.and_eq_true] at hside
    simp only [Option.map_some, Option.bind_some]
    exact hX.attribute_eq (Forest.wf_inside hf hinside) hside.2 "type"

omit hX hf in
/-- Handles on elements that can be read give their values. -/
theorem propertiesOf_eq {hs : List (Handle TransportError)} {es : List Elem}
    (h : List.Forall₂ Handle.Matches hs es) (hes : es.all (Elem.isValue "name") = true) :
    propertiesOf hs = .ok (es.filterMap (Elem.value "name")) := by
  induction h with
  | nil => rfl
  | @cons handle e hs es hmatches _ ih =>
    rw [List.all_cons, Bool.and_eq_true, Elem.isValue, Bool.and_eq_true] at hes
    obtain ⟨⟨hunprefixed, hinner⟩, hrest⟩ := hes
    have hname := hmatches.attributeOf (Markup.Tag.unprefixed_of_isUnprefixed hunprefixed) "name"
    rw [propertiesOf, hmatches.closedItself, ih hrest]
    obtain ⟨tag, inner⟩ := e
    cases inner with
    | none =>
      rw [Option.isNone_none, if_pos rfl, List.filterMap_cons_none rfl]
    | some inner =>
      rw [Option.isNone_some, if_neg Bool.false_ne_true, hname, ok_bind]
      simp only at hinner ⊢
      cases hlookup : tag.attrs.lookup "name" with
      | none =>
        rw [List.filterMap_cons_none]
        change (tag.attrs.lookup "name").map _ = none
        rw [hlookup]
        rfl
      | some name =>
        rw [hlookup, Option.all_some, Option.isNone_some, Bool.and_false, Bool.or_false] at hinner
        obtain ⟨s, hs⟩ := Option.isSome_iff_exists.mp hinner
        have hvalue : Elem.value "name" ⟨tag, some inner⟩ = some (name, s) := by
          change (tag.attrs.lookup "name").map _ = _
          rw [hlookup, hs]
          rfl
        simp only
        rw [hmatches.text inner s rfl hs, ok_bind, ok_bind, List.filterMap_cons_some hvalue]

/-- The properties inside an element are read off the tree. -/
theorem propertiesIn_tree {n : String} (h : f.readsInside n = true)
    (hvalues : (f.inside n).all (Forest.readsValues "Property" "name") = true) :
    propertiesIn L (L.xml.content (f.render L.xml.escape) n) = .ok (propertiesUnder f n) := by
  rw [hX.content_eq hf h, propertiesUnder]
  cases hinside : f.inside n with
  | none => rfl
  | some g =>
    rw [hinside, Option.all_some] at hvalues
    exact propertiesOf_eq (hX.elements_eq (Forest.wf_inside hf hinside) hvalues) hvalues

/-- A `UserMessage` element is read as its tree. -/
theorem UserMessage.fromElement_tree (h : readableUser f = true) :
    UserMessage.fromElement L (f.render L.xml.escape) = UserMessage.fromTree L f := by
  simp only [readableUser, Bool.and_eq_true, List.all_cons, List.all_nil, Bool.and_true] at h
  obtain ⟨⟨⟨⟨hid, hstamp, hservice, haction, hconversation, hagreement⟩, hpart, htype⟩,
    ⟨hfrom, hsender⟩, hto, hreceiver⟩, ⟨hgroup, hproperties⟩, hinfo, hpayload⟩ := h
  unfold UserMessage.fromElement UserMessage.fromTree
  rw [hX.attribute_eq hf hpart, ok_bind, required_eq hX hf hid, hX.text_eq hf hstamp,
    party_eq hX hf hfrom hsender, party_eq hX hf hto hreceiver, required_eq hX hf hservice,
    required_eq hX hf haction, hX.text_eq hf hconversation, partyTypeOf_eq hX hf hfrom hsender,
    hX.attribute_eq hf htype, hX.text_eq hf hagreement, propertiesIn_tree hX hf hgroup hproperties,
    propertiesIn_tree hX hf hinfo hpayload]
  rfl

/-- A `SignalMessage` element is read as its tree. -/
theorem Signal.fromElement_tree (h : readableSignal f = true) :
    Signal.fromElement L (f.render L.xml.escape) = Signal.fromTree L f := by
  simp only [readableSignal, Bool.and_eq_true, List.all_cons, List.all_nil, Bool.and_true] at h
  obtain ⟨⟨⟨hreference, hid, hdescription⟩, hreceipt⟩, herror⟩ := h
  unfold Signal.fromElement Signal.fromTree
  rw [hX.text_eq hf hreference, ok_bind, hX.content_eq hf hreceipt, hX.text_eq hf hid,
    hX.attribute_eq hf herror, hX.text_eq hf hdescription, Option.isSome_map]
  rfl

end Reading

section Documents

variable {L} (hX : L.xml.Lawful) {document : Forest} (h : Readable document)
include hX h

/-- The User Message in a document is read as its tree. -/
theorem UserMessage.fromEnvelope_document :
    UserMessage.fromEnvelope L (document.render L.xml.escape) =
      UserMessage.fromDocument L document := by
  unfold UserMessage.fromEnvelope UserMessage.fromDocument
  rw [hX.content_eq h.wf h.user]
  cases hinside : document.inside "UserMessage" with
  | none => rfl
  | some user =>
    rw [Option.map_some, okOr_some, okOr_some, ok_bind, ok_bind]
    exact UserMessage.fromElement_tree hX (Forest.wf_inside h.wf hinside) (h.inUser user hinside)

/-- The Signal in a document is read as its tree. -/
theorem Signal.fromEnvelope_document :
    Signal.fromEnvelope L (document.render L.xml.escape) = Signal.fromDocument L document := by
  unfold Signal.fromEnvelope Signal.fromDocument
  rw [hX.content_eq h.wf h.signal]
  cases hinside : document.inside "SignalMessage" with
  | none => rfl
  | some signal =>
    rw [Option.map_some, okOr_some, okOr_some, ok_bind, ok_bind]
    exact Signal.fromElement_tree hX (Forest.wf_inside h.wf hinside) (h.inSignal signal hinside)

end Documents

/-! ## Layout does not matter -/

section Cores

variable {f : Forest}

/-- A text that must be there is the same without the layout. -/
theorem requiredIn_core {n : String} (h : f.readsText n = true) :
    requiredIn L f.core n = requiredIn L f n := by
  rw [requiredIn, Forest.textOf_core h, requiredIn]

/-- A party is the same without the layout. -/
theorem partyIn_core {side : String} (hside : (f.inside side).all readableSide = true) :
    partyIn L f.core side = partyIn L f side := by
  rw [partyIn, Forest.inside_core, partyIn]
  cases hinside : f.inside side with
  | none => rfl
  | some g =>
    rw [hinside, Option.all_some, readableSide, Bool.and_eq_true] at hside
    rw [Option.map_some, Option.bind_some, Option.bind_some, Forest.textOf_core hside.1]

/-- Properties are the same without the layout. -/
theorem propertiesUnder_core {n : String}
    (h : (f.inside n).all (Forest.readsValues "Property" "name") = true) :
    propertiesUnder f.core n = propertiesUnder f n := by
  rw [propertiesUnder, Forest.inside_core, propertiesUnder]
  cases hinside : f.inside n with
  | none => rfl
  | some g =>
    rw [hinside, Option.all_some] at h
    rw [Option.map_some, Option.map_some, Option.map_some,
      Forest.valuesOf_core (by decide) h]

/-- A `UserMessage` element says the same without its layout. -/
theorem UserMessage.fromTree_core (h : readableUser f = true) :
    UserMessage.fromTree L f.core = UserMessage.fromTree L f := by
  simp only [readableUser, Bool.and_eq_true, List.all_cons, List.all_nil, Bool.and_true] at h
  obtain ⟨⟨⟨⟨hid, hstamp, hservice, haction, hconversation, hagreement⟩, -, -⟩,
    ⟨-, hsender⟩, -, hreceiver⟩, ⟨-, hproperties⟩, -, hpayload⟩ := h
  have hkind : (f.core.inside "From").bind (Forest.attributeOf "PartyId" "type") =
      (f.inside "From").bind (Forest.attributeOf "PartyId" "type") := by
    rw [Forest.inside_core, Option.bind_map]
    congr 1
    funext g
    exact Forest.attributeOf_core "PartyId" (by decide) g
  unfold UserMessage.fromTree
  rw [Forest.attributeOf_core "PartInfo" (by decide), requiredIn_core L hid,
    partyIn_core L hsender, partyIn_core L hreceiver, requiredIn_core L hservice,
    requiredIn_core L haction, Forest.textOf_core hstamp, Forest.textOf_core hconversation, hkind,
    Forest.attributeOf_core "Service" (by decide), Forest.textOf_core hagreement,
    propertiesUnder_core hproperties, propertiesUnder_core hpayload]

/-- A `SignalMessage` element says the same without its layout. -/
theorem Signal.fromTree_core (h : readableSignal f = true) :
    Signal.fromTree L f.core = Signal.fromTree L f := by
  simp only [readableSignal, Bool.and_eq_true, List.all_cons, List.all_nil, Bool.and_true] at h
  obtain ⟨⟨⟨hreference, hid, hdescription⟩, -⟩, -⟩ := h
  unfold Signal.fromTree
  rw [Forest.inside_core, Option.isSome_map, Forest.textOf_core hreference, Forest.textOf_core hid,
    Forest.textOf_core hdescription, Forest.attributeOf_core "Error" (by decide)]

variable {document : Forest} (h : Readable document)
include h

/-- A document carries the same User Message without its layout. -/
theorem UserMessage.fromDocument_core :
    UserMessage.fromDocument L document.core = UserMessage.fromDocument L document := by
  unfold UserMessage.fromDocument
  rw [Forest.inside_core]
  cases hinside : document.inside "UserMessage" with
  | none => rfl
  | some user =>
    rw [Option.map_some, okOr_some, okOr_some, ok_bind, ok_bind]
    exact UserMessage.fromTree_core L (h.inUser user hinside)

/-- A document carries the same Signal without its layout. -/
theorem Signal.fromDocument_core :
    Signal.fromDocument L document.core = Signal.fromDocument L document := by
  unfold Signal.fromDocument
  rw [Forest.inside_core]
  cases hinside : document.inside "SignalMessage" with
  | none => rfl
  | some signal =>
    rw [Option.map_some, okOr_some, okOr_some, ok_bind, ok_bind]
    exact Signal.fromTree_core L (h.inSignal signal hinside)

end Cores

/-- Two readable documents that are the same but for their layout carry the same User Message
and the same Signal, or are refused alike. -/
theorem read_alike {L : Estate} (hX : L.xml.Lawful) {f g : Forest} (hf : Readable f)
    (hg : Readable g) (hcore : f.core = g.core) :
    UserMessage.fromEnvelope L (f.render L.xml.escape) =
        UserMessage.fromEnvelope L (g.render L.xml.escape) ∧
      Signal.fromEnvelope L (f.render L.xml.escape) =
        Signal.fromEnvelope L (g.render L.xml.escape) := by
  constructor
  · rw [UserMessage.fromEnvelope_document hX hf, UserMessage.fromEnvelope_document hX hg,
      ← UserMessage.fromDocument_core L hf, ← UserMessage.fromDocument_core L hg, hcore]
  · rw [Signal.fromEnvelope_document hX hf, Signal.fromEnvelope_document hX hg,
      ← Signal.fromDocument_core L hf, ← Signal.fromDocument_core L hg, hcore]

end As4
