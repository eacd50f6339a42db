import XmipAs4.Exchange.Gates
import XmipAs4.Exchange.Payload
import XmipAs4.Wire.Foreign

/-!
# The copy in a Receipt

A Receipt carries a copy of the User Message it answers.  The copy is not the element that
was posted: it is written anew from the record that was read of it, which has one type for
both parties, no roles, one part, and a text where an element may have been missing.  So the
copy agrees with what was posted exactly where the element posted says nothing that the
record has no place for.
-/

namespace As4

open Markup (Forest Elem Handle)
open Multipart (Bytes)

/-! ## What a header says -/

/-- What is read of one party: how many ids there are, the first of them, its type, and the
role. -/
@[ext] structure Side where
  ids : ℕ
  id : Result (Option String)
  kind : Result (Option String)
  role : Result (Option String)

/-- What is read of a property: its name, and its text unless it closed itself. -/
abbrev PropertyRead := Result (Option String) × Option (Result String)

/-- What is read of a `UserMessage` element. -/
@[ext] structure Header where
  sender : Side
  receiver : Side
  agreement : Result (Option String)
  service : Result (Option String)
  serviceType : Result (Option String)
  action : Result (Option String)
  conversationId : Result (Option String)
  messageId : Result (Option String)
  timestamp : Result (Option String)
  properties : List PropertyRead
  parts : ℕ
  reference : Result (Option String)
  payloadProperties : List PropertyRead

section Read

variable (L : Estate) (user : String)

/-- One side of the message, with nothing in it where there is no such side. -/
def sideOf (side : String) : Side :=
  match L.xml.content user side with
  | some party => ⟨(L.xml.elements party "PartyId").length, L.xml.text party "PartyId",
      L.xml.attributeOf party "PartyId" "type", L.xml.text party "Role"⟩
  | none => ⟨0, .ok none, .ok none, .ok none⟩

/-- What is read of the property. -/
def propertyRead (property : Handle TransportError) : PropertyRead :=
  (property.attributeOf "name", if property.closedItself then none else some property.text)

/-- What the element says. -/
def headerOf : Header where
  sender := sideOf L user "From"
  receiver := sideOf L user "To"
  agreement := L.xml.text user "AgreementRef"
  service := L.xml.text user "Service"
  serviceType := L.xml.attributeOf user "Service" "type"
  action := L.xml.text user "Action"
  conversationId := L.xml.text user "ConversationId"
  messageId := L.xml.text user "MessageId"
  timestamp := L.xml.text user "Timestamp"
  properties := (propertyHandles L user "MessageProperties").map propertyRead
  parts := (L.xml.elements user "PartInfo").length
  reference := L.xml.attributeOf user "PartInfo" "href"
  payloadProperties := (propertyHandles L user "PartInfo").map propertyRead

/-- The receiver in a header is what is read of that side. -/
theorem receiver_headerOf : (headerOf L user).receiver = sideOf L user "To" := rfl

/-- A property that is kept: it is open, and has a name. -/
def KeptProperty (property : Handle TransportError) : Prop :=
  property.closedItself = false ∧ property.attributeOf "name" ≠ .ok none

/-- The element says nothing that a record of it would lose: one id and the fixed role on
each side and one type for both, a timestamp and a conversation, one part whose content id is
written behind one `cid:`, and no property that is closed or without a name. -/
structure Faithful : Prop where
  senderIds : (sideOf L user "From").ids = 1
  senderRole : (sideOf L user "From").role = .ok (some initiator)
  receiverIds : (sideOf L user "To").ids = 1
  receiverRole : (sideOf L user "To").role = .ok (some responder)
  kind : (sideOf L user "To").kind = (sideOf L user "From").kind
  timestamp : L.xml.text user "Timestamp" ≠ .ok none
  conversationId : L.xml.text user "ConversationId" ≠ .ok none
  parts : (L.xml.elements user "PartInfo").length = 1
  reference : ∃ cid, L.xml.attributeOf user "PartInfo" "href" = .ok (some ("cid:" ++ cid)) ∧
    ¬ "cid:".toList <+: cid.toList
  properties : ∀ property ∈ propertyHandles L user "MessageProperties", KeptProperty property
  payloadProperties : ∀ property ∈ propertyHandles L user "PartInfo", KeptProperty property

end Read

/-! ## What this crate writes -/

/-- A property as it is written. -/
def propertyWritten (p : String × String) : PropertyRead :=
  (.ok (some p.1), some (.ok p.2))

/-- What the element that this crate writes for the message says. -/
def UserMessage.header (m : UserMessage) : Header where
  sender := ⟨1, .ok (some m.fromParty), .ok m.partyType, .ok (some initiator)⟩
  receiver := ⟨1, .ok (some m.toParty), .ok m.partyType, .ok (some responder)⟩
  agreement := .ok m.agreement
  service := .ok (some m.service)
  serviceType := .ok m.serviceType
  action := .ok (some m.action)
  conversationId := .ok (some m.conversationId)
  messageId := .ok (some m.messageId)
  timestamp := .ok (some m.timestamp)
  properties := m.properties.map propertyWritten
  parts := 1
  reference := .ok (some ("cid:" ++ m.payloadCid))
  payloadProperties := m.payloadProperties.map propertyWritten

/-- Handles on written properties read as they were written. -/
theorem map_propertyRead_matches {ps : List (String × String)} {hs : List (Handle TransportError)}
    (h : List.Forall₂ Handle.Matches hs (ps.map fun p =>
      ⟨⟨"eb", "Property", [("name", p.1)]⟩, some (.text p.2 .nil)⟩)) :
    hs.map propertyRead = ps.map propertyWritten := by
  induction ps generalizing hs with
  | nil =>
    rw [List.map_nil, List.forall₂_nil_right_iff] at h
    rw [h, List.map_nil, List.map_nil]
  | cons p ps ih =>
    rw [List.map_cons, List.forall₂_cons_right_iff] at h
    obtain ⟨handle, rest, hp, hrest, rfl⟩ := h
    obtain ⟨hclosed, hattr, htext⟩ := property_of_matches hp
    rw [List.map_cons, List.map_cons, ih hrest, propertyRead, hattr, hclosed,
      if_neg Bool.false_ne_true, htext, propertyWritten]

section Written

variable {L : Estate} (hX : L.xml.Lawful)
include hX

/-- One element of a name, with none of the name in it, is handed out once. -/
theorem length_elements_of_all {f : Forest} (hf : f.wf = true) {n : String} {e : Elem}
    (hall : f.all n = [e]) (hflat : ∀ inner, e.inner = some inner → inner.find n = none) :
    (L.xml.elements (f.render L.xml.escape) n).length = 1 := by
  have hmatches := hX.elements_all f n hf (by
    intro e' he'
    rw [hall, List.mem_singleton] at he'
    rw [he']
    exact hflat)
  rw [hmatches.length_eq, hall, List.length_singleton]

/-- A side of a message as it is written is read. -/
theorem sideOf_of_find {f : Forest} (hf : f.wf = true) {side id role : String}
    {kind : Option String} {t : Markup.Tag}
    (h : f.find side = some ⟨t, some (leaf "PartyId" (typeAttr kind) id ++ leaf "Role" [] role)⟩)
    (hid : side ≠ "PartyId") (hrole : side ≠ "Role") :
    sideOf L (f.render L.xml.escape) side =
      ⟨1, .ok (some id), .ok kind, .ok (some role)⟩ := by
  have hwf := wf_side kind id role
  have hcontent := content_of_side hX hf h hid hrole
  have hkind := attribute_of_side hX kind id role
  have hparty := find_partyId kind id role
  have hfindRole : (leaf "PartyId" (typeAttr kind) id ++ leaf "Role" [] role).find "Role" =
      some ⟨⟨"eb", "Role", []⟩, some (.text role .nil)⟩ := by
    simp [Forest.find_append]
  have hall : (leaf "PartyId" (typeAttr kind) id ++ leaf "Role" [] role).all "PartyId" =
      [⟨⟨"eb", "PartyId", typeAttr kind⟩, some (.text id .nil)⟩] := by
    simp [Forest.all_append]
  have hids := length_elements_of_all hX hwf hall (by
    intro inner hinner
    cases hinner
    rfl)
  rw [sideOf, hcontent]
  simp only
  rw [hids, text_of_find hX hwf hparty, text_of_find hX hwf hfindRole, hkind]

/-- The element that this crate writes holds one part. -/
theorem length_parts_inner (m : UserMessage) :
    (L.xml.elements (m.inner.render L.xml.escape) "PartInfo").length = 1 := by
  have hall := m.all_foreign_parts initiator m.partyType responder []
  rw [← m.inner_eq_foreign, List.map_nil] at hall
  refine length_elements_of_all hX m.inner_wf hall ?_
  intro inner hinner
  cases hinner
  rw [find_groupForest (by decide), if_neg (by simp)]

/-- The element that this crate writes says what it was written from. -/
theorem headerOf_inner (m : UserMessage) : headerOf L (m.inner.render L.xml.escape) = m.header := by
  have hf := m.inner_wf
  have hshows := m.inner_shows
  rw [headerOf, sideOf_of_find hX hf m.find_from (by decide) (by decide),
    sideOf_of_find hX hf m.find_to (by decide) (by decide),
    UserMessage.agreement_of_shows hX hshows, text_of_find hX hf m.find_service,
    UserMessage.serviceType_of_shows hX hshows, text_of_find hX hf m.find_action,
    text_of_find hX hf m.find_conversationId, text_of_find hX hf m.find_messageId,
    text_of_find hX hf m.find_timestamp,
    map_propertyRead_matches (UserMessage.properties_of_shows hX hshows),
    length_parts_inner hX, UserMessage.href_of_shows hX hshows,
    map_propertyRead_matches (UserMessage.payloadProperties_of_shows hX hshows)]
  rfl

end Written

/-! ## What the record keeps -/

/-- A property that reads as it would be written is one that is kept. -/
theorem kept_of_written {p : String × String} {property : Handle TransportError}
    (h : propertyWritten p = propertyRead property) : KeptProperty property := by
  rw [propertyWritten, propertyRead, Prod.mk.injEq] at h
  obtain ⟨hname, htext⟩ := h
  constructor
  · by_contra hclosed
    rw [if_pos (Bool.eq_true_of_not_eq_false hclosed)] at htext
    cases htext
  · rw [← hname]
    simp

/-- The properties that are read of an element are those it holds exactly where all of them
are kept. -/
theorem map_propertyRead_iff {hs : List (Handle TransportError)} {ps : List (String × String)}
    (h : propertiesOf hs = .ok ps) :
    ps.map propertyWritten = hs.map propertyRead ↔ ∀ property ∈ hs, KeptProperty property := by
  induction hs generalizing ps with
  | nil =>
    rw [propertiesOf, Except.ok.injEq] at h
    simp [← h]
  | cons property rest ih =>
    by_cases hkept : KeptProperty property
    · obtain ⟨hclosed, hname⟩ := hkept
      rw [propertiesOf, hclosed, if_neg Bool.false_ne_true] at h
      obtain ⟨name, hattr, h⟩ := bind_eq_ok h
      cases name with
      | none => exact absurd hattr hname
      | some name =>
        obtain ⟨value, htext, h⟩ := bind_eq_ok h
        obtain ⟨found, hfound, h⟩ := bind_eq_ok h
        cases h
        have hread : propertyRead property = propertyWritten (name, value) := by
          rw [propertyRead, hattr, hclosed, if_neg Bool.false_ne_true, htext, propertyWritten]
        rw [List.map_cons, List.map_cons, hread, List.cons_inj_right, ih hfound,
          List.forall_mem_cons]
        exact ⟨fun hrest => ⟨⟨hclosed, hname⟩, hrest⟩, fun hall => hall.2⟩
    · constructor
      · intro heq
        cases ps with
        | nil => cases heq
        | cons p ps =>
          rw [List.map_cons, List.map_cons, List.cons.injEq] at heq
          exact absurd (kept_of_written heq.1) hkept
      · intro hall
        exact absurd (hall property (List.mem_cons_self ..)) hkept

section Kept

variable {L : Estate} {user : String}

/-- A text that must be there is. -/
theorem text_of_required {name s : String} (h : required L user name = .ok s) :
    L.xml.text user name = .ok (some s) := by
  obtain ⟨text, htext, h⟩ := bind_eq_ok h
  have hfilter := okOr_eq_ok h
  rw [htext, (Option.filter_eq_some_iff.mp hfilter).1]

/-- A text that is read as empty where it is missing is kept exactly where it is there. -/
theorem text_kept_iff {name : String} {text : Option String}
    (h : L.xml.text user name = .ok text) :
    (.ok (some (text.getD "")) : Result (Option String)) = L.xml.text user name ↔
      L.xml.text user name ≠ .ok none := by
  rw [h]
  cases text <;> simp

/-- The reference is kept exactly where the content id is written behind one `cid:`. -/
theorem reference_kept_iff {href : String} :
    "cid:" ++ withoutCid href = href ↔
      ∃ cid, href = "cid:" ++ cid ∧ ¬ "cid:".toList <+: cid.toList := by
  constructor
  · intro h
    exact ⟨withoutCid href, h.symm, (bare_withoutCid href).base_clean⟩
  · rintro ⟨cid, rfl, hclean⟩
    rw [withoutCid_append, withoutCid_of_clean hclean]

/-- A party that is read is the first on its side. -/
theorem id_of_party {side id : String} (h : party L user side = .ok id) :
    (sideOf L user side).id = .ok (some id) := by
  unfold sideOf
  cases hcontent : L.xml.content user side with
  | none =>
    rw [party, hcontent] at h
    cases h
  | some text =>
    rw [party, hcontent] at h
    obtain ⟨read, hread, h⟩ := bind_eq_ok h
    rw [okOr_eq_ok h] at hread
    exact hread

/-- The type that is read is that of the party that sends. -/
theorem kind_of_partyType {kind : Option String} (h : partyTypeOf L user = .ok kind) :
    (sideOf L user "From").kind = .ok kind := by
  rw [← h]
  unfold sideOf partyTypeOf
  cases L.xml.content user "From" <;> rfl

/-- The side that sends is kept exactly where it has one id and the role that is written. -/
theorem sender_kept_iff {id : String} {kind : Option String}
    (hid : (sideOf L user "From").id = .ok (some id))
    (hkind : (sideOf L user "From").kind = .ok kind) :
    ⟨1, .ok (some id), .ok kind, .ok (some initiator)⟩ = sideOf L user "From" ↔
      (sideOf L user "From").ids = 1 ∧
        (sideOf L user "From").role = .ok (some initiator) := by
  rw [Side.ext_iff, hid, hkind]
  constructor
  · rintro ⟨hids, -, -, hrole⟩
    exact ⟨hids.symm, hrole.symm⟩
  · rintro ⟨hids, hrole⟩
    exact ⟨hids.symm, rfl, rfl, hrole.symm⟩

/-- The side that is sent to is kept exactly where it has one id, of the type of the other
side's, and the role that is written. -/
theorem receiver_kept_iff {id : String} {kind : Option String}
    (hid : (sideOf L user "To").id = .ok (some id))
    (hkind : (sideOf L user "From").kind = .ok kind) :
    ⟨1, .ok (some id), .ok kind, .ok (some responder)⟩ = sideOf L user "To" ↔
      (sideOf L user "To").ids = 1 ∧
        (sideOf L user "To").kind = (sideOf L user "From").kind ∧
          (sideOf L user "To").role = .ok (some responder) := by
  rw [Side.ext_iff, hid, hkind]
  constructor
  · rintro ⟨hids, -, hkind, hrole⟩
    exact ⟨hids.symm, hkind.symm, hrole.symm⟩
  · rintro ⟨hids, hkind, hrole⟩
    exact ⟨hids.symm, rfl, hkind.symm, hrole.symm⟩

/-- What this crate writes for a message that was read says what the element read said
exactly where that said nothing which the record would lose. -/
theorem header_eq_iff {m : UserMessage} (h : Described L user m) :
    m.header = headerOf L user ↔ Faithful L user := by
  have hsender := sender_kept_iff (id_of_party h.fromParty) (kind_of_partyType h.partyType)
  have hreceiver := receiver_kept_iff (id_of_party h.toParty) (kind_of_partyType h.partyType)
  have htimestamp : .ok (some m.timestamp) = L.xml.text user "Timestamp" ↔
      L.xml.text user "Timestamp" ≠ .ok none := by
    obtain ⟨text, htext, hm⟩ := h.timestamp
    rw [hm]
    exact text_kept_iff htext
  have hconversation : .ok (some m.conversationId) = L.xml.text user "ConversationId" ↔
      L.xml.text user "ConversationId" ≠ .ok none := by
    obtain ⟨text, htext, hm⟩ := h.conversationId
    rw [hm]
    exact text_kept_iff htext
  have hreference : .ok (some ("cid:" ++ m.payloadCid)) = L.xml.attributeOf user "PartInfo" "href" ↔
      ∃ cid, L.xml.attributeOf user "PartInfo" "href" = .ok (some ("cid:" ++ cid)) ∧
        ¬ "cid:".toList <+: cid.toList := by
    obtain ⟨href, hhref, hm⟩ := h.reference
    rw [hm, hhref]
    simp only [Except.ok.injEq, Option.some.injEq]
    exact reference_kept_iff
  have hproperties := h.properties
  have hpayload := h.payloadProperties
  rw [propertiesIn_eq] at hproperties hpayload
  rw [Header.ext_iff]
  constructor
  · rintro ⟨hfrom, hto, -, -, -, -, hconv, -, htime, hprops, hparts, href, hpartProps⟩
    obtain ⟨hids, hrole⟩ := hsender.mp hfrom
    obtain ⟨hids', hkind, hrole'⟩ := hreceiver.mp hto
    exact ⟨hids, hrole, hids', hrole', hkind, htimestamp.mp htime, hconversation.mp hconv,
      hparts.symm, hreference.mp href, (map_propertyRead_iff hproperties).mp hprops,
      (map_propertyRead_iff hpayload).mp hpartProps⟩
  · intro hf
    exact ⟨hsender.mpr ⟨hf.senderIds, hf.senderRole⟩,
      hreceiver.mpr ⟨hf.receiverIds, hf.kind, hf.receiverRole⟩, h.agreement.symm,
      (text_of_required h.service).symm, h.serviceType.symm, (text_of_required h.action).symm,
      hconversation.mpr hf.conversationId, (text_of_required h.messageId).symm,
      htimestamp.mpr hf.timestamp, (map_propertyRead_iff hproperties).mpr hf.properties,
      hf.parts.symm, hreference.mpr hf.reference,
      (map_propertyRead_iff hpayload).mpr hf.payloadProperties⟩

end Kept

/-! ## The Receipt answered -/

/-- The answers of signed Receipts that a request earns: at once, where its message was
taken before; and to the verdict that accepts it, whatever else was remembered since. -/
inductive ReceiptFor (L : Estate) (t : As4Transport) (request : Request) : Response → Prop where
  | again {now : Moment} {peer : SocketAddr} {answer : Response}
      (hhear : t.hear L now request peer = .Answered (.ok none) answer) :
      ReceiptFor L t request answer
  | accepted {now judged : Moment} {peer : SocketAddr} {m : UserMessage} {originUri : String}
      {bytes : Bytes} {sender : Sender} {ids : List String} {answer : Response}
      (hhear : t.hear L now request peer = .Waiting (.ok (some (m, originUri, bytes, sender))))
      (hanswer : ((t.remembering ids).receipting.answer L judged m .Accepted).1 = .ok answer) :
      ReceiptFor L t request answer

/-- It is the Receipt of the message that the request is read as. -/
theorem ReceiptFor.receipt {L : Estate} {t : As4Transport} {request : Request}
    {answer : Response} (h : ReceiptFor L t request answer) :
    ∃ now judged m bytes, t.unpack L now request = .ok (m, bytes) ∧
      t.receipting.receipt L judged m = .ok answer := by
  cases h with
  | @again now peer _ hhear =>
    have hh := t.hears L now request peer
    rw [hhear] at hh
    cases hh with
    | again hunpack _ _ hreceipt => exact ⟨_, _, _, _, hunpack, hreceipt⟩
  | @accepted _ judged _ m _ _ _ ids _ hhear hanswer =>
    obtain ⟨m', bytes, hunpack, -, -, hsaid⟩ := hear_waiting_iff.mp hhear
    cases hsaid
    refine ⟨_, judged, _, _, hunpack, ?_⟩
    rw [← receipt_remembering L t ids]
    cases hreceipt : (t.remembering ids).receipting.receipt L judged m with
    | ok a =>
      rw [Receipting.answer_accepted hreceipt] at hanswer
      exact hanswer
    | error e =>
      rw [Receipting.answer_unsigned hreceipt] at hanswer
      cases hanswer

/-- The envelope read off the answer holds the copy of a User Message. -/
def CopyIn (L : Estate) (answer : Response) (copy : String) : Prop :=
  ∃ signed, Mime.unpack L ((L.headerValue answer.headers "Content-Type").getD "") answer.body =
      .ok (signed, []) ∧
    L.xml.content signed "UserMessage" = some copy

section Answered

variable {L : Estate} (hL : L.Lawful)
include hL

/-- In a signed Receipt there is what this crate writes for the message. -/
theorem copyIn_receipt {r : Receipting} {now : Moment} {m : UserMessage} {answer : Response}
    (hsigner : r.signer.Leaves L "UserMessage") (h : r.receipt L now m = .ok answer) :
    CopyIn L answer (m.inner.render L.xml.escape) := by
  obtain ⟨signed, hsigned, rfl⟩ := Receipting.receipt_eq_ok.mp h
  refine ⟨signed, unpack_answer hL now 200 signed, ?_⟩
  rw [hsigner now _ [] signed hsigned]
  exact UserMessage.content_receipt hL.xml now m

/-- For every POST that earns a Receipt, the User Message in the Receipt says what the User
Message posted says exactly where that says nothing which the record read of it would
lose. -/
theorem copy_agrees_iff {t : As4Transport} {request : Request} {envelope : String}
    {attachments : Attachments} {answer : Response}
    (hsigner : t.receipting.signer.Leaves L "UserMessage")
    (hcarries : Carries L request envelope attachments)
    (hanswer : ReceiptFor L t request answer) :
    ∃ user copy, L.xml.content envelope "UserMessage" = some user ∧ CopyIn L answer copy ∧
      (headerOf L copy = headerOf L user ↔ Faithful L user) := by
  obtain ⟨now, judged, m, bytes, hunpack, hreceipt⟩ := hanswer.receipt
  obtain ⟨envelope', attachments', hcarries', -, hread, -⟩ := unpack_eq_ok_iff.mp hunpack
  obtain ⟨rfl, rfl⟩ := hcarries.unique hcarries'
  obtain ⟨user, huser, hread⟩ := bind_eq_ok hread
  refine ⟨user, _, okOr_eq_ok huser, copyIn_receipt hL hsigner hreceipt, ?_⟩
  rw [headerOf_inner hL.xml, header_eq_iff (fromElement_eq_ok.mp hread)]

end Answered

/-! ## On the bench -/

/-- The goods, attached as the order references them. -/
def goodsAttached : Attachments :=
  [(order.payloadCid, goods)]

/-- The Receipt that the seller answers for the order. -/
def orderReceipt : Response :=
  soap bench (moment 2) 200 (Signal.receipt bench (moment 2) order)

/-- A request that the seller reads as the order earns the order's Receipt. -/
theorem receiptFor_order {request : Request}
    (hunpack : seller.unpack bench (moment 1) request = .ok (order, goods)) :
    ReceiptFor bench seller request orderReceipt := by
  have hhear : seller.hear bench (moment 1) request "peer" = _ :=
    (Hears.new hunpack rfl List.not_mem_nil).eq_hear
  have hreceipt : (seller.remembering []).receipting.receipt bench (moment 2) order =
      .ok orderReceipt := rfl
  have hanswer : ((seller.remembering []).receipting.answer bench (moment 2) order .Accepted).1 =
      .ok orderReceipt := by
    rw [Receipting.answer_accepted hreceipt]
  exact .accepted hhear hanswer

/-- The copy of what this crate posted agrees with it. -/
theorem copy_agrees_order :
    ∃ user copy, bench.xml.content (order.envelope bench) "UserMessage" = some user ∧
      CopyIn bench orderReceipt copy ∧ headerOf bench copy = headerOf bench user := by
  have hX := bench_lawful.xml
  obtain ⟨hunpack, -, -⟩ := seller_takes_order 1 []
  obtain ⟨user, copy, huser, hcopy, hiff⟩ := copy_agrees_iff bench_lawful
    (unsigned_leaves bench "UserMessage") order_carried (receiptFor_order hunpack)
  refine ⟨user, copy, huser, hcopy, hiff.mpr ?_⟩
  have hinner : user = order.inner.render bench.xml.escape :=
    Option.some.inj (huser.symm.trans (order.content_envelope hX))
  have hread : UserMessage.fromElement bench user = .ok order := by
    rw [hinner, UserMessage.fromElement_of_named hX order.inner_shows (by decide) (by decide)
      (by decide), UserMessage.readBack_of_clean (by decide)]
  rw [← header_eq_iff (fromElement_eq_ok.mp hread), hinner, headerOf_inner hX]

/-- What stands in the order when another MSH writes it, with roles of the parties' own and a
type of the receiving party's id. -/
def bought : Forest :=
  order.foreign "urn:buyer" (some "urn:type") "urn:seller" []

/-- The copy of what the other MSH posted has another role for either party, and no type for
the party that was sent to. -/
theorem copy_disagrees :
    ∃ user copy, bench.xml.content (foreignEnvelope bought) "UserMessage" = some user ∧
      ReceiptFor bench seller (foreignRequest bought goodsAttached) orderReceipt ∧
      CopyIn bench orderReceipt copy ∧
      headerOf bench copy ≠ headerOf bench user ∧
      (headerOf bench copy).receiver =
        ⟨1, .ok (some order.toParty), .ok none, .ok (some responder)⟩ ∧
      (headerOf bench user).receiver =
        ⟨1, .ok (some order.toParty), .ok (some "urn:type"), .ok (some "urn:seller")⟩ := by
  have hX := bench_lawful.xml
  have hshows : order.Shows bought := order.foreign_shows _ _ _ _
  have hunmarked : unmarked bought = true :=
    unmarked_foreign (by decide) (by decide) (by decide) (by decide) (by decide)
  obtain ⟨-, hcontent, hunpack⟩ := seller_reads_shown hshows
    (order.find_foreign_user _ _ _ _) hunmarked (by decide : goodsAttached ≠ [])
    (by decide) (by decide)
  have hcopy : CopyIn bench orderReceipt (order.inner.render bench.xml.escape) :=
    copyIn_receipt (r := seller.receipting) bench_lawful (unsigned_leaves bench "UserMessage") rfl
  have hto : bought.find "To" = some ⟨⟨"eb", "To", []⟩,
      some (leaf "PartyId" (typeAttr (some "urn:type")) order.toParty ++
        leaf "Role" [] "urn:seller")⟩ :=
    order.find_foreign_to "urn:buyer" (some "urn:type") "urn:seller" []
  have hside := sideOf_of_find hX hshows.wf hto (by decide) (by decide)
  have hreceiver : (headerOf bench (bought.render bench.xml.escape)).receiver =
      ⟨1, .ok (some order.toParty), .ok (some "urn:type"), .ok (some "urn:seller")⟩ := by
    rw [receiver_headerOf, hside]
  refine ⟨_, _, hcontent, receiptFor_order hunpack, hcopy, ?_, ?_, hreceiver⟩
  · intro heq
    have hrole := congrArg (fun h : Header => h.receiver.role) heq
    rw [headerOf_inner hX, hreceiver] at hrole
    exact absurd hrole (by decide)
  · rw [headerOf_inner hX]
    rfl

end As4
