import XmipAs4.Exchange.Gates
import XmipAs4.Exchange.Payload
import XmipAs4.Wire.Foreign

/-!
# Messages that reference several payloads

One User Message is one Stream, so of the parts that a message lists the first is read and
the others are not looked at.  What a Receipt covers is then the first part's attachment: it
is what is handed up, and where it is not attached the message is refused.
-/

namespace As4

open Delivery (run)
open Markup (Forest Elem)
open Multipart (Bytes)

/-- The part references the content id, written behind one `cid:`. -/
def PartOf (e : Elem) (cid : String) : Prop :=
  e.tag.Unprefixed ∧ e.tag.attrs.lookup "href" = some ("cid:" ++ cid)

/-- The User Message in the envelope is well-formed markup whose parts reference the content
ids, a part for each, in order. -/
def References (L : Estate) (envelope : String) (cids : List String) : Prop :=
  ∃ f : Forest, f.wf = true ∧ L.xml.content envelope "UserMessage" = some (f.render L.xml.escape) ∧
    List.Forall₂ PartOf (f.all "PartInfo") cids

section Covered

variable {L : Estate} (hL : L.Lawful)
include hL

/-- What is read of a message's references is the first of them, where there is one. -/
theorem payloadCid_of_references {envelope : String} {cids : List String} {m : UserMessage}
    (hrefs : References L envelope cids) (hread : UserMessage.fromEnvelope L envelope = .ok m) :
    ∃ cid, cids.head? = some cid ∧ m.payloadCid = withoutCid cid := by
  obtain ⟨f, hf, hcontent, hparts⟩ := hrefs
  rw [UserMessage.fromEnvelope_of_content hcontent, fromElement_eq_ok] at hread
  obtain ⟨href, hhref, hcid⟩ := hread.reference
  have hfind := f.find_eq_head? "PartInfo"
  generalize f.all "PartInfo" = parts at hfind hparts
  cases hparts with
  | nil =>
    rw [hL.xml.attribute_none f "PartInfo" "href" hf hfind, Except.ok.injEq] at hhref
    cases hhref
  | @cons e cid parts cids hpart _ =>
    obtain ⟨hplain, hlookup⟩ := hpart
    rw [hL.xml.attribute_some f "PartInfo" e "href" hf hfind hplain, hlookup, Except.ok.injEq,
      Option.some.injEq] at hhref
    refine ⟨cid, rfl, ?_⟩
    rw [hcid, ← hhref, withoutCid_append]

/-- The payload of a message that passed is the attachment its first part references. -/
theorem firstWith_of_passed {t : As4Transport} {now : Moment} {request : Request}
    {envelope envelope' : String} {attachments attachments' : Attachments} {cids : List String}
    {m : UserMessage} {bytes : Bytes} (hcarries : Carries L request envelope attachments)
    (hrefs : References L envelope cids)
    (hclean : ∀ cid ∈ cids.head?, ¬ "cid:".toList <+: cid.toList)
    (hpassed : Passed L t now request envelope' attachments' m bytes) :
    ∃ cid, cids.head? = some cid ∧ firstWith attachments cid = some bytes := by
  obtain ⟨rfl, rfl⟩ := hcarries.unique hpassed.carries
  obtain ⟨cid, hhead, hcid⟩ := payloadCid_of_references hL hrefs hpassed.read
  rw [withoutCid_of_clean (hclean cid hhead)] at hcid
  refine ⟨cid, hhead, ?_⟩
  rw [firstWith, ← hcid, hpassed.attached]
  rfl

/-- In every state that a far end reaches, and for a POST that references any number of
payloads: if the message is handed up, what is handed up is the attachment its first part
references, and so every one referenced where there is one part; if it is answered a Receipt,
that attachment is there, and a message of its id was handed up of a POST that passed every
gate, accepted and receipted; and where there is no such attachment, or no part, it is
answered an Error. -/
theorem first_reference_covered {t : As4Transport} (hids : t.receipting.ids = [])
    (es : List Event) {now : Moment} {request : Request} {peer : SocketAddr} {envelope : String}
    {attachments : Attachments} {cids : List String}
    (hcarries : Carries L request envelope attachments) (hrefs : References L envelope cids)
    (hclean : ∀ cid ∈ cids.head?, ¬ "cid:".toList <+: cid.toList) :
    (∀ m originUri bytes sender,
      (run (FarEnd.step L) (.fresh t) es).transport.hear L now request peer =
        .Waiting (.ok (some (m, originUri, bytes, sender))) →
      (∃ cid, cids.head? = some cid ∧ firstWith attachments cid = some bytes) ∧
        (cids.length = 1 → ∀ cid ∈ cids, firstWith attachments cid = some bytes)) ∧
    (∀ answer, (run (FarEnd.step L) (.fresh t) es).transport.hear L now request peer =
        .Answered (.ok none) answer →
      (∃ cid bytes, cids.head? = some cid ∧ firstWith attachments cid = some bytes) ∧
        ∃ m, UserMessage.fromEnvelope L envelope = .ok m ∧
          ∃ u ∈ (run (FarEnd.step L) (.fresh t) es).handed,
            u.messageId = m.messageId ∧ u.Receipted ∧ u.OfPassed L t) ∧
    ((∀ cid, cids.head? = some cid → firstWith attachments cid = none) →
      ∃ refTo kind e, (run (FarEnd.step L) (.fresh t) es).transport.hear L now request peer =
        .Answered (.error e) (refusal L now refTo kind e)) := by
  have hvouched := vouched_run (L := L) hids es
  have hofPassed := ofPassed_run (L := L) (t := t) es
  generalize run (FarEnd.step L) (.fresh t) es = s at hvouched hofPassed
  have hcovered : ∀ {m bytes}, s.transport.unpack L now request = .ok (m, bytes) →
      s.transport.admits L now m bytes = .ok () → UserMessage.fromEnvelope L envelope = .ok m ∧
        ∃ cid, cids.head? = some cid ∧ firstWith attachments cid = some bytes := by
    intro m bytes hunpack hadmits
    obtain ⟨envelope', attachments', hpassed⟩ := passed_iff.mpr ⟨hunpack, hadmits⟩
    obtain ⟨rfl, rfl⟩ := hcarries.unique hpassed.carries
    exact ⟨hpassed.read, firstWith_of_passed hL hcarries hrefs hclean hpassed⟩
  refine ⟨?_, ?_, ?_⟩
  · intro m originUri bytes sender hhear
    obtain ⟨m', bytes', hunpack, hadmits, -, hsaid⟩ := hear_waiting_iff.mp hhear
    cases hsaid
    obtain ⟨-, cid, hhead, hfirst⟩ := hcovered hunpack hadmits
    refine ⟨⟨cid, hhead, hfirst⟩, ?_⟩
    intro hone cid' hcid'
    obtain ⟨only, rfl⟩ := List.length_eq_one_iff.mp hone
    rw [List.head?_cons, Option.some.injEq] at hhead
    rw [List.mem_singleton.mp hcid', hhead, hfirst]
  · intro answer hhear
    have hh := s.transport.hears L now request peer
    rw [hhear] at hh
    cases hh with
    | @again m bytes _ hunpack hadmits hseen _ =>
      obtain ⟨hread, cid, hhead, hfirst⟩ := hcovered hunpack hadmits
      obtain ⟨u, hu, hid, hreceipted⟩ := hvouched m.messageId hseen
      exact ⟨⟨cid, bytes, hhead, hfirst⟩, m, hread, u, hu, hid, hreceipted, hofPassed u hu⟩
  · intro hnone
    have hnot : ∀ {m bytes}, s.transport.unpack L now request = .ok (m, bytes) →
        s.transport.admits L now m bytes ≠ .ok () := by
      intro m bytes hunpack hadmits
      obtain ⟨-, cid, hhead, hfirst⟩ := hcovered hunpack hadmits
      rw [hnone cid hhead] at hfirst
      cases hfirst
    have hh := s.transport.hears L now request peer
    generalize s.transport.hear L now request peer = heard at hh
    cases hh with
    | unread _ => exact ⟨_, _, _, rfl⟩
    | unadmitted _ _ => exact ⟨_, _, _, rfl⟩
    | again hunpack hadmits _ _ => exact absurd hadmits (hnot hunpack)
    | unsigned hunpack hadmits _ _ => exact absurd hadmits (hnot hunpack)
    | new hunpack hadmits _ => exact absurd hadmits (hnot hunpack)

end Covered

/-! ## On the bench -/

/-- A part that references the content id and has no prefixed attribute. -/
theorem partOf_reference (cid : String) (inner : Option Forest) :
    PartOf ⟨⟨"eb", "PartInfo", [("href", "cid:" ++ cid)]⟩, inner⟩ cid := by
  have hcolon : ':' ∉ ("href" : String).toList := by decide
  refine ⟨?_, rfl⟩
  intro a ha
  rwa [List.mem_singleton.mp ha]

/-- A message of another MSH references its payload and the further parts. -/
theorem references_foreign {L : Estate} (hX : L.xml.Lawful) (m : UserMessage)
    (senderRole : String) (receiverType : Option String) (receiverRole : String)
    (further : List String) :
    References L ((wrapForest (node "UserMessage" []
        (m.foreign senderRole receiverType receiverRole further))).render L.xml.escape)
      (m.payloadCid :: further) := by
  have hwf := m.foreign_wf senderRole receiverType receiverRole further
  refine ⟨_, hwf, UserMessage.content_wrapped hX hwf
    (m.find_foreign_user senderRole receiverType receiverRole further), ?_⟩
  rw [m.all_foreign_parts]
  refine .cons (partOf_reference _ _) ?_
  rw [List.forall₂_map_left_iff, List.forall₂_same]
  intro cid _
  exact partOf_reference cid _

/-- On the bench, what the order's one part references is what is handed up. -/
theorem first_reference_covered_order :
    seller.hear bench (moment 1) orderRequest "peer" = .Waiting (.ok (some (order,
      originOf orderRequest "peer" order, goods, ⟨orderRequest, "peer"⟩))) ∧
    ∀ cid ∈ [order.payloadCid], firstWith [(order.payloadCid, goods)] cid = some goods := by
  have hrefs : References bench (order.envelope bench) [order.payloadCid] := by
    rw [order.envelope_eq bench_lawful.xml, UserMessage.forest, order.inner_eq_foreign]
    exact references_foreign bench_lawful.xml order _ _ _ []
  have hhear := seller_hears_order 1
  refine ⟨hhear, ?_⟩
  exact ((first_reference_covered bench_lawful (t := seller) rfl [] order_carried hrefs
    (by decide)).1 _ _ _ _ hhear).2 rfl

/-- What stands in the order when another MSH writes it with a second part. -/
def twoParts : Forest :=
  order.foreign initiator none responder ["extra@xmip"]

/-- Both payloads. -/
def twoPayloads : Attachments :=
  [(order.payloadCid, goods), ("extra@xmip", [9])]

/-- The seller hands the first payload up and drops the second, which was referenced and
attached as the first was; and the message is not refused. -/
theorem second_payload_dropped :
    Carries bench (foreignRequest twoParts twoPayloads) (foreignEnvelope twoParts) twoPayloads ∧
    References bench (foreignEnvelope twoParts) [order.payloadCid, "extra@xmip"] ∧
    seller.hear bench (moment 1) (foreignRequest twoParts twoPayloads) "peer" =
      .Waiting (.ok (some (order,
        originOf (foreignRequest twoParts twoPayloads) "peer" order, goods,
        ⟨foreignRequest twoParts twoPayloads, "peer"⟩))) ∧
    firstWith twoPayloads "extra@xmip" = some [9] ∧ ([9] : Bytes) ≠ goods := by
  have hshows : order.Shows twoParts := order.foreign_shows initiator none responder ["extra@xmip"]
  have hunmarked : unmarked twoParts = true :=
    unmarked_foreign (by decide) (mark_notMem_fixed initiator (by decide))
      (mark_notMem_fixed responder (by decide)) (by decide) (by decide)
  obtain ⟨hcarries, -, hunpack⟩ := seller_reads_shown hshows
    (order.find_foreign_user initiator none responder ["extra@xmip"]) hunmarked
    (by decide : twoPayloads ≠ []) (by decide) (by decide)
  refine ⟨hcarries, references_foreign bench_lawful.xml order _ _ _ _, ?_, rfl, by decide⟩
  exact (Hears.new hunpack rfl List.not_mem_nil).eq_hear

end As4
