import XmipAs4.Fields.Marks
import XmipAs4.Exchange.Reread

/-!
# What an origin tells

The origin URI of a message puts its sender, its id and its action one behind another as they
are.  Each of them is the sender's to choose and may hold what stands between them, so an
origin tells of one sender, id and action only where none of the three holds it in a place
where it could be taken for that.
-/

namespace As4

open Multipart (Bytes isContentId)

/-- What stands before the message id in an origin. -/
def messageIdMark : String := "&message-id="

/-- What stands before the action in an origin. -/
def actionMark : String := "&action="

/-- Nothing in the message's sender, id and action can be taken for what stands between them
in the origin. -/
def UserMessage.Unmistakable (m : UserMessage) : Prop :=
  Fields.Clear messageIdMark.toList actionMark.toList m.fromParty.toList m.messageId.toList
    m.action.toList

theorem isMark_messageId : Fields.IsMark '&' messageIdMark.toList :=
  ⟨"message-id=".toList, rfl, by decide⟩

theorem isMark_action : Fields.IsMark '&' actionMark.toList :=
  ⟨"action=".toList, rfl, by decide⟩

/-- Neither mark begins as the other does. -/
theorem marks_ne (y y' : List Char) : messageIdMark.toList ++ y ≠ actionMark.toList ++ y' := by
  intro h
  have hm : messageIdMark.toList = '&' :: 'm' :: "essage-id=".toList := rfl
  have ha : actionMark.toList = '&' :: 'a' :: "ction=".toList := rfl
  rw [hm, ha, List.cons_append, List.cons_append, List.cons_append, List.cons_append,
    List.cons.injEq, List.cons.injEq] at h
  exact absurd h.2.1 (by decide)

/-- An origin is what the peer and the path make of it, and behind that the three texts. -/
theorem toList_originOf (request : Request) (peer : SocketAddr) (m : UserMessage) :
    (originOf request peer m).toList = ("as4://" ++ peer ++ request.path ++ "?from=").toList ++
      Fields.joined messageIdMark.toList actionMark.toList m.fromParty.toList m.messageId.toList
        m.action.toList := by
  unfold originOf Fields.joined messageIdMark actionMark
  simp only [String.toList_append, List.append_assoc]

/-- On one path of one peer, origins are equal where the three texts are joined alike. -/
theorem originOf_eq_iff {request request' : Request} {peer : SocketAddr} {m m' : UserMessage}
    (hpath : request'.path = request.path) :
    originOf request' peer m' = originOf request peer m ↔
      Fields.joined messageIdMark.toList actionMark.toList m'.fromParty.toList
          m'.messageId.toList m'.action.toList =
        Fields.joined messageIdMark.toList actionMark.toList m.fromParty.toList
          m.messageId.toList m.action.toList := by
  rw [← String.toList_inj, toList_originOf, toList_originOf, hpath, List.append_cancel_left_eq]

/-- Any sender, and any id and action that are not empty, are those of a legible message. -/
theorem exists_legible (sender : String) {id action : String} (hid : id ≠ "")
    (haction : action ≠ "") : ∃ m : UserMessage, m.Legible ∧ isContentId m.payloadCid = true ∧
      m.fromParty = sender ∧ m.messageId = id ∧ m.action = action := by
  have hservice : testService ≠ "" := by decide
  have hclean : ¬ "cid:".toList <+: payloadCid.toList := by decide
  have hcid : isContentId payloadCid = true := by decide
  exact ⟨⟨id, "", sender, "", testService, action, "", payloadCid, none, none, none, [], []⟩,
    ⟨hid, hservice, haction, hclean⟩, hcid, rfl, rfl, rfl⟩

section Heard

variable {L : Estate} (hL : L.Lawful)
include hL

/-- The origin of a message heard as new is that of no message of another sender, id or
action, whoever hears it from the same peer and on the same path, exactly where the message's
own texts are unmistakable. -/
theorem origin_unmistakable_iff {t : As4Transport} {now : Moment} {request : Request}
    {peer : SocketAddr} {m : UserMessage} {originUri : String} {bytes : Bytes} {sender : Sender}
    (hhear : t.hear L now request peer = .Waiting (.ok (some (m, originUri, bytes, sender)))) :
    (∀ (t' : As4Transport) (now' : Moment) (request' : Request) (m' : UserMessage)
        (originUri' : String) (bytes' : Bytes) (sender' : Sender),
      request'.path = request.path →
      t'.hear L now' request' peer = .Waiting (.ok (some (m', originUri', bytes', sender'))) →
      originUri' = originUri →
        m'.fromParty = m.fromParty ∧ m'.messageId = m.messageId ∧ m'.action = m.action) ↔
      m.Unmistakable := by
  obtain ⟨hm, rfl⟩ := legible_of_heard hhear
  have haction : m.action.toList ≠ [] := by simpa using hm.action
  rw [UserMessage.Unmistakable,
    ← Fields.readsOnce_iff isMark_messageId isMark_action marks_ne haction]
  constructor
  · intro hall f g h hg hh hjoined
    -- The other reading is a message that some far end hears on the same path.
    obtain ⟨m', hm', hcid, hsender, hid, hact⟩ := exists_legible (String.ofList f)
      (by simpa using hg : String.ofList g ≠ "") (by simpa using hh : String.ofList h ≠ "")
    obtain ⟨far, request', hpath, hheard⟩ := exists_heard hL now request.path peer hm' hcid []
    have horigin : originOf request' peer m' = originOf request peer m := by
      rw [originOf_eq_iff hpath, hsender, hid, hact, String.toList_ofList, String.toList_ofList,
        String.toList_ofList]
      exact hjoined
    obtain ⟨hf, hg, hh⟩ := hall far now request' m' _ [] _ hpath hheard horigin
    rw [← hf, ← hg, ← hh, hsender, hid, hact, String.toList_ofList, String.toList_ofList,
      String.toList_ofList]
    exact ⟨rfl, rfl, rfl⟩
  · intro honce t' now' request' m' originUri' bytes' sender' hpath hhear' horigin
    obtain ⟨hm', rfl⟩ := legible_of_heard hhear'
    obtain ⟨hf, hg, hh⟩ := honce _ _ _ (by simpa using hm'.messageId)
      (by simpa using hm'.action) ((originOf_eq_iff hpath).mp horigin)
    exact ⟨String.toList_inj.mp hf, String.toList_inj.mp hg, String.toList_inj.mp hh⟩

end Heard

/-! ## On the bench -/

/-- The order's origin is that of no message of another sender, id or action. -/
theorem origin_unmistakable_order :
    order.Unmistakable ∧
    ∀ (far : As4Transport) (now : Moment) (request : Request) (m : UserMessage)
      (originUri : String) (bytes : Bytes) (sender : Sender),
      request.path = (requestOf order).path →
      far.hear bench now request "peer" =
        .Waiting (.ok (some (m, originUri, bytes, sender))) →
      originUri = originOf (requestOf order) "peer" order →
        m.fromParty = order.fromParty ∧ m.messageId = order.messageId ∧
          m.action = order.action := by
  have hhear := seller_hears legible_order rfl unmarked_order (by decide)
  have hclear : order.Unmistakable := ⟨by decide, ⟨by decide, by decide⟩, by decide⟩
  exact ⟨hclear, (origin_unmistakable_iff bench_lawful hhear).mpr hclear⟩

/-- A message whose id holds what stands before an id. -/
def longId : UserMessage :=
  { order with messageId := "1&message-id=2" }

/-- A message whose sender holds it. -/
def longSender : UserMessage :=
  { order with fromParty := "Buyer&message-id=1", messageId := "2" }

/-- The seller hears the two messages on one path of one peer, with one origin, and neither
their senders nor their ids are the same. -/
theorem origin_mistaken :
    seller.hear bench (moment 1) (requestOf longId) "peer" = .Waiting (.ok (some (longId,
      originOf (requestOf longId) "peer" longId, goods, ⟨requestOf longId, "peer"⟩))) ∧
    seller.hear bench (moment 1) (requestOf longSender) "peer" = .Waiting (.ok (some (longSender,
      originOf (requestOf longSender) "peer" longSender, goods,
      ⟨requestOf longSender, "peer"⟩))) ∧
    (requestOf longSender).path = (requestOf longId).path ∧
    originOf (requestOf longSender) "peer" longSender =
      originOf (requestOf longId) "peer" longId ∧
    longSender.fromParty ≠ longId.fromParty ∧ longSender.messageId ≠ longId.messageId := by
  have hid : longId.Legible := ⟨by decide, by decide, by decide, by decide⟩
  have hsender : longSender.Legible := ⟨by decide, by decide, by decide, by decide⟩
  have hpath : (requestOf longSender).path = (requestOf longId).path := by
    rw [path_requestOf, path_requestOf]
  refine ⟨seller_hears hid rfl (unmarked_message (by decide)) (by decide),
    seller_hears hsender rfl (unmarked_message (by decide)) (by decide), hpath, ?_, by decide,
    by decide⟩
  exact (originOf_eq_iff hpath).mpr (by decide)

end As4
