import XmipAs4.Reference.Bench

/-!
# The payload a message references

`element` writes the content id of the payload behind one `cid:`, `unpack` looks it up, and
between them `from_envelope` takes off every `cid:` the reference begins with.  So the payload
that is looked up is the one referenced exactly where taking more than one off makes no
difference.
-/

namespace As4

open Multipart (Bytes Part asBytes isContentId Absent)

/-! ## Content ids that begin with `cid:` -/

/-- What is left of a content id when every `cid:` it begins with is taken off. -/
inductive Bare : String → String → Prop where
  | clean {cid : String} (h : ¬ "cid:".toList <+: cid.toList) : Bare cid cid
  | behind {cid base : String} (h : Bare cid base) : Bare ("cid:" ++ cid) base

/-- It is what `from_envelope` makes of the content id. -/
theorem Bare.withoutCid_eq {cid base : String} (h : Bare cid base) : withoutCid cid = base := by
  induction h with
  | clean h => exact withoutCid_of_clean h
  | behind _ ih => rw [withoutCid_append, ih]

/-- Something is left of every content id. -/
theorem bare_withoutCid (cid : String) : Bare cid (withoutCid cid) := by
  induction hn : cid.toList.length using Nat.strongRecOn generalizing cid with
  | ind n ih =>
    by_cases hcid : "cid:".toList <+: cid.toList
    · obtain ⟨rest, rfl⟩ := exists_append_of_prefix hcid
      have hlt : rest.toList.length < n := by
        rw [← hn, String.toList_append, List.length_append]
        exact Nat.lt_add_of_pos_left (by decide)
      rw [withoutCid_append]
      exact .behind (ih _ hlt rest rfl)
    · rw [withoutCid_of_clean hcid]
      exact .clean hcid

/-- What is left does not begin with `cid:`. -/
theorem Bare.base_clean {cid base : String} (h : Bare cid base) :
    ¬ "cid:".toList <+: base.toList := by
  induction h with
  | clean h => exact h
  | behind _ ih => exact ih

/-- A content id loses nothing exactly where it does not begin with `cid:`. -/
theorem withoutCid_eq_self_iff {cid : String} :
    withoutCid cid = cid ↔ ¬ "cid:".toList <+: cid.toList := by
  constructor
  · intro h
    have hbare := (bare_withoutCid cid).base_clean
    rwa [h] at hbare
  · exact withoutCid_of_clean

/-! ## Looking it up -/

/-- The bytes of the first attachment of the content id. -/
def firstWith (attachments : Attachments) (cid : String) : Option Bytes :=
  (attachments.find? fun a => a.1 == cid).map Prod.snd

/-- The User Message in the envelope references the content id, written behind one `cid:`,
and reads as the message. -/
structure Refers (L : Estate) (envelope cid : String) (m : UserMessage) : Prop where
  href : ∃ user, L.xml.content envelope "UserMessage" = some user ∧
    L.xml.attributeOf user "PartInfo" "href" = .ok (some ("cid:" ++ cid))
  read : UserMessage.fromEnvelope L envelope = .ok m

/-- What is read of the request is the message with the first attachment of exactly the
content id, and nothing where there is none. -/
def TakesReferenced (L : Estate) (t : As4Transport) (now : Moment) (request : Request)
    (attachments : Attachments) (cid : String) (m : UserMessage) : Prop :=
  match firstWith attachments cid with
  | some bytes => t.unpack L now request = .ok (m, bytes)
  | none => ∃ e, t.unpack L now request = .error e

section Lookup

variable {L : Estate}

/-- What is looked up is what is left of the content id referenced. -/
theorem Refers.payloadCid_eq {envelope cid base : String} {m : UserMessage}
    (h : Refers L envelope cid m) (hbare : Bare cid base) : m.payloadCid = base := by
  obtain ⟨user, hcontent, hhref⟩ := h.href
  have hread := h.read
  rw [UserMessage.fromEnvelope_of_content hcontent, fromElement_eq_ok] at hread
  obtain ⟨href, hhref', hcid⟩ := hread.reference
  rw [hhref, Except.ok.injEq, Option.some.injEq] at hhref'
  rw [hcid, ← hhref', withoutCid_append, hbare.withoutCid_eq]

/-- A message is found with the first attachment of its content id. -/
theorem payloadOf_eq (m : UserMessage) (attachments : Attachments) :
    payloadOf L m attachments =
      match firstWith attachments m.payloadCid with
      | some bytes => .ok (m, bytes)
      | none => .error (L.protocolError ("a message whose payload cid:" ++ m.payloadCid ++
          " is not attached")) := by
  change (okOr (firstWith attachments m.payloadCid) _ >>= _) = _
  rcases firstWith attachments m.payloadCid with _ | bytes <;> rfl

/-- The payload taken is the one referenced exactly where what is left of the content id
names the same bytes as the content id does. -/
theorem takesReferenced_iff {t : As4Transport} {now : Moment} {request : Request}
    {envelope cid base : String} {attachments : Attachments} {m : UserMessage}
    (hcarries : Carries L request envelope attachments)
    (hverify : t.receipting.signer.verify now envelope attachments = .ok ())
    (hrefers : Refers L envelope cid m) (hbare : Bare cid base) :
    TakesReferenced L t now request attachments cid m ↔
      firstWith attachments base = firstWith attachments cid := by
  have hunpack := t.unpack_of_carries now hcarries
  rw [hverify, ok_bind, hrefers.read, ok_bind, payloadOf_eq, hrefers.payloadCid_eq hbare] at hunpack
  unfold TakesReferenced
  rw [hunpack]
  rcases firstWith attachments cid with _ | bytes
  · rcases firstWith attachments base with _ | taken
    · simp
    · simp
  · rcases firstWith attachments base with _ | taken
    · simp
    · simp

end Lookup

/-! ## Posting it -/

section Posted

variable {L : Estate} (hL : L.Lawful)
include hL

/-- What is posted under a content id that may be written is found by whoever verifies it
exactly where the message names its service and action and its content id does not begin
with `cid:`. -/
theorem posted_payload_iff {near far : As4Transport} {now later : Moment} {target : String}
    {bytes : Bytes} {key : Option String} {message : UserMessage} {signed : String}
    {request : Request} (hpost : Posts L near now target bytes key message signed request)
    (hsigner : near.receipting.signer.Leaves L "UserMessage")
    (hid : isContentId near.template.payloadCid = true)
    (hverify : far.receipting.signer.verify later signed [(message.payloadCid, bytes)] = .ok ()) :
    (∃ read, far.unpack L later request = .ok (read, bytes)) ↔
      near.template.service ≠ "" ∧ near.template.action ≠ "" ∧
        ¬ "cid:".toList <+: near.template.payloadCid.toList := by
  obtain ⟨carry, hwf, hunpack⟩ := exists_unpack_posted hL
  have hcid := hpost.payloadCid_eq
  rw [← hcid] at hid
  have hcarried := received_one hL hwf hid bytes
  rw [hunpack hpost hsigner, hcarried, ok_bind, hverify, ok_bind, message.fromElement_inner hL.xml,
    if_neg hpost.messageId_ne, hpost.service_eq, hpost.action_eq]
  by_cases hs : near.template.service = ""
  · rw [if_pos hs]
    simp [hs]
  by_cases ha : near.template.action = ""
  · rw [if_neg hs, if_pos ha]
    simp [ha]
  rw [if_neg hs, if_neg ha, ok_bind, payloadOf_eq, ← withoutCid_eq_self_iff, ← hcid]
  have hback : message.readBack.payloadCid = withoutCid message.payloadCid := rfl
  rw [hback]
  by_cases hsame : withoutCid message.payloadCid = message.payloadCid
  · simp [firstWith, hsame, hs, ha]
  · simp [firstWith, hsame, Ne.symm hsame]

/-- The payload taken is the one the header references exactly where what is left of the
content id, every `cid:` it begins with taken off, names the same bytes as the content id;
and of what is posted under a content id that may be written, the payload is found exactly
where the content id does not begin with `cid:`, the message naming its service and its
action. -/
theorem payload_referenced_iff :
    (∀ (t : As4Transport) (now : Moment) (request : Request) (envelope cid base : String)
        (attachments : Attachments) (m : UserMessage), Carries L request envelope attachments →
      t.receipting.signer.verify now envelope attachments = .ok () →
      Refers L envelope cid m → Bare cid base →
      (TakesReferenced L t now request attachments cid m ↔
        firstWith attachments base = firstWith attachments cid)) ∧
    ∀ (near far : As4Transport) (now later : Moment) (target : String) (bytes : Bytes)
        (key : Option String) (message : UserMessage) (signed : String) (request : Request),
      Posts L near now target bytes key message signed request →
      near.receipting.signer.Leaves L "UserMessage" →
      isContentId near.template.payloadCid = true →
      far.receipting.signer.verify later signed [(message.payloadCid, bytes)] = .ok () →
      ((∃ read, far.unpack L later request = .ok (read, bytes)) ↔
        near.template.service ≠ "" ∧ near.template.action ≠ "" ∧
          ¬ "cid:".toList <+: near.template.payloadCid.toList) := by
  constructor
  · intro t now request envelope cid base attachments m hcarries hverify hrefers hbare
    exact takesReferenced_iff hcarries hverify hrefers hbare
  · intro near far now later target bytes key message signed request hpost hsigner hid hverify
    exact posted_payload_iff hL hpost hsigner hid hverify

end Posted

/-! ## On the bench -/

/-- The message's own envelope refers to its content id. -/
theorem refers_envelope {L : Estate} (hX : L.xml.Lawful) {m : UserMessage}
    (hid : m.messageId ≠ "") (hservice : m.service ≠ "") (haction : m.action ≠ "") :
    Refers L (m.envelope L) m.payloadCid m.readBack := by
  exact ⟨⟨_, m.content_envelope hX, UserMessage.href_of_shows hX m.inner_shows⟩,
    m.fromEnvelope_envelope hX hid hservice haction⟩

/-- On the bench the order's payload is found, by the seller and among others. -/
theorem payload_referenced_order :
    (∃ read, seller.unpack bench (moment 1) orderRequest = .ok (read, goods)) ∧
    TakesReferenced bench seller (moment 1) orderRequest [(order.payloadCid, goods)]
      order.payloadCid order.readBack := by
  have hrefers : Refers bench (order.envelope bench) order.payloadCid order.readBack :=
    refers_envelope bench_lawful.xml (by decide) (by decide) (by decide)
  have hbare : Bare order.payloadCid order.payloadCid := .clean (by decide)
  constructor
  · exact ((payload_referenced_iff bench_lawful).2 buyer seller (moment 0) (moment 1) "" goods
      (some "order") order _ orderRequest order_posts (unsigned_leaves bench "UserMessage")
      (by decide) rfl).mpr ⟨by decide, by decide, by decide⟩
  · exact ((payload_referenced_iff bench_lawful).1 seller (moment 1) orderRequest _ _ _ _ _
      order_carried rfl hrefers hbare).mpr rfl

/-- The order with a content id that begins with `cid:`. -/
def labelled : UserMessage :=
  { order with payloadCid := "cid:goods" }

/-- The request that carries it: its payload, and something else under what is left of the
content id. -/
def labelledRequest : Request :=
  packed bench (moment 0) ⟨"/msh", "as4://bench/msh"⟩ (labelled.envelope bench)
    [("cid:goods", goods), ("goods", [0])]

/-- The seller hands up the other attachment: the payload referenced is there, and what is
taken is of another content id. -/
theorem other_payload_handed_up :
    Carries bench labelledRequest (labelled.envelope bench)
      [("cid:goods", goods), ("goods", [0])] ∧
    Refers bench (labelled.envelope bench) "cid:goods" labelled.readBack ∧
    seller.hear bench (moment 1) labelledRequest "peer" = .Waiting (.ok (some (labelled.readBack,
      originOf labelledRequest "peer" labelled.readBack, [0], ⟨labelledRequest, "peer"⟩))) ∧
    ¬ TakesReferenced bench seller (moment 1) labelledRequest
      [("cid:goods", goods), ("goods", [0])] "cid:goods" labelled.readBack := by
  have hunmarked : unmarked labelled.forest = true := unmarked_message (by decide)
  have hcarries : Carries bench labelledRequest (labelled.envelope bench)
      [("cid:goods", goods), ("goods", [0])] := by
    exact message_carried hunmarked (by simp) (by decide) 0 _
  have hrefers : Refers bench (labelled.envelope bench) "cid:goods" labelled.readBack :=
    refers_envelope (m := labelled) bench_lawful.xml (by decide) (by decide) (by decide)
  have hunpack : seller.unpack bench (moment 1) labelledRequest =
      .ok (labelled.readBack, [0]) := by
    have hpayload : payloadOf bench labelled.readBack [("cid:goods", goods), ("goods", [0])] =
        .ok (labelled.readBack, [0]) := by decide
    rw [seller.unpack_of_carries (moment 1) hcarries, hrefers.read]
    exact hpayload
  refine ⟨hcarries, hrefers, (Hears.new hunpack rfl List.not_mem_nil).eq_hear, ?_⟩
  intro htaken
  change seller.unpack bench (moment 1) labelledRequest = .ok (labelled.readBack, goods) at htaken
  obtain ⟨-, hbytes⟩ := read_unique hunpack htaken
  exact absurd hbytes (by decide)

end As4
