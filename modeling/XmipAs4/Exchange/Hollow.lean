import XmipAs4.Exchange.Reread
import XmipAs4.Exchange.RootPart

/-!
# Hollow messages

Of the texts that a User Message must name, `from_envelope` refuses an empty id, service and
action.  An empty party and a reference that is `cid:` alone it reads as they are; and an
attachment without a content id is one of the empty content id, so an empty reference finds it.
-/

namespace As4

open Multipart (Bytes Part Absent asBytes)

/-- None of what identifies the message, its parties and its payload is empty. -/
structure UserMessage.Named (m : UserMessage) : Prop where
  messageId : m.messageId ≠ ""
  fromParty : m.fromParty ≠ ""
  toParty : m.toParty ≠ ""
  service : m.service ≠ ""
  action : m.action ≠ ""
  payloadCid : m.payloadCid ≠ ""

/-- The party on the side of the message in the envelope has an id that says nothing. -/
def EmptyParty (L : Estate) (envelope side : String) : Prop :=
  ∃ user party, L.xml.content envelope "UserMessage" = some user ∧
    L.xml.content user side = some party ∧ L.xml.text party "PartyId" = .ok (some "")

/-- The message in the envelope references its payload by nothing, or by `cid:` and no more,
however often. -/
def EmptyReference (L : Estate) (envelope : String) : Prop :=
  ∃ user href, L.xml.content envelope "UserMessage" = some user ∧
    L.xml.attributeOf user "PartInfo" "href" = .ok (some href) ∧ Bare href ""

/-- What is handed up or receipted is a message of a sender without a name, or its payload is
found by an empty reference, which is that of an attachment without a content id. -/
def TakesHollow (L : Estate) (t : As4Transport) (now : Moment) (request : Request)
    (peer : SocketAddr) : Prop :=
  ∃ envelope attachments m bytes, Passed L t now request envelope attachments m bytes ∧
    LetThrough L t now request peer m bytes (t.hear L now request peer) ∧
    (m.fromParty = "" ∨ m.payloadCid = "" ∧ firstWith attachments "" = some bytes)

section Read

variable {L : Estate} {envelope user : String} {m : UserMessage}

/-- A party is read where its side is there and its id is. -/
theorem party_eq_ok {side id : String} (h : party L user side = .ok id) :
    ∃ party, L.xml.content user side = some party ∧
      L.xml.text party "PartyId" = .ok (some id) := by
  unfold party at h
  cases hside : L.xml.content user side with
  | none =>
    rw [hside] at h
    cases h
  | some text =>
    rw [hside] at h
    obtain ⟨read, hread, h⟩ := bind_eq_ok h
    rw [okOr_eq_ok h] at hread
    exact ⟨text, rfl, hread⟩

/-- The id that is read of a party is empty where the party's id says nothing. -/
theorem eq_empty_iff_emptyParty {side id : String}
    (hcontent : L.xml.content envelope "UserMessage" = some user)
    (h : party L user side = .ok id) : id = "" ↔ EmptyParty L envelope side := by
  obtain ⟨party, hparty, hid⟩ := party_eq_ok h
  constructor
  · rintro rfl
    exact ⟨user, party, hcontent, hparty, hid⟩
  · rintro ⟨user', party', hcontent', hparty', hid'⟩
    rw [hcontent, Option.some.injEq] at hcontent'
    subst hcontent'
    rw [hparty, Option.some.injEq] at hparty'
    subst hparty'
    rw [hid, Except.ok.injEq, Option.some.injEq] at hid'
    exact hid'

/-- The content id that is read is empty where the reference is. -/
theorem eq_empty_iff_emptyReference {href : String}
    (hcontent : L.xml.content envelope "UserMessage" = some user)
    (h : L.xml.attributeOf user "PartInfo" "href" = .ok (some href)) :
    withoutCid href = "" ↔ EmptyReference L envelope := by
  constructor
  · intro hempty
    have hbare := bare_withoutCid href
    rw [hempty] at hbare
    exact ⟨user, href, hcontent, h, hbare⟩
  · rintro ⟨user', href', hcontent', h', hbare⟩
    rw [hcontent, Option.some.injEq] at hcontent'
    subst hcontent'
    rw [h, Except.ok.injEq, Option.some.injEq] at h'
    subst h'
    exact hbare.withoutCid_eq

/-- Which of the texts of a message that was read are empty: one of the parties' where its id
says nothing, and the content id where the reference is empty. -/
theorem empty_iff_of_read (h : UserMessage.fromEnvelope L envelope = .ok m) :
    (m.fromParty = "" ↔ EmptyParty L envelope "From") ∧
      (m.toParty = "" ↔ EmptyParty L envelope "To") ∧
      (m.payloadCid = "" ↔ EmptyReference L envelope) := by
  obtain ⟨user, hcontent, hread⟩ := bind_eq_ok h
  have huser := okOr_eq_ok hcontent
  have hdescribed := fromElement_eq_ok.mp hread
  obtain ⟨href, hhref, hcid⟩ := hdescribed.reference
  refine ⟨eq_empty_iff_emptyParty huser hdescribed.fromParty,
    eq_empty_iff_emptyParty huser hdescribed.toParty, ?_⟩
  rw [hcid]
  exact eq_empty_iff_emptyReference huser hhref

/-- A message that was read is named where neither its parties nor its reference are empty. -/
theorem named_iff (h : UserMessage.fromEnvelope L envelope = .ok m) :
    m.Named ↔ ¬ EmptyParty L envelope "From" ∧ ¬ EmptyParty L envelope "To" ∧
      ¬ EmptyReference L envelope := by
  obtain ⟨hfrom, hto, hcid⟩ := empty_iff_of_read h
  have hlegible := UserMessage.legible_of_read h
  rw [← hfrom, ← hto, ← hcid]
  constructor
  · intro hm
    exact ⟨hm.fromParty, hm.toParty, hm.payloadCid⟩
  · rintro ⟨hf, ht, hc⟩
    exact ⟨hlegible.messageId, hf, ht, hlegible.service, hlegible.action, hc⟩

/-- What is taken is hollow where the message in the envelope is. -/
theorem takesHollow_iff {t : As4Transport} {now : Moment} {request : Request}
    {peer : SocketAddr} {attachments : Attachments}
    (hcarries : Carries L request envelope attachments)
    (htaken : takenForMessage (t.hear L now request peer)) :
    TakesHollow L t now request peer ↔
      EmptyParty L envelope "From" ∨ EmptyReference L envelope := by
  constructor
  · rintro ⟨envelope', attachments', m, bytes, hpassed, -, hhollow⟩
    obtain ⟨rfl, rfl⟩ := hcarries.unique hpassed.carries
    obtain ⟨hfrom, -, hcid⟩ := empty_iff_of_read hpassed.read
    rw [← hfrom, ← hcid]
    exact hhollow.imp_right And.left
  · intro hempty
    obtain ⟨envelope', attachments', m, bytes, hpassed, hthrough⟩ := letThrough_of_taken htaken
    obtain ⟨rfl, rfl⟩ := hcarries.unique hpassed.carries
    obtain ⟨hfrom, -, hcid⟩ := empty_iff_of_read hpassed.read
    rw [← hfrom, ← hcid] at hempty
    refine ⟨envelope, attachments, m, bytes, hpassed, hthrough, hempty.imp_right ?_⟩
    intro hnone
    have hattached := hpassed.attached
    rw [hnone] at hattached
    refine ⟨hnone, ?_⟩
    rw [firstWith, hattached]
    rfl

end Read

/-- What reads off an envelope names the message, its parties, its service, its action and its
payload exactly where neither party's id says nothing and the reference is not empty; and of
what is taken, the sender is named and the payload is not found by an empty reference exactly
where the sender's id does not say nothing and the reference is not empty. -/
theorem hollow_refused_iff (L : Estate) :
    (∀ envelope m, UserMessage.fromEnvelope L envelope = .ok m →
      (m.Named ↔ ¬ EmptyParty L envelope "From" ∧ ¬ EmptyParty L envelope "To" ∧
        ¬ EmptyReference L envelope)) ∧
    ∀ (t : As4Transport) (now : Moment) (request : Request) (peer : SocketAddr)
        (envelope : String) (attachments : Attachments),
      Carries L request envelope attachments → takenForMessage (t.hear L now request peer) →
      (¬ TakesHollow L t now request peer ↔
        ¬ EmptyParty L envelope "From" ∧ ¬ EmptyReference L envelope) := by
  constructor
  · intro envelope m h
    exact named_iff h
  · intro t now request peer envelope attachments hcarries htaken
    rw [takesHollow_iff hcarries htaken, not_or]

/-! ## On the bench -/

/-- The order is named, and what the seller takes of it is not hollow. -/
theorem hollow_refused_order :
    ¬ EmptyParty bench (order.envelope bench) "From" ∧
    ¬ TakesHollow bench seller (moment 1) orderRequest "peer" := by
  have hread := UserMessage.read_of_legible bench_lawful.xml legible_order
  have hnamed : order.Named :=
    ⟨by decide, by decide, by decide, by decide, by decide, by decide⟩
  obtain ⟨hfrom, -, hreference⟩ :=
    ((hollow_refused_iff bench).1 (order.envelope bench) order hread).mp hnamed
  have htakes := (hollow_refused_iff bench).2 seller (moment 1) orderRequest "peer"
    (order.envelope bench) [(order.payloadCid, goods)] order_carried
  rw [seller_hears_order] at htakes
  exact ⟨hfrom, (htakes trivial).mpr ⟨hfrom, hreference⟩⟩

/-- The order of a sender without a name, its payload referenced by `cid:` and no more. -/
def hollow : UserMessage :=
  { order with fromParty := "", payloadCid := "" }

/-- The root part of its envelope. -/
def hollowRoot : Part :=
  Mime.part rootCid Mime.soap (asBytes (hollow.envelope bench))

/-- The goods as a part without a content id. -/
def nameless : Part :=
  (Part.new goods).header "Content-Type" "application/octet-stream"

/-- The request that carries the two parts. -/
def hollowRequest : Request :=
  ((Request.new "POST" "/msh").header "Content-Type"
    (Mime.related (moment 0).boundary)).withBody (relatedBody [hollowRoot, nameless])

/-- The boundary occurs in neither part. -/
theorem hollow_absent : Absent (moment 0).boundary [hollowRoot, nameless] := by
  have hmem : markByte ∈ asBytes "=_xmip_0" := by decide
  intro p hp
  simp only [List.mem_cons, List.not_mem_nil, or_false] at hp
  rcases hp with rfl | rfl
  · exact message_root_absent (unmarked_message (by decide)) 0 _ (List.mem_singleton.mpr rfl)
  · refine ⟨Multipart.not_infix_of_not_mem hmem (by decide), ?_⟩
    intro header hheader
    rw [List.mem_singleton.mp hheader]
    exact ⟨boundary_absent (by decide) 0, boundary_absent (by decide) 0⟩

/-- The request carries the hollow message's envelope, and the goods under no content id. -/
theorem hollow_carried :
    Carries bench hollowRequest (hollow.envelope bench) [("", goods)] := by
  have hb := (moment 0).boundary_wf
  have hwf : ∀ p ∈ [hollowRoot, nameless], p.wf = true := wf_rooted _ (by decide)
  have hheader : bench.headerValue hollowRequest.headers "Content-Type" =
      some (Mime.related (moment 0).boundary) :=
    bench_lawful.headerValue_of [] "Content-Type" _ (by simp)
  have hkind : isEnvelopePart bench hollowRoot = true := isEnvelopePart_root _
  refine ⟨rfl, ?_⟩
  rw [hheader, Option.getD_some]
  have hparts : bench.mime.read hollowRequest.body (moment 0).boundary =
      .ok ([] ++ hollowRoot :: [nameless]) := read_written bench_lawful hb hwf hollow_absent
  have htext : Mime.envelopeText bench hollowRoot.body = .ok (hollow.envelope bench) :=
    envelopeText_asBytes (hollow.envelope bench)
  rw [unpack_first (parameter_related bench_lawful hb) hparts (by simp) hkind, htext, ok_bind]
  rfl

/-- The hollow message reads, though its sender has no name and its reference is empty; and
the seller hands it up, with the goods that no content id names. -/
theorem hollow_taken :
    UserMessage.fromEnvelope bench (hollow.envelope bench) = .ok hollow ∧ hollow.fromParty = "" ∧
    hollow.payloadCid = "" ∧ bench.mime.contentId nameless = none ∧
    seller.hear bench (moment 1) hollowRequest "peer" = .Waiting (.ok (some (hollow,
      originOf hollowRequest "peer" hollow, goods, ⟨hollowRequest, "peer"⟩))) := by
  have hlegible : hollow.Legible := ⟨by decide, by decide, by decide, by decide⟩
  have hread := UserMessage.read_of_legible bench_lawful.xml hlegible
  refine ⟨hread, rfl, rfl, by decide, ?_⟩
  exact heard_of_carries bench_lawful.xml hlegible hollow_carried rfl rfl List.not_mem_nil "peer"

end As4
