import XmipAs4.Exchange.Hearing

/-!
# What is posted and what is read of it

What one send puts on the wire, taken apart, and what a far end's `unpack` makes of it:
the attachments as they are carried, the signature verified over them, and the message
read off the envelope that was signed.
-/

namespace As4

open Multipart (Bytes Part asBytes isContentId Absent)

/-! ## Ids -/

/-- A new id is not empty. -/
theorem nextId_ne (now : Moment) : nextId now ≠ "" := by
  intro h
  have hlast : "@xmip".toList = [] := by
    have htext := congrArg String.toList h
    rw [nextId, String.toList_append] at htext
    exact (List.append_eq_nil_iff.mp htext).2
  exact absurd hlast (by decide)

/-- An id formed from a key is not empty. -/
theorem messageIdOf_ne (key : String) : messageIdOf key ≠ "" := by
  intro h
  have hlast : "@xmip".toList = [] := by
    have htext := congrArg String.toList h
    rw [messageIdOf, String.toList_append] at htext
    exact (List.append_eq_nil_iff.mp htext).2
  exact absurd hlast (by decide)

namespace UserMessage

variable (m : UserMessage) (now : Moment)

/-- The id of what a send makes of the template: formed from the key, or a new one. -/
theorem messageId_keyed (key : Option String) :
    ((m.fresh now).keyed key).messageId = key.elim (nextId now) messageIdOf := by
  cases key <;> rfl

/-- A send's message differs from the template in its id, its conversation and its
timestamp, and nothing else. -/
theorem keyed_fresh (key : Option String) :
    (m.fresh now).keyed key =
      { m with
        messageId := key.elim (nextId now) messageIdOf
        conversationId := key.elim (nextId now) messageIdOf
        timestamp := now.clock } := by
  cases key <;> rfl

/-- The id of a send's message is not empty. -/
theorem messageId_keyed_ne (key : Option String) : ((m.fresh now).keyed key).messageId ≠ "" := by
  rw [messageId_keyed]
  cases key with
  | none => exact nextId_ne now
  | some key => exact messageIdOf_ne key

end UserMessage

/-! ## Posting -/

/-- The request that carries an envelope and attachments to an endpoint. -/
def packed (L : Estate) (now : Moment) (endpoint : Endpoint) (envelope : String)
    (attachments : Attachments) : Request :=
  (((Request.new "POST" endpoint.path).header "Host" endpoint.authority).header
    "Content-Type" (Mime.pack L now envelope attachments).1).withBody
    (Mime.pack L now envelope attachments).2

/-- A send puts the request on the wire: the message it makes of the template, the
envelope as it was signed, and a boundary that occurs in none of the parts. -/
structure Posts (L : Estate) (near : As4Transport) (now : Moment) (target : String)
    (bytes : Bytes) (key : Option String) (message : UserMessage) (signed : String)
    (request : Request) : Prop where
  posting : ∃ endpoint, near.posting L now target bytes key = .ok (endpoint, message, request)
  sign : near.receipting.signer.sign now (message.envelope L) [(message.payloadCid, bytes)] =
    .ok signed
  absent : Absent now.boundary (Mime.parts signed [(message.payloadCid, bytes)])

namespace Posts

variable {L : Estate} {near : As4Transport} {now : Moment} {target : String} {bytes : Bytes}
  {key : Option String} {message : UserMessage} {signed : String} {request : Request}

/-- A posting that gets as far as the network posts, where its boundary is absent. -/
theorem of_posting {endpoint : Endpoint}
    (hposting : near.posting L now target bytes key = .ok (endpoint, message, request))
    (habsent : ∀ signed,
      near.receipting.signer.sign now (message.envelope L) [(message.payloadCid, bytes)] =
        .ok signed → Absent now.boundary (Mime.parts signed [(message.payloadCid, bytes)])) :
    ∃ signed, Posts L near now target bytes key message signed request := by
  have hshape := hposting
  obtain ⟨endpoint', -, hshape⟩ := bind_eq_ok hshape
  obtain ⟨signed, hsigned, hshape⟩ := bind_eq_ok hshape
  cases hshape
  exact ⟨signed, ⟨_, hposting⟩, hsigned, habsent signed hsigned⟩

/-- The message posted is the template's, fresh and keyed. -/
theorem message_eq (h : Posts L near now target bytes key message signed request) :
    message = (near.template.fresh now).keyed key := by
  obtain ⟨endpoint, hpost⟩ := h.posting
  obtain ⟨endpoint', -, hpost⟩ := bind_eq_ok hpost
  obtain ⟨signed', -, hpost⟩ := bind_eq_ok hpost
  cases hpost
  rfl

/-- Its content id is the template's. -/
theorem payloadCid_eq (h : Posts L near now target bytes key message signed request) :
    message.payloadCid = near.template.payloadCid := by
  rw [h.message_eq, near.template.keyed_fresh now key]

/-- Its service is the template's. -/
theorem service_eq (h : Posts L near now target bytes key message signed request) :
    message.service = near.template.service := by
  rw [h.message_eq, near.template.keyed_fresh now key]

/-- Its action is the template's. -/
theorem action_eq (h : Posts L near now target bytes key message signed request) :
    message.action = near.template.action := by
  rw [h.message_eq, near.template.keyed_fresh now key]

/-- The request posted: where it goes, and what it carries. -/
theorem request_eq (h : Posts L near now target bytes key message signed request) :
    ∃ endpoint : Endpoint,
      request = packed L now endpoint signed [(message.payloadCid, bytes)] := by
  have hm := h.message_eq
  have hsign := h.sign
  obtain ⟨endpoint, hpost⟩ := h.posting
  obtain ⟨endpoint', -, hpost⟩ := bind_eq_ok hpost
  obtain ⟨signed', hsign', hpost⟩ := bind_eq_ok hpost
  rw [← hm] at hsign'
  rw [hsign, Except.ok.injEq] at hsign'
  subst hsign'
  refine ⟨endpoint', ?_⟩
  cases hpost
  rfl

/-- The id of the message posted is not empty. -/
theorem messageId_ne (h : Posts L near now target bytes key message signed request) :
    message.messageId ≠ "" := by
  rw [h.message_eq]
  exact near.template.messageId_keyed_ne now key

variable (hL : L.Lawful)
include hL

/-- What stands in the `UserMessage` of the envelope as it was signed. -/
theorem content_signed (h : Posts L near now target bytes key message signed request)
    (hsigner : near.receipting.signer.Leaves L "UserMessage") :
    L.xml.content signed "UserMessage" = some (message.inner.render L.xml.escape) := by
  have hleft := hsigner now (message.element L) [(message.payloadCid, bytes)] signed h.sign
  rw [hleft]
  exact message.content_envelope hL.xml

end Posts

/-! ## Unpacking -/

/-- The request is a POST, and its body unpacks to the envelope and the attachments. -/
structure Carries (L : Estate) (request : Request) (envelope : String)
    (attachments : Attachments) : Prop where
  method : request.method = "POST"
  body : Mime.unpack L ((L.headerValue request.headers "Content-Type").getD "") request.body =
    .ok (envelope, attachments)

/-- A request carries one envelope and one list of attachments. -/
theorem Carries.unique {L : Estate} {request : Request} {envelope envelope' : String}
    {attachments attachments' : Attachments} (h : Carries L request envelope attachments)
    (h' : Carries L request envelope' attachments') :
    envelope = envelope' ∧ attachments = attachments' := by
  have hbody := h'.body
  rw [h.body, Except.ok.injEq, Prod.mk.injEq] at hbody
  exact hbody

/-- The message with its payload among the attachments, or why there is none. -/
def payloadOf (L : Estate) (message : UserMessage) (attachments : Attachments) :
    Result (UserMessage × Bytes) := do
  let bytes ← okOr ((attachments.find? fun a => a.1 == message.payloadCid).map Prod.snd)
    (L.protocolError ("a message whose payload cid:" ++ message.payloadCid ++ " is not attached"))
  .ok (message, bytes)

/-- A payload is found where an attachment has the message's content id, and it is the bytes
of the first that has. -/
theorem payloadOf_eq_ok_iff {L : Estate} {m read : UserMessage} {attachments : Attachments}
    {bytes : Bytes} :
    payloadOf L m attachments = .ok (read, bytes) ↔
      read = m ∧ attachments.find? (fun a => a.1 == m.payloadCid) = some (m.payloadCid, bytes) := by
  unfold payloadOf
  cases hfind : attachments.find? fun a => a.1 == m.payloadCid with
  | none => simp
  | some a =>
    obtain ⟨cid, payload⟩ := a
    have hcid : cid = m.payloadCid := by simpa using List.find?_some hfind
    rw [Option.map_some, okOr_some, ok_bind, Except.ok.injEq, Prod.mk.injEq, hcid,
      Option.some.injEq, Prod.mk.injEq]
    constructor
    · rintro ⟨rfl, rfl⟩
      exact ⟨rfl, rfl, rfl⟩
    · rintro ⟨rfl, -, rfl⟩
      exact ⟨rfl, rfl⟩

namespace As4Transport

variable {L : Estate} (t : As4Transport) (now : Moment) {request : Request}

/-- What is read of a request whose body unpacks: the signature verified over exactly what
was unpacked, and then the message and its payload. -/
theorem unpack_of_carries {envelope : String} {attachments : Attachments}
    (h : Carries L request envelope attachments) :
    t.unpack L now request = t.receipting.signer.verify now envelope attachments >>= fun _ =>
      UserMessage.fromEnvelope L envelope >>= fun message => payloadOf L message attachments := by
  rw [unpack, if_neg (not_not.mpr h.method)]
  simp only
  rw [h.body]
  rfl

/-- Where nothing is unpacked, nothing is read. -/
theorem unpack_of_error {e : TransportError} (hmethod : request.method = "POST")
    (hbody : Mime.unpack L ((L.headerValue request.headers "Content-Type").getD "") request.body =
      .error e) : t.unpack L now request = .error e := by
  rw [unpack, if_neg (not_not.mpr hmethod)]
  simp only
  rw [hbody]
  rfl

end As4Transport

section Unpacking

variable {L : Estate} (hL : L.Lawful)
include hL

/-- What is read of a packed request's body is what is read of what was packed. -/
theorem unpack_packed (now : Moment) (endpoint : Endpoint) (envelope : String)
    (attachments : Attachments) :
    Mime.unpack L ((L.headerValue (packed L now endpoint envelope attachments).headers
        "Content-Type").getD "") (packed L now endpoint envelope attachments).body =
      Mime.unpack L (Mime.pack L now envelope attachments).1
        (Mime.pack L now envelope attachments).2 := by
  have habout : Multipart.folded "Host" ≠ Multipart.folded "Content-Type" := by decide
  have hheader : L.headerValue (packed L now endpoint envelope attachments).headers
      "Content-Type" = some (Mime.pack L now envelope attachments).1 := by
    apply hL.headerValue_of [("Host", endpoint.authority)] "Content-Type" _
    intro header hmem
    rw [List.mem_singleton.mp hmem]
    exact habout
  rw [hheader, Option.getD_some]
  rfl

/-- A packed request carries what was packed, where the content ids may be written. -/
theorem carries_packed {now : Moment} {envelope : String} {attachments : Attachments}
    (endpoint : Endpoint) (hne : attachments ≠ [])
    (hids : ∀ a ∈ attachments, isContentId a.1 = true)
    (habsent : Absent now.boundary (Mime.parts envelope attachments)) :
    Carries L (packed L now endpoint envelope attachments) envelope attachments := by
  obtain ⟨carry, hwf, hpack⟩ := exists_carry hL
  refine ⟨rfl, ?_⟩
  rw [unpack_packed hL, hpack now envelope attachments hne habsent, received_of_ids hL hwf hids,
    ok_bind]

/-- A packed request carries one attachment where its content id may be written. -/
theorem carries_packed_one {now : Moment} {envelope cid : String} {bytes : Bytes}
    (endpoint : Endpoint) (hid : isContentId cid = true)
    (habsent : Absent now.boundary (Mime.parts envelope [(cid, bytes)])) :
    Carries L (packed L now endpoint envelope [(cid, bytes)]) envelope [(cid, bytes)] := by
  refine carries_packed hL endpoint (by simp) ?_ habsent
  intro a ha
  rwa [List.mem_singleton.mp ha]

/-- How a post is read: one way of carrying for all posts, far ends and moments. -/
theorem exists_unpack_posted :
    ∃ carry : Part → Except String Part, (∀ p : Part, p.wf = true → carry p = .ok p) ∧
      ∀ {near far : As4Transport} {now later target bytes key message signed request},
        Posts L near now target bytes key message signed request →
        near.receipting.signer.Leaves L "UserMessage" →
        far.unpack L later request =
          received L carry [(message.payloadCid, bytes)] >>= fun carried =>
            far.receipting.signer.verify later signed carried >>= fun _ =>
              UserMessage.fromElement L (message.inner.render L.xml.escape) >>= fun read =>
                payloadOf L read carried := by
  obtain ⟨carry, hwf, hpack⟩ := exists_carry hL
  refine ⟨carry, hwf, ?_⟩
  intro near far now later target bytes key message signed request hpost hsigner
  have hcontent := hpost.content_signed hL hsigner
  obtain ⟨endpoint, hrequest⟩ := hpost.request_eq
  have hread := unpack_packed hL now endpoint signed [(message.payloadCid, bytes)]
  rw [hpack now signed [(message.payloadCid, bytes)] (by simp) hpost.absent] at hread
  have hmethod : request.method = "POST" := by
    rw [hrequest]
    rfl
  rw [← hrequest] at hread
  cases hcarried : received L carry [(message.payloadCid, bytes)] with
  | error e =>
    rw [hcarried, error_bind] at hread
    rw [far.unpack_of_error later hmethod hread, error_bind]
  | ok carried =>
    rw [hcarried, ok_bind] at hread
    rw [far.unpack_of_carries later ⟨hmethod, hread⟩, ok_bind,
      UserMessage.fromEnvelope_of_content hcontent]

/-- Whatever is read of a post is the message posted, as it reads back. -/
theorem read_of_posted {near far : As4Transport} {now later : Moment} {target : String}
    {bytes bytes' : Bytes} {key : Option String} {message read : UserMessage} {signed : String}
    {request : Request} (hpost : Posts L near now target bytes key message signed request)
    (hsigner : near.receipting.signer.Leaves L "UserMessage")
    (hread : far.unpack L later request = .ok (read, bytes')) : read = message.readBack := by
  obtain ⟨carry, -, hunpack⟩ := exists_unpack_posted hL
  rw [hunpack hpost hsigner] at hread
  obtain ⟨carried, -, hread⟩ := bind_eq_ok hread
  obtain ⟨-, -, hread⟩ := bind_eq_ok hread
  obtain ⟨element, helement, hread⟩ := bind_eq_ok hread
  obtain ⟨payload, -, hread⟩ := bind_eq_ok hread
  rw [Except.ok.injEq, Prod.mk.injEq] at hread
  rw [message.fromElement_inner hL.xml] at helement
  split_ifs at helement
  rw [← hread.1]
  exact (Except.ok.inj helement).symm

omit hL in
/-- Where a message is found with its payload, so is any message of the same content id. -/
theorem payloadOf_eq_ok {m m' read : UserMessage} {attachments : Attachments} {bytes : Bytes}
    (h : payloadOf L m attachments = .ok (read, bytes)) (hcid : m'.payloadCid = m.payloadCid) :
    payloadOf L m' attachments = .ok (m', bytes) := by
  obtain ⟨-, hfind⟩ := payloadOf_eq_ok_iff.mp h
  rw [← hcid] at hfind
  exact payloadOf_eq_ok_iff.mpr ⟨rfl, hfind⟩

/-- What is posted of one template and one payload is read alike: where a far end that
verifies everything reads one post, it reads any other, and the same payload with it. -/
theorem unpack_posted_alike {near far : As4Transport} (hunsigned : far.receipting.signer = unsigned)
    (hsigner : near.receipting.signer.Leaves L "UserMessage") {bytes bytes' : Bytes}
    {now later now' later' : Moment} {target target' : String} {key key' : Option String}
    {message message' read : UserMessage} {signed signed' : String} {request request' : Request}
    (hpost : Posts L near now target bytes key message signed request)
    (hpost' : Posts L near now' target' bytes key' message' signed' request')
    (hread : far.unpack L later request = .ok (read, bytes')) :
    far.unpack L later' request' = .ok (message'.readBack, bytes') := by
  obtain ⟨carry, -, hunpack⟩ := exists_unpack_posted hL
  have hcid : message'.payloadCid = message.payloadCid := by
    rw [hpost.payloadCid_eq, hpost'.payloadCid_eq]
  have hservice : message'.service = message.service := by
    rw [hpost.service_eq, hpost'.service_eq]
  have haction : message'.action = message.action := by
    rw [hpost.action_eq, hpost'.action_eq]
  rw [hunpack hpost hsigner] at hread
  obtain ⟨carried, hcarried, hread⟩ := bind_eq_ok hread
  obtain ⟨-, -, hread⟩ := bind_eq_ok hread
  obtain ⟨element, helement, hpayload⟩ := bind_eq_ok hread
  rw [message.fromElement_inner hL.xml] at helement
  split_ifs at helement with _ hs ha
  have hback : element = message.readBack := (Except.ok.inj helement).symm
  have hcid' : message'.readBack.payloadCid = element.payloadCid := by
    rw [hback, UserMessage.readBack, UserMessage.readBack, hcid]
  have helement' := UserMessage.fromElement_of_named hL.xml message'.inner_shows
    hpost'.messageId_ne (hservice ▸ hs) (haction ▸ ha)
  rw [hunpack hpost' hsigner, hcid, hcarried, ok_bind, hunsigned]
  change (UserMessage.fromElement L (message'.inner.render L.xml.escape) >>= fun read =>
    payloadOf L read carried) = _
  rw [helement', ok_bind, payloadOf_eq_ok hpayload hcid']

/-- What is read of a clean post: the signature over exactly what was signed and sent, and
then the message and the payload as they were posted. -/
theorem unpack_posted_clean {near : As4Transport}
    {now : Moment} {target : String} {bytes : Bytes} {key : Option String}
    {message : UserMessage} {signed : String} {request : Request}
    (hpost : Posts L near now target bytes key message signed request)
    (hsigner : near.receipting.signer.Leaves L "UserMessage")
    (hservice : near.template.service ≠ "") (haction : near.template.action ≠ "")
    (hid : isContentId near.template.payloadCid = true)
    (hcid : ¬ "cid:".toList <+: near.template.payloadCid.toList) (far : As4Transport)
    (later : Moment) :
    far.unpack L later request =
      far.receipting.signer.verify later signed [(message.payloadCid, bytes)] >>= fun _ =>
        .ok (message, bytes) := by
  obtain ⟨carry, hwf, hunpack⟩ := exists_unpack_posted hL
  rw [← hpost.payloadCid_eq] at hid hcid
  rw [← hpost.service_eq] at hservice
  rw [← hpost.action_eq] at haction
  have hcarried := received_one hL hwf hid bytes
  have hread : UserMessage.fromElement L (message.inner.render L.xml.escape) = .ok message := by
    rw [UserMessage.fromElement_of_named hL.xml message.inner_shows hpost.messageId_ne hservice
      haction, UserMessage.readBack_of_clean hcid]
  have hpayload : payloadOf L message [(message.payloadCid, bytes)] = .ok (message, bytes) := by
    simp [payloadOf]
  rw [hunpack hpost hsigner, hcarried, ok_bind, hread, ok_bind, hpayload]

end Unpacking

end As4
