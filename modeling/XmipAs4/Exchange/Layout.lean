import XmipAs4.Delivery.Refinement
import XmipAs4.Exchange.FarEnd
import XmipAs4.Exchange.Receipts
import XmipAs4.Reference.Bench
import XmipAs4.Wire.Readable

/-!
# The layout a Party writes in

Another MSH writes the same documents with prefixes of its own, declares its namespaces where
it likes, puts white space between elements and attaches in an order of its own.  A far end that
hears it in one layout or in another answers the same, tells the same and hands the same up,
over any run; all that differs is the request it keeps with the sender, which is the bytes as
they came.  A signer sees the bytes, so it is asked to verify them alike.
-/

namespace As4

open Delivery (run outputs)
open Markup (Forest)
open Multipart (Bytes)

/-! ## Documents -/

/-- The flat scan reads what a reader of the whole tree reads.  Of every readable document, by
whomever it was written and whatever it lacks, `from_envelope` makes the User Message that
stands in its tree, and the Signal, or refuses it for the same fault; and whatever this crate
writes is the text of a readable document. -/
theorem envelope_read_as_tree {L : Estate} (hX : L.xml.Lawful) :
    (∀ document, Readable document →
      UserMessage.fromEnvelope L (document.render L.xml.escape) =
          UserMessage.fromDocument L document ∧
        Signal.fromEnvelope L (document.render L.xml.escape) = Signal.fromDocument L document) ∧
    (∀ m : UserMessage, ∃ document, Readable document ∧
      m.envelope L = document.render L.xml.escape) ∧
    (∀ (now : Moment) (m : UserMessage), ∃ document, Readable document ∧
      Signal.receipt L now m = document.render L.xml.escape) ∧
    ∀ now refTo code description, ∃ document, Readable document ∧
      Signal.error L now refTo code description = document.render L.xml.escape := by
  refine ⟨fun document h => ⟨?_, ?_⟩, fun m => ?_, fun now m => ?_,
    fun now refTo code description => ?_⟩
  · exact UserMessage.fromEnvelope_document hX h
  · exact Signal.fromEnvelope_document hX h
  · exact ⟨_, UserMessage.readable_envelope m, m.envelope_eq hX⟩
  · exact ⟨_, Signal.readable_receipt now m, Signal.receipt_eq hX now m⟩
  · exact ⟨_, Signal.readable_error now refTo code description,
      Signal.error_eq hX now refTo code description⟩

/-- An element that another MSH writes. -/
def theirs (name : String) (attrs : List (String × String)) (inner : Forest) : Forest :=
  .text "\n  " (.elem ⟨"ns2", name, attrs⟩ inner (.text "\n" .nil))

/-- The order as another MSH writes it: without a declaration, under prefixes of its own, and
with white space between elements. -/
def theirOrder : Forest :=
  .elem ⟨"S", "Envelope", [("xmlns:S", soapNamespace)]⟩
    (.elem ⟨"S", "Header", []⟩
      (theirs "Messaging" [("xmlns:ns2", ebms), ("S:mustUnderstand", "1")]
        (theirs "UserMessage" []
          (theirs "MessageInfo" [] (theirs "Timestamp" [] (.text order.timestamp .nil) ++
              theirs "MessageId" [] (.text order.messageId .nil)) ++
            (theirs "PartyInfo" []
              (theirs "From" [] (theirs "PartyId" [] (.text "Buyer" .nil) ++
                  theirs "Role" [] (.text initiator .nil)) ++
                theirs "To" [] (theirs "PartyId" [] (.text "Seller" .nil) ++
                  theirs "Role" [] (.text responder .nil))) ++
            (theirs "CollaborationInfo" []
              (theirs "Service" [] (.text "urn:svc" .nil) ++
                (theirs "Action" [] (.text "Submit" .nil) ++
                  theirs "ConversationId" [] (.text order.conversationId .nil))) ++
            theirs "PayloadInfo" [] (theirs "PartInfo" [("href", "cid:payload@xmip")]
              (theirs "PartProperties" [] (theirs "Property" [("name", "MimeType")]
                (.text "application/octet-stream" .nil)))))))))
      (.void ⟨"S", "Body", []⟩ .nil)) .nil

/-- It is readable. -/
theorem readable_theirOrder : Readable theirOrder where
  wf := by decide
  user := by decide
  signal := by decide
  inUser := by
    intro user hinside
    cases hinside
    decide
  inSignal := by
    intro signal hinside
    cases hinside

/-- Less its layout it is the document that the buyer writes. -/
theorem core_theirOrder : theirOrder.core = (wrapForest order.forest).core := by
  rfl

/-- The order is read off what another MSH writes. -/
theorem envelope_read_as_tree_order :
    UserMessage.fromEnvelope bench (theirOrder.render bench.xml.escape) = .ok order := by
  obtain ⟨hread, -⟩ := envelope_read_as_tree bench_lawful.xml
  rw [(hread theirOrder readable_theirOrder).1]
  rfl

/-! ## What is handed up, without the bytes it came in -/

/-- The sender without the request as it came. -/
def Sender.withoutRequest (s : Sender) : Sender :=
  { s with request := Request.new "" "" }

/-- What arrived without the request as it came. -/
def Arrived.withoutRequest (a : Arrived) : Arrived :=
  { a with sender := a.sender.withoutRequest }

/-- What was taken without the request as it came. -/
def Taken.withoutRequest (t : Taken) : Taken :=
  { t with sender := t.sender.withoutRequest }

/-- A message handed up without the request as it came. -/
def HandUp.withoutRequest (u : HandUp) : HandUp :=
  { u with arrived := u.arrived.withoutRequest }

/-- What is told without the requests as they came. -/
def Told.withoutRequest : Told → Told
  | .took said => .took (said.map fun held => held.map fun p => (p.1, p.2.withoutRequest))
  | .judged said => .judged said
  | .accepted said => .accepted (said.map fun held => held.map fun p => (p.1, p.2.withoutRequest))
  | .nothing => .nothing

/-! ## One document in two layouts -/

/-- The requests go to one path and carry one document, each in a layout of its own, with the
same attachments, no two of one content id, in whatever order; and what verifies of the one
verifies of the other. -/
structure Relaid (L : Estate) (signer : Signer) (now : Moment) (request request' : Request) :
    Prop where
  path : request.path = request'.path
  document : ∃ f g attachments attachments', Readable f ∧ Readable g ∧ f.core = g.core ∧
    attachments.Perm attachments' ∧ (attachments.map Prod.fst).Nodup ∧
    Carries L request (f.render L.xml.escape) attachments ∧
    Carries L request' (g.render L.xml.escape) attachments' ∧
    signer.verify now (f.render L.xml.escape) attachments =
      signer.verify now (g.render L.xml.escape) attachments'

/-- The events are one event, or the same POST in two layouts. -/
inductive SameButLayout (L : Estate) (signer : Signer) : Event → Event → Prop where
  | same (e : Event) : SameButLayout L signer e e
  | take {now : Moment} {request request' : Request} (peer : SocketAddr)
      (h : Relaid L signer now request request') :
      SameButLayout L signer (.take now (.posted request peer)) (.take now (.posted request' peer))
  | accept {now : Moment} {request request' : Request} (peer : SocketAddr) (written : Result Unit)
      (h : Relaid L signer now request request') :
      SameButLayout L signer (.accept now (.read request peer written))
        (.accept now (.read request' peer written))

/-- The requests go to one path and are read alike. -/
structure ReadAlike (L : Estate) (t : As4Transport) (now : Moment) (request request' : Request) :
    Prop where
  path : request.path = request'.path
  unpack : t.unpack L now request = t.unpack L now request'

/-- Of attachments no two of which have one content id, the same is found in whatever order
they stand. -/
theorem find_perm {cid : String} {l l' : Attachments} (h : l.Perm l')
    (hnodup : (l.map Prod.fst).Nodup) :
    l.find? (fun a => a.1 == cid) = l'.find? (fun a => a.1 == cid) := by
  induction h with
  | nil => rfl
  | cons a _ ih =>
    rw [List.map_cons, List.nodup_cons] at hnodup
    rw [List.find?_cons, List.find?_cons, ih hnodup.2]
  | swap a b l =>
    rw [List.map_cons, List.map_cons, List.nodup_cons] at hnodup
    have hne : b.1 ≠ a.1 := fun heq => hnodup.1 (heq ▸ List.mem_cons_self ..)
    simp only [List.find?_cons]
    by_cases hb : b.1 = cid
    · have ha : (a.1 == cid) = false := beq_eq_false_iff_ne.mpr fun ha => hne (hb.trans ha.symm)
      rw [ha]
    · rw [beq_eq_false_iff_ne.mpr hb]
  | trans h₁ _ ih₁ ih₂ => exact (ih₁ hnodup).trans (ih₂ ((h₁.map Prod.fst).nodup_iff.mp hnodup))

/-- One document in two layouts is read alike. -/
theorem Relaid.readAlike {L : Estate} (hX : L.xml.Lawful) {t : As4Transport} {now : Moment}
    {request request' : Request} (h : Relaid L t.receipting.signer now request request') :
    ReadAlike L t now request request' := by
  obtain ⟨f, g, attachments, attachments', hf, hg, hcore, hperm, hnodup, hcarries, hcarries',
    hverify⟩ := h.document
  have hpayload : ∀ m, payloadOf L m attachments = payloadOf L m attachments' := by
    intro m
    rw [payloadOf, find_perm hperm hnodup, payloadOf]
  refine ⟨h.path, ?_⟩
  simp only [t.unpack_of_carries now hcarries, t.unpack_of_carries now hcarries', hverify,
    (read_alike hX hf hg hcore).1, hpayload]

/-! ## One far end beside the other -/

section Hearing

variable {L : Estate} {t : As4Transport} {now : Moment} {request request' : Request}
  (h : ReadAlike L t now request request') (peer : SocketAddr)
include h

/-- What is read alike is heard alike: it is answered the same, or it waits as the same
message, with the same origin and payload. -/
theorem hear_alike :
    (∃ said answer, t.hear L now request peer = .Answered said answer ∧
      t.hear L now request' peer = .Answered said answer ∧ ∀ held, said ≠ .ok (some held)) ∨
    ∃ m origin bytes,
      t.hear L now request peer = .Waiting (.ok (some (m, origin, bytes, ⟨request, peer⟩))) ∧
      t.hear L now request' peer = .Waiting (.ok (some (m, origin, bytes, ⟨request', peer⟩))) := by
  have horigin : ∀ m, originOf request' peer m = originOf request peer m := by
    intro m
    unfold originOf
    rw [h.path]
  have hh := t.hears L now request peer
  generalize hheard : t.hear L now request peer = heard at hh
  cases hh with
  | unread hunpack =>
    rw [h.unpack] at hunpack
    exact .inl ⟨_, _, rfl, (Hears.unread hunpack).eq_hear, by simp⟩
  | unadmitted hunpack hadmits =>
    rw [h.unpack] at hunpack
    exact .inl ⟨_, _, rfl, (Hears.unadmitted hunpack hadmits).eq_hear, by simp⟩
  | again hunpack hadmits hseen hreceipt =>
    rw [h.unpack] at hunpack
    exact .inl ⟨_, _, rfl, (Hears.again hunpack hadmits hseen hreceipt).eq_hear, by simp⟩
  | unsigned hunpack hadmits hseen hreceipt =>
    rw [h.unpack] at hunpack
    exact .inl ⟨_, _, rfl, (Hears.unsigned hunpack hadmits hseen hreceipt).eq_hear, by simp⟩
  | new hunpack hadmits hnew =>
    rw [h.unpack] at hunpack
    refine .inr ⟨_, _, _, rfl, ?_⟩
    rw [← horigin]
    exact (Hears.new hunpack hadmits hnew).eq_hear

/-- What is read alike is served alike. -/
theorem serve_alike : ∃ said said' answer t',
    t.serve L now request peer = ((said, answer), t') ∧
      t.serve L now request' peer = ((said', answer), t') ∧
      (Told.accepted said).withoutRequest = (Told.accepted said').withoutRequest := by
  unfold As4Transport.serve
  rcases hear_alike h peer with
    ⟨said, answer, hheard, hheard', -⟩ | ⟨m, origin, bytes, hheard, hheard'⟩
  · rw [hheard, hheard']
    exact ⟨_, _, _, _, rfl, rfl, rfl⟩
  · rw [hheard, hheard']
    simp only
    cases t.receipting.answer L now m .Accepted with
    | mk answer receipting =>
      cases answer with
      | ok receipt => exact ⟨_, _, _, _, rfl, rfl, rfl⟩
      | error e => exact ⟨_, _, _, _, rfl, rfl, rfl⟩

end Hearing

/-- Two far ends of one party differ at most in the requests they keep. -/
structure Beside (t : As4Transport) (s s' : FarEnd) : Prop where
  same : s.transport = t.remembering s.transport.receipting.ids
  transport : s'.transport = s.transport
  handed : s.handed.map HandUp.withoutRequest = s'.handed.map HandUp.withoutRequest

/-- What is told and what goes on the wire, without the requests as they came. -/
def observed (out : Told × Option Response) : Told × Option Response :=
  (out.1.withoutRequest, out.2)

section Step

variable {L : Estate} {t : As4Transport} {s s' : FarEnd}

/-- What is accepted of what is said alike is alike. -/
theorem acceptedOf_alike {said said' : Result (Option (UserMessage × Taken))}
    (h : (Told.accepted said).withoutRequest = (Told.accepted said').withoutRequest) :
    (acceptedOf said).map HandUp.withoutRequest = (acceptedOf said').map HandUp.withoutRequest := by
  have hsaid := Told.accepted.inj h
  cases said with
  | error e =>
    cases said' with
    | error e' => rfl
    | ok held' => cases hsaid
  | ok held =>
    cases said' with
    | error e' => cases hsaid
    | ok held' =>
      rw [Except.map, Except.map, Except.ok.injEq] at hsaid
      cases held with
      | none =>
        cases held' with
        | none => rfl
        | some p' => cases hsaid
      | some p =>
        cases held' with
        | none => cases hsaid
        | some p' =>
          obtain ⟨m, uri, bytes, request, peer⟩ := p
          obtain ⟨m', uri', bytes', request', peer'⟩ := p'
          cases hsaid
          rfl

/-- What waits at one far end waits at the other. -/
theorem Beside.waits (h : Beside t s s') {k : ℕ} {arrived : Arrived}
    (hwaits : s.handed[k]? = some ⟨arrived, none⟩) : ∃ arrived',
    s'.handed[k]? = some ⟨arrived', none⟩ ∧ arrived.withoutRequest = arrived'.withoutRequest := by
  have hat := congrArg (fun l => l[k]?) h.handed
  simp only [List.getElem?_map, hwaits, Option.map_some] at hat
  obtain ⟨⟨arrived', verdict⟩, hwaits', hsame⟩ := Option.map_eq_some_iff.mp hat.symm
  obtain ⟨harrived, rfl⟩ := HandUp.mk.inj hsame
  exact ⟨arrived', hwaits', harrived.symm⟩

/-- The relation goes both ways. -/
theorem Beside.symm (h : Beside t s s') : Beside t s' s where
  same := by
    rw [h.transport]
    exact h.same
  transport := h.transport.symm
  handed := h.handed.symm

/-- A POST that is read alike is taken alike. -/
theorem Beside.take (h : Beside t s s') {now : Moment} {request request' : Request}
    (hread : ReadAlike L t now request request') (peer : SocketAddr) :
    Beside t (s.step L (.take now (.posted request peer))).1
        (s'.step L (.take now (.posted request' peer))).1 ∧
      observed (s.step L (.take now (.posted request peer))).2 =
        observed (s'.step L (.take now (.posted request' peer))).2 := by
  have hread' : ReadAlike L s.transport now request request' := by
    rw [h.same]
    exact ⟨hread.path, hread.unpack⟩
  unfold FarEnd.step As4Transport.takeNext
  simp only
  rw [h.transport]
  rcases hear_alike hread' peer with
    ⟨said, answer, hheard, hheard', hsaid⟩ | ⟨m, origin, bytes, hheard, hheard'⟩
  · rw [hheard, hheard']
    cases said with
    | error e => exact ⟨h, rfl⟩
    | ok held =>
      cases held with
      | none => exact ⟨h, rfl⟩
      | some held => exact absurd rfl (hsaid held)
  · rw [hheard, hheard']
    simp only
    refine ⟨⟨h.same, rfl, ?_⟩, rfl⟩
    simp only [List.map_append, h.handed]
    rfl

/-- A connection whose POST is read alike is served alike. -/
theorem Beside.accept (h : Beside t s s') {now : Moment} {request request' : Request}
    (hread : ReadAlike L t now request request') (peer : SocketAddr) (written : Result Unit) :
    Beside t (s.step L (.accept now (.read request peer written))).1
        (s'.step L (.accept now (.read request' peer written))).1 ∧
      observed (s.step L (.accept now (.read request peer written))).2 =
        observed (s'.step L (.accept now (.read request' peer written))).2 := by
  have hread' : ReadAlike L s.transport now request request' := by
    rw [h.same]
    exact ⟨hread.path, hread.unpack⟩
  obtain ⟨ids, hids⟩ := (steps (L := L) s (.accept now (.read request peer written))).transport_eq
  obtain ⟨said, said', answer, t', hserve, hserve', htold⟩ := serve_alike hread' peer
  have hhanded := acceptedOf_alike htold
  unfold FarEnd.step acceptedOn at hids ⊢
  simp only [As4Transport.acceptOne] at hids ⊢
  rw [h.transport]
  rw [hserve] at hids
  rw [hserve, hserve']
  have hboth : ∀ told told', told.withoutRequest = told'.withoutRequest →
      Beside t ⟨t', s.handed ++ acceptedOf said⟩ ⟨t', s'.handed ++ acceptedOf said'⟩ ∧
        observed (told, some answer) = observed (told', some answer) := by
    intro told told' hsaid
    refine ⟨⟨?_, rfl, ?_⟩, by rw [observed, observed, hsaid]⟩
    · have ht' : t' = s.transport.remembering ids := by
        cases written <;> exact hids
      change t' = t.remembering t'.receipting.ids
      rw [ht', h.same]
      rfl
    · simp only [List.map_append, h.handed, hhanded]
  cases written with
  | ok _ => exact hboth _ _ htold
  | error e => exact hboth _ _ rfl

/-- A verdict is given alike. -/
theorem Beside.judge (h : Beside t s s') (now : Moment) (k : ℕ) (verdict : Verdict)
    (reply : Response → Result Unit) :
    Beside t (s.step L (.judge now k verdict reply)).1 (s'.step L (.judge now k verdict reply)).1 ∧
      observed (s.step L (.judge now k verdict reply)).2 =
        observed (s'.step L (.judge now k verdict reply)).2 := by
  by_cases hwaits : ∃ arrived, s.handed[k]? = some ⟨arrived, none⟩
  · obtain ⟨arrived, hwaits⟩ := hwaits
    obtain ⟨arrived', hwaits', hsame⟩ := h.waits hwaits
    have hanswered : arrived.answered = arrived'.answered := by
      obtain ⟨-, -, -, hanswered⟩ := Arrived.mk.inj hsame
      exact hanswered
    obtain ⟨ids, hids⟩ := (steps (L := L) s (.judge now k verdict reply)).transport_eq
    obtain ⟨answer, receipting, hanswer, hstep⟩ :=
      step_judge_waits (L := L) now hwaits verdict reply
    obtain ⟨answer', receipting', hanswer', hstep'⟩ :=
      step_judge_waits (L := L) now hwaits' verdict reply
    rw [h.transport, ← hanswered, hanswer] at hanswer'
    cases hanswer'
    rw [hstep] at hids
    rw [hstep, hstep']
    refine ⟨⟨?_, ?_, ?_⟩, rfl⟩
    · simp only at hids ⊢
      have hremembered : receipting.ids = ids :=
        congrArg (fun t' : As4Transport => t'.receipting.ids) hids
      rw [hremembered, hids, h.same]
      rfl
    · simp only
      rw [h.transport]
    · simp only
      rw [List.map_set, List.map_set, h.handed, HandUp.withoutRequest, HandUp.withoutRequest, hsame]
  · have hwaits' : ¬ ∃ arrived, s'.handed[k]? = some ⟨arrived, none⟩ := by
      rintro ⟨arrived', hwaits'⟩
      obtain ⟨arrived, h', -⟩ := h.symm.waits hwaits'
      exact hwaits ⟨arrived, h'⟩
    rw [step_judge_nothing (not_exists.mp hwaits), step_judge_nothing (not_exists.mp hwaits')]
    exact ⟨h, rfl⟩

/-- Events that are one event but for the layout have the same effect. -/
theorem Beside.step (hX : L.xml.Lawful) (h : Beside t s s') {e e' : Event}
    (he : SameButLayout L t.receipting.signer e e') :
    Beside t (s.step L e).1 (s'.step L e').1 ∧
      observed (s.step L e).2 = observed (s'.step L e').2 := by
  cases he with
  | take peer hrelaid => exact h.take (hrelaid.readAlike hX) peer
  | accept peer written hrelaid => exact h.accept (hrelaid.readAlike hX) peer written
  | same =>
    cases e with
    | judge now k verdict reply => exact h.judge now k verdict reply
    | take now arrival =>
      cases arrival with
      | failed e => exact ⟨h, rfl⟩
      | posted request peer => exact h.take ⟨rfl, rfl⟩ peer
    | accept now connection =>
      cases connection with
      | read request peer written => exact h.accept ⟨rfl, rfl⟩ peer written
      | broken e =>
        refine ⟨?_, rfl⟩
        unfold FarEnd.step acceptedOn As4Transport.acceptOne
        simp only [List.append_nil]
        exact h

end Step

/-! ## Over any run -/

/-- The answers have one status and carry one document, each in a layout of its own, and what
verifies of the one verifies of the other. -/
structure RelaidAnswer (L : Estate) (signer : Signer) (later : Moment)
    (answer answer' : Response) : Prop where
  status : answer.status = answer'.status
  document : ∃ f g attachments, Readable f ∧ Readable g ∧ f.core = g.core ∧
    Mime.unpack L ((L.headerValue answer.headers "Content-Type").getD "") answer.body =
      .ok (f.render L.xml.escape, attachments) ∧
    Mime.unpack L ((L.headerValue answer'.headers "Content-Type").getD "") answer'.body =
      .ok (g.render L.xml.escape, attachments) ∧
    signer.verify later (f.render L.xml.escape) attachments =
      signer.verify later (g.render L.xml.escape) attachments

/-- A near end makes the same of an answer in whatever layout it comes. -/
theorem RelaidAnswer.verifyReceipt {L : Estate} (hX : L.xml.Lawful) {near : As4Transport}
    {later : Moment} {answer answer' : Response}
    (h : RelaidAnswer L near.receipting.signer later answer answer') (sent : UserMessage) :
    near.verifyReceipt L later answer sent = near.verifyReceipt L later answer' sent := by
  obtain ⟨f, g, attachments, hf, hg, hcore, hunpack, hunpack', hverify⟩ := h.document
  unfold As4Transport.verifyReceipt
  simp only
  rw [hunpack, hunpack', ok_bind, ok_bind, hverify, (read_alike hX hf hg hcore).2, h.status]

/-- The layout that Parties write in shows nowhere.  Over any run of POSTs, verdicts and
connections, a far end that hears some of the POSTs in another layout (other prefixes,
namespaces declared elsewhere, other text between elements, attachments in another order, no two
of them of one content id), where its signer verifies the one as it does the other, tells and
answers the same in every step, and ends with the same memory and the same messages handed up,
each with its verdict; all that differs is the request kept with the sender.  And a sender makes
the same of an answer in whatever layout it comes that its signer verifies alike. -/
theorem layout_unseen {L : Estate} (hX : L.xml.Lawful) (t : As4Transport) {es es' : List Event}
    (hes : List.Forall₂ (SameButLayout L t.receipting.signer) es es') :
    (outputs (FarEnd.step L) (.fresh t) es).map observed =
        (outputs (FarEnd.step L) (.fresh t) es').map observed ∧
      (run (FarEnd.step L) (.fresh t) es').transport =
        (run (FarEnd.step L) (.fresh t) es).transport ∧
      (run (FarEnd.step L) (.fresh t) es).handed.map HandUp.withoutRequest =
        (run (FarEnd.step L) (.fresh t) es').handed.map HandUp.withoutRequest ∧
      ∀ (near : As4Transport) later answer answer' sent,
        RelaidAnswer L near.receipting.signer later answer answer' →
        near.verifyReceipt L later answer sent = near.verifyReceipt L later answer' sent := by
  have hfresh : Beside t (.fresh t) (.fresh t) := ⟨rfl, rfl, rfl⟩
  obtain ⟨halike, houtputs⟩ := Delivery.run_alike (Beside t)
    (SameButLayout L t.receipting.signer) observed observed
    (fun s s' e e' hs he => hs.step hX he) hfresh hes
  refine ⟨houtputs, halike.transport, halike.handed, ?_⟩
  intro near later answer answer' sent hanswer
  exact hanswer.verifyReceipt hX sent

/-- The request that carries the order as another MSH writes it. -/
def theirRequest : Request :=
  packed bench (moment 0) ⟨"/msh", "as4://bench/msh"⟩ (theirOrder.render bench.xml.escape)
    [(order.payloadCid, goods)]

/-- It is the buyer's request in another layout. -/
theorem relaid_order (now : Moment) : Relaid bench unsigned now orderRequest theirRequest := by
  have hours : Carries bench orderRequest ((wrapForest order.forest).render bench.xml.escape)
      [(order.payloadCid, goods)] := by
    rw [← order.envelope_eq bench_lawful.xml]
    exact order_carried
  have htheirs : Carries bench theirRequest (theirOrder.render bench.xml.escape)
      [(order.payloadCid, goods)] :=
    carries_unmarked (by decide) (by simp) (by decide) 0 _
  exact ⟨rfl, _, _, _, _, UserMessage.readable_envelope order, readable_theirOrder,
    core_theirOrder.symm, .refl _, by simp, hours, htheirs, rfl⟩

/-- The order is taken and receipted, in whichever layout it comes. -/
theorem layout_unseen_order :
    (outputs (FarEnd.step bench) (.fresh seller) [.take (moment 1) (.posted orderRequest "peer"),
        .judge (moment 2) 0 .Accepted fun _ => .ok ()]).map observed =
      (outputs (FarEnd.step bench) (.fresh seller) [.take (moment 1) (.posted theirRequest "peer"),
        .judge (moment 2) 0 .Accepted fun _ => .ok ()]).map observed :=
  (layout_unseen bench_lawful.xml seller
    (.cons (.take "peer" (relaid_order (moment 1))) (.cons (.same _) .nil))).1

end As4
