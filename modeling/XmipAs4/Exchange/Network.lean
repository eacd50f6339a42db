import Mathlib.Algebra.BigOperators.Group.Finset.Basic
import XmipAs4.Delivery.Channel
import XmipAs4.Exchange.Gates
import XmipAs4.Exchange.Keyed
import XmipAs4.Exchange.Signals

/-!
# A network of parties

Any number of parties that post to one another and receive, over a network that loses,
repeats, delays, reorders and misdirects requests and answers as it likes, and makes up more
of them: whatever is heard, wherever and whenever, is an event of the network.

What is asked of the network is that what verifies off a POST was written by a party, so that
a signature cannot be forged, and that no boundary occurs in what it separates (`Genuine`); of
the parties, that their signers leave the messages and the Signals they sign as they were, and
that the content ids they post under may be written (`Regular`).  Answers may be made up.

Over every such run, whatever any party hands up was posted, to that party, with that header
and that payload.
-/

namespace As4

open Delivery (run Along Channel)
open Multipart (Bytes isContentId Absent)

/-! ## The network and its steps -/

/-- One message posted: by whom, with what payload, and the request that carries it. -/
structure Sending (ι : Type) where
  sender : ι
  message : UserMessage
  bytes : Bytes
  request : Request

/-- The parties, each with what it received; what was posted; what was answered, and by whom;
and the sendings whose `post` returned that they were delivered. -/
structure Network (ι : Type) where
  ends : ι → FarEnd
  posted : List (Sending ι)
  answers : List (ι × Response)
  confirmed : List (Sending ι)

/-- What may happen: a party posts; something happens at a party's far end, a POST coming in
from anywhere; the `k`-th message's sender is handed a response, coming from anywhere.  A
`post` that is handed none fails, which changes nothing. -/
inductive Act (ι : Type) where
  | post (i : ι) (now : Moment) (target : String) (bytes : Bytes) (key : Option String)
  | reach (j : ι) (e : Event)
  | answer (k : ℕ) (later : Moment) (response : Response)

variable {ι : Type}

namespace Network

/-- The parties before anything passed between them. -/
def fresh (parties : ι → As4Transport) : Network ι :=
  ⟨fun i => .fresh (parties i), [], [], []⟩

variable [DecidableEq ι] (L : Estate)

/-- One step, and what a `post` returns, if one returns. -/
def step (s : Network ι) : Act ι → Network ι × Option (Result Unit)
  | .post i now target bytes key =>
    match (s.ends i).transport.posting L now target bytes key with
    | .ok (_, message, request) =>
      ({ s with posted := s.posted ++ [⟨i, message, bytes, request⟩] }, none)
    | .error e => (s, some (.error e))
  | .reach j e =>
    match (s.ends j).step L e with
    | (far, _, answer) =>
      ({ s with
          ends := Function.update s.ends j far
          answers := s.answers ++ answer.toList.map fun a => (j, a) }, none)
  | .answer k later response =>
    match s.posted[k]? with
    | some sending =>
      match (s.ends sending.sender).transport.verifyReceipt L later response sending.message with
      | .ok () => ({ s with confirmed := s.confirmed ++ [sending] }, some (.ok ()))
      | .error e => (s, some (.error e))
    | none => (s, none)

end Network

/-- The rules of a network's steps: a party posts, something happens at a far end, a sender is
told that its message was delivered, or nothing changes. -/
inductive Moves [DecidableEq ι] (L : Estate) (s : Network ι) : Act ι → Network ι → Prop where
  | posted {i : ι} {now : Moment} {target : String} {bytes : Bytes} {key : Option String}
      {endpoint : Endpoint} {message : UserMessage} {request : Request}
      (hposting : (s.ends i).transport.posting L now target bytes key =
        .ok (endpoint, message, request)) :
      Moves L s (.post i now target bytes key)
        { s with posted := s.posted ++ [⟨i, message, bytes, request⟩] }
  | reached {j : ι} {e : Event} {far : FarEnd} {told : Told} {answer : Option Response}
      (hstep : Steps L (s.ends j) e far told answer) :
      Moves L s (.reach j e)
        { s with
          ends := Function.update s.ends j far
          answers := s.answers ++ answer.toList.map fun a => (j, a) }
  | told {k : ℕ} {later : Moment} {response : Response} {sending : Sending ι}
      (hk : s.posted[k]? = some sending)
      (hverify : (s.ends sending.sender).transport.verifyReceipt L later response
        sending.message = .ok ()) :
      Moves L s (.answer k later response) { s with confirmed := s.confirmed ++ [sending] }
  | idle {act : Act ι} : Moves L s act s

/-- Every step of a network is by one of the rules. -/
theorem moves [DecidableEq ι] (L : Estate) (s : Network ι) (act : Act ι) :
    Moves L s act (s.step L act).1 := by
  cases act with
  | post i now target bytes key =>
    unfold Network.step
    simp only
    cases hposting : (s.ends i).transport.posting L now target bytes key with
    | error e => exact .idle
    | ok posting => exact .posted hposting
  | reach j e => exact .reached (steps (s.ends j) e)
  | answer k later response =>
    unfold Network.step
    simp only
    cases hk : s.posted[k]? with
    | none => exact .idle
    | some sending =>
      simp only
      cases hverify : (s.ends sending.sender).transport.verifyReceipt L later response
          sending.message with
      | error e => exact .idle
      | ok _ => exact .told hk hverify

section Taken

variable [DecidableEq ι] {L : Estate} {s : Network ι}

/-- What a party posts is under way. -/
theorem Network.step_post {i : ι} {now : Moment} {target : String} {bytes : Bytes}
    {key : Option String} {endpoint : Endpoint} {message : UserMessage} {request : Request}
    (h : (s.ends i).transport.posting L now target bytes key = .ok (endpoint, message, request)) :
    (s.step L (.post i now target bytes key)).1 =
      { s with posted := s.posted ++ [⟨i, message, bytes, request⟩] } := by
  unfold Network.step
  simp only
  rw [h]

/-- What happens at a far end happens to it alone. -/
theorem Network.step_reach {j : ι} {e : Event} {far : FarEnd} {told : Told}
    {answer : Option Response} (h : (s.ends j).step L e = (far, told, answer)) :
    (s.step L (.reach j e)).1 =
      { s with
        ends := Function.update s.ends j far
        answers := s.answers ++ answer.toList.map fun a => (j, a) } := by
  unfold Network.step
  simp only
  rw [h]

/-- A sender that takes the response for the delivery returns so. -/
theorem Network.step_answer {k : ℕ} {later : Moment} {response : Response} {sending : Sending ι}
    (hk : s.posted[k]? = some sending)
    (hverify : (s.ends sending.sender).transport.verifyReceipt L later response sending.message =
      .ok ()) :
    (s.step L (.answer k later response)).1 =
      { s with confirmed := s.confirmed ++ [sending] } := by
  unfold Network.step
  simp only
  rw [hk]
  simp only
  rw [hverify]

end Taken

/-! ## What the network may do -/

/-- A party wrote an envelope over attachments: it posted them, or it answered the envelope. -/
inductive Network.WrittenBy (L : Estate) (s : Network ι) : ι → String → Attachments → Prop where
  | posted {sending : Sending ι} {envelope : String} {attachments : Attachments}
      (hmem : sending ∈ s.posted) (hcarries : Carries L sending.request envelope attachments) :
      WrittenBy L s sending.sender envelope attachments
  | answered {j : ι} {now : Moment} {status : ℕ} {envelope : String}
      (hmem : (j, soap L now status envelope) ∈ s.answers) : WrittenBy L s j envelope []

/-- The network forges no POST, and no boundary occurs in what it separates: what verifies off
a POST was written by a party.  Of what a sender is answered nothing is asked. -/
def Genuine (L : Estate) (parties : ι → As4Transport) (s : Network ι) : Act ι → Prop
  | .post i now target bytes key => ∀ endpoint message request signed,
      (s.ends i).transport.posting L now target bytes key = .ok (endpoint, message, request) →
      (parties i).receipting.signer.sign now (message.envelope L) [(message.payloadCid, bytes)] =
        .ok signed →
      Absent now.boundary (Mime.parts signed [(message.payloadCid, bytes)])
  | .reach j e => ∀ now request envelope attachments, e.posted = some (now, request) →
      Carries L request envelope attachments →
      (parties j).receipting.signer.verify now envelope attachments = .ok () →
      ∃ i, s.WrittenBy L i envelope attachments
  | .answer _ _ _ => True

/-- What is asked of a party: its signer leaves the messages and the Signals it signs as they
were, and the content id it posts under may be written. -/
structure Regular (L : Estate) (t : As4Transport) : Prop where
  user : t.receipting.signer.Leaves L "UserMessage"
  signal : t.receipting.signer.Leaves L "SignalMessage"
  cid : isContentId t.template.payloadCid = true

/-! ## What was posted, and what is read of it -/

section Posted

variable {L : Estate} (hL : L.Lawful) {near far : As4Transport} {now later : Moment}
  {target : String} {bytes : Bytes} {key : Option String} {message : UserMessage}
  {signed : String} {request : Request}
  (hpost : Posts L near now target bytes key message signed request)
  (hnear : Regular L near)
include hL hpost hnear

/-- A post of a regular party carries the envelope as it was signed, and the payload. -/
theorem Posts.carries : Carries L request signed [(message.payloadCid, bytes)] := by
  obtain ⟨endpoint, rfl⟩ := hpost.request_eq
  have hcid := hnear.cid
  rw [← hpost.payloadCid_eq] at hcid
  exact carries_packed_one hL endpoint hcid hpost.absent

/-- Whatever request carries what was posted is read, where it is read, as the message and
the payload that were posted. -/
theorem Posts.read_of_carries {request' : Request} {envelope : String}
    {attachments : Attachments} (hcarries : Carries L request envelope attachments)
    (hcarries' : Carries L request' envelope attachments) {m : UserMessage} {b : Bytes}
    (hread : far.unpack L later request' = .ok (m, b)) : m = message ∧ b = bytes := by
  obtain ⟨rfl, rfl⟩ := (hpost.carries hL hnear).unique hcarries
  obtain ⟨envelope', attachments', hbody, -, helement, hfind⟩ := unpack_eq_ok_iff.mp hread
  obtain ⟨rfl, rfl⟩ := hcarries'.unique hbody
  rw [UserMessage.fromEnvelope_of_content (hpost.content_signed hL hnear.user),
    message.fromElement_inner hL.xml] at helement
  split_ifs at helement
  have hback : m = message.readBack := (Except.ok.inj helement).symm
  obtain ⟨hcid, hbytes⟩ : message.payloadCid = m.payloadCid ∧ bytes = b := by
    have hmem := List.mem_of_find?_eq_some hfind
    rw [List.mem_singleton, Prod.mk.injEq] at hmem
    exact ⟨hmem.1.symm, hmem.2.symm⟩
  -- The payload was found under the content id read back, so that is the one posted.
  have hclean : withoutCid message.payloadCid = message.payloadCid := by
    have hstripped : m.payloadCid = withoutCid message.payloadCid := congrArg _ hback
    rw [← hstripped, hcid]
  refine ⟨?_, hbytes.symm⟩
  rw [hback, UserMessage.readBack, hclean]

end Posted

/-! ## Authenticity -/

/-- What is handed up was handed up before, or is what the POST heard was read as. -/
theorem Steps.handed_from {L : Estate} {s s' : FarEnd} {e : Event} {told : Told}
    {answer : Option Response} (h : Steps L s e s' told answer) {u : HandUp}
    (hu : u ∈ s'.handed) :
    (∃ v ∈ s.handed, v.arrived = u.arrived) ∨
    ∃ now request, e.posted = some (now, request) ∧
      s.transport.unpack L now request = .ok (u.arrived.answered, u.arrived.bytes) ∧
      s.transport.admits L now u.arrived.answered u.arrived.bytes = .ok () := by
  -- A verdict changes nothing of what arrived.
  have hset : ∀ k arrived v, s.handed[k]? = some ⟨arrived, none⟩ →
      u ∈ s.handed.set k ⟨arrived, v⟩ → ∃ v ∈ s.handed, v.arrived = u.arrived := by
    intro k arrived v hk hu
    rcases List.mem_or_eq_of_mem_set hu with hu | rfl
    · exact ⟨u, hu, rfl⟩
    · exact ⟨⟨arrived, none⟩, List.mem_of_getElem? hk, rfl⟩
  cases h with
  | handedUp hunpack hadmits _ =>
    rcases List.mem_append.mp hu with hu | hu
    · exact .inl ⟨u, hu, rfl⟩
    · rw [List.mem_singleton] at hu
      subst hu
      exact .inr ⟨_, _, rfl, hunpack, hadmits⟩
  | receipted hwaits _ => exact .inl (hset _ _ _ hwaits hu)
  | unsigned hwaits _ => exact .inl (hset _ _ _ hwaits hu)
  | declined hwaits _ => exact .inl (hset _ _ _ hwaits hu)
  | served hserves =>
    rcases List.mem_append.mp hu with hbefore | hserved
    · exact .inl ⟨u, hbefore, rfl⟩
    · cases hserves with
      | refused _ => exact absurd hserved List.not_mem_nil
      | again _ _ _ _ => exact absurd hserved List.not_mem_nil
      | unsigned _ _ _ => exact absurd hserved List.not_mem_nil
      | accepted hunpack hadmits _ _ =>
        rw [acceptedOf, List.mem_singleton] at hserved
        subst hserved
        exact .inr ⟨_, _, rfl, hunpack, hadmits⟩
  | failed => exact .inl ⟨u, hu, rfl⟩
  | answered _ _ => exact .inl ⟨u, hu, rfl⟩
  | nothing _ => exact .inl ⟨u, hu, rfl⟩
  | broken => exact .inl ⟨u, hu, rfl⟩

/-- What was handed up was posted to the party, with that header and that payload. -/
def HandUp.PostedTo (s : Network ι) (me : String) (u : HandUp) : Prop :=
  ∃ sending ∈ s.posted, u.arrived.answered = sending.message ∧ u.arrived.bytes = sending.bytes ∧
    sending.message.toParty = me

/-- What the states of a network have in common: a party changes in what it remembers and in
nothing else, every sending is a post of its sender's, and whatever was handed up was posted. -/
structure Authentic (L : Estate) (parties : ι → As4Transport) (s : Network ι) : Prop where
  same : ∀ i, (s.ends i).transport =
    (parties i).remembering (s.ends i).transport.receipting.ids
  posts : ∀ sending ∈ s.posted, ∃ now target key signed, Posts L (parties sending.sender) now
    target sending.bytes key sending.message signed sending.request
  handed : ∀ j, ∀ u ∈ (s.ends j).handed, u.PostedTo s (parties j).template.fromParty

section Authenticity

variable {L : Estate} {parties : ι → As4Transport} {s s' : Network ι} {act : Act ι}

/-- Parties between which nothing passed are authentic. -/
theorem Authentic.of_fresh : Authentic L parties (.fresh parties) where
  same := fun _ => rfl
  posts := by
    intro sending hsending
    exact absurd hsending List.not_mem_nil
  handed := by
    intro j u hu
    exact absurd hu List.not_mem_nil

variable (hL : L.Lawful) (hregular : ∀ i, Regular L (parties i))
include hL hregular

/-- What a party hears and admits, where nothing is forged, was posted to it. -/
theorem Authentic.postedTo (hs : Authentic L parties s) {j : ι} {e : Event}
    (hgenuine : Genuine L parties s (.reach j e)) {now : Moment} {request : Request}
    (hposted : e.posted = some (now, request)) {u : HandUp}
    (hunpack : (s.ends j).transport.unpack L now request =
      .ok (u.arrived.answered, u.arrived.bytes))
    (hadmits : (s.ends j).transport.admits L now u.arrived.answered u.arrived.bytes = .ok ()) :
    u.PostedTo s (parties j).template.fromParty := by
  have hto := (((s.ends j).transport.admits_eq_ok L).mp hadmits).1
  rw [hs.same j] at hunpack hto
  obtain ⟨envelope, attachments, hcarries, hverify, -, hfind⟩ := unpack_eq_ok_iff.mp hunpack
  obtain ⟨i, hwritten⟩ := hgenuine now request envelope attachments hposted hcarries hverify
  cases hwritten with
  | answered _ => cases hfind
  | @posted sending _ _ hmem hcarries' =>
    obtain ⟨posted, target, key, signed, hpost⟩ := hs.posts sending hmem
    obtain ⟨hmessage, hbytes⟩ :=
      hpost.read_of_carries hL (hregular sending.sender) hcarries' hcarries hunpack
    exact ⟨sending, hmem, hmessage, hbytes, hmessage ▸ hto⟩

/-- A step of a network keeps it authentic where nothing is forged. -/
theorem Authentic.step [DecidableEq ι] (hs : Authentic L parties s)
    (hgenuine : Genuine L parties s act) (h : Moves L s act s') : Authentic L parties s' := by
  cases h with
  | idle => exact hs
  | told _ _ => exact ⟨hs.same, hs.posts, hs.handed⟩
  | @posted i now target bytes key endpoint message request hposting =>
    have hposting' : (parties i).posting L now target bytes key =
        .ok (endpoint, message, request) := by
      rw [hs.same i] at hposting
      exact hposting
    obtain ⟨signed, hpost⟩ := Posts.of_posting hposting' fun signed =>
      hgenuine endpoint message request signed hposting
    refine ⟨hs.same, ?_, ?_⟩
    · intro sending hmem
      rcases List.mem_append.mp hmem with hmem | hmem
      · exact hs.posts sending hmem
      · rw [List.mem_singleton.mp hmem]
        exact ⟨now, target, key, signed, hpost⟩
    · intro j u hu
      obtain ⟨sending, hmem, hread⟩ := hs.handed j u hu
      exact ⟨sending, List.mem_append_left _ hmem, hread⟩
  | @reached j e far told answer hstep =>
    obtain ⟨ids, hids⟩ := hstep.transport_eq
    have hend : far.transport = (parties j).remembering far.transport.receipting.ids := by
      rw [hids, hs.same j]
      rfl
    refine ⟨?_, hs.posts, ?_⟩
    · refine (Function.forall_update_iff s.ends fun i (x : FarEnd) => x.transport =
        (parties i).remembering x.transport.receipting.ids).mpr ⟨hend, ?_⟩
      intro i _
      exact hs.same i
    · refine (Function.forall_update_iff s.ends fun i (x : FarEnd) => ∀ u ∈ x.handed,
        u.PostedTo s (parties i).template.fromParty).mpr ⟨?_, ?_⟩
      · intro u hu
        rcases hstep.handed_from hu with ⟨v, hv, harrived⟩ | ⟨now, request, hposted, hread, hto⟩
        · obtain ⟨sending, hmem, hread⟩ := hs.handed j v hv
          rw [harrived] at hread
          exact ⟨sending, hmem, hread⟩
        · exact hs.postedTo hL hregular hgenuine hposted hread hto
      · intro i _ u hu
        exact hs.handed i u hu

/-- Every run along which nothing is forged leads to authentic parties. -/
theorem authentic_run [DecidableEq ι] {acts : List (Act ι)}
    (hgenuine : Along (Network.step L) (Genuine L parties) (.fresh parties) acts) :
    Authentic L parties (run (Network.step L) (.fresh parties) acts) := by
  refine Delivery.run_invariant_along (Authentic L parties) ?_ .of_fresh hgenuine
  intro s act hs hgenuine
  exact hs.step hL hregular hgenuine (moves L s act)

/-- Among regular parties, over every run along which no POST is forged and no boundary occurs
in what it separates, whatever is lost, repeated, reordered, misdirected or answered and
whatever verdicts are given: a message that any party hands up was posted to that party, with
that header and that payload. -/
theorem handed_up_authentic [DecidableEq ι] (acts : List (Act ι))
    (hgenuine : Along (Network.step L) (Genuine L parties) (.fresh parties) acts) :
    ∀ j, ∀ u ∈ ((run (Network.step L) (.fresh parties) acts).ends j).handed,
      u.PostedTo (run (Network.step L) (.fresh parties) acts)
        (parties j).template.fromParty :=
  (authentic_run hL hregular hgenuine).handed

end Authenticity

/-! ## The order on a network of two -/

/-- The buyer and the seller. -/
def trade : Bool → As4Transport
  | false => buyer
  | true => seller

/-- The order as it is posted. -/
def orderSent : Sending Bool := ⟨false, order, goods, orderRequest⟩

/-- The Receipt the seller signs for the order. -/
def dealReceipt : Response :=
  soap bench (moment 2) 200 (Signal.receipt bench (moment 2) order)

/-- The buyer posts the order, the seller takes and accepts it, and its Receipt arrives. -/
def deal : List (Act Bool) :=
  [.post false (moment 1) "" goods (some "order"), .reach true (takeOrder 1),
    .reach true (acceptOrder 2 0), .answer 0 (moment 3) dealReceipt]

/-- The two of them, with the seller's far end in a state and what passed between them. -/
def dealt (x : FarEnd) (posted : List (Sending Bool)) (answers : List (Bool × Response))
    (confirmed : List (Sending Bool)) : Network Bool :=
  ⟨Function.update (fun i => .fresh (trade i)) true x, posted, answers, confirmed⟩

/-- The order is posted. -/
theorem deal_posts :
    ((Network.fresh trade).step bench (.post false (moment 1) "" goods (some "order"))).1 =
      dealt (.fresh seller) [orderSent] [] [] := by
  have hends : Function.update (fun i => FarEnd.fresh (trade i)) true (.fresh seller) =
      fun i => .fresh (trade i) := Function.update_eq_self true _
  rw [dealt, hends]
  exact Network.step_post (posting_order 1)

/-- What happens at the seller's far end. -/
theorem dealt_reach {x far : FarEnd} {posted : List (Sending Bool)}
    {answers : List (Bool × Response)} {confirmed : List (Sending Bool)} {e : Event} {told : Told}
    {answer : Option Response} (h : x.step bench e = (far, told, answer)) :
    ((dealt x posted answers confirmed).step bench (.reach true e)).1 =
      dealt far posted (answers ++ answer.toList.map fun a => (true, a)) confirmed := by
  have hx : (dealt x posted answers confirmed).ends true = x := by
    unfold dealt
    simp only [Function.update_self]
  rw [Network.step_reach (hx ▸ h)]
  unfold dealt
  rw [Function.update_idem]

/-- The order is taken. -/
theorem deal_takes :
    ((dealt (.fresh seller) [orderSent] [] []).step bench (.reach true (takeOrder 1))).1 =
      dealt ⟨seller, [⟨arrivedOrder, none⟩]⟩ [orderSent] [] [] := by
  have htake : (FarEnd.fresh seller).step bench (takeOrder 1) = _ :=
    step_takeOrder 1 (fun _ _ _ => rfl) rfl rfl List.not_mem_nil
  exact dealt_reach htake

/-- The order is accepted. -/
theorem deal_accepts :
    ((dealt ⟨seller, [⟨arrivedOrder, none⟩]⟩ [orderSent] [] []).step bench
      (.reach true (acceptOrder 2 0))).1 =
        dealt orderHeld [orderSent] [(true, dealReceipt)] [] := by
  have haccept := step_acceptOrder 2 0 [] (l := [⟨arrivedOrder, none⟩]) rfl
  have hsame : seller.remembering [] = seller := rfl
  rw [hsame, List.set_cons_zero] at haccept
  exact dealt_reach haccept

/-- The buyer takes the seller's Receipt for the delivery. -/
theorem deal_answers :
    ((dealt orderHeld [orderSent] [(true, dealReceipt)] []).step bench
      (.answer 0 (moment 3) dealReceipt)).1 =
        dealt orderHeld [orderSent] [(true, dealReceipt)] [orderSent] := by
  have hreceipt : seller.receipting.receipt bench (moment 2) order = .ok dealReceipt := rfl
  have hbuyer : buyer.verifyReceipt bench (moment 3) dealReceipt order = .ok () := by
    obtain ⟨signed, -, hiff⟩ : ∃ signed, _ ∧ (buyer.verifyReceipt bench (moment 3) _ order =
      .ok () ↔ _) := verifyReceipt_receipt bench_lawful (unsigned_leaves bench _) hreceipt
    exact hiff.mpr ⟨rfl, rfl⟩
  have hends : (dealt orderHeld [orderSent] [(true, dealReceipt)] []).ends orderSent.sender =
      .fresh buyer := by
    unfold dealt orderSent
    simp only
    rw [Function.update_of_ne Bool.false_ne_true]
    rfl
  have hk : (dealt orderHeld [orderSent] [(true, dealReceipt)] []).posted[0]? =
      some orderSent := rfl
  have hverify : ((dealt orderHeld [orderSent] [(true, dealReceipt)] []).ends
      orderSent.sender).transport.verifyReceipt bench (moment 3) dealReceipt orderSent.message =
        .ok () := by
    rw [hends]
    exact hbuyer
  rw [Network.step_answer hk hverify]
  rfl

/-- What the deal comes to. -/
theorem run_deal :
    run (Network.step bench) (.fresh trade) deal =
      dealt orderHeld [orderSent] [(true, dealReceipt)] [orderSent] := by
  have hlast := deal_answers
  unfold orderHeld at hlast ⊢
  rw [deal, Delivery.run_cons, deal_posts, Delivery.run_cons, deal_takes, Delivery.run_cons,
    deal_accepts, Delivery.run_cons, Delivery.run_nil]
  exact hlast

/-- What holds of each step of the deal, in the state it is taken from, holds along it. -/
theorem along_deal {P : Network Bool → Act Bool → Prop}
    (hpost : P (.fresh trade) (.post false (moment 1) "" goods (some "order")))
    (htake : P (dealt (.fresh seller) [orderSent] [] []) (.reach true (takeOrder 1)))
    (haccept : P (dealt ⟨seller, [⟨arrivedOrder, none⟩]⟩ [orderSent] [] [])
      (.reach true (acceptOrder 2 0)))
    (hanswer : P (dealt orderHeld [orderSent] [(true, dealReceipt)] [])
      (.answer 0 (moment 3) dealReceipt)) :
    Along (Network.step bench) P (.fresh trade) deal := by
  refine ⟨hpost, ?_⟩
  rw [deal_posts]
  refine ⟨htake, ?_⟩
  rw [deal_takes]
  refine ⟨haccept, ?_⟩
  rw [deal_accepts]
  exact ⟨hanswer, trivial⟩

/-- No POST of the deal is forged. -/
theorem deal_genuine : Along (Network.step bench) (Genuine bench trade) (.fresh trade) deal := by
  apply along_deal
  · intro endpoint message request signed hposting hsign
    have horder : ((Network.fresh trade).ends false).transport.posting bench (moment 1) "" goods
        (some "order") = _ := posting_order 1
    rw [horder] at hposting
    cases hposting
    cases hsign
    exact order_absent 1
  · intro now request envelope attachments hposted hcarries _
    cases hposted
    have hmem : orderSent ∈ (dealt (.fresh seller) [orderSent] [] []).posted :=
      List.mem_singleton.mpr rfl
    exact ⟨false, .posted hmem hcarries⟩
  · intro now request envelope attachments hposted
    cases hposted
  · trivial

/-- Both of them are regular. -/
theorem trade_regular (i : Bool) : Regular bench (trade i) := by
  cases i with
  | false => exact ⟨unsigned_leaves bench _, unsigned_leaves bench _, by decide⟩
  | true => exact ⟨unsigned_leaves bench _, unsigned_leaves bench _, by decide⟩

/-- The order the seller accepted was posted to it, with that payload. -/
theorem handed_up_authentic_order :
    (acceptedOrder true).PostedTo (run (Network.step bench) (.fresh trade) deal)
      seller.template.fromParty := by
  have hend : (dealt orderHeld [orderSent] [(true, dealReceipt)] [orderSent]).ends true =
      orderHeld := by
    unfold dealt
    simp only [Function.update_self]
  refine handed_up_authentic bench_lawful trade_regular deal deal_genuine true _ ?_
  rw [run_deal, hend]
  exact List.mem_singleton.mpr rfl

end As4
