import XmipAs4.Exchange.Network

/-!
# What a sender was told

What it means, on a network that forges neither a POST nor an answer (`Fair`), that a `post`
returned: the party it was posted to has accepted the message and signed its Receipt.  Among
parties no two of which have one id, and seen through what was posted, what was accepted and
receipted and what was confirmed, each step of the network is a step of a channel or none, and
a confirmed message was delivered exactly once.
-/

namespace As4

open Delivery (run Along Channel)
open Multipart (Bytes)
open Relation (ReflGen ReflTransGen)

variable {ι : Type}

/-! ## What the network may do besides -/

/-- A response carries an envelope and attachments. -/
def Response.Bears (L : Estate) (response : Response) (envelope : String)
    (attachments : Attachments) : Prop :=
  Mime.unpack L ((L.headerValue response.headers "Content-Type").getD "") response.body =
    .ok (envelope, attachments)

/-- The network forges no answer: what a sender verifies off a response was written by a party
of the id the message was sent to. -/
def FromReceiver (L : Estate) (parties : ι → As4Transport) (s : Network ι) (act : Act ι) : Prop :=
  ∀ k later response sending envelope attachments, act = .answer k later response →
    s.posted[k]? = some sending → response.Bears L envelope attachments →
    (parties sending.sender).receipting.signer.verify later envelope attachments = .ok () →
    ∃ j, s.WrittenBy L j envelope attachments ∧
      (parties j).template.fromParty = sending.message.toParty

/-- What is asked of a step: neither a POST nor an answer is forged, and no POST is heard whose
id waits. -/
structure Fair (L : Estate) (parties : ι → As4Transport) (s : Network ι) (act : Act ι) : Prop where
  genuine : Genuine L parties s act
  answers : FromReceiver L parties s act
  waiting : ∀ j e, act = .reach j e → NoneWaiting L (s.ends j) e

/-! ## Receipts on the wire -/

section Wire

variable {L : Estate}

/-- An answer taken for a delivery bears an envelope that verifies and is a Receipt for what
was sent. -/
theorem bears_of_verify {t : As4Transport} {later : Moment} {response : Response}
    {sent : UserMessage} (h : t.verifyReceipt L later response sent = .ok ()) :
    ∃ envelope attachments id, response.Bears L envelope attachments ∧
      t.receipting.signer.verify later envelope attachments = .ok () ∧
      Signal.fromEnvelope L envelope = .ok (.Receipt sent.messageId id) := by
  unfold As4Transport.verifyReceipt at h
  simp only at h
  split_ifs at h with hstatus
  generalize hsignal : (do
    let x ← Mime.unpack L ((L.headerValue response.headers "Content-Type").getD "") response.body
    t.receipting.signer.verify later x.1 x.2
    Signal.fromEnvelope L x.1 : Result Signal) = signal at h
  cases signal with
  | error e => cases h
  | ok signal =>
    obtain ⟨⟨envelope, attachments⟩, hbody, hsignal⟩ := bind_eq_ok hsignal
    obtain ⟨_, hverify, hsignal⟩ := bind_eq_ok hsignal
    cases signal with
    | Error refTo kind description => cases h
    | Receipt refTo id =>
      simp only at h
      split_ifs at h with hid
      subst hid
      exact ⟨envelope, attachments, id, hbody, hverify, hsignal⟩

variable (hL : L.Lawful)
include hL

/-- An answer says what its envelope is. -/
theorem soap_envelope {now now' : Moment} {status status' : ℕ} {envelope envelope' : String}
    (h : soap L now status envelope = soap L now' status' envelope') : envelope = envelope' := by
  have hbody := unpack_answer hL now' status' envelope'
  rw [← h, unpack_answer hL now status envelope] at hbody
  cases hbody
  rfl

/-- A Receipt that a party answers names a message of the id it remembers after that. -/
theorem Steps.receipt_remembered {s s' : FarEnd} {e : Event} {told : Told} {answer : Response}
    (h : Steps L s e s' told (some answer))
    (hsigner : s.transport.receipting.signer.Leaves L "SignalMessage") {now : Moment}
    {status : ℕ} {envelope refTo id : String} (hanswer : answer = soap L now status envelope)
    (hsignal : Signal.fromEnvelope L envelope = .ok (.Receipt refTo id)) :
    refTo ∈ s'.transport.receipting.ids := by
  -- An Error is no Receipt, the bare `500` bears no envelope, and a Receipt names its message.
  have herror : ∀ {now' status' refTo' kind description},
      answer ≠ soap L now' status' (Signal.error L now' refTo' kind description) := by
    intro now' status' refTo' kind description h
    rw [soap_envelope hL (hanswer.symm.trans h), Signal.fromEnvelope_error hL.xml] at hsignal
    cases hsignal
  have hbare : answer ≠ Response.new 500 := by
    rw [hanswer]
    intro h
    cases congrArg Response.headers h
  have hnamed : ∀ {now' m}, s.transport.receipting.receipt L now' m = .ok answer →
      m.messageId = refTo := by
    intro now' m hreceipt
    obtain ⟨signed, -, hsigned, hread⟩ := fromEnvelope_signed hL hsigner hreceipt
    rw [soap_envelope hL (hanswer.symm.trans hsigned), hread] at hsignal
    cases hsignal
    rfl
  generalize hgiven : some answer = given at h
  cases h with
  | answered hears _ =>
    cases hgiven
    cases hears with
    | unread _ => exact absurd rfl herror
    | unadmitted _ _ => exact absurd rfl herror
    | again _ _ hseen hreceipt => exact hnamed hreceipt ▸ hseen
    | unsigned _ _ _ _ => exact absurd rfl hbare
  | receipted _ hreceipt =>
    cases hgiven
    rw [← hnamed hreceipt]
    exact Delivery.mem_remember_self ..
  | declined _ _ =>
    cases hgiven
    exact absurd rfl herror
  | served hserves =>
    cases hgiven
    cases hserves with
    | refused _ => exact absurd rfl herror
    | again _ _ hseen hreceipt => exact hnamed hreceipt ▸ hseen
    | unsigned _ _ _ => exact absurd rfl hbare
    | accepted _ _ _ hreceipt =>
      rw [← hnamed hreceipt]
      exact Delivery.mem_remember_self ..
  | failed => cases hgiven
  | handedUp _ _ _ => cases hgiven
  | unsigned _ _ => cases hgiven
  | nothing _ => cases hgiven
  | broken => cases hgiven

end Wire

/-! ## Receipts in a network -/

/-- A message of the id was accepted and its Receipt signed. -/
def FarEnd.Receipted (x : FarEnd) (id : String) : Prop :=
  ∃ u ∈ x.handed, u.messageId = id ∧ u.Receipted

/-- A message of the id stays accepted and receipted. -/
theorem FarEnd.Receipted.step {L : Estate} {x x' : FarEnd} {id : String} (h : x.Receipted id)
    {e : Event} {told : Told} {answer : Option Response} (hstep : Steps L x e x' told answer) :
    x'.Receipted id := by
  obtain ⟨u, hu, hid, hreceipted⟩ := h
  exact ⟨u, hstep.mem_handed hu hreceipted.not_waits, hid, hreceipted⟩

/-- Whatever Receipt a party answered names a message it accepted and receipted. -/
structure Answered (L : Estate) (s : Network ι) : Prop where
  vouched : ∀ j, Vouched (s.ends j)
  receipts : ∀ j now status envelope refTo id, (j, soap L now status envelope) ∈ s.answers →
    Signal.fromEnvelope L envelope = .ok (.Receipt refTo id) → (s.ends j).Receipted refTo

section Answering

variable {L : Estate} {parties : ι → As4Transport} {s s' : Network ι} {act : Act ι}

/-- Parties that have answered nothing. -/
theorem Answered.of_fresh (hids : ∀ i, (parties i).receipting.ids = []) :
    Answered L (.fresh parties) where
  vouched := fun j => vouched_run (L := L) (hids j) []
  receipts := by
    intro j now status envelope refTo id hmem
    exact absurd hmem List.not_mem_nil

variable (hL : L.Lawful) (hregular : ∀ i, Regular L (parties i))
include hL hregular

/-- A step of a network keeps every Receipt answered true. -/
theorem Answered.step [DecidableEq ι] (hs : Answered L s) (hauthentic : Authentic L parties s)
    (h : Moves L s act s') : Answered L s' := by
  cases h with
  | idle => exact hs
  | told _ _ => exact ⟨hs.vouched, hs.receipts⟩
  | posted _ => exact ⟨hs.vouched, hs.receipts⟩
  | @reached j e far told answer hstep =>
    have hvouched := (hs.vouched j).step hstep
    refine ⟨?_, ?_⟩
    · exact (Function.forall_update_iff s.ends fun _ (x : FarEnd) => Vouched x).mpr
        ⟨hvouched, fun i _ => hs.vouched i⟩
    · refine (Function.forall_update_iff s.ends fun i (x : FarEnd) =>
        ∀ now status envelope refTo id,
          (i, soap L now status envelope) ∈ s.answers ++ answer.toList.map (fun a => (j, a)) →
          Signal.fromEnvelope L envelope = .ok (.Receipt refTo id) → x.Receipted refTo).mpr ⟨?_, ?_⟩
      · intro now status envelope refTo id hmem hsignal
        rcases List.mem_append.mp hmem with hmem | hmem
        · exact (hs.receipts j now status envelope refTo id hmem hsignal).step hstep
        · obtain ⟨a, ha, hpair⟩ := List.mem_map.mp hmem
          rw [Option.mem_toList] at ha
          subst ha
          have hsigner : (s.ends j).transport.receipting.signer.Leaves L "SignalMessage" := by
            rw [hauthentic.same j]
            exact (hregular j).signal
          exact hvouched refTo (hstep.receipt_remembered hL hsigner (Prod.mk.inj hpair).2 hsignal)
      · intro i hij now status envelope refTo id hmem hsignal
        rcases List.mem_append.mp hmem with hmem | hmem
        · exact hs.receipts i now status envelope refTo id hmem hsignal
        · obtain ⟨a, -, hpair⟩ := List.mem_map.mp hmem
          exact absurd (Prod.mk.inj hpair).1.symm hij

/-- Where no answer is forged, what a sender takes for the delivery of its message is the
Receipt of a party the message was sent to, which accepted a message of its id. -/
theorem Answered.receipted (hs : Answered L s) (hauthentic : Authentic L parties s) {k : ℕ}
    {later : Moment} {response : Response}
    (hanswers : FromReceiver L parties s (.answer k later response))
    {sending : Sending ι} (hk : s.posted[k]? = some sending)
    (hverify : (s.ends sending.sender).transport.verifyReceipt L later response sending.message =
      .ok ()) :
    ∃ j, (parties j).template.fromParty = sending.message.toParty ∧
      (s.ends j).Receipted sending.message.messageId := by
  obtain ⟨envelope, attachments, id, hbears, hverified, hsignal⟩ := bears_of_verify hverify
  rw [hauthentic.same] at hverified
  obtain ⟨j, hwritten, hto⟩ := hanswers _ _ _ sending envelope attachments rfl hk hbears hverified
  refine ⟨j, hto, ?_⟩
  cases hwritten with
  | answered hmem => exact hs.receipts _ _ _ _ _ _ hmem hsignal
  | @posted other _ _ hmem hcarries =>
    -- No message that was posted is read as a Signal.
    obtain ⟨posted, target, key, signed, hpost⟩ := hauthentic.posts other hmem
    obtain ⟨rfl, -⟩ := (hpost.carries hL (hregular other.sender)).unique hcarries
    have hleft := (hregular other.sender).signal _ _ _ _ hpost.sign
    have hnone : L.xml.content signed "SignalMessage" = none :=
      hleft.trans (Signal.content_envelope hL.xml other.message)
    rw [Signal.fromEnvelope, hnone, okOr_none, error_bind] at hsignal
    cases hsignal

end Answering

/-! ## The network as a channel -/

/-- What a message is sent under: its receiver and its id. -/
def UserMessage.address (m : UserMessage) : String × String := (m.toParty, m.messageId)

/-- What is sent under it: the message, whenever it was posted, and its payload. -/
def UserMessage.content (m : UserMessage) (bytes : Bytes) : UserMessage × Bytes :=
  ({ m with timestamp := "" }, bytes)

/-- What is sent with a sending. -/
def Sending.item (sending : Sending ι) : (String × String) × UserMessage × Bytes :=
  (sending.message.address, sending.message.content sending.bytes)

/-- What is delivered with a message handed up. -/
def HandUp.item (u : HandUp) : (String × String) × UserMessage × Bytes :=
  (u.arrived.answered.address, u.arrived.answered.content u.arrived.bytes)

/-- The messages that were accepted and receipted. -/
def FarEnd.receipted (x : FarEnd) : Multiset HandUp :=
  (x.handed.filter fun u => decide u.Receipted : List HandUp)

/-- What is sent with any of the sendings. -/
def itemsOf (l : List (Sending ι)) : Set ((String × String) × UserMessage × Bytes) :=
  {x | ∃ sending ∈ l, sending.item = x}

/-- The network seen through what was posted, what was accepted and receipted, and what was
confirmed. -/
def Network.channel [Fintype ι] (s : Network ι) :
    Channel (String × String) (UserMessage × Bytes) where
  sent := itemsOf s.posted
  delivered := ∑ j, (s.ends j).receipted.map HandUp.item
  confirmed := itemsOf s.confirmed

/-- One more sending is one more item. -/
theorem itemsOf_append (l : List (Sending ι)) (sending : Sending ι) :
    itemsOf (l ++ [sending]) = insert sending.item (itemsOf l) := by
  ext x
  simp only [itemsOf, Set.mem_ofPred_eq, Set.mem_insert_iff, List.mem_append, List.mem_singleton]
  constructor
  · rintro ⟨other, hmem | rfl, rfl⟩
    · exact .inr ⟨other, hmem, rfl⟩
    · exact .inl rfl
  · rintro (rfl | ⟨other, hmem, rfl⟩)
    · exact ⟨sending, .inr rfl, rfl⟩
    · exact ⟨other, .inl hmem, rfl⟩

/-- A message was accepted and receipted where it is handed up with that verdict. -/
theorem FarEnd.mem_receipted {x : FarEnd} {u : HandUp} :
    u ∈ x.receipted ↔ u ∈ x.handed ∧ u.Receipted := by
  rw [FarEnd.receipted, Multiset.mem_coe, List.mem_filter, decide_eq_true_iff]

/-- One that is not counted is replaced: what is counted is what was, and the one that
replaced it if that is counted. -/
theorem filter_set_perm {α : Type} {p : α → Bool} {l : List α} {k : ℕ} {w : α}
    (hk : l[k]? = some w) (hw : p w = false) (x : α) :
    ((l.set k x).filter p).Perm ((x :: l).filter p) := by
  obtain ⟨hlt, rfl⟩ := List.getElem?_eq_some_iff.mp hk
  have hrest : (l.filter p).Perm ((l.eraseIdx k).filter p) := by
    have h := (List.getElem_cons_eraseIdx_perm hlt).symm.filter p
    rwa [List.filter_cons_of_neg (by simp [hw])] at h
  have hset := (List.set_perm_cons_eraseIdx hlt x).filter p
  refine hset.trans ?_
  rw [List.filter_cons, List.filter_cons]
  split_ifs
  · exact hrest.symm.cons x
  · exact hrest.symm

section Accepting

variable {L : Estate} {s s' : FarEnd} {e : Event} {told : Told} {answer : Option Response}

/-- A verdict that is no acceptance with a Receipt leaves what was accepted and receipted. -/
theorem receipted_set_of_not {k : ℕ} {w x : HandUp} (hk : s.handed[k]? = some w) (hw : w.Waits)
    (hx : ¬ x.Receipted) (t : As4Transport) :
    FarEnd.receipted ⟨t, s.handed.set k x⟩ = s.receipted := by
  have hnot : decide w.Receipted = false := decide_eq_false fun h => h.not_waits hw
  have hperm := filter_set_perm (p := fun u : HandUp => decide u.Receipted) hk hnot x
  rw [List.filter_cons_of_neg (by simpa using hx)] at hperm
  exact Multiset.coe_eq_coe.mpr hperm

/-- A step of a sound far end leaves what was accepted and receipted, or adds one message, of
an id that none had. -/
theorem Sound.receipted_step (hs : Sound s) (h : Steps L s e s' told answer) :
    s'.receipted = s.receipted ∨
    ∃ u ∈ s'.handed, u.Receipted ∧ s'.receipted = u ::ₘ s.receipted ∧
      ∀ v ∈ s.handed, v.Receipted → v.messageId ≠ u.messageId := by
  have hsame : FarEnd.receipted ⟨s.transport.remembering s.transport.receipting.ids,
      s.handed ++ []⟩ = s.receipted := by
    rw [s.served_nothing]
  cases h with
  | failed => exact .inl rfl
  | answered _ _ => exact .inl rfl
  | nothing _ => exact .inl rfl
  | broken => exact .inl rfl
  | handedUp _ _ _ =>
    left
    rw [FarEnd.receipted, List.filter_append, List.filter_cons_of_neg (by simp [HandUp.Receipted]),
      List.filter_nil, List.append_nil]
    rfl
  | unsigned hwaits _ =>
    exact .inl (receipted_set_of_not hwaits rfl (fun h => by cases h) _)
  | declined hwaits hv =>
    refine .inl (receipted_set_of_not hwaits rfl ?_ _)
    intro h
    cases h
    exact hv rfl
  | @receipted now k reply arrived a hwaits _ =>
    obtain ⟨hk, -⟩ := List.getElem?_eq_some_iff.mp hwaits
    refine .inr ⟨⟨arrived, some (.Accepted, true)⟩, List.mem_set hk _, rfl, ?_, ?_⟩
    · have hperm := filter_set_perm (p := fun u : HandUp => decide u.Receipted) hwaits rfl
        ⟨arrived, some (.Accepted, true)⟩
      rw [List.filter_cons_of_pos (by simp [HandUp.Receipted])] at hperm
      exact Multiset.coe_eq_coe.mpr hperm
    · intro v hv hreceipted hid
      exact hs.not_mem_of_waits (List.mem_of_getElem? hwaits) rfl (hid ▸ hs.taken v hv hreceipted)
  | served hserves =>
    cases hserves with
    | refused _ => exact .inl hsame
    | again _ _ _ _ => exact .inl hsame
    | unsigned _ _ _ => exact .inl hsame
    | @accepted m bytes a _ _ hnew _ =>
      refine .inr ⟨_, List.mem_append_right _ (List.mem_singleton.mpr rfl), rfl, ?_, ?_⟩
      · rw [FarEnd.receipted, acceptedOf, List.filter_append,
          List.filter_cons_of_pos (by simp [HandUp.Receipted]), List.filter_nil]
        exact Multiset.coe_eq_coe.mpr (List.perm_append_singleton _ _)
      · intro v hv hreceipted hid
        have hid' : v.messageId = m.messageId := hid
        exact hnew (hid' ▸ hs.taken v hv hreceipted)

end Accepting

section Refining

variable {L : Estate} {parties : ι → As4Transport} {s s' : Network ι} {act : Act ι}

/-- What was delivered under a key was accepted and receipted by a party. -/
theorem Network.mem_delivered [Fintype ι] {key : String × String} :
    key ∈ s.channel.delivered.map Prod.fst ↔
      ∃ j, ∃ u ∈ (s.ends j).handed, u.Receipted ∧ u.arrived.answered.address = key := by
  unfold Network.channel
  simp only [Multiset.mem_map, Multiset.mem_sum, Finset.mem_univ, true_and, FarEnd.mem_receipted]
  constructor
  · rintro ⟨x, ⟨j, u, ⟨hu, hreceipted⟩, rfl⟩, rfl⟩
    exact ⟨j, u, hu, hreceipted, rfl⟩
  · rintro ⟨j, u, hu, hreceipted, rfl⟩
    exact ⟨u.item, ⟨j, u, ⟨hu, hreceipted⟩, rfl⟩, rfl⟩

/-- Whatever is accepted and receipted at one party leaves the other parties as they were. -/
theorem delivered_update [Fintype ι] [DecidableEq ι] (ends : ι → FarEnd) (j : ι) (far : FarEnd) :
    ∑ i, (Function.update ends j far i).receipted.map HandUp.item =
      far.receipted.map HandUp.item +
        ∑ i ∈ Finset.univ.erase j, (ends i).receipted.map HandUp.item := by
  rw [← Finset.add_sum_erase Finset.univ _ (Finset.mem_univ j), Function.update_self]
  congr 1
  refine Finset.sum_congr rfl ?_
  intro i hi
  rw [Function.update_of_ne (Finset.ne_of_mem_erase hi)]

/-- What the states of a network have in common in which no far end takes a message twice. -/
structure Wired (L : Estate) (parties : ι → As4Transport) (s : Network ι) : Prop where
  authentic : Authentic L parties s
  answered : Answered L s
  sound : ∀ j, Sound (s.ends j)

/-- Parties between which nothing passed. -/
theorem Wired.of_fresh (hids : ∀ i, (parties i).receipting.ids = []) :
    Wired L parties (.fresh parties) :=
  ⟨.of_fresh, .of_fresh hids, fun i => sound_fresh (hids i)⟩

/-- A message accepted and receipted is one that was posted to the party, so it was sent. -/
theorem Authentic.item_sent (hs : Authentic L parties s) {j : ι} {u : HandUp}
    (hu : u ∈ (s.ends j).handed) :
    (∃ sending ∈ s.posted, sending.item = u.item) ∧
      u.arrived.answered.toParty = (parties j).template.fromParty := by
  obtain ⟨sending, hmem, hmessage, hbytes, hto⟩ := hs.handed j u hu
  refine ⟨⟨sending, hmem, ?_⟩, hmessage ▸ hto⟩
  rw [Sending.item, HandUp.item, hmessage, hbytes]

/-- A fair step of a network keeps this where no party accepts more ids than are remembered. -/
theorem Wired.step [DecidableEq ι] (hL : L.Lawful) (hregular : ∀ i, Regular L (parties i))
    (hs : Wired L parties s) (hfair : Fair L parties s act)
    (hfew : ∀ j, (s'.ends j).acceptedIds.toFinset.card ≤ remembered) (h : Moves L s act s') :
    Wired L parties s' := by
  refine ⟨hs.authentic.step hL hregular hfair.genuine h,
    hs.answered.step hL hregular hs.authentic h, ?_⟩
  cases h with
  | idle => exact hs.sound
  | told _ _ => exact hs.sound
  | posted _ => exact hs.sound
  | @reached j e far told answer hstep =>
    refine (Function.forall_update_iff s.ends fun _ (x : FarEnd) => Sound x).mpr
      ⟨?_, fun i _ => hs.sound i⟩
    have hcard : far.acceptedIds.toFinset.card ≤ remembered := by
      have h := hfew j
      change (Function.update s.ends j far j).acceptedIds.toFinset.card ≤ remembered at h
      rwa [Function.update_self] at h
    exact (hs.sound j).step hstep (hfair.waiting j e rfl) hcard
      fun id hid => List.mem_toFinset.mpr hid

/-- What one party accepts and receipts is delivered on the channel: it was sent, and nothing
was delivered under its key. -/
theorem Wired.deliver [Fintype ι] [DecidableEq ι]
    (hparties : Function.Injective fun i => (parties i).template.fromParty)
    (hs : Wired L parties s) {j : ι} {far : FarEnd} {answers : List (ι × Response)}
    (hs' : Authentic L parties { s with ends := Function.update s.ends j far, answers })
    {u : HandUp}
    (hu : u ∈ far.handed) (hadded : far.receipted = u ::ₘ (s.ends j).receipted)
    (hnew : ∀ v ∈ (s.ends j).handed, v.Receipted → v.messageId ≠ u.messageId) :
    Channel.Next s.channel
      ({ s with ends := Function.update s.ends j far, answers } : Network ι).channel := by
  have hu' : u ∈ (Function.update s.ends j far j).handed := by rwa [Function.update_self]
  obtain ⟨hsent, hto⟩ := hs'.item_sent hu'
  have hkey : u.item.1 ∉ s.channel.delivered.map Prod.fst := by
    intro hkey
    obtain ⟨i, v, hv, hreceipted, haddress⟩ := Network.mem_delivered.mp hkey
    obtain ⟨-, hto'⟩ := hs.authentic.item_sent hv
    obtain ⟨hparty, hid⟩ := Prod.mk.inj haddress
    -- The party of the address is one party, so both were accepted there.
    have hij : i = j := hparties (hto'.symm.trans (hparty.trans hto))
    subst hij
    exact hnew v hv hreceipted hid
  have hchannel : ({ s with ends := Function.update s.ends j far, answers } : Network ι).channel =
      { s.channel with delivered := u.item ::ₘ s.channel.delivered } := by
    apply Channel.ext
    · rfl
    · change ∑ i, (Function.update s.ends j far i).receipted.map HandUp.item =
        u.item ::ₘ ∑ i, (s.ends i).receipted.map HandUp.item
      rw [delivered_update, hadded, Multiset.map_cons, Multiset.cons_add,
        Finset.add_sum_erase Finset.univ (fun i => (s.ends i).receipted.map HandUp.item)
          (Finset.mem_univ j)]
    · rfl
  rw [hchannel]
  exact .deliver hsent hkey

/-- A fair step of a network is one step of the channel, or changes nothing of it. -/
theorem Wired.refines [Fintype ι] [DecidableEq ι] (hL : L.Lawful)
    (hregular : ∀ i, Regular L (parties i))
    (hparties : Function.Injective fun i => (parties i).template.fromParty)
    (hs : Wired L parties s) (hfair : Fair L parties s act) (h : Moves L s act s') :
    ReflGen Channel.Next s.channel s'.channel := by
  have hs' := hs.authentic.step hL hregular hfair.genuine h
  cases h with
  | idle => exact .refl
  | @posted i now target bytes key endpoint message request hposting =>
    have hchannel : ({ s with posted := s.posted ++ [⟨i, message, bytes, request⟩] } :
        Network ι).channel = { s.channel with
          sent := insert (Sending.item ⟨i, message, bytes, request⟩) s.channel.sent } :=
      Channel.ext (itemsOf_append _ _) rfl rfl
    rw [hchannel]
    exact .single (.send _)
  | @told k later response sending hk hverify =>
    obtain ⟨j, hto, u, hu, hid, hreceipted⟩ :=
      hs.answered.receipted hL hregular hs.authentic hfair.answers hk hverify
    obtain ⟨-, hparty⟩ := hs.authentic.item_sent hu
    have hdelivered : sending.item.1 ∈ s.channel.delivered.map Prod.fst :=
      Network.mem_delivered.mpr ⟨j, u, hu, hreceipted, Prod.ext (hparty.trans hto) hid⟩
    have hchannel : ({ s with confirmed := s.confirmed ++ [sending] } : Network ι).channel =
        { s.channel with confirmed := insert sending.item s.channel.confirmed } :=
      Channel.ext rfl rfl (itemsOf_append _ _)
    rw [hchannel]
    exact .single (.confirm ⟨sending, List.mem_of_getElem? hk, rfl⟩ hdelivered)
  | @reached j e far told answer hstep =>
    rcases (hs.sound j).receipted_step hstep with hsame | ⟨u, hu, -, hadded, hnew⟩
    · have hchannel : ({ s with
          ends := Function.update s.ends j far
          answers := s.answers ++ answer.toList.map fun a => (j, a) } : Network ι).channel =
            s.channel := by
        apply Channel.ext
        · rfl
        · change ∑ i, (Function.update s.ends j far i).receipted.map HandUp.item =
            ∑ i, (s.ends i).receipted.map HandUp.item
          rw [delivered_update, hsame,
            Finset.add_sum_erase Finset.univ (fun i => (s.ends i).receipted.map HandUp.item)
              (Finset.mem_univ j)]
        · rfl
      rw [hchannel]
    · exact .single (hs.deliver hparties hs' hu hadded hnew)

/-- What a party accepted stays accepted through a step of the network. -/
theorem acceptedIds_network [DecidableEq ι] (j : ι) (s : Network ι) (act : Act ι) :
    (s.ends j).acceptedIds ⊆ ((s.step L act).1.ends j).acceptedIds := by
  have h := moves L s act
  generalize (s.step L act).1 = s' at h
  cases h with
  | idle => exact List.Subset.refl _
  | told _ _ => exact List.Subset.refl _
  | posted _ => exact List.Subset.refl _
  | @reached i e far told answer hstep =>
    change (s.ends j).acceptedIds ⊆ (Function.update s.ends i far j).acceptedIds
    by_cases hij : j = i
    · subst hij
      rw [Function.update_self]
      exact hstep.acceptedIds_subset
    · rw [Function.update_of_ne hij]
      exact List.Subset.refl _

/-- Parties between which nothing passed are, seen through it, the empty channel. -/
theorem channel_fresh [Fintype ι] : (Network.fresh parties).channel = Channel.empty := by
  apply Channel.ext
  · ext x
    simp [Network.channel, itemsOf, Network.fresh, Channel.empty]
  · exact Finset.sum_eq_zero fun i _ => rfl
  · ext x
    simp [Network.channel, itemsOf, Network.fresh, Channel.empty]

section Runs

variable [DecidableEq ι] (hL : L.Lawful) (hregular : ∀ i, Regular L (parties i))
  (hids : ∀ i, (parties i).receipting.ids = []) {acts : List (Act ι)}
  (hfair : Along (Network.step L) (Fair L parties) (.fresh parties) acts)
  (hfew : ∀ j, ((run (Network.step L) (.fresh parties) acts).ends j).acceptedIds.toFinset.card ≤
    remembered)
include hL hregular hids hfair hfew

/-- In every state of a fair run, the network is wired, and its step is fair. -/
theorem wired_along : Along (Network.step L)
    (fun s act => Wired L parties s ∧ Fair L parties s act) (.fresh parties) acts := by
  have hwithin : Along (Network.step L) (fun s act => ∀ j,
      ((s.step L act).1.ends j).acceptedIds ⊆
        ((run (Network.step L) (.fresh parties) acts).ends j).acceptedIds) (.fresh parties) acts :=
    .all fun j => Delivery.along_subset (f := fun s : Network ι => (s.ends j).acceptedIds)
      (acceptedIds_network j) _ _
  refine Delivery.along_of_invariant (Wired L parties) ?_ (.of_fresh hids) (hfair.and hwithin)
  rintro s act hs ⟨hfair, hsub⟩
  refine ⟨⟨hs, hfair⟩, hs.step hL hregular hfair ?_ (moves L s act)⟩
  intro j
  refine (Finset.card_le_card ?_).trans (hfew j)
  intro id hid
  exact List.mem_toFinset.mpr (hsub j (List.mem_toFinset.mp hid))

variable (hparties : Function.Injective fun i => (parties i).template.fromParty)
include hparties

/-- A fair run of the network is, seen through it, a run of the channel. -/
theorem channel_reached [Fintype ι] : ReflTransGen Channel.Next Channel.empty
    (run (Network.step L) (.fresh parties) acts).channel := by
  have hrun : ReflTransGen Channel.Next (Network.fresh parties).channel
      (run (Network.step L) (.fresh parties) acts).channel := by
    refine Delivery.run_refines (fun _ => True) Network.channel ?_ trivial
      (wired_along hL hregular hids hfair hfew)
    rintro s act - ⟨hs, hfair⟩
    exact ⟨trivial, (hs.refines hL hregular hparties hfair (moves L s act)).to_reflTransGen⟩
  rwa [channel_fresh] at hrun

/-- The network is a channel.  Among any number of regular parties, no two of one id, over
every run along which neither a POST nor an answer is forged and no POST is heard whose id
waits, and in which no party accepts more ids than are remembered: seen through what was
posted, what was accepted and receipted and what was confirmed, each step of the network is one
step of a channel's or changes nothing, from the empty channel on. -/
theorem network_is_channel [Fintype ι] :
    Along (Network.step L)
      (fun s act => ReflGen Channel.Next s.channel (s.step L act).1.channel)
      (.fresh parties) acts ∧
    ReflTransGen Channel.Next Channel.empty
      (run (Network.step L) (.fresh parties) acts).channel := by
  refine ⟨?_, channel_reached hL hregular hids hfair hfew hparties⟩
  refine (wired_along hL hregular hids hfair hfew).mono ?_
  rintro s act ⟨hs, hfair⟩
  exact hs.refines hL hregular hparties hfair (moves L s act)

/-- Among regular parties, no two of one id, over every such run in which whatever is posted to
a party under an id is one content, which is the payload and the message but for its timestamp:
a message whose sender was told that it was delivered was delivered exactly once in the whole
network, and whatever was accepted and receipted under its receiver and its id is that content,
accepted by the party it was sent to. -/
theorem confirmed_delivered_once [Fintype ι]
    (hone : (run (Network.step L) (.fresh parties) acts).channel.OneContent) :
    ∀ sending ∈ (run (Network.step L) (.fresh parties) acts).confirmed,
      (run (Network.step L) (.fresh parties) acts).channel.delivered.count sending.item = 1 ∧
      ∀ j, ∀ u ∈ ((run (Network.step L) (.fresh parties) acts).ends j).handed, u.Receipted →
        u.arrived.answered.address = sending.message.address →
          u.item = sending.item ∧ (parties j).template.fromParty = sending.message.toParty := by
  intro sending hmem
  have hkept := Channel.kept_of_reaches (channel_reached hL hregular hids hfair hfew hparties)
  have hconfirmed : sending.item ∈
      (run (Network.step L) (.fresh parties) acts).channel.confirmed := ⟨sending, hmem, rfl⟩
  refine ⟨hkept.count_eq_one hone hconfirmed, ?_⟩
  intro j u hu _ haddress
  have hauthentic := authentic_run hL hregular (hfair.mono fun _ _ h => h.genuine)
  obtain ⟨hsent, hto⟩ := hauthentic.item_sent hu
  refine ⟨hone _ hsent _ (hkept.confirmed _ hconfirmed).1 haddress, ?_⟩
  rw [← hto]
  exact congrArg Prod.fst haddress

end Runs

end Refining

/-! ## The order confirmed on the bench -/

/-- The deal is fair. -/
theorem deal_fair : Along (Network.step bench) (Fair bench trade) (.fresh trade) deal := by
  have hwaiting : Along (Network.step bench)
      (fun s act => ∀ j e, act = .reach j e → NoneWaiting bench (s.ends j) e) (.fresh trade)
      deal := by
    apply along_deal
    · intro j e h
      cases h
    · intro j e h now request m bytes _ _ _ u hu
      cases h
      have hnone : (dealt (.fresh seller) [orderSent] [] []).ends true = .fresh seller := by
        unfold dealt
        simp only [Function.update_self]
      rw [hnone] at hu
      exact absurd hu List.not_mem_nil
    · intro j e h now request m bytes hposted
      cases h
      cases hposted
    · intro j e h
      cases h
  have hanswers : Along (Network.step bench) (FromReceiver bench trade) (.fresh trade) deal := by
    apply along_deal
    · intro k later response sending envelope attachments h
      cases h
    · intro k later response sending envelope attachments h
      cases h
    · intro k later response sending envelope attachments h
      cases h
    · intro k later response sending envelope attachments h hk hbears _
      cases h
      cases hk
      have hbody := unpack_answer bench_lawful (moment 2) 200
        (Signal.receipt bench (moment 2) order)
      rw [dealReceipt, Response.Bears, hbody] at hbears
      cases hbears
      exact ⟨true, .answered (List.mem_singleton.mpr rfl), rfl⟩
  exact ((deal_genuine.and hanswers).and hwaiting).mono fun _ _ h => ⟨h.1.1, h.1.2, h.2⟩

/-- Neither accepts more ids in the deal than are remembered. -/
theorem deal_few (j : Bool) : ((run (Network.step bench) (.fresh trade) deal).ends
    j).acceptedIds.toFinset.card ≤ remembered := by
  rw [run_deal]
  unfold dealt
  simp only
  cases j with
  | false =>
    rw [Function.update_of_ne Bool.false_ne_true]
    exact Nat.zero_le _
  | true =>
    rw [Function.update_self]
    exact (card_order_lt rfl).le

/-- The two are different parties. -/
theorem trade_parties : Function.Injective fun i => (trade i).template.fromParty := by
  intro i j h
  cases i <;> cases j
  · rfl
  · exact absurd h (by decide)
  · exact absurd h (by decide)
  · rfl

/-- The deal is, step by step, a run of the channel. -/
theorem network_is_channel_order :
    Along (Network.step bench)
      (fun s act => ReflGen Channel.Next s.channel (s.step bench act).1.channel)
      (.fresh trade) deal ∧
    ReflTransGen Channel.Next Channel.empty
      (dealt orderHeld [orderSent] [(true, dealReceipt)] [orderSent]).channel := by
  have h := network_is_channel bench_lawful trade_regular (fun i => by cases i <;> rfl) deal_fair
    deal_few trade_parties
  rwa [run_deal] at h

/-- The order that was confirmed was delivered once. -/
theorem confirmed_delivered_once_order :
    (dealt orderHeld [orderSent] [(true, dealReceipt)] [orderSent]).channel.delivered.count
      orderSent.item = 1 := by
  have hone : (run (Network.step bench) (.fresh trade) deal).channel.OneContent := by
    rw [run_deal]
    rintro x ⟨sending, hmem, rfl⟩ y ⟨other, hmem', rfl⟩ -
    rw [List.mem_singleton.mp hmem, List.mem_singleton.mp hmem']
  have h := (confirmed_delivered_once bench_lawful trade_regular (fun i => by cases i <;> rfl)
    deal_fair deal_few trade_parties hone orderSent ?_).1
  · rwa [run_deal] at h
  · rw [run_deal]
    exact List.mem_singleton.mpr rfl

end As4
