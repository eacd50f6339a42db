import XmipAs4.Exchange.Keyed
import XmipAs4.Model.Location

/-!
# Locations configured apart

A Send Location and a Receive Location, each configured by itself, from what the settings
promise to read of the texts given.  Whatever is sent from the one to a far end that accepts
what it takes is taken by the other, whole and under the header configured, exactly where the
Party it is sent to is the Party the other was configured as; anywhere else it is refused for
good.  Nothing is said of a send whose target is no endpoint: it does not get as far as a POST.
-/

namespace As4

open Multipart (Bytes isContentId Absent)

/-! ## Reading settings -/

/-- The setting is one of the Location's. -/
def Setting.isFor (s : Setting) (location : Applies) : Prop :=
  s.applies = .Both ∨ s.applies = location

/-- What is read of the texts given to a Location: of each text that is one of its settings, the
text given, or the default where none is; of any other, nothing. -/
structure Reads (location : Applies) (given : List (String × String)) (read : Read) : Prop where
  written : ∀ s ∈ settings, s.kind = .Text → s.isFor location → ∀ text,
    given.lookup s.name = some text →
      read.text s.name = text ∧ read.optionalText s.name = some text
  default : ∀ s ∈ settings, s.kind = .Text → s.isFor location → ∀ text,
    given.lookup s.name = none → s.presence = .Default text →
      read.optionalText s.name = some text
  other : ∀ s ∈ settings, s.kind = .Text → ¬ s.isFor location →
    read.optionalText s.name = none

namespace Reads

variable {given : List (String × String)} {read : Read}

/-- A Location is the party it was given. -/
theorem party_id {location : Applies} {me : String} (h : Reads location given read)
    (hme : given.lookup "party_id" = some me) : read.text "party_id" = me :=
  (h.written ⟨"party_id", .Text, .Required, .Both⟩ (by decide) rfl (.inl rfl) me hme).1

/-- A setting of Send Locations with a default is what was given, or the default. -/
theorem defaulted {name text : String} (h : Reads .Send given read)
    (hmem : ⟨name, .Text, .Default text, .Send⟩ ∈ settings) :
    read.optionalText name = some ((given.lookup name).getD text) := by
  cases hgiven : given.lookup name with
  | none => exact h.default _ hmem rfl (.inr rfl) text hgiven rfl
  | some value => exact (h.written _ hmem rfl (.inr rfl) value hgiven).2

/-- A setting of Send Locations is not read at a Receive Location. -/
theorem not_sent {name : String} {presence : Presence} (h : Reads .Receive given read)
    (hmem : ⟨name, .Text, presence, .Send⟩ ∈ settings) : read.optionalText name = none := by
  refine h.other _ hmem rfl ?_
  rintro (hboth | hreceive)
  · cases hboth
  · cases hreceive

variable {now : Moment} {address : String}

/-- A Send Location is the transport of the party given, to the party given, under the service
and the action given or the test service and its action. -/
theorem send {me party : String} (h : Reads .Send given read)
    (hme : given.lookup "party_id" = some me) (hto : given.lookup "to_party_id" = some party) :
    As4Transport.configured now address read = .ok ((As4Transport.new now address me party).under
      ((given.lookup "service").getD testService) ((given.lookup "action").getD testAction)) := by
  have hparty := (h.written ⟨"to_party_id", .Text, .Required, .Send⟩ (by decide) rfl (.inr rfl)
    party hto).2
  unfold As4Transport.configured
  rw [h.party_id hme, hparty, h.defaulted (by decide : ⟨"service", .Text, .Default testService,
    .Send⟩ ∈ settings), h.defaulted (by decide : ⟨"action", .Text, .Default testAction, .Send⟩ ∈
    settings)]
  rfl

/-- A Receive Location is the transport of the party given, to none. -/
theorem receive {me : String} (h : Reads .Receive given read)
    (hme : given.lookup "party_id" = some me) :
    As4Transport.configured now address read = .ok (As4Transport.new now address me "") := by
  unfold As4Transport.configured
  rw [h.party_id hme, h.not_sent (by decide : ⟨"to_party_id", .Text, .Required, .Send⟩ ∈ settings),
    h.not_sent (by decide : ⟨"service", .Text, .Default testService, .Send⟩ ∈ settings)]
  rfl

end Reads

/-! ## Two Locations -/

section Exchange

variable {L : Estate}

/-- The exchange with a far end that takes what is posted to it and accepts it, each at its
moment. -/
def acceptingExchange (L : Estate) (far : As4Transport) (heard judged : Moment)
    (peer : SocketAddr) : Endpoint → Request → Result Response :=
  fun _ request => okOr (answerBy L far (.takeNext judged .Accepted) heard request peer)
    ⟨"timed out", true⟩

/-- A payload that was gathered is posted, exchanged, and its answer verified. -/
theorem sendFrom_eq {near : As4Transport} {now later : Moment} {target : String}
    {payload : Bytes} {key : Option String} {endpoint : Endpoint} {message : UserMessage}
    {request : Request} (exchange : Endpoint → Request → Result Response)
    (hposting : near.posting L now target payload key = .ok (endpoint, message, request)) :
    near.sendFrom L now later exchange target ⟨.ok payload, key⟩ =
      exchange endpoint request >>= fun response =>
        near.verifyReceipt L later response message := by
  unfold As4Transport.sendFrom As4Transport.post
  simp only [ok_bind]
  rw [hposting]
  rfl

variable {far : As4Transport} {heard : Moment} {request : Request} {message : UserMessage}
  {payload : Bytes} (judged : Moment) (peer : SocketAddr) (most : ℕ)

/-- What a party that takes a message makes of it: it is handed up where it is new, and its
sender is answered a Receipt either way. -/
theorem taken_and_receipted (hunsigned : far.receipting.signer = unsigned)
    (hunpack : far.unpack L heard request = .ok (message, payload))
    (hadmits : far.admits L heard message payload = .ok ()) :
    (∃ moment, answerBy L far (.takeNext judged .Accepted) heard request peer =
      some (soap L moment 200 (Signal.receipt L moment message))) ∧
    (far.receiveUpTo L heard (.posted request peer) most).1 =
      .ok (if message.messageId ∈ far.receipting.ids then []
        else [⟨originOf request peer message, payload, ⟨request, peer⟩, message⟩]) := by
  have hreceipt : ∀ moment, far.receipting.receipt L moment message =
      .ok (soap L moment 200 (Signal.receipt L moment message)) := by
    intro moment
    refine Receipting.receipt_eq_ok.mpr ⟨_, ?_, rfl⟩
    rw [hunsigned]
    rfl
  unfold As4Transport.receiveUpTo As4Transport.takeNext
  by_cases hseen : message.messageId ∈ far.receipting.ids
  · have hhear : far.hear L heard request peer = _ :=
      (Hears.again hunpack hadmits hseen (hreceipt heard)).eq_hear
    refine ⟨⟨heard, answerBy_answered hhear (by simp)⟩, ?_⟩
    simp only
    rw [hhear, if_pos hseen]
    rfl
  · have hhear : far.hear L heard request peer = _ :=
      (Hears.new hunpack hadmits hseen).eq_hear
    refine ⟨⟨judged, ?_⟩, ?_⟩
    · rw [answerBy_takeNext hunpack hadmits hseen, Receipting.answer_accepted (hreceipt judged)]
      rfl
    · simp only
      rw [hhear, if_neg hseen]
      rfl

/-- What a party that does not take a message makes of it: nothing is handed up, and its sender
is answered an Error. -/
theorem refused_and_told {e : TransportError}
    (hunpack : far.unpack L heard request = .ok (message, payload))
    (hadmits : far.admits L heard message payload = .error e) :
    answerBy L far (.takeNext judged .Accepted) heard request peer =
      some (refusal L heard (some message.messageId) policyNoncompliance e) ∧
    (far.receiveUpTo L heard (.posted request peer) most).1 = .error e := by
  have hhear : far.hear L heard request peer = _ := (Hears.unadmitted hunpack hadmits).eq_hear
  refine ⟨answerBy_answered hhear (by simp), ?_⟩
  unfold As4Transport.receiveUpTo As4Transport.takeNext
  simp only
  rw [hhear]
  rfl

end Exchange

/-- What two Locations are configured with: a Send Location of one party that sends to another,
its service and action not empty, and a Receive Location of a party. -/
structure Configuration (given given' : List (String × String)) (read read' : Read)
    (me party receiver : String) : Prop where
  send : Reads .Send given read
  receive : Reads .Receive given' read'
  me : given.lookup "party_id" = some me
  party : given.lookup "to_party_id" = some party
  receiver : given'.lookup "party_id" = some receiver
  service : given.lookup "service" ≠ some ""
  action : given.lookup "action" ≠ some ""

/-- What is given and not empty, or else is the default, is not empty. -/
theorem getD_ne_empty {o : Option String} {text : String} (h : o ≠ some "") (htext : text ≠ "") :
    o.getD text ≠ "" := by
  cases o with
  | none => exact htext
  | some value =>
    intro hvalue
    exact h (congrArg some hvalue)

/-- Two Locations configured apart.  Whatever a Send Location posts, its target an endpoint that
parses and its boundary absent from what it separates, carries the header configured.  Where it
is sent to the Party that a Receive Location is, it is handed up there whole under that header
unless its id is remembered, and where it is then accepted the sender returns that it was
delivered; where it is not, nothing is handed up, and the sender is told so for good. -/
theorem configured_exchange {L : Estate} (hL : L.Lawful) (hS : L.Statuses)
    {given given' : List (String × String)} {read read' : Read} {me party receiver : String}
    (hconfigured : Configuration given given' read read' me party receiver)
    {made made' : Moment} {address address' : String} {near far : As4Transport}
    (hnear : As4Transport.configured made address read = .ok near)
    (hfar : As4Transport.configured made' address' read' = .ok far)
    {now : Moment} {target : String} {payload : Bytes} {key : Option String}
    {endpoint : Endpoint} {message : UserMessage} {request : Request}
    (hposting : near.posting L now target payload key = .ok (endpoint, message, request))
    (habsent : Absent now.boundary
      (Mime.parts (message.envelope L) [(message.payloadCid, payload)]))
    (ids : List String) (heard judged later : Moment) (peer : SocketAddr) (most : ℕ) :
    message = ((UserMessage.new now me party ((given.lookup "service").getD testService)
      ((given.lookup "action").getD testAction)).fresh now).keyed key ∧
    (party = receiver →
      near.sendFrom L now later (acceptingExchange L (far.remembering ids) heard judged peer)
        target ⟨.ok payload, key⟩ = .ok () ∧
      ((far.remembering ids).receiveUpTo L heard (.posted request peer) most).1 =
        .ok (if message.messageId ∈ ids then []
          else [⟨originOf request peer message, payload, ⟨request, peer⟩, message⟩])) ∧
    (party ≠ receiver →
      (∃ text, near.sendFrom L now later
        (acceptingExchange L (far.remembering ids) heard judged peer) target ⟨.ok payload, key⟩ =
          .error ⟨text, false⟩) ∧
      ∃ e, ((far.remembering ids).receiveUpTo L heard (.posted request peer) most).1 =
        .error e) := by
  rw [hconfigured.send.send hconfigured.me hconfigured.party, Except.ok.injEq] at hnear
  rw [hconfigured.receive.receive hconfigured.receiver, Except.ok.injEq] at hfar
  subst hnear hfar
  have hpost : Posts L _ now target payload key message (message.envelope L) request :=
    ⟨⟨endpoint, hposting⟩, rfl, habsent⟩
  have hservice := getD_ne_empty hconfigured.service (by decide : testService ≠ "")
  have haction := getD_ne_empty hconfigured.action (by decide : testAction ≠ "")
  have hmessage := hpost.message_eq
  have hunpack : ((As4Transport.new made' address' receiver "").remembering ids).unpack L heard
      request = .ok (message, payload) :=
    unpack_posted_clean hL hpost (unsigned_leaves L _) hservice haction
      (by decide : isContentId As4.payloadCid = true)
      (by decide : ¬ "cid:".toList <+: As4.payloadCid.toList) _ heard
  have hto : message.toParty = party := by
    rw [hmessage, UserMessage.keyed_fresh]
    rfl
  refine ⟨?_, ?_, ?_⟩
  · rw [hmessage, UserMessage.keyed_fresh, UserMessage.keyed_fresh]
    rfl
  · rintro rfl
    have hadmits : ((As4Transport.new made' address' party "").remembering ids).admits L heard
        message payload = .ok () := As4Transport.admits_unchecked L _ hto rfl
    obtain ⟨⟨moment, hanswer⟩, hreceived⟩ :=
      taken_and_receipted judged peer most rfl hunpack hadmits
    refine ⟨?_, hreceived⟩
    rw [sendFrom_eq _ hposting, acceptingExchange, hanswer, okOr_some, ok_bind]
    refine (verifyReceipt_soap hL 200 _).mpr ⟨⟨by omega, by omega⟩, rfl, nextId moment, ?_⟩
    rw [Signal.fromEnvelope_of_content (Signal.content_receipt hL.xml moment message),
      Signal.fromElement_receipt hL.xml]
  · intro hother
    have hadmits : ((As4Transport.new made' address' receiver "").remembering ids).admits L heard
        message payload = .error (L.protocolError ("a message for " ++ message.toParty ++
          ", and this party is " ++ receiver)) := if_pos (hto ▸ hother)
    obtain ⟨hanswer, hreceived⟩ := refused_and_told judged peer most hunpack hadmits
    refine ⟨?_, _, hreceived⟩
    rw [sendFrom_eq _ hposting, acceptingExchange, hanswer, okOr_some, ok_bind]
    -- The Error's status says for good, as every protocol error is.
    have hfinal : false = L.retryable (refusal L heard (some message.messageId)
        policyNoncompliance (L.protocolError ("a message for " ++ message.toParty ++
          ", and this party is " ++ receiver))).status := by
      rw [retryable_refusal hS, hL.protocolError_final]
    rw [hfinal]
    exact verifyReceipt_of_status (refusal_range L heard _ _ _)

/-! ## The buyer and the seller as Locations -/

instance (s : Setting) (location : Applies) : Decidable (s.isFor location) :=
  inferInstanceAs (Decidable (_ ∨ _))

/-- A text read as the settings say. -/
def readText (location : Applies) (given : List (String × String)) (name : String) :
    Option String :=
  match settings.find? fun s => decide (s.name = name ∧ s.isFor location) with
  | some s => given.lookup name <|> (match s.presence with | .Default text => some text | _ => none)
  | none => none

/-- Texts read as the settings say. -/
def readOf (location : Applies) (given : List (String × String)) : Read where
  text name := (readText location given name).getD ""
  optionalText := readText location given

/-- No two settings have one name. -/
theorem find_setting (location : Applies) : ∀ s ∈ settings,
    settings.find? (fun s' => decide (s'.name = s.name ∧ s'.isFor location)) =
      if s.isFor location then some s else none := by
  cases location <;> decide

/-- They are read as a Location's settings are. -/
theorem reads_readOf (location : Applies) (given : List (String × String)) :
    Reads location given (readOf location given) where
  written := by
    intro s hs _ hfor text hgiven
    have hread : readText location given s.name = some text := by
      rw [readText, find_setting location s hs, if_pos hfor]
      simp only
      rw [hgiven]
      rfl
    refine ⟨?_, hread⟩
    change (readText location given s.name).getD "" = text
    rw [hread, Option.getD_some]
  default := by
    intro s hs _ hfor text hgiven hdefault
    change readText location given s.name = some text
    rw [readText, find_setting location s hs, if_pos hfor]
    simp only
    rw [hgiven, hdefault]
    rfl
  other := by
    intro s hs _ hnot
    change readText location given s.name = none
    rw [readText, find_setting location s hs, if_neg hnot]

/-- What the buyer's Send Location is given. -/
def buyerGiven : List (String × String) :=
  [("party_id", "Buyer"), ("to_party_id", "Seller"), ("service", "urn:svc"), ("action", "Submit")]

/-- What the seller's Receive Location is given. -/
def sellerGiven : List (String × String) := [("party_id", "Seller")]

/-- The order goes from the buyer's Location to the seller's whole, and the buyer is told. -/
theorem configured_exchange_order :
    ∃ far, As4Transport.configured (moment 0) "as4://bench/msh" (readOf .Receive sellerGiven) =
        .ok far ∧
      buyer.sendFrom bench (moment 1) (moment 4)
        (acceptingExchange bench (far.remembering []) (moment 2) (moment 3) "peer") ""
          ⟨.ok goods, some "order"⟩ = .ok () ∧
      ((far.remembering []).receiveUpTo bench (moment 2) (.posted orderRequest "peer") 1).1 =
        .ok [arrivedOrder] := by
  have hsend := reads_readOf .Send buyerGiven
  have hreceive := reads_readOf .Receive sellerGiven
  have hconfigured : Configuration buyerGiven sellerGiven (readOf .Send buyerGiven)
      (readOf .Receive sellerGiven) "Buyer" "Seller" "Seller" :=
    ⟨hsend, hreceive, rfl, rfl, rfl, by decide, by decide⟩
  have hnear : As4Transport.configured (moment 0) "as4://bench/msh" (readOf .Send buyerGiven) =
      .ok buyer := hsend.send rfl rfl
  have hfar : As4Transport.configured (moment 0) "as4://bench/msh" (readOf .Receive sellerGiven) =
      .ok (As4Transport.new (moment 0) "as4://bench/msh" "Seller" "") := hreceive.receive rfl
  obtain ⟨-, htaken, -⟩ := configured_exchange bench_lawful bench_statuses hconfigured hnear hfar
    (posting_order 1) (order_absent 1) [] (moment 2) (moment 3) (moment 4) "peer" 1
  exact ⟨_, hfar, htaken rfl⟩

end As4
