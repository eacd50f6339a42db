import XmipAs4.Exchange.Keyed

/-!
# Attempts that get through

When a keyed delivery retried succeeds.  Nothing keeps it from being done but a request or an
answer that is lost, a message the far end does not take, and the verdicts: the key's message
has been accepted exactly where some attempt reached the far end, was taken there and met a
way of receiving that accepts, and an attempt returns that it was delivered exactly where it
reached the far end, was taken there, its answer arrived and by then the message had been
accepted.

The two ends may sign.  What is asked of their signers is that the far end's never fails, that
each leaves what it signs as it was, and that each accepts what the other signed
(`Wellformed`).  A far end whose signer may fail accepts without a Receipt, and accepts again.
-/

namespace As4

open Delivery (run Along)
open Multipart (Bytes Absent isContentId)

/-! ## One reception -/

/-- The way accepts what it receives. -/
def Way.Accepts : Way → Prop
  | .acceptOne => True
  | .takeNext _ verdict => verdict = .Accepted

section Reception

variable {L : Estate} {s : FarEnd} {now : Moment} {request : Request} {m : UserMessage}
  {bytes : Bytes} (peer : SocketAddr) (written : Result Unit) {way : Way}

/-- A new message that the way accepts has been accepted after it is received. -/
theorem mem_acceptedIds_receive (hsigns : s.transport.receipting.signer.Signs)
    (haccepts : way.Accepts) (hunpack : s.transport.unpack L now request = .ok (m, bytes))
    (hadmits : s.transport.admits L now m bytes = .ok ())
    (hnew : m.messageId ∉ s.transport.receipting.ids) :
    m.messageId ∈ (s.receive L now request peer written way).1.acceptedIds := by
  have hreceipt : ∀ judged, ∃ a, s.transport.receipting.receipt L judged m = .ok a := by
    intro judged
    obtain ⟨signed, hsigned⟩ := hsigns judged (Signal.receipt L judged m) []
    exact ⟨_, Receipting.receipt_eq_ok.mpr ⟨signed, hsigned, rfl⟩⟩
  cases way with
  | acceptOne =>
    obtain ⟨a, ha⟩ := hreceipt now
    rw [receive_acceptOne (As4Transport.serve_new peer hunpack hadmits hnew ha) written]
    exact mem_acceptedIds.mpr
      ⟨_, List.mem_append_right _ (List.mem_singleton.mpr rfl), rfl, true, rfl⟩
  | takeNext judged verdict =>
    cases haccepts
    obtain ⟨a, ha⟩ := hreceipt judged
    unfold FarEnd.receive
    rw [step_take_new peer hunpack hadmits hnew]
    simp only
    have hwaits : (s.handed ++ [(⟨⟨originOf request peer m, bytes, ⟨request, peer⟩, m⟩, none⟩ :
        HandUp)])[s.handed.length]? = some ⟨⟨originOf request peer m, bytes, ⟨request, peer⟩, m⟩,
          none⟩ := List.getElem?_concat_length
    rw [step_judge_receipted (s := ⟨s.transport, _⟩) (fun _ => written) hwaits ha]
    simp only
    rw [set_last]
    exact mem_acceptedIds.mpr
      ⟨_, List.mem_append_right _ (List.mem_singleton.mpr rfl), rfl, true, rfl⟩

/-- A verdict that does not accept brings about no acceptance. -/
theorem acceptedIds_step_judge {k : ℕ} {v : Verdict} {reply : Response → Result Unit}
    (hv : v ≠ .Accepted) {id : String}
    (hid : id ∈ (s.step L (.judge now k v reply)).1.acceptedIds) : id ∈ s.acceptedIds := by
  have hstep := steps (L := L) s (.judge now k v reply)
  generalize s.step L (.judge now k v reply) = result at hstep hid
  obtain ⟨s', told, answer⟩ := result
  cases hstep with
  | receipted _ _ => exact absurd rfl hv
  | unsigned _ _ => exact absurd rfl hv
  | nothing _ => exact hid
  | declined _ _ =>
    obtain ⟨u, hu, hmessage, haccepted⟩ := mem_acceptedIds.mp hid
    rcases List.mem_or_eq_of_mem_set hu with hu | rfl
    · exact mem_acceptedIds.mpr ⟨u, hu, hmessage, haccepted⟩
    · obtain ⟨answered, h⟩ := haccepted
      cases h
      exact absurd rfl hv

/-- Where the way does not accept, nothing is accepted that was not before. -/
theorem acceptedIds_receive_of_not_accepts (hway : ¬ way.Accepts) {id : String}
    (hid : id ∈ (s.receive L now request peer written way).1.acceptedIds) :
    id ∈ s.acceptedIds := by
  cases way with
  | acceptOne => exact absurd trivial hway
  | takeNext judged verdict =>
    have hstep := steps (L := L) s (.take now (.posted request peer))
    unfold FarEnd.receive at hid
    generalize s.step L (.take now (.posted request peer)) = result at hstep hid
    obtain ⟨s', told, answer⟩ := result
    cases hstep with
    | answered _ _ => exact hid
    | handedUp _ _ _ =>
      -- What was handed up waits, and its verdict does not accept it.
      rcases mem_acceptedIds_append (t := s.transport) (acceptedIds_step_judge hway hid) with
        hid | ⟨-, answered, h⟩
      · exact hid
      · cases h

/-- A message the far end does not take is refused, and the far end is as it was. -/
theorem receive_unadmitted {e : TransportError}
    (hunpack : s.transport.unpack L now request = .ok (m, bytes))
    (hadmits : s.transport.admits L now m bytes = .error e) (way : Way) :
    s.receive L now request peer written way =
      (s, some (refusal L now (some m.messageId) policyNoncompliance e)) := by
  have hhear : s.transport.hear L now request peer = _ := (Hears.unadmitted hunpack hadmits).eq_hear
  cases way with
  | acceptOne =>
    have hserve : s.transport.serve L now request peer = ((.error e,
        refusal L now (some m.messageId) policyNoncompliance e), s.transport) := by
      unfold As4Transport.serve
      rw [hhear]
    rw [receive_acceptOne hserve written]
    change ((⟨s.transport, s.handed ++ []⟩ : FarEnd), _) = _
    rw [List.append_nil]
  | takeNext judged verdict =>
    unfold FarEnd.receive FarEnd.step As4Transport.takeNext
    simp only
    rw [hhear]

end Reception

/-! ## Rounds -/

section Rounds

variable (L : Estate) (near far : As4Transport) (bytes : Bytes) (key : String)

/-- An attempt whose message arrives at the far end at that moment is taken there. -/
def TakenAt (posted : Moment) (target : String) (now : Moment) : Prop :=
  ∃ endpoint message request,
    near.posting L posted target bytes (some key) = .ok (endpoint, message, request) ∧
      far.admits L now message bytes = .ok ()

/-- The round is an attempt that is taken by a way of receiving that accepts. -/
def GetsThrough : Round → Prop
  | .attempt posted _ target (.reached now _ way _ _ _) =>
    TakenAt L near far bytes key posted target now ∧ way.Accepts
  | _ => False

/-- The round is an attempt that is taken, and its answer arrives. -/
def ComesBack : Round → Prop
  | .attempt posted _ target (.reached now _ _ _ arrives _) =>
    TakenAt L near far bytes key posted target now ∧ arrives = true
  | _ => False

/-- What is made of the near end's template reads back, each end leaves what it signs as it
was, and what the one signs verifies at the other. -/
structure Wellformed (L : Estate) (near far : As4Transport) : Prop where
  service : near.template.service ≠ ""
  action : near.template.action ≠ ""
  contentId : isContentId near.template.payloadCid = true
  bare : ¬ "cid:".toList <+: near.template.payloadCid.toList
  leaves : near.receipting.signer.Leaves L "UserMessage"
  accepts : ∀ now later envelope attachments signed,
    near.receipting.signer.sign now envelope attachments = .ok signed →
      far.receipting.signer.verify later signed attachments = .ok ()
  answers : far.receipting.signer.Leaves L "SignalMessage"
  verifies : ∀ now later envelope signed,
    far.receipting.signer.sign now envelope [] = .ok signed →
      near.receipting.signer.verify later signed [] = .ok ()

variable {L near far bytes key} {s : FarEnd} (hL : L.Lawful) (hnear : Wellformed L near far)

section Posted

variable {posted : Moment} {target : String} {message : UserMessage} {signed : String}
  {request : Request} (hpost : Posts L near posted target bytes (some key) message signed request)
include hL hnear hpost

/-- What such an end posts is read whole by the other. -/
theorem Wellformed.unpack_posted (now : Moment) :
    far.unpack L now request = .ok (message, bytes) := by
  rw [unpack_posted_clean hL hpost hnear.leaves hnear.service hnear.action hnear.contentId
    hnear.bare, hnear.accepts _ _ _ _ _ hpost.sign, ok_bind]

omit hL in
/-- What such an end posts reads back as it was. -/
theorem Wellformed.readBack_eq : message.readBack = message := by
  apply UserMessage.readBack_of_clean
  rw [hpost.payloadCid_eq]
  exact hnear.bare

end Posted

include hL hnear in
/-- Attempts between such ends are read alike. -/
theorem Wellformed.oneForAll : OneForAll L near far bytes key := by
  intro posted now target message signed request m payload hpost hunpack hadmits
  have hto := ((far.admits_eq_ok L).mp hadmits).1
  have hm := (read_unique hunpack (hnear.unpack_posted hL hpost now)).1
  refine ⟨bytes, ?_⟩
  intro posted' later' target' message' signed' request' hpost'
  rw [hnear.readBack_eq hpost']
  refine ⟨hnear.unpack_posted hL hpost' later', ?_⟩
  have hsame : message'.toParty = message.toParty := by
    rw [hpost.message_eq, hpost'.message_eq, near.template.keyed_fresh,
      near.template.keyed_fresh]
  rw [hsame, ← hm]
  exact hto

section Attempt

variable {posted : Moment} {target : String} {endpoint : Endpoint} {message : UserMessage}
  {request : Request}
  (hposting : near.posting L posted target bytes (some key) = .ok (endpoint, message, request))
include hposting

/-- Whether an attempt is taken is whether its message is. -/
theorem takenAt_iff {now : Moment} : TakenAt L near far bytes key posted target now ↔
    far.admits L now message bytes = .ok () := by
  constructor
  · rintro ⟨endpoint', message', request', hposting', hadmits⟩
    rw [hposting] at hposting'
    cases hposting'
    exact hadmits
  · intro hadmits
    exact ⟨endpoint, message, request, hposting, hadmits⟩

variable (hclear : ∀ signed,
  near.receipting.signer.sign posted (message.envelope L) [(message.payloadCid, bytes)] =
    .ok signed → Absent posted.boundary (Mime.parts signed [(message.payloadCid, bytes)]))
include hL hnear hclear

/-- Every attempt's request is read whole. -/
theorem unpack_attempt (hs : Keyed L near far bytes key s) (now : Moment) :
    s.transport.unpack L now request = .ok (message, bytes) := by
  obtain ⟨signed, hpost⟩ := Posts.of_posting hposting hclear
  rw [hs.same, unpack_remembering]
  exact hnear.unpack_posted hL hpost now

/-- After an attempt that reached the far end the key's message has been accepted where it
had been before, or the attempt is taken by a way that accepts. -/
theorem mem_acceptedIds_attempt (hs : Keyed L near far bytes key s) (now : Moment)
    (peer : SocketAddr) (written : Result Unit) (way : Way) :
    messageIdOf key ∈ (s.receive L now request peer written way).1.acceptedIds ↔
      messageIdOf key ∈ s.acceptedIds ∨
        TakenAt L near far bytes key posted target now ∧ way.Accepts := by
  have hunpack := unpack_attempt hL hnear hposting hclear hs now
  have hmessage := (posting_ids hposting).1
  have hsame : s.transport.admits L now message bytes = far.admits L now message bytes := by
    rw [hs.same]
    rfl
  rw [takenAt_iff hposting]
  constructor
  · intro hid
    by_cases hway : way.Accepts
    · cases hadmits : far.admits L now message bytes with
      | ok _ => exact .inr ⟨rfl, hway⟩
      | error e =>
        rw [receive_unadmitted peer written hunpack (hsame.trans hadmits)] at hid
        exact .inl hid
    · exact .inl (acceptedIds_receive_of_not_accepts peer written hway hid)
  · rintro (hid | ⟨hadmits, hway⟩)
    · exact acceptedIds_receive s now request peer written way hid
    · by_cases hseen : message.messageId ∈ s.transport.receipting.ids
      · rw [hmessage] at hseen
        exact acceptedIds_receive s now request peer written way
          (hs.sound.vouched.mem_acceptedIds hseen)
      · rw [← hmessage]
        exact mem_acceptedIds_receive peer written hs.signed.signs hway hunpack
          (hsame.trans hadmits) hseen

/-- An attempt that reached the far end is answered what its sender takes for the delivery
exactly where it is taken and the key's message has been accepted by then. -/
theorem verifyReceipt_attempt (hs : Keyed L near far bytes key s) (now later : Moment)
    (peer : SocketAddr) (written : Result Unit) (way : Way) :
    ∃ a, (s.receive L now request peer written way).2 = some a ∧
      (near.verifyReceipt L later a message = .ok () ↔
        TakenAt L near far bytes key posted target now ∧
          messageIdOf key ∈ (s.receive L now request peer written way).1.acceptedIds) := by
  have hunpack := unpack_attempt hL hnear hposting hclear hs now
  have hmessage := (posting_ids hposting).1
  have hsame : s.transport.admits L now message bytes = far.admits L now message bytes := by
    rw [hs.same]
    rfl
  have hsigner : s.transport.receipting.signer = far.receipting.signer := by
    rw [hs.same]
    rfl
  rw [takenAt_iff hposting]
  obtain ⟨a, ha, hreceives⟩ :=
    receives (L := L) (s := s) now request peer written hs.signed.signs way
  refine ⟨a, ha, ?_⟩
  -- A Receipt for the message is taken for its delivery.
  have hreceipted : ∀ {judged m}, s.transport.receipting.receipt L judged m = .ok a →
      m = message → near.verifyReceipt L later a message = .ok () := by
    rintro judged m hreceipt rfl
    have hleaves : s.transport.receipting.signer.Leaves L "SignalMessage" := by
      rw [hsigner]
      exact hnear.answers
    obtain ⟨signed, hsigned, hiff⟩ : ∃ signed, _ ∧ (near.verifyReceipt L later a m =
      .ok () ↔ _) := verifyReceipt_receipt hL hleaves hreceipt
    rw [hsigner] at hsigned
    exact hiff.mpr ⟨hnear.verifies _ _ _ _ hsigned, rfl⟩
  cases hadmits : far.admits L now message bytes with
  | error e =>
    rw [receive_unadmitted peer written hunpack (hsame.trans hadmits)] at ha
    cases ha
    constructor
    · intro hverify
      exact absurd hverify (verifyReceipt_error_ne hL _ _ _ _)
    · rintro ⟨h, -⟩
      cases h
  | ok _ =>
    generalize (s.receive L now request peer written way).1 = s' at hreceives
    cases hreceives with
    | refused hnot => exact absurd (hsame.trans hadmits) (hnot _ _ hunpack)
    | again hread hseen hreceipt =>
      have hm := (read_unique hread hunpack).1
      rw [hm, hmessage] at hseen
      exact ⟨fun _ => ⟨rfl, hs.sound.vouched.mem_acceptedIds hseen⟩,
        fun _ => hreceipted hreceipt hm⟩
    | accepted hread _ _ harrived hreceipt =>
      have hm := (read_unique hread hunpack).1
      refine ⟨fun _ => ⟨rfl, mem_acceptedIds.mpr ⟨_, List.mem_append_right _
        (List.mem_singleton.mpr rfl), ?_, true, rfl⟩⟩, fun _ => hreceipted hreceipt hm⟩
      rw [HandUp.messageId, harrived, hm, hmessage]
    | declined hread hnew hv =>
      constructor
      · intro hverify
        exact absurd hverify (verifyReceipt_error_ne hL _ _ _ _)
      · rintro ⟨-, hid⟩
        rw [(read_unique hread hunpack).1, hmessage] at hnew
        rcases mem_acceptedIds_append (t := s.transport) hid with hid | ⟨-, answered, h⟩
        · exact absurd (hs.mem_ids hid) hnew
        · cases h
          exact absurd rfl hv

end Attempt

include hL hnear

/-- After a round the key's message has been accepted where it had been before, or the round
gets through. -/
theorem mem_acceptedIds_rounding (hs : Keyed L near far bytes key s) {r : Round}
    (hclear : Clear L near bytes key r) (hleaves : LeavesKey L key s r) :
    messageIdOf key ∈ (rounding L near bytes key s r).1.acceptedIds ↔
      messageIdOf key ∈ s.acceptedIds ∨ GetsThrough L near far bytes key r := by
  cases r with
  | other now request peer way written =>
    constructor
    · intro hid
      exact .inl (hleaves hid)
    · rintro (hid | h)
      · exact acceptedIds_receive s now request peer written way hid
      · exact h.elim
  | attempt posted later target fate =>
    cases hposting : near.posting L posted target bytes (some key) with
    | error e =>
      rw [rounding_unposted hposting]
      refine ⟨.inl, ?_⟩
      rintro (hid | h)
      · exact hid
      · cases fate with
        | lost _ => exact h.elim
        | reached now peer way written arrives error =>
          obtain ⟨⟨_, _, _, hposting', -⟩, -⟩ := h
          rw [hposting] at hposting'
          cases hposting'
    | ok posting =>
      obtain ⟨endpoint, message, request⟩ := posting
      rw [rounding_posted hposting]
      cases fate with
      | lost error => exact ⟨.inl, fun h => h.elim id False.elim⟩
      | reached now peer way written arrives error =>
        rw [exchange_reached]
        exact mem_acceptedIds_attempt hL hnear hposting
          (fun signed => hclear endpoint message request signed hposting) hs now peer written way

/-- An attempt returns that it was delivered exactly where it comes back and the key's message
has been accepted by then. -/
theorem rounding_ok_iff (hs : Keyed L near far bytes key s) {r : Round}
    (hclear : Clear L near bytes key r) :
    (rounding L near bytes key s r).2 = some (.ok ()) ↔ ComesBack L near far bytes key r ∧
      messageIdOf key ∈ (rounding L near bytes key s r).1.acceptedIds := by
  cases r with
  | other now request peer way written =>
    constructor
    · intro h
      cases h
    · rintro ⟨h, -⟩
      exact h.elim
  | attempt posted later target fate =>
    cases hposting : near.posting L posted target bytes (some key) with
    | error e =>
      constructor
      · intro h
        obtain ⟨_, _, _, _, hposting', -, -⟩ := post_eq_ok (Option.some.inj h)
        rw [hposting] at hposting'
        cases hposting'
      · rintro ⟨h, -⟩
        cases fate with
        | lost _ => exact h.elim
        | reached now peer way written arrives error =>
          obtain ⟨⟨_, _, _, hposting', -⟩, -⟩ := h
          rw [hposting] at hposting'
          cases hposting'
    | ok posting =>
      obtain ⟨endpoint, message, request⟩ := posting
      have hpost : (rounding L near bytes key s (.attempt posted later target fate)).2 =
          some ((s.exchange L request fate).2 >>= fun response =>
            near.verifyReceipt L later response message) := by
        unfold rounding As4Transport.post
        simp only
        rw [hposting]
        rfl
      rw [hpost, rounding_posted hposting]
      cases fate with
      | lost error =>
        constructor
        · intro h
          cases h
        · rintro ⟨h, -⟩
          exact h.elim
      | reached now peer way written arrives error =>
        rw [exchange_reached]
        obtain ⟨a, ha, hverify⟩ := verifyReceipt_attempt hL hnear hposting
          (fun signed => hclear endpoint message request signed hposting) hs now later peer written
          way
        have hexchange : (s.exchange L request (.reached now peer way written arrives error)).2 =
            if arrives then .ok a else .error error := by
          unfold FarEnd.exchange
          simp only
          generalize s.receive L now request peer written way = received at ha
          obtain ⟨s', answer⟩ := received
          simp only at ha
          subst ha
          rfl
        rw [hexchange]
        cases arrives with
        | false =>
          constructor
          · intro h
            cases h
          · rintro ⟨⟨-, h⟩, -⟩
            cases h
        | true =>
          rw [if_pos rfl, ok_bind, Option.some.injEq, hverify]
          constructor
          · rintro ⟨htaken, hid⟩
            exact ⟨⟨htaken, rfl⟩, hid⟩
          · rintro ⟨⟨htaken, -⟩, hid⟩
            exact ⟨htaken, hid⟩

/-- After a run of rounds the key's message has been accepted where it had been before, or
some round of it gets through. -/
theorem mem_acceptedIds_run (hs : Keyed L near far bytes key s) {rounds : List Round}
    (hclear : ∀ r ∈ rounds, Clear L near bytes key r)
    (hleaves : Along (rounding L near bytes key) (LeavesKey L key) s rounds)
    (hcard : (run (rounding L near bytes key) s rounds).acceptedIds.toFinset.card ≤ remembered) :
    messageIdOf key ∈ (run (rounding L near bytes key) s rounds).acceptedIds ↔
      messageIdOf key ∈ s.acceptedIds ∨ ∃ r ∈ rounds, GetsThrough L near far bytes key r := by
  refine Delivery.run_iff_exists (P := fun s' => messageIdOf key ∈ s'.acceptedIds)
    (Delivery.along_of_invariant (Keyed L near far bytes key) ?_ hs
      (((Delivery.along_of_forall hclear).and hleaves).and
        (Delivery.along_subset acceptedIds_rounding s rounds)))
  rintro s' r hs' ⟨⟨hc, hl⟩, hsub⟩
  exact ⟨mem_acceptedIds_rounding hL hnear hs' hc hl,
    hs'.rounding (hnear.oneForAll hL) hc hl hcard
      fun id hid => List.mem_toFinset.mpr (hsub hid)⟩

/-- When a keyed delivery retried succeeds.  Between two ends that are well formed, the far one
with nothing remembered and a signer that never fails, over a network that may lose any request
and any answer, beside other traffic that does not come to accept the key's id and accepts fewer
other ids than are remembered, with whatever verdicts: the key's message has been accepted,
and exactly once, where some attempt reached the far end, was taken there and met a way of
receiving that accepts, and only there; and an attempt returns that it was delivered exactly
where it reached the far end and was taken there, its answer arrived, and it or an attempt
before it got through so.  No attempt's boundary occurs in what it separates. -/
theorem retry_succeeds_iff (hids : far.receipting.ids = [])
    (hsigns : far.receipting.signer.Signs) (rounds : List Round)
    (hclear : ∀ r ∈ rounds, Clear L near bytes key r)
    (hothers : Along (rounding L near bytes key) (LeavesKey L key) (.fresh far) rounds)
    (hfew : ((run (rounding L near bytes key) (.fresh far) rounds).acceptedIds.toFinset.erase
      (messageIdOf key)).card < remembered) :
    ((∃! i, (run (rounding L near bytes key) (.fresh far) rounds).acceptedAt key i) ↔
      ∃ r ∈ rounds, GetsThrough L near far bytes key r) ∧
    ∀ pre r post, rounds = pre ++ r :: post →
      ((rounding L near bytes key (run (rounding L near bytes key) (.fresh far) pre) r).2 =
          some (.ok ()) ↔
        ComesBack L near far bytes key r ∧
          ∃ r' ∈ pre ++ [r], GetsThrough L near far bytes key r') := by
  have hfresh : Keyed L near far bytes key (.fresh far) := .of_fresh hids hsigns
  have hall : OneForAll L near far bytes key := hnear.oneForAll hL
  have hcard : (run (rounding L near bytes key) (.fresh far) rounds).acceptedIds.toFinset.card ≤
      remembered := by
    have hpred := Finset.pred_card_le_card_erase (a := messageIdOf key)
      (s := (run (rounding L near bytes key) (.fresh far) rounds).acceptedIds.toFinset)
    omega
  have hnone : messageIdOf key ∉ (FarEnd.fresh far).acceptedIds := List.not_mem_nil
  -- By each point of the rounds the message has been accepted where one got through by then.
  have hby : ∀ pre post, rounds = pre ++ post →
      (messageIdOf key ∈ (run (rounding L near bytes key) (.fresh far) pre).acceptedIds ↔
        ∃ r ∈ pre, GetsThrough L near far bytes key r) := by
    rintro pre post rfl
    rw [mem_acceptedIds_run hL hnear hfresh
      (fun r hr => hclear r (List.mem_append_left _ hr))
      ((Delivery.along_append _ _ _ _).mp hothers).1, or_iff_right hnone]
    refine le_trans (Finset.card_le_card ?_) hcard
    intro id hid
    rw [List.mem_toFinset] at hid ⊢
    rw [Delivery.run_append]
    exact Delivery.run_subset acceptedIds_rounding _ post hid
  refine ⟨?_, ?_⟩
  · have hfinal : Keyed L near far bytes key
        (run (rounding L near bytes key) (.fresh far) rounds) :=
      hfresh.before hall hclear hothers hcard (List.append_nil rounds).symm
    rw [← hby rounds [] (List.append_nil rounds).symm]
    constructor
    · rintro ⟨i, hi, -⟩
      exact mem_acceptedIds_iff_acceptedAt.mpr ⟨i, hi⟩
    · exact hfinal.existsUnique_acceptedAt
  · intro pre r post hrounds
    have hrounds' : rounds = (pre ++ [r]) ++ post := by
      rw [hrounds, List.append_assoc]
      rfl
    have hmem : r ∈ rounds := by
      rw [hrounds]
      exact List.mem_append_right _ (List.mem_cons_self ..)
    have hstate : Keyed L near far bytes key
        (run (rounding L near bytes key) (.fresh far) pre) :=
      hfresh.before hall hclear hothers hcard hrounds
    rw [rounding_ok_iff hL hnear hstate (hclear r hmem), ← hby _ _ hrounds',
      Delivery.run_append, Delivery.run_cons, Delivery.run_nil]

end Rounds

/-- The order gets through at once, and its sender is told at the second attempt. -/
theorem retry_succeeds_iff_order :
    (∃! i, (run (rounding bench buyer goods "order") (.fresh seller) retried).acceptedAt "order"
      i) ∧
    (rounding bench buyer goods "order" (run (rounding bench buyer goods "order") (.fresh seller)
      [sendOrder 1 false]) (sendOrder 2 true)).2 = some (.ok ()) := by
  have hnear : Wellformed bench buyer seller :=
    ⟨by decide, by decide, by decide, by decide, unsigned_leaves bench _, fun _ _ _ _ _ _ => rfl,
      unsigned_leaves bench _, fun _ _ _ _ _ => rfl⟩
  have htaken : ∀ tick, TakenAt bench buyer seller goods "order" (moment tick) "" (moment tick) :=
    fun tick => ⟨_, _, _, posting_order tick, rfl⟩
  have hclear : ∀ r ∈ retried, Clear bench buyer goods "order" r := by
    have hsend : ∀ tick arrives, Clear bench buyer goods "order" (sendOrder tick arrives) := by
      intro tick arrives endpoint message request signed hposting hsign
      rw [posting_order] at hposting
      cases hposting
      cases hsign
      exact order_absent tick
    intro r hr
    simp only [retried, List.mem_cons, List.not_mem_nil, or_false] at hr
    rcases hr with rfl | rfl
    · exact hsend 1 false
    · exact hsend 2 true
  have hfew : ((run (rounding bench buyer goods "order") (.fresh seller)
      retried).acceptedIds.toFinset.erase (messageIdOf "order")).card < remembered := by
    have hids : FarEnd.acceptedIds ⟨seller.remembering [order.messageId], [acceptedOrder true]⟩ =
        [messageIdOf "order"] := rfl
    have hnone : [messageIdOf "order"].toFinset.erase (messageIdOf "order") = ∅ := by
      simp
    rw [run_retried, hids, hnone, Finset.card_empty]
    exact Receipting.remembered_pos
  obtain ⟨honce, htold⟩ := retry_succeeds_iff bench_lawful hnear rfl unsigned_signs retried
    hclear ⟨trivial, trivial, trivial⟩ hfew
  have hfirst : GetsThrough bench buyer seller goods "order" (sendOrder 1 false) :=
    ⟨htaken 1, trivial⟩
  refine ⟨honce.mpr ⟨sendOrder 1 false, List.mem_cons_self .., hfirst⟩, ?_⟩
  exact (htold [sendOrder 1 false] (sendOrder 2 true) [] rfl).mpr
    ⟨⟨htaken 2, rfl⟩, sendOrder 1 false, List.mem_cons_self .., hfirst⟩

end As4
