import XmipAs4.Exchange.Gates
import XmipAs4.Exchange.Payload

/-!
# What is read and written again

Whatever an envelope holds, the message read off it names itself, its service and its action,
and its content id has lost every `cid:`.  Those are the messages that the writer keeps as they
are, so what was read and is written again reads as the same message; and those are the
messages that can be heard, on any path.
-/

namespace As4

open Multipart (Bytes isContentId Absent)

namespace UserMessage

/-- The message can be told from its own envelope: the three texts that must not be empty are
not, and nothing of its content id is taken off. -/
structure Legible (m : UserMessage) : Prop where
  messageId : m.messageId ≠ ""
  service : m.service ≠ ""
  action : m.action ≠ ""
  payloadCid : ¬ "cid:".toList <+: m.payloadCid.toList

end UserMessage

variable {L : Estate}

/-- A text that is required and was read is not empty. -/
theorem ne_of_required {user name s : String} (h : required L user name = .ok s) : s ≠ "" := by
  obtain ⟨text, -, h⟩ := bind_eq_ok h
  obtain ⟨-, hne⟩ := Option.filter_eq_some_iff.mp (okOr_eq_ok h)
  simpa using hne

namespace UserMessage

variable {m : UserMessage}

/-- Whatever is read off an envelope is legible. -/
theorem legible_of_read {envelope : String} (h : fromEnvelope L envelope = .ok m) :
    m.Legible := by
  obtain ⟨user, -, h⟩ := bind_eq_ok h
  have hread := fromElement_eq_ok.mp h
  obtain ⟨href, -, hcid⟩ := hread.reference
  refine ⟨ne_of_required hread.messageId, ne_of_required hread.service,
    ne_of_required hread.action, ?_⟩
  rw [hcid]
  exact (bare_withoutCid href).base_clean

/-- A legible message reads back off its own envelope as it is. -/
theorem read_of_legible (hX : L.xml.Lawful) (h : m.Legible) :
    fromEnvelope L (m.envelope L) = .ok m := by
  rw [m.fromEnvelope_envelope hX h.messageId h.service h.action, readBack_of_clean h.payloadCid]

/-- The messages that are read off some envelope are the legible ones. -/
theorem legible_iff (hX : L.xml.Lawful) :
    m.Legible ↔ ∃ envelope, fromEnvelope L envelope = .ok m := by
  constructor
  · intro h
    exact ⟨_, read_of_legible hX h⟩
  · rintro ⟨envelope, h⟩
    exact legible_of_read h

/-- Whatever envelope a message was read off, written again it reads as the same message. -/
theorem written_reads_back (hX : L.xml.Lawful) {envelope : String}
    (h : fromEnvelope L envelope = .ok m) : fromEnvelope L (m.envelope L) = .ok m :=
  read_of_legible hX (legible_of_read h)

/-- The message that was read off an envelope with one `cid:` too many, written again. -/
theorem written_reads_back_labelled :
    fromEnvelope bench (labelled.readBack.envelope bench) = .ok labelled.readBack :=
  written_reads_back bench_lawful.xml
    (labelled.fromEnvelope_envelope bench_lawful.xml (by decide) (by decide) (by decide))

end UserMessage

/-! ## Hearing -/

/-- What is heard as new is legible, and is what the request was read as. -/
theorem legible_of_heard {t : As4Transport} {now : Moment} {request : Request}
    {peer : SocketAddr} {m : UserMessage} {originUri : String} {bytes : Bytes} {sender : Sender}
    (h : t.hear L now request peer = .Waiting (.ok (some (m, originUri, bytes, sender)))) :
    m.Legible ∧ originUri = originOf request peer m := by
  obtain ⟨m', bytes', hunpack, -, -, hsaid⟩ := hear_waiting_iff.mp h
  cases hsaid
  obtain ⟨envelope, attachments, -, -, hread, -⟩ := unpack_eq_ok_iff.mp hunpack
  exact ⟨UserMessage.legible_of_read hread, rfl⟩

/-- For any parts there is a moment whose boundary occurs in none of them. -/
theorem exists_moment (now : Moment) (ps : List Multipart.Part) :
    ∃ later : Moment, Absent later.boundary ps := by
  obtain ⟨boundary, hwf, habsent⟩ := Multipart.exists_absent ps
  exact ⟨{ now with boundary := boundary, boundary_wf := hwf }, habsent⟩

/-- A legible message that is carried beside its payload is heard as new by whoever verifies
it, admits it and has not taken it. -/
theorem heard_of_carries (hX : L.xml.Lawful) {t : As4Transport} {now : Moment}
    {request : Request} {m : UserMessage} {bytes : Bytes} (hm : m.Legible)
    (hcarries : Carries L request (m.envelope L) [(m.payloadCid, bytes)])
    (hverify : t.receipting.signer.verify now (m.envelope L) [(m.payloadCid, bytes)] = .ok ())
    (hadmits : t.admits L now m bytes = .ok ()) (hnew : m.messageId ∉ t.receipting.ids)
    (peer : SocketAddr) :
    t.hear L now request peer =
      .Waiting (.ok (some (m, originOf request peer m, bytes, ⟨request, peer⟩))) := by
  have hfind : [(m.payloadCid, bytes)].find? (fun a => a.1 == m.payloadCid) =
      some (m.payloadCid, bytes) := by simp
  have hunpack : t.unpack L now request = .ok (m, bytes) :=
    unpack_eq_ok_iff.mpr ⟨_, _, hcarries, hverify, UserMessage.read_of_legible hX hm, hfind⟩
  exact (Hears.new hunpack hadmits hnew).eq_hear

/-- Every legible message with a content id that may be written is heard as new by some far
end, of a request to any path. -/
theorem exists_heard (hL : L.Lawful) (now : Moment) (path : String) (peer : SocketAddr)
    {m : UserMessage} (hm : m.Legible) (hcid : isContentId m.payloadCid = true)
    (bytes : Bytes) :
    ∃ (far : As4Transport) (request : Request), request.path = path ∧
      far.hear L now request peer =
        .Waiting (.ok (some (m, originOf request peer m, bytes, ⟨request, peer⟩))) := by
  obtain ⟨later, habsent⟩ :=
    exists_moment now (Mime.parts (m.envelope L) [(m.payloadCid, bytes)])
  have hcarries := carries_packed_one hL ⟨path, ""⟩ hcid habsent
  have hadmits : (As4Transport.new now "" m.toParty "").admits L now m bytes = .ok () :=
    As4Transport.admits_unchecked L _ rfl rfl
  exact ⟨As4Transport.new now "" m.toParty "", _, rfl,
    heard_of_carries hL.xml hm hcarries rfl hadmits List.not_mem_nil peer⟩

/-! ## On the bench -/

/-- The order is legible. -/
theorem legible_order : order.Legible :=
  ⟨by decide, by decide, by decide, by decide⟩

/-- The request that carries a message and the goods. -/
def requestOf (m : UserMessage) : Request :=
  packed bench (moment 0) ⟨"/msh", "as4://bench/msh"⟩ (m.envelope bench) [(m.payloadCid, goods)]

theorem path_requestOf (m : UserMessage) : (requestOf m).path = "/msh" := rfl

/-- The seller hears as new whatever legible message is for it. -/
theorem seller_hears {m : UserMessage} (hm : m.Legible) (hto : m.toParty = "Seller")
    (hunmarked : unmarked m.forest = true)
    (hcid : unmarkedAttachment (m.payloadCid, goods) = true) :
    seller.hear bench (moment 1) (requestOf m) "peer" = .Waiting (.ok (some (m,
      originOf (requestOf m) "peer" m, goods, ⟨requestOf m, "peer"⟩))) := by
  have hcarries : Carries bench (requestOf m) (m.envelope bench) [(m.payloadCid, goods)] :=
    message_carried hunmarked (by simp) (List.forall_mem_singleton.mpr hcid) 0 _
  have hadmits : seller.admits bench (moment 1) m goods = .ok () :=
    seller.admits_unchecked bench hto rfl
  exact heard_of_carries bench_lawful.xml hm hcarries rfl hadmits List.not_mem_nil "peer"

end As4
