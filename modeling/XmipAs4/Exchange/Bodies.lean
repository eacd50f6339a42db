import XmipAs4.Reference.Bench
import XmipAs4.Wire.Determined

/-!
# What a body says, its bytes determine

An envelope with its attachments is one body under one content type.  Two bodies are the same
bytes under the same content type only where they carry the same envelope, saying the same,
and the same attachments, in the same order, between the same boundary.
-/

namespace As4

open Multipart (Absent isContentId isBoundary)

/-- The envelope and the attachments can be written as one body that is read back: the content
ids may stand in angle brackets, and the boundary occurs in none of the parts. -/
structure Packable (now : Moment) (envelope : String) (attachments : Attachments) : Prop where
  ids : ∀ a ∈ attachments, isContentId a.1 = true
  absent : attachments ≠ [] → Absent now.boundary (Mime.parts envelope attachments)

section Packing

variable {L : Estate} (hL : L.Lawful)
include hL

/-- What can be packed unpacks to what was packed. -/
theorem unpack_pack {now : Moment} {envelope : String} {attachments : Attachments}
    (h : Packable now envelope attachments) :
    Mime.unpack L (Mime.pack L now envelope attachments).1
      (Mime.pack L now envelope attachments).2 = .ok (envelope, attachments) := by
  by_cases hne : attachments = []
  · subst hne
    exact unpack_soap hL envelope
  · obtain ⟨carry, hwf, hpack⟩ := exists_carry hL
    rw [hpack now envelope attachments hne (h.absent hne), received_of_ids hL hwf h.ids, ok_bind]

/-- The content type of a body with attachments names the boundary between them. -/
theorem boundary_unique {now now' : Moment} {envelope envelope' : String}
    {attachments : Attachments} (hne : attachments ≠ [])
    (h : Mime.pack L now envelope attachments = Mime.pack L now' envelope' attachments) :
    now.boundary = now'.boundary := by
  rw [Mime.pack, Mime.pack, if_neg (by simpa using hne), if_neg (by simpa using hne),
    Prod.mk.injEq] at h
  have hread := parameter_related hL now.boundary_wf
  rw [h.1, parameter_related hL now'.boundary_wf, Option.some.injEq] at hread
  exact hread.symm

/-- Two bodies are the same under the same content type exactly where their envelopes say the
same and they carry the same attachments, between the same boundary where there are any. -/
theorem pack_eq_iff {a b : Document} {now now' : Moment} {attachments attachments' : Attachments}
    (h : Packable now (a.text L) attachments) (h' : Packable now' (b.text L) attachments') :
    Mime.pack L now (a.text L) attachments = Mime.pack L now' (b.text L) attachments' ↔
      a.saying = b.saying ∧ attachments = attachments' ∧
        (attachments ≠ [] → now.boundary = now'.boundary) := by
  constructor
  · intro heq
    have hread := unpack_pack hL h
    rw [heq, unpack_pack hL h', Except.ok.injEq, Prod.mk.injEq] at hread
    obtain ⟨htext, rfl⟩ := hread
    exact ⟨(Document.text_eq_iff hL.xml a b).mp htext.symm, rfl,
      fun hne => boundary_unique hL hne heq⟩
  · rintro ⟨hsaying, rfl, hboundary⟩
    rw [Document.text_of_saying hsaying, Mime.pack, Mime.pack]
    split_ifs with hempty
    · rfl
    · rw [hboundary (by simpa using hempty)]

end Packing

/-- The order under an agreement of no name, which is not the order under none. -/
def agreedOrder : UserMessage :=
  { order with agreement := some "" }

/-- The order's body is not the one it has under an agreement of no name. -/
theorem pack_eq_iff_order :
    Mime.pack bench (moment 0) ((Document.message order).text bench) [(order.payloadCid, goods)] ≠
      Mime.pack bench (moment 0) ((Document.message agreedOrder).text bench)
        [(order.payloadCid, goods)] := by
  have hids : ∀ a ∈ [(order.payloadCid, goods)], isContentId a.1 = true := by
    intro a ha
    rw [List.mem_singleton.mp ha]
    decide
  have hunmarked : unmarked agreedOrder.forest = true := unmarked_message (by decide)
  have horder : Packable (moment 0) ((Document.message order).text bench)
      [(order.payloadCid, goods)] := ⟨hids, fun _ => order_absent 0⟩
  have hagreed : Packable (moment 0) ((Document.message agreedOrder).text bench)
      [(order.payloadCid, goods)] := ⟨hids, fun _ => message_absent hunmarked (by decide) 0⟩
  rw [Ne, pack_eq_iff bench_lawful horder hagreed]
  rintro ⟨hsaying, -⟩
  injection hsaying with hmessage
  have hagreement := congrArg UserMessage.agreement hmessage
  cases hagreement

end As4
