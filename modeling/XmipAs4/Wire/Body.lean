import XmipAs4.Model.Transport

/-!
# Bodies read back

An envelope that travels alone reads back as it is.  Of an envelope with attachments,
the envelope reads back and what becomes of the attachments depends on the attachments
only: not on the envelope beside them nor on the boundary between them.  Where their
content ids may be written in angle brackets they come back as they were.
-/

namespace As4

open Multipart (Bytes Part Param asBytes isToken isQuotable isBoundary isContentId contentTypeText
  paramText Absent)

/-! ## Content types -/

/-- The content type of a lone envelope, parameter by parameter. -/
theorem soap_text : Mime.soap = contentTypeText soapType [⟨"charset", "utf-8", false⟩] := rfl

/-- The content type of an envelope with attachments, parameter by parameter. -/
theorem related_text (boundary : String) :
    Mime.related boundary = contentTypeText "multipart/related"
      [⟨"boundary", boundary, true⟩, ⟨"type", soapType, true⟩,
        ⟨"start", "<" ++ rootCid ++ ">", true⟩] := by
  have hb : "multipart/related; boundary=\"" =
      "multipart/related" ++ ("; " ++ ("boundary" ++ ("=" ++ "\""))) := rfl
  have ht : "\"; type=\"" = "\"" ++ ("; " ++ ("type" ++ ("=" ++ "\""))) := rfl
  have hs : "\"; start=\"<" = "\"" ++ ("; " ++ ("start" ++ ("=" ++ ("\"" ++ "<")))) := rfl
  have he : ">\"" = ">" ++ "\"" := rfl
  unfold Mime.related contentTypeText
  rw [hb, ht, hs, he]
  simp only [paramText, Param.written, if_true, String.append_assoc, String.append_empty]

/-- A boundary may stand in quotation marks. -/
theorem isQuotable_of_isBoundary {b : String} (h : isBoundary b = true) : isQuotable b = true := by
  rw [isBoundary, Bool.and_eq_true, List.all_eq_true] at h
  rw [isQuotable, List.all_eq_true]
  intro c hc
  have hchar := h.2 c hc
  simp only [List.contains_eq_mem, List.mem_cons, List.not_mem_nil, or_false, Bool.not_eq_true',
    decide_eq_false_iff_not, not_or]
  refine ⟨?_, ?_, ?_, ?_⟩ <;> rintro rfl <;> exact absurd hchar (by decide)

variable {L : Estate} (hL : L.Lawful)
include hL

/-- A lone envelope's content type names no boundary. -/
theorem parameter_soap : L.mime.parameter Mime.soap "boundary" = none := by
  rw [soap_text, hL.mime.parameter_of soapType _ "boundary" (by decide) (by decide) (by decide)]
  rfl

/-- A lone envelope's content type is that of an envelope part. -/
theorem isEnvelope_soap : Mime.isEnvelope L Mime.soap = true := by
  rw [Mime.isEnvelope, soap_text, hL.mime.mediaType_of soapType _ (by decide) (by decide)]
  decide

omit hL in
/-- The parameters of an envelope with attachments are written so that they can be read. -/
theorem wf_related {b : String} (hb : isBoundary b = true) :
    ∀ p ∈ [⟨"boundary", b, true⟩, ⟨"type", soapType, true⟩,
      (⟨"start", "<" ++ rootCid ++ ">", true⟩ : Param)], p.wf = true := by
  have hstart : Param.wf ⟨"start", "<" ++ rootCid ++ ">", true⟩ = true := by decide
  have htype : Param.wf ⟨"type", soapType, true⟩ = true := by decide
  have hname : isToken "boundary" = true := by decide
  intro p hp
  simp only [List.mem_cons, List.not_mem_nil, or_false] at hp
  rcases hp with rfl | rfl | rfl
  · simp [Param.wf, hname, isQuotable_of_isBoundary hb]
  · exact htype
  · exact hstart

/-- The content type of an envelope with attachments names their boundary. -/
theorem parameter_related {b : String} (hb : isBoundary b = true) :
    L.mime.parameter (Mime.related b) "boundary" = some b := by
  rw [related_text, hL.mime.parameter_of _ _ "boundary" (by decide) (wf_related hb) (by decide)]
  rfl

/-- The content type of an envelope with attachments says which part is the envelope. -/
theorem parameter_start {b : String} (hb : isBoundary b = true) :
    L.mime.parameter (Mime.related b) "start" = some ("<" ++ rootCid ++ ">") := by
  rw [related_text, hL.mime.parameter_of _ _ "start" (by decide) (wf_related hb) (by decide)]
  rfl

/-- The media type of an envelope with attachments. -/
theorem mediaType_related {b : String} (hb : isBoundary b = true) :
    L.mime.mediaType (Mime.related b) = "multipart/related" := by
  rw [related_text, hL.mime.mediaType_of _ _ (by decide) (wf_related hb)]

/-! ## A lone envelope -/

omit hL in
/-- An envelope's bytes are its text. -/
theorem envelopeText_asBytes (envelope : String) :
    Mime.envelopeText L (asBytes envelope) = .ok envelope := by
  rw [Mime.envelopeText, Multipart.fromUtf8_asBytes, okOr_some]

/-- An envelope that travels alone reads back as it is. -/
theorem unpack_soap (envelope : String) :
    Mime.unpack L Mime.soap (asBytes envelope) = .ok (envelope, []) := by
  rw [Mime.unpack, parameter_soap hL]
  simp only
  rw [if_pos (isEnvelope_soap hL), envelopeText_asBytes, ok_bind]

/-- The envelope of an answer reads back off the answer. -/
theorem unpack_answer (now : Moment) (status : ℕ) (envelope : String) :
    Mime.unpack L ((L.headerValue (soap L now status envelope).headers "Content-Type").getD "")
      (soap L now status envelope).body = .ok (envelope, []) := by
  have hheader : L.headerValue (soap L now status envelope).headers "Content-Type" =
      some Mime.soap := hL.headerValue_of [] "Content-Type" Mime.soap (by simp)
  rw [hheader]
  exact unpack_soap hL envelope

/-! ## An envelope with attachments -/

omit hL in
/-- Once the envelope is found, every part is an attachment. -/
theorem sort_some (envelope : String) (attachments : Attachments) (ps : List Part) :
    Mime.sort L (some envelope) attachments ps =
      .ok (some envelope,
        attachments ++ ps.map fun p => ((L.mime.contentId p).getD "", p.body)) := by
  induction ps generalizing attachments with
  | nil => rw [Mime.sort, List.map_nil, List.append_nil]
  | cons p ps ih =>
    rw [Mime.sort, if_neg (by simp), ih, List.map_cons, List.append_assoc]
    rfl

/-- The part of an attachment names it, where its content id may stand in angle brackets. -/
theorem contentId_part {cid contentType : String} {bytes : Bytes} (h : isContentId cid = true) :
    L.mime.contentId (Mime.part cid contentType bytes) = some cid := by
  refine hL.mime.contentId_of [("Content-Type", contentType),
    ("Content-Transfer-Encoding", "binary")] cid [] bytes ?_ h
  have htype : Multipart.folded "Content-Type" ≠ Multipart.folded "Content-ID" := by decide
  have hencoding : Multipart.folded "Content-Transfer-Encoding" ≠
      Multipart.folded "Content-ID" := by decide
  intro p hp
  simp only [List.mem_cons, List.not_mem_nil, or_false] at hp
  rcases hp with rfl | rfl
  · exact htype
  · exact hencoding

/-- The part of the envelope says what it is. -/
theorem contentType_part (cid contentType : String) (bytes : Bytes) :
    L.mime.contentType (Mime.part cid contentType bytes) = some contentType :=
  hL.mime.contentType_of [] contentType _ bytes (by simp)

omit hL in
/-- The envelope's own part has its headers on a line each. -/
theorem wf_rootPart (bytes : Bytes) : (Mime.part rootCid Mime.soap bytes).wf = true := by
  have hroot : Part.wf (Mime.part rootCid Mime.soap []) = true := by decide
  exact hroot

omit hL in
/-- The part of an attachment has its headers on a line each, where its content id may
stand in angle brackets. -/
theorem wf_part {cid : String} (h : isContentId cid = true) (bytes : Bytes) :
    (Mime.part cid "application/octet-stream" bytes).wf = true := by
  have hfixed : ∀ p ∈ [("Content-Type", "application/octet-stream"),
      ("Content-Transfer-Encoding", "binary")],
      (Multipart.isHeaderName p.1 && Multipart.isHeaderValue p.2) = true := by decide
  have hname : Multipart.isHeaderName "Content-ID" = true := by decide
  have hvalue : Multipart.isHeaderValue ("<" ++ cid ++ ">") = true := by
    have hchars : ("<" ++ cid ++ ">").toList = ('<' :: cid.toList) ++ ['>'] := by
      simp [String.toList_append]
    have hlast : (('<' :: cid.toList) ++ ['>']).getLast? = some '>' := List.getLast?_concat
    rw [isContentId, List.all_eq_true] at h
    have hline : ∀ c ∈ cid.toList, (c != '\r' && c != '\n') = true := by
      intro c hc
      have hc' := h c hc
      simp only [List.contains_eq_mem, List.mem_cons, List.not_mem_nil, or_false,
        Bool.not_eq_true', decide_eq_false_iff_not, not_or] at hc'
      simp [hc'.1, hc'.2.1]
    rw [Multipart.isHeaderValue, hchars, hlast]
    simp only [List.all_cons, List.all_append, List.all_eq_true.mpr hline, List.all_nil,
      List.cons_append, List.head?_cons]
    decide
  simp only [Part.wf, Mime.part, Part.header, Part.new, List.nil_append, List.cons_append,
    List.all_cons, List.all_nil, hname, hvalue, hfixed _ (List.mem_cons_self ..),
    hfixed _ (List.mem_cons_of_mem _ (List.mem_cons_self ..)), Bool.and_self]

/-- An attachment as the part it is written as. -/
def octets (a : String × Bytes) : Part :=
  Mime.part a.1 "application/octet-stream" a.2

/-- What becomes of attachments that are carried part by part. -/
def received (L : Estate) (carry : Part → Except String Part) (attachments : Attachments) :
    Result Attachments :=
  match (attachments.map octets).mapM carry with
  | .ok ps => .ok (ps.map fun p => ((L.mime.contentId p).getD "", p.body))
  | .error refusal => .error (L.protocolError refusal)

omit hL in
/-- Parts that are each carried as they are come back as they were. -/
theorem mapM_carry {carry : Part → Except String Part} {ps : List Part}
    (h : ∀ p ∈ ps, carry p = .ok p) : ps.mapM carry = .ok ps := by
  induction ps with
  | nil => rfl
  | cons p ps ih =>
    rw [List.mapM_cons, h p (List.mem_cons_self ..),
      ih fun q hq => h q (List.mem_cons_of_mem p hq)]
    rfl

/-- Attachments come back as they were where their content ids may be written. -/
theorem received_of_ids {carry : Part → Except String Part}
    (hcarry : ∀ p : Part, p.wf = true → carry p = .ok p) {attachments : Attachments}
    (hids : ∀ a ∈ attachments, isContentId a.1 = true) :
    received L carry attachments = .ok attachments := by
  have hall : (attachments.map octets).mapM carry = .ok (attachments.map octets) := by
    apply mapM_carry
    intro p hp
    obtain ⟨a, ha, rfl⟩ := List.mem_map.mp hp
    exact hcarry (octets a) (wf_part (hids a ha) a.2)
  have hback : (attachments.map octets).map
      (fun p => ((L.mime.contentId p).getD "", p.body)) = attachments := by
    rw [List.map_map]
    conv_rhs => rw [← List.map_id attachments]
    apply List.map_congr_left
    intro a ha
    rw [Function.comp_apply, octets, contentId_part hL (hids a ha), Option.getD_some]
    rfl
  rw [received, hall]
  simp only
  rw [hback]

/-- An attachment whose content id may be written is received as it is. -/
theorem received_one {carry : Part → Except String Part}
    (hcarry : ∀ p : Part, p.wf = true → carry p = .ok p) {cid : String}
    (hid : isContentId cid = true) (bytes : Bytes) :
    received L carry [(cid, bytes)] = .ok [(cid, bytes)] := by
  apply received_of_ids hL hcarry
  intro a ha
  rwa [List.mem_singleton.mp ha]

/-- Well-formed parts written between a boundary that occurs in none of them are read back. -/
theorem read_written {b : String} (hb : isBoundary b = true) {ps : List Part}
    (hwf : ∀ p ∈ ps, p.wf = true) (habsent : Absent b ps) :
    L.mime.read (L.mime.write b ps) b = .ok ps := by
  obtain ⟨carry, hcarry, hread⟩ := hL.mime.read_write
  rw [hread b ps hb habsent]
  exact mapM_carry fun p hp => hcarry p (hwf p hp)

/-- What is read of an envelope with attachments is the envelope, and what becomes of the
attachments by themselves. -/
theorem exists_carry :
    ∃ carry : Part → Except String Part, (∀ p : Part, p.wf = true → carry p = .ok p) ∧
      ∀ now envelope attachments, attachments ≠ [] →
        Absent now.boundary (Mime.parts envelope attachments) →
        Mime.unpack L (Mime.pack L now envelope attachments).1
            (Mime.pack L now envelope attachments).2 =
          received L carry attachments >>= fun carried => .ok (envelope, carried) := by
  obtain ⟨carry, hcarry, hread⟩ := hL.mime.read_write
  refine ⟨carry, hcarry, ?_⟩
  intro now envelope attachments hne habsent
  have hroot := hcarry _ (wf_rootPart (asBytes envelope))
  have hkind : Mime.isEnvelope L ((L.mime.contentType
      (Mime.part rootCid Mime.soap (asBytes envelope))).getD "") = true := by
    rw [contentType_part hL, Option.getD_some, isEnvelope_soap hL]
  rw [Mime.pack, if_neg (by simpa using hne)]
  simp only
  rw [Mime.unpack, parameter_related hL now.boundary_wf]
  simp only
  rw [hread _ _ now.boundary_wf habsent, Mime.parts, List.mapM_cons, hroot, received]
  have hmap : attachments.map (fun a => Mime.part a.1 "application/octet-stream" a.2) =
      attachments.map octets := rfl
  rw [hmap]
  cases hrest : (attachments.map octets).mapM carry with
  | error refusal => rfl
  | ok ps =>
    have hsort : Mime.sort L none [] (Mime.part rootCid Mime.soap (asBytes envelope) :: ps) =
        .ok (some envelope, ps.map fun p => ((L.mime.contentId p).getD "", p.body)) := by
      have hfirst : ((none : Option String).isNone && true) = true := rfl
      rw [Mime.sort, hkind, if_pos hfirst]
      change (Mime.envelopeText L (asBytes envelope) >>= _) = _
      rw [envelopeText_asBytes, ok_bind, sort_some, List.nil_append]
    change (Mime.sort L none [] (Mime.part rootCid Mime.soap (asBytes envelope) :: ps) >>= _) = _
    rw [hsort, ok_bind]
    rfl

end As4
