import XmipAs4.Reference.Bench

/-!
# The root part

A `multipart/related` says in its `start` parameter which part is its root, and `pack`
writes the parameter.  `unpack` does not read it: it takes the first part of an envelope's
media type.  So the root is read as the envelope exactly where no part before it is of such
a type, as an XML payload is.
-/

namespace As4

open Multipart (Bytes Part asBytes fromUtf8 Absent)

variable {L : Estate}

/-! ## The loop over the parts -/

/-- A part as the attachment it is read as. -/
def attached (L : Estate) (p : Part) : String × Bytes :=
  ((L.mime.contentId p).getD "", p.body)

/-- Whether the part is of a media type an envelope is written in. -/
def isEnvelopePart (L : Estate) (p : Part) : Bool :=
  Mime.isEnvelope L ((L.mime.contentType p).getD "")

/-- Parts that are of no envelope's type are attachments, and the envelope is still to
come. -/
theorem sort_none_append {ps : List Part} (hps : ∀ p ∈ ps, isEnvelopePart L p = false)
    (attachments : Attachments) (rest : List Part) :
    Mime.sort L none attachments (ps ++ rest) =
      Mime.sort L none (attachments ++ ps.map (attached L)) rest := by
  induction ps generalizing attachments with
  | nil => rw [List.nil_append, List.map_nil, List.append_nil]
  | cons p ps ih =>
    have hp : ¬ ((none : Option String).isNone &&
        Mime.isEnvelope L ((L.mime.contentType p).getD "")) = true :=
      Bool.eq_false_iff.mp (hps p (List.mem_cons_self ..))
    rw [List.cons_append, Mime.sort, if_neg hp,
      ih fun q hq => hps q (List.mem_cons_of_mem p hq), List.map_cons, List.append_assoc]
    rfl

/-- The first part of an envelope's type is the envelope, and all after it attachments. -/
theorem sort_none_cons {p : Part} (hp : isEnvelopePart L p = true) (attachments : Attachments)
    (rest : List Part) :
    Mime.sort L none attachments (p :: rest) = Mime.envelopeText L p.body >>= fun text =>
      .ok (some text, attachments ++ rest.map (attached L)) := by
  have hfirst : ((none : Option String).isNone &&
      Mime.isEnvelope L ((L.mime.contentType p).getD "")) = true := hp
  rw [Mime.sort, if_pos hfirst]
  cases Mime.envelopeText L p.body with
  | error e => rfl
  | ok text => exact sort_some text attachments rest

/-- What is unpacked of parts is the first of an envelope's type as the envelope, and the
rest in order. -/
theorem unpack_first {contentType boundary : String} {body : Bytes} {before rest : List Part}
    {p : Part} (hboundary : L.mime.parameter contentType "boundary" = some boundary)
    (hread : L.mime.read body boundary = .ok (before ++ p :: rest))
    (hbefore : ∀ q ∈ before, isEnvelopePart L q = false) (hp : isEnvelopePart L p = true) :
    Mime.unpack L contentType body = Mime.envelopeText L p.body >>= fun text =>
      .ok (text, (before ++ rest).map (attached L)) := by
  rw [Mime.unpack, hboundary]
  simp only
  rw [hread]
  change (Mime.sort L none [] (before ++ p :: rest) >>= _) = _
  rw [sort_none_append hbefore, sort_none_cons hp, List.nil_append, ← List.map_append]
  cases Mime.envelopeText L p.body <;> rfl

/-! ## The root -/

/-- The body is a multipart whose `start` names one of its parts and no other, and that part
is an envelope: of such a media type, and text.  A part without a content id is named by the
empty one, as `unpack` has it. -/
structure Rooted (L : Estate) (contentType : String) (body : Bytes) (before : List Part)
    (root : Part) (after : List Part) (text : String) : Prop where
  media : L.mime.mediaType contentType = "multipart/related"
  parts : ∃ boundary, L.mime.parameter contentType "boundary" = some boundary ∧
    L.mime.read body boundary = .ok (before ++ root :: after)
  start : ∃ cid, (L.mime.parameter contentType "start" = some ("<" ++ cid ++ ">") ∨
      L.mime.parameter contentType "start" = some cid) ∧
    L.mime.contentId root = some cid ∧
    ∀ p ∈ before ++ after, (L.mime.contentId p).getD "" ≠ cid
  envelope : isEnvelopePart L root = true
  utf8 : fromUtf8 root.body = some text

/-- Of the parts of an envelope's type there is a first, if there are any. -/
theorem exists_first {ps : List Part} (h : ∃ p ∈ ps, isEnvelopePart L p = true) :
    ∃ before p after, ps = before ++ p :: after ∧
      (∀ q ∈ before, isEnvelopePart L q = false) ∧ isEnvelopePart L p = true := by
  obtain ⟨p, hp⟩ := Option.isSome_iff_exists.mp (List.find?_isSome.mpr h)
  obtain ⟨hfirst, before, after, hsplit, hbefore⟩ := List.find?_eq_some_iff_append.mp hp
  refine ⟨before, p, after, hsplit, ?_, hfirst⟩
  intro q hq
  exact (Bool.not_eq_true' _).mp (hbefore q hq)

section Root

variable {contentType text : String} {body : Bytes} {before after : List Part} {root : Part}

/-- Where no part before the root is of an envelope's type, the root is the envelope and the
others are the attachments. -/
theorem unpack_root (h : Rooted L contentType body before root after text)
    (hbefore : ∀ p ∈ before, isEnvelopePart L p = false) :
    Mime.unpack L contentType body = .ok (text, (before ++ after).map (attached L)) := by
  obtain ⟨boundary, hboundary, hread⟩ := h.parts
  rw [unpack_first hboundary hread hbefore h.envelope, Mime.envelopeText, h.utf8, okOr_some,
    ok_bind]

/-- Where a part before the root is of an envelope's type, the root is an attachment. -/
theorem unpack_ne_root (h : Rooted L contentType body before root after text)
    (hbefore : ∃ p ∈ before, isEnvelopePart L p = true) :
    Mime.unpack L contentType body ≠ .ok (text, (before ++ after).map (attached L)) := by
  obtain ⟨boundary, hboundary, hread⟩ := h.parts
  obtain ⟨cid, -, hcid, hothers⟩ := h.start
  obtain ⟨first, p, between, rfl, hfirst, hp⟩ := exists_first hbefore
  have hsplit : first ++ p :: between ++ root :: after =
      first ++ p :: (between ++ root :: after) := by simp
  rw [hsplit] at hread
  rw [unpack_first hboundary hread hfirst hp]
  intro hunpack
  obtain ⟨text', -, heq⟩ := bind_eq_ok hunpack
  rw [Except.ok.injEq, Prod.mk.injEq] at heq
  -- The root's content id is then that of another part.
  have hroot : attached L root ∈ (first ++ p :: between ++ after).map (attached L) := by
    rw [← heq.2]
    apply List.mem_map_of_mem
    simp
  obtain ⟨q, hq, hqroot⟩ := List.mem_map.mp hroot
  apply hothers q hq
  have hname := congrArg Prod.fst hqroot
  rw [attached, attached, hcid] at hname
  exact hname

/-- The part that `start` names is read as the envelope, and all others in order as
attachments, exactly where no part before it is of a media type an envelope is written in. -/
theorem root_is_envelope_iff (h : Rooted L contentType body before root after text) :
    Mime.unpack L contentType body = .ok (text, (before ++ after).map (attached L)) ↔
      ∀ p ∈ before, isEnvelopePart L p = false := by
  constructor
  · intro hunpack p hp
    by_contra henvelope
    exact unpack_ne_root h ⟨p, hp, Bool.eq_true_of_not_eq_false henvelope⟩ hunpack
  · exact unpack_root h

end Root

/-! ## An invoice in XML -/

/-- The root part of the order's envelope. -/
def orderRoot : Part :=
  Mime.part rootCid Mime.soap (asBytes (order.envelope bench))

/-- An attachment that is an XML document and says so. -/
def invoice : Part :=
  Mime.part "invoice@xmip" "text/xml" (asBytes "<Invoice/>")

/-- The body that carries the parts, under the content type that `pack` writes. -/
def relatedBody (ps : List Part) : Bytes :=
  bench.mime.write (moment 0).boundary ps

/-- On the bench, a part is an envelope where the media type it was given is of one. -/
theorem isEnvelopePart_part (cid contentType : String) (bytes : Bytes) :
    isEnvelopePart bench (Mime.part cid contentType bytes) =
      Mime.isEnvelope bench contentType := by
  rw [isEnvelopePart, contentType_part bench_lawful, Option.getD_some]

/-- The part of an envelope is an envelope. -/
theorem isEnvelopePart_root (bytes : Bytes) :
    isEnvelopePart bench (Mime.part rootCid Mime.soap bytes) = true := by
  rw [isEnvelopePart_part]
  exact isEnvelope_soap bench_lawful

/-- A root part and another part have their headers on a line each where the other has. -/
theorem wf_rooted (bytes : Bytes) {other : Part} (hother : other.wf = true) :
    ∀ p ∈ [Mime.part rootCid Mime.soap bytes, other], p.wf = true :=
  List.forall_mem_cons.mpr ⟨wf_rootPart bytes, List.forall_mem_singleton.mpr hother⟩

/-- The boundary occurs neither in the root nor in the invoice. -/
theorem root_invoice_absent :
    ∀ p ∈ [orderRoot, invoice], Absent (moment 0).boundary [p] := by
  intro p hp
  simp only [List.mem_cons, List.not_mem_nil, or_false] at hp
  rcases hp with rfl | rfl
  · exact message_root_absent unmarked_order 0
  · exact part_absent (by decide) (by decide) (by decide) 0

/-- Wherever the invoice stands, before the root or after it, the body is rooted. -/
theorem rooted_order (before after : List Part) (h : before ++ after = [invoice]) :
    Rooted bench (Mime.related (moment 0).boundary) (relatedBody (before ++ orderRoot :: after))
      before orderRoot after (order.envelope bench) := by
  have hparts : ∀ p ∈ before ++ orderRoot :: after, p ∈ [orderRoot, invoice] := by
    intro p hp
    have hp' : p = orderRoot ∨ p ∈ before ++ after := by
      simp only [List.mem_append, List.mem_cons] at hp ⊢
      tauto
    rw [h] at hp'
    exact List.mem_cons.mpr hp'
  have hwf : ∀ p ∈ [orderRoot, invoice], p.wf = true := wf_rooted _ (by decide)
  have hb := (moment 0).boundary_wf
  refine ⟨mediaType_related bench_lawful hb, ⟨_, parameter_related bench_lawful hb, ?_⟩, ?_, ?_,
    Multipart.fromUtf8_asBytes _⟩
  · apply read_written bench_lawful hb
    · intro p hp
      exact hwf p (hparts p hp)
    · intro p hp
      exact root_invoice_absent p (hparts p hp) p (List.mem_singleton.mpr rfl)
  · refine ⟨rootCid, .inl (parameter_start bench_lawful hb), ?_, ?_⟩
    · exact contentId_part bench_lawful (by decide)
    · rw [h]
      intro p hp
      have hne : "invoice@xmip" ≠ rootCid := by decide
      rw [List.mem_singleton.mp hp, invoice, contentId_part bench_lawful (by decide)]
      exact hne
  · exact isEnvelopePart_root _

/-- The invoice is of a media type an envelope is written in. -/
theorem isEnvelopePart_invoice : isEnvelopePart bench invoice = true := by
  have htype : Mime.isEnvelope bench "text/xml" = true := by decide
  rw [invoice, isEnvelopePart_part]
  exact htype

/-- The order's envelope is read where the invoice comes after it. -/
theorem root_is_envelope_invoice_last :
    Mime.unpack bench (Mime.related (moment 0).boundary) (relatedBody [orderRoot, invoice]) =
      .ok (order.envelope bench, [attached bench invoice]) :=
  (root_is_envelope_iff (rooted_order [] [invoice] rfl)).mpr (by simp)

/-- Where the invoice comes first it is read as the envelope, though `start` names the
other. -/
theorem invoice_is_envelope :
    Rooted bench (Mime.related (moment 0).boundary) (relatedBody [invoice, orderRoot])
      [invoice] orderRoot [] (order.envelope bench) ∧
    Mime.unpack bench (Mime.related (moment 0).boundary) (relatedBody [invoice, orderRoot]) =
      .ok ("<Invoice/>", [attached bench orderRoot]) ∧
    Mime.unpack bench (Mime.related (moment 0).boundary) (relatedBody [invoice, orderRoot]) ≠
      .ok (order.envelope bench, [attached bench invoice]) := by
  have hrooted := rooted_order [invoice] [] rfl
  refine ⟨hrooted, ?_, unpack_ne_root hrooted ⟨invoice, List.mem_cons_self, ?_⟩⟩
  · obtain ⟨boundary, hboundary, hread⟩ := hrooted.parts
    have hread' : bench.mime.read (relatedBody [invoice, orderRoot]) boundary =
        .ok ([] ++ invoice :: [orderRoot]) := hread
    have htext : Mime.envelopeText bench invoice.body = .ok "<Invoice/>" :=
      envelopeText_asBytes "<Invoice/>"
    rw [unpack_first hboundary hread' (by simp) isEnvelopePart_invoice, htext, ok_bind]
    rfl
  · exact isEnvelopePart_invoice

end As4
