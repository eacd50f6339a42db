import XmipAs4.Exchange.RootPart

/-!
# What a body is unpacked to

Every way a body can be read under its content type: as an envelope alone, as parts of which
the first of an envelope's type is the envelope and all others, in the order they stand, are
attachments, or as neither, each with what is refused.  There is no other.

So it does not matter where in a multipart the attachments stand that are of no envelope's type.
-/

namespace As4

open Multipart (Bytes Part fromUtf8)

/-- The rules of unpacking, by what the content type says and what there is to read. -/
inductive Unpacks (L : Estate) (contentType : String) (body : Bytes) :
    Result (String × Attachments) → Prop where
  /-- There is no boundary, and the body is an envelope. -/
  | alone {text : String} (hboundary : L.mime.parameter contentType "boundary" = none)
      (hkind : Mime.isEnvelope L contentType = true) (htext : fromUtf8 body = some text) :
      Unpacks L contentType body (.ok (text, []))
  /-- There is no boundary, and the body is of an envelope's type and no text. -/
  | aloneIllegible (hboundary : L.mime.parameter contentType "boundary" = none)
      (hkind : Mime.isEnvelope L contentType = true) (htext : fromUtf8 body = none) :
      Unpacks L contentType body (.error (L.protocolError
        ("a SOAP envelope that is not UTF-8 text: " ++ L.utf8Error body)))
  /-- There is no boundary, and the body is of another type. -/
  | neither (hboundary : L.mime.parameter contentType "boundary" = none)
      (hkind : Mime.isEnvelope L contentType = false) :
      Unpacks L contentType body (.error (L.protocolError
        ("a body that is neither SOAP nor multipart/related: " ++ contentType)))
  /-- There are no parts to be read between the boundary. -/
  | unreadable {boundary refusal : String}
      (hboundary : L.mime.parameter contentType "boundary" = some boundary)
      (hread : L.mime.read body boundary = .error refusal) :
      Unpacks L contentType body (.error (L.protocolError refusal))
  /-- No part is of an envelope's type. -/
  | hollow {boundary : String} {parts : List Part}
      (hboundary : L.mime.parameter contentType "boundary" = some boundary)
      (hread : L.mime.read body boundary = .ok parts)
      (hparts : ∀ p ∈ parts, isEnvelopePart L p = false) :
      Unpacks L contentType body
        (.error (L.protocolError "a multipart with no SOAP envelope in it"))
  /-- The first part of an envelope's type is no text. -/
  | illegible {boundary : String} {before after : List Part} {p : Part}
      (hboundary : L.mime.parameter contentType "boundary" = some boundary)
      (hread : L.mime.read body boundary = .ok (before ++ p :: after))
      (hbefore : ∀ q ∈ before, isEnvelopePart L q = false) (hp : isEnvelopePart L p = true)
      (htext : fromUtf8 p.body = none) :
      Unpacks L contentType body (.error (L.protocolError
        ("a SOAP envelope that is not UTF-8 text: " ++ L.utf8Error p.body)))
  /-- The first part of an envelope's type is the envelope, and every other an attachment. -/
  | related {boundary text : String} {before after : List Part} {p : Part}
      (hboundary : L.mime.parameter contentType "boundary" = some boundary)
      (hread : L.mime.read body boundary = .ok (before ++ p :: after))
      (hbefore : ∀ q ∈ before, isEnvelopePart L q = false) (hp : isEnvelopePart L p = true)
      (htext : fromUtf8 p.body = some text) :
      Unpacks L contentType body (.ok (text, (before ++ after).map (attached L)))

variable {L : Estate} {contentType : String} {body : Bytes}

/-- Bytes are an envelope's text, or refused. -/
theorem envelopeText_of_fromUtf8 {bytes : Bytes} {text : Option String}
    (h : fromUtf8 bytes = text) :
    Mime.envelopeText L bytes = okOr text
      (L.protocolError ("a SOAP envelope that is not UTF-8 text: " ++ L.utf8Error bytes)) := by
  rw [Mime.envelopeText, h]

/-- Parts none of which is of an envelope's type are all attachments, and no envelope. -/
theorem unpack_hollow {boundary : String} {parts : List Part}
    (hboundary : L.mime.parameter contentType "boundary" = some boundary)
    (hread : L.mime.read body boundary = .ok parts)
    (hparts : ∀ p ∈ parts, isEnvelopePart L p = false) :
    Mime.unpack L contentType body =
      .error (L.protocolError "a multipart with no SOAP envelope in it") := by
  have hsort := sort_none_append hparts [] []
  rw [List.append_nil] at hsort
  rw [Mime.unpack, hboundary]
  simp only
  rw [hread]
  change (Mime.sort L none [] parts >>= _) = _
  rw [hsort]
  rfl

/-- What a rule gives is what is unpacked. -/
theorem Unpacks.eq {r : Result (String × Attachments)} (h : Unpacks L contentType body r) :
    Mime.unpack L contentType body = r := by
  cases h with
  | alone hboundary hkind htext =>
    rw [Mime.unpack, hboundary]
    simp only
    rw [if_pos hkind, envelopeText_of_fromUtf8 htext, okOr_some, ok_bind]
  | aloneIllegible hboundary hkind htext =>
    rw [Mime.unpack, hboundary]
    simp only
    rw [if_pos hkind, envelopeText_of_fromUtf8 htext]
    rfl
  | neither hboundary hkind =>
    rw [Mime.unpack, hboundary]
    simp only
    rw [if_neg (Bool.eq_false_iff.mp hkind)]
  | unreadable hboundary hread =>
    rw [Mime.unpack, hboundary]
    simp only
    rw [hread]
    rfl
  | hollow hboundary hread hparts => exact unpack_hollow hboundary hread hparts
  | illegible hboundary hread hbefore hp htext =>
    rw [unpack_first hboundary hread hbefore hp, envelopeText_of_fromUtf8 htext]
    rfl
  | related hboundary hread hbefore hp htext =>
    rw [unpack_first hboundary hread hbefore hp, envelopeText_of_fromUtf8 htext, okOr_some,
      ok_bind]

/-- Every body is unpacked by one of the rules. -/
theorem exists_unpacks (L : Estate) (contentType : String) (body : Bytes) :
    ∃ r, Unpacks L contentType body r := by
  cases hboundary : L.mime.parameter contentType "boundary" with
  | none =>
    cases hkind : Mime.isEnvelope L contentType with
    | false => exact ⟨_, .neither hboundary hkind⟩
    | true =>
      cases htext : fromUtf8 body with
      | none => exact ⟨_, .aloneIllegible hboundary hkind htext⟩
      | some text => exact ⟨_, .alone hboundary hkind htext⟩
  | some boundary =>
    cases hread : L.mime.read body boundary with
    | error refusal => exact ⟨_, .unreadable hboundary hread⟩
    | ok parts =>
      by_cases hparts : ∃ p ∈ parts, isEnvelopePart L p = true
      · obtain ⟨before, p, after, rfl, hbefore, hp⟩ := exists_first hparts
        cases htext : fromUtf8 p.body with
        | none => exact ⟨_, .illegible hboundary hread hbefore hp htext⟩
        | some text => exact ⟨_, .related hboundary hread hbefore hp htext⟩
      · refine ⟨_, .hollow hboundary hread ?_⟩
        intro p hp
        exact Bool.eq_false_iff.mpr fun h => hparts ⟨p, hp, h⟩

/-- What a body is unpacked to, or why it is refused, is what the rules say and nothing
else. -/
theorem unpack_eq_iff (r : Result (String × Attachments)) :
    Mime.unpack L contentType body = r ↔ Unpacks L contentType body r := by
  refine ⟨?_, Unpacks.eq⟩
  rintro rfl
  obtain ⟨r, hr⟩ := exists_unpacks L contentType body
  rwa [hr.eq]

/-! ## Parts that are moved -/

/-- The same parts in two orders that differ in where the parts stand that are of no envelope's
type. -/
structure Moved (L : Estate) (ps ps' : List Part) : Prop where
  perm : ps.Perm ps'
  kept : ps.filter (isEnvelopePart L) = ps'.filter (isEnvelopePart L)

/-- Behind parts of no envelope's type, a part that is of one is the first. -/
theorem filter_first {before after : List Part} {p : Part}
    (hbefore : ∀ q ∈ before, isEnvelopePart L q = false) (hp : isEnvelopePart L p = true) :
    (before ++ p :: after).filter (isEnvelopePart L) = p :: after.filter (isEnvelopePart L) := by
  have hnone : before.filter (isEnvelopePart L) = [] := by
    apply List.filter_eq_nil_iff.mpr
    intro q hq
    rw [hbefore q hq]
    exact Bool.false_ne_true
  rw [List.filter_append, hnone, List.nil_append, List.filter_cons_of_pos hp]

/-- Where parts are moved, the first of an envelope's type is the same, and the others are the
same in some order. -/
theorem Moved.first {before after ps' : List Part} {p : Part}
    (h : Moved L (before ++ p :: after) ps')
    (hbefore : ∀ q ∈ before, isEnvelopePart L q = false) (hp : isEnvelopePart L p = true) :
    ∃ before' after', ps' = before' ++ p :: after' ∧
      (∀ q ∈ before', isEnvelopePart L q = false) ∧
      (before ++ after).Perm (before' ++ after') := by
  have hmem : ∃ q ∈ ps', isEnvelopePart L q = true :=
    ⟨p, h.perm.mem_iff.mp (List.mem_append_right _ (List.mem_cons_self ..)), hp⟩
  obtain ⟨before', p', after', rfl, hbefore', hp'⟩ := exists_first hmem
  have hkept := h.kept
  rw [filter_first hbefore hp, filter_first hbefore' hp', List.cons.injEq] at hkept
  obtain ⟨rfl, -⟩ := hkept
  refine ⟨before', after', rfl, hbefore', ?_⟩
  have hperm := (List.perm_middle.symm.trans h.perm).trans List.perm_middle
  exact hperm.cons_inv

/-- It does not matter where the attachments stand.  Two multiparts whose parts differ in where
those stand that are of no envelope's type, whatever content types and boundaries they come
under, are refused for the same, or unpack to the same envelope and the same attachments in some
order. -/
theorem unpack_moved {contentType' boundary boundary' : String} {body' : Bytes}
    {ps ps' : List Part} (hboundary : L.mime.parameter contentType "boundary" = some boundary)
    (hboundary' : L.mime.parameter contentType' "boundary" = some boundary')
    (hread : L.mime.read body boundary = .ok ps) (hread' : L.mime.read body' boundary' = .ok ps')
    (hmoved : Moved L ps ps') :
    (∃ e, Mime.unpack L contentType body = .error e ∧ Mime.unpack L contentType' body' = .error e) ∨
      ∃ envelope attachments attachments',
        Mime.unpack L contentType body = .ok (envelope, attachments) ∧
        Mime.unpack L contentType' body' = .ok (envelope, attachments') ∧
        attachments.Perm attachments' := by
  by_cases hsome : ∃ p ∈ ps, isEnvelopePart L p = true
  · obtain ⟨before, p, after, rfl, hbefore, hp⟩ := exists_first hsome
    obtain ⟨before', after', rfl, hbefore', hperm⟩ := hmoved.first hbefore hp
    cases htext : fromUtf8 p.body with
    | none =>
      exact .inl ⟨_, (Unpacks.illegible hboundary hread hbefore hp htext).eq,
        (Unpacks.illegible hboundary' hread' hbefore' hp htext).eq⟩
    | some text =>
      exact .inr ⟨text, _, _, (Unpacks.related hboundary hread hbefore hp htext).eq,
        (Unpacks.related hboundary' hread' hbefore' hp htext).eq, hperm.map _⟩
  · have hnone : ∀ p ∈ ps, isEnvelopePart L p = false := by
      intro p hp
      exact Bool.eq_false_iff.mpr fun h => hsome ⟨p, hp, h⟩
    exact .inl ⟨_, (Unpacks.hollow hboundary hread hnone).eq,
      (Unpacks.hollow hboundary' hread' fun p hp => hnone p (hmoved.perm.mem_iff.mpr hp)).eq⟩

/-! ## The order's payload before its envelope -/

/-- The part of the order's payload. -/
def goodsPart : Part := octets (order.payloadCid, goods)

/-- The payload is of no envelope's type. -/
theorem isEnvelopePart_goods : isEnvelopePart bench goodsPart = false := by
  have htype : Mime.isEnvelope bench "application/octet-stream" = false := by decide
  rw [goodsPart, octets, isEnvelopePart_part]
  exact htype

/-- The two parts are read in whatever order they are written. -/
theorem read_goods (ps : List Part) (hps : ∀ p ∈ ps, p ∈ [orderRoot, goodsPart]) :
    bench.mime.read (relatedBody ps) (moment 0).boundary = .ok ps := by
  have hwf : ∀ p ∈ [orderRoot, goodsPart], p.wf = true := wf_rooted _ (wf_part (by decide) _)
  have habsent := order_absent 0
  apply read_written bench_lawful (moment 0).boundary_wf
  · intro p hp
    exact hwf p (hps p hp)
  · intro p hp
    exact habsent p (hps p hp)

/-- The order's envelope is read behind its payload as it is before it. -/
theorem unpack_moved_order : ∃ attachments,
    Mime.unpack bench (Mime.related (moment 0).boundary) (relatedBody [goodsPart, orderRoot]) =
      .ok (order.envelope bench, attachments) := by
  have hboundary := parameter_related bench_lawful (moment 0).boundary_wf
  have hread := read_goods [orderRoot, goodsPart] fun p hp => hp
  have hread' := read_goods [goodsPart, orderRoot] (by
    intro p hp
    simp only [List.mem_cons, List.not_mem_nil, or_false] at hp ⊢
    exact hp.symm)
  have hroot : isEnvelopePart bench orderRoot = true := isEnvelopePart_root _
  have hgoods : ¬ isEnvelopePart bench goodsPart = true := Bool.eq_false_iff.mp isEnvelopePart_goods
  have hmoved : Moved bench [orderRoot, goodsPart] [goodsPart, orderRoot] := by
    refine ⟨List.Perm.swap _ _ _, ?_⟩
    rw [List.filter_cons_of_pos hroot, List.filter_cons_of_neg hgoods,
      List.filter_cons_of_neg hgoods, List.filter_cons_of_pos hroot]
  have hsplit : bench.mime.read (relatedBody [orderRoot, goodsPart]) (moment 0).boundary =
      .ok ([] ++ orderRoot :: [goodsPart]) := hread
  have hplain := (Unpacks.related hboundary hsplit (fun _ h => absurd h List.not_mem_nil) hroot
    (Multipart.fromUtf8_asBytes _)).eq
  rcases unpack_moved hboundary hboundary hread hread' hmoved with ⟨e, herror, -⟩ |
    ⟨envelope, attachments, attachments', hfirst, hsecond, -⟩
  · rw [hplain] at herror
    cases herror
  · rw [hplain, Except.ok.injEq, Prod.mk.injEq] at hfirst
    exact ⟨attachments', by rw [hsecond, hfirst.1]⟩

end As4
