import XmipAs4.Multipart.Delimited

/-!
# The delimited codec is lawful

`delimited_lawful` shows that the delimited codec keeps the promises of
`Codec.Lawful`.

The body is split where it was put together because a delimiter begins with a carriage
return and holds no other: an occurrence of it that overlapped a true delimiter would
hold two.  An occurrence inside a part would hold the boundary, which occurs in none of
them.
-/

namespace Multipart

namespace Delimited

/-! ## Splitting at a delimiter -/

/-- The bytes of a delimiter being passed over are dropped. -/
theorem split_skip (d acc xs rest : Bytes) :
    split d acc xs.length (xs ++ rest) = split d acc 0 rest := by
  induction xs with
  | nil => rfl
  | cons x xs ih => simpa [split] using ih

/-- Bytes at none of which a delimiter begins belong to the stretch being read. -/
theorem split_clean {d xs : Bytes} (rest acc : Bytes)
    (h : ∀ s, s ≠ [] → s <:+ xs → ¬ d <+: s ++ rest) :
    split d acc 0 (xs ++ rest) = split d (xs.reverse ++ acc) 0 rest := by
  induction xs generalizing acc with
  | nil => rfl
  | cons x xs ih =>
    have hx : ¬ d <+: x :: (xs ++ rest) := h (x :: xs) (by simp) List.suffix_rfl
    have htail : ∀ s, s ≠ [] → s <:+ xs → ¬ d <+: s ++ rest := fun s hne hs =>
      h s hne (hs.trans (List.suffix_cons x xs))
    rw [List.cons_append, split, if_neg (by simpa using hx), ih _ htail]
    simp

/-- A delimiter ends the stretch being read. -/
theorem split_delim {d : Bytes} (hd : d ≠ []) (acc rest : Bytes) :
    split d acc 0 (d ++ rest) = acc.reverse :: split d [] 0 rest := by
  obtain ⟨c, ds, rfl⟩ := List.exists_cons_of_ne_nil hd
  have hpre : (c :: ds).isPrefixOf (c :: (ds ++ rest)) = true := by simp
  rw [List.cons_append, split, if_pos hpre]
  have hlen : (c :: ds).length - 1 = ds.length := by simp
  rw [hlen, split_skip]

/-- No delimiter begins inside bytes it does not occur in, where what follows them is
nothing or begins as a delimiter does. -/
theorem not_prefix_of_absent {c : UInt8} {ds xs rest : Bytes} (hc : c ∉ ds)
    (hx : ¬ (c :: ds) <:+: xs) (hrest : rest = [] ∨ ∃ r, rest = c :: r) (s : Bytes)
    (hne : s ≠ []) (hs : s <:+ xs) : ¬ (c :: ds) <+: s ++ rest := by
  intro hpre
  rcases List.prefix_or_prefix_of_prefix hpre (List.prefix_append s rest) with h | h
  · exact hx (h.isInfix.trans hs.isInfix)
  · obtain ⟨e, he⟩ := h
    rw [← he, List.prefix_append_right_inj] at hpre
    cases e with
    | nil =>
      rw [List.append_nil] at he
      exact hx (he ▸ hs.isInfix)
    | cons e₀ es =>
      rcases hrest with rfl | ⟨r, rfl⟩
      · simp at hpre
      · obtain ⟨rfl, -⟩ := List.cons_prefix_cons.mp hpre
        obtain ⟨s₀, ss, rfl⟩ := List.exists_cons_of_ne_nil hne
        rw [List.cons_append, List.cons.injEq] at he
        apply hc
        rw [← he.2]
        simp

/-! ## Splitting a body -/

/-- What closes a body. -/
def closing : Bytes :=
  asBytes "--" ++ crlf

/-- The delimiter of a boundary, after the carriage return it begins with. -/
def delimiterTail (b : String) : Bytes :=
  10 :: (asBytes "--" ++ asBytes b)

/-- A delimiter begins with a carriage return. -/
theorem delimiter_eq (b : String) : delimiter b = 13 :: delimiterTail b := rfl

/-- A boundary has none of the bytes that a line or a header is taken apart at. -/
theorem boundary_bytes {b : String} (hb : isBoundary b = true) {d : Char}
    (hd : d.val.toNat ≤ 127) (hchar : boundaryChar d = false) :
    UInt8.ofNat d.val.toNat ∉ asBytes b := by
  intro h
  have hmem := mem_asBytes hd h
  simp only [isBoundary, Bool.and_eq_true, List.all_eq_true] at hb
  rw [hb.2 d hmem] at hchar
  exact absurd hchar (by decide)

/-- A boundary is not empty. -/
theorem boundary_ne_nil {b : String} (hb : isBoundary b = true) : asBytes b ≠ [] := by
  intro hnil
  simp only [isBoundary, Bool.and_eq_true, Bool.not_eq_true', List.isEmpty_eq_false_iff] at hb
  have hempty : b = "" := asBytes_injective (by rw [hnil]; rfl)
  exact hb.1 (by simp [hempty])

/-- A delimiter holds no second carriage return. -/
theorem cr_notMem_delimiterTail {b : String} (hb : isBoundary b = true) :
    (13 : UInt8) ∉ delimiterTail b := by
  have h13 : (13 : UInt8) ∉ asBytes b := boundary_bytes hb (d := '\r') (by decide) (by decide)
  have hdash : (13 : UInt8) ∉ asBytes "--" := by decide
  simp [delimiterTail, h13, hdash]

/-- A body between delimiters is split into what stands between them. -/
theorem split_delimited {b : String} (hb : isBoundary b = true) {parts : List Part}
    (h : ∀ p ∈ parts, ¬ delimiter b <:+: crlf ++ partBytes p) (acc : Bytes) :
    split (delimiter b) acc 0 (delimitedBytes b parts ++ (delimiter b ++ closing)) =
      acc.reverse :: (parts.map (fun p => crlf ++ partBytes p) ++ [closing]) := by
  have hd : delimiter b ≠ [] := by simp [delimiter_eq]
  induction parts generalizing acc with
  | nil =>
    have hclosing : ¬ delimiter b <:+: closing := by
      intro hin
      have hlen := hin.length_le
      have hpos := List.length_pos_iff.mpr (boundary_ne_nil hb)
      have hdash : (asBytes "--").length = 2 := by decide
      simp only [delimiter, closing, crlf, List.length_append, List.length_cons,
        List.length_nil, hdash] at hlen
      omega
    have hclean := split_clean [] [] (not_prefix_of_absent
      (cr_notMem_delimiterTail hb) (delimiter_eq b ▸ hclosing) (.inl rfl))
    rw [List.append_nil, ← delimiter_eq] at hclean
    change split (delimiter b) acc 0 (delimiter b ++ closing) = _
    rw [split_delim hd, hclean]
    simp [split]
  | cons p ps ih =>
    have hp := h p (by simp)
    have hps : ∀ q ∈ ps, ¬ delimiter b <:+: crlf ++ partBytes q := fun q hq => h q (by simp [hq])
    have hrest : ∃ r, delimitedBytes b ps ++ (delimiter b ++ closing) = 13 :: r := by
      cases ps with
      | nil => exact ⟨_, rfl⟩
      | cons q qs => exact ⟨_, rfl⟩
    have hclean := split_clean _ [] (not_prefix_of_absent (cr_notMem_delimiterTail hb)
      (delimiter_eq b ▸ hp) (.inr hrest))
    rw [← delimiter_eq] at hclean
    have hbody : delimitedBytes b (p :: ps) ++ (delimiter b ++ closing) = delimiter b ++
        ((crlf ++ partBytes p) ++ (delimitedBytes b ps ++ (delimiter b ++ closing))) := by
      simp [delimitedBytes]
    rw [hbody, split_delim hd, hclean, ih hps]
    simp

/-- A body written is split into its parts. -/
theorem split_write {b : String} (hb : isBoundary b = true) {parts : List Part}
    (h : ∀ p ∈ parts, ¬ delimiter b <:+: crlf ++ partBytes p) :
    (split (delimiter b) [] 0 (crlf ++ write b parts)).tail =
      parts.map (fun p => crlf ++ partBytes p) ++ [closing] := by
  have hbody : crlf ++ write b parts = delimitedBytes b parts ++ (delimiter b ++ closing) := by
    have hcr : ∃ r, delimitedBytes b parts ++ (delimiter b ++ closing) = 13 :: 10 :: r := by
      cases parts with
      | nil => exact ⟨_, rfl⟩
      | cons q qs => exact ⟨_, rfl⟩
    obtain ⟨r, hr⟩ := hcr
    have hwrite : write b parts = (delimitedBytes b parts ++ (delimiter b ++ closing)).drop 2 := by
      simp [write, closing]
    rw [hwrite, hr]
    rfl
  rw [hbody, split_delimited hb h]
  rfl

/-- A pattern of bytes that end no line and separate no header is in a part only where
it is in the part's body or in one of its headers. -/
theorem not_infix_partBytes {q : Bytes} (hne : q ≠ []) (h13 : (13 : UInt8) ∉ q)
    (h10 : (10 : UInt8) ∉ q) (h58 : (58 : UInt8) ∉ q) (h32 : (32 : UInt8) ∉ q) {p : Part}
    (hbody : ¬ q <:+: p.body)
    (hheaders : ∀ h ∈ p.headers, ¬ q <:+: asBytes h.1 ∧ ¬ q <:+: asBytes h.2) :
    ¬ q <:+: crlf ++ partBytes p := by
  have hnil : ¬ q <:+: [] := by simpa using hne
  have hlines : ∀ hs : List (String × String),
      (∀ h ∈ hs, ¬ q <:+: asBytes h.1 ∧ ¬ q <:+: asBytes h.2) →
        ¬ q <:+: hs.flatMap headerBytes ++ ([] ++ 13 :: ([] ++ 10 :: p.body)) := by
    intro hs hhs hin
    induction hs with
    | nil =>
      rcases infix_of_infix_sep h13 hin with h | h
      · exact hnil h
      · rcases infix_of_infix_sep h10 h with h | h
        · exact hnil h
        · exact hbody h
    | cons x xs ih =>
      have hline : (x :: xs).flatMap headerBytes ++ ([] ++ 13 :: ([] ++ 10 :: p.body)) =
          asBytes x.1 ++ 58 :: ([] ++ 32 :: (asBytes x.2 ++ 13 :: ([] ++ 10 ::
            (xs.flatMap headerBytes ++ ([] ++ 13 :: ([] ++ 10 :: p.body)))))) := by
        have hcolon : asBytes ": " = [58, 32] := by decide
        simp [headerBytes, hcolon, crlf]
      rw [hline] at hin
      obtain ⟨hname, hvalue⟩ := hhs x (by simp)
      rcases infix_of_infix_sep h58 hin with h | h
      · exact hname h
      · rcases infix_of_infix_sep h32 h with h | h
        · exact hnil h
        · rcases infix_of_infix_sep h13 h with h | h
          · exact hvalue h
          · rcases infix_of_infix_sep h10 h with h | h
            · exact hnil h
            · exact ih (fun y hy => hhs y (by simp [hy])) h
  intro hin
  have hpart : crlf ++ partBytes p = [] ++ 13 :: ([] ++ 10 ::
      (p.headers.flatMap headerBytes ++ ([] ++ 13 :: ([] ++ 10 :: p.body)))) := by
    simp [partBytes, crlf]
  rw [hpart] at hin
  rcases infix_of_infix_sep h13 hin with h | h
  · exact hnil h
  · rcases infix_of_infix_sep h10 h with h | h
    · exact hnil h
    · exact hlines p.headers hheaders h

/-- No delimiter occurs in a part the boundary does not occur in. -/
theorem delimiter_absent {b : String} (hb : isBoundary b = true) {parts : List Part}
    (h : Absent b parts) : ∀ p ∈ parts, ¬ delimiter b <:+: crlf ++ partBytes p := by
  intro p hp hin
  have hin' : asBytes b <:+: crlf ++ partBytes p := by
    refine List.IsInfix.trans ?_ hin
    exact (List.suffix_append _ _).isInfix
  exact not_infix_partBytes (boundary_ne_nil hb)
    (boundary_bytes hb (d := '\r') (by decide) (by decide))
    (boundary_bytes hb (d := '\n') (by decide) (by decide))
    (boundary_bytes hb (d := ':') (by decide) (by decide))
    (boundary_bytes hb (d := ' ') (by decide) (by decide)) (h p hp).1 (h p hp).2 hin'

/-! ## Reading a part back -/

/-- The stretches between delimiters are read one by one. -/
theorem readParts_stretches (xs : List Bytes) :
    readParts (xs ++ [closing]) = xs.mapM readPart := by
  induction xs with
  | nil => rfl
  | cons x xs ih =>
    obtain ⟨y, ys, hy⟩ : ∃ y ys, xs ++ [closing] = y :: ys :=
      List.exists_cons_of_ne_nil (by simp)
    rw [List.cons_append, List.mapM_cons, ← ih, hy, readParts]
    intro h
    exact absurd h (by simp)

/-- A line's bytes are gathered until it ends. -/
theorem readHeaders_push {line : Bytes} (h : (10 : UInt8) ∉ line) (acc rest : Bytes) :
    readHeaders acc (line ++ rest) = readHeaders (line.reverse ++ acc) rest := by
  induction line generalizing acc with
  | nil => rfl
  | cons c line ih =>
    simp only [List.mem_cons, not_or] at h
    have hc : ¬ (c = 10 ∧ acc.head? = some 13) := fun hc => h.1 hc.1.symm
    rw [List.cons_append, readHeaders, if_neg hc, ih h.2]
    simp

/-- A line that is not empty is read as a header. -/
theorem readHeaders_line {line : Bytes} (h : (10 : UInt8) ∉ line) (hne : line ≠ [])
    (rest : Bytes) :
    readHeaders [] (line ++ crlf ++ rest) = (do
      let h ← readHeader line
      let (hs, body) ← readHeaders [] rest
      return (h :: hs, body)) := by
  have h13 : ¬ ((13 : UInt8) = 10 ∧ (line.reverse ++ []).head? = some 13) := by
    rintro ⟨h, -⟩
    exact absurd h (by decide)
  have htail : (13 :: (line.reverse ++ [])).tail ≠ [] := by simpa using hne
  have hrev : (13 :: (line.reverse ++ [])).tail.reverse = line := by simp
  rw [List.append_assoc, readHeaders_push h]
  change readHeaders _ (13 :: 10 :: rest) = _
  rw [readHeaders, if_neg h13, readHeaders, if_pos ⟨rfl, rfl⟩, if_neg htail, hrev]

/-- A header's line is not empty and ends nowhere before its end. -/
theorem header_line {h : String × String} (hn : isHeaderName h.1 = true)
    (hv : isHeaderValue h.2 = true) :
    (10 : UInt8) ∉ asBytes h.1 ++ asBytes ": " ++ asBytes h.2 ∧
      asBytes h.1 ++ asBytes ": " ++ asBytes h.2 ≠ [] := by
  have hname : (10 : UInt8) ∉ asBytes h.1 := by
    intro hm
    have := mem_asBytes (d := '\n') (by decide) hm
    simp only [isHeaderName, Bool.and_eq_true, List.all_eq_true] at hn
    exact absurd (hn.2 _ this) (by decide)
  have hvalue : (10 : UInt8) ∉ asBytes h.2 := by
    intro hm
    have := mem_asBytes (d := '\n') (by decide) hm
    simp only [isHeaderValue, Bool.and_eq_true, List.all_eq_true] at hv
    exact absurd (hv.1.1 _ this) (by decide)
  have hcolon : asBytes ": " = [58, 32] := by decide
  simp [hname, hvalue, hcolon]

/-- A header is read back off its line. -/
theorem readHeader_line {h : String × String} (hn : isHeaderName h.1 = true) :
    readHeader (asBytes h.1 ++ asBytes ": " ++ asBytes h.2) = .ok h := by
  have hname : ∀ c ∈ asBytes h.1, (c != 58) = true := by
    intro c hc
    rw [bne_iff_ne]
    rintro rfl
    have := mem_asBytes (d := ':') (by decide) hc
    simp only [isHeaderName, Bool.and_eq_true, List.all_eq_true] at hn
    exact absurd (hn.2 _ this) (by decide)
  have hcolon : asBytes ": " = [58, 32] := by decide
  rw [readHeader, hcolon, List.append_assoc, List.takeWhile_append_of_pos hname,
    List.dropWhile_append_of_pos hname]
  simp

/-- Headers on a line each are read back, and the bytes after them. -/
theorem readHeaders_headers {hs : List (String × String)}
    (h : hs.all (fun h => isHeaderName h.1 && isHeaderValue h.2) = true) (body : Bytes) :
    readHeaders [] (hs.flatMap headerBytes ++ crlf ++ body) = .ok (hs, body) := by
  induction hs with
  | nil => rfl
  | cons x xs ih =>
    rw [List.all_cons, Bool.and_eq_true, Bool.and_eq_true] at h
    obtain ⟨hline, hne⟩ := header_line h.1.1 h.1.2
    have hbytes : (x :: xs).flatMap headerBytes ++ crlf ++ body =
        (asBytes x.1 ++ asBytes ": " ++ asBytes x.2) ++ crlf ++
          (xs.flatMap headerBytes ++ crlf ++ body) := by
      simp [headerBytes]
    rw [hbytes, readHeaders_line hline hne, readHeader_line h.1.1, ih h.2]
    rfl

/-- A well-formed part is read back as it was written. -/
theorem readPart_partBytes {p : Part} (h : p.wf = true) :
    readPart (crlf ++ partBytes p) = .ok p := by
  change (do
    let (headers, body) ← readHeaders [] (partBytes p)
    return (⟨headers, body⟩ : Part)) = _
  rw [partBytes, readHeaders_headers h]
  rfl

/-- A body written is read part by part. -/
theorem read_write {b : String} (hb : isBoundary b = true) {parts : List Part}
    (h : Absent b parts) :
    read (write b parts) b = parts.mapM fun p => readPart (crlf ++ partBytes p) := by
  rw [read, split_write hb (delimiter_absent hb h), readParts_stretches, List.mapM_map]
  rfl

/-! ## Content types -/

/-- What stands before a semicolon outside quotation marks is gathered. -/
theorem pieces_push {quoted : Bool} {cs : List Char}
    (h : ∀ c ∈ cs, c ≠ '"' ∧ (c = ';' → quoted = true)) (acc rest : List Char) :
    pieces quoted acc (cs ++ rest) = pieces quoted (cs.reverse ++ acc) rest := by
  induction cs generalizing acc with
  | nil => rfl
  | cons c cs ih =>
    obtain ⟨hq, hsemi⟩ := h c (by simp)
    have hc : ¬ (c = ';' ∧ quoted = false) := by
      rintro ⟨hc, hf⟩
      rw [hsemi hc] at hf
      exact absurd hf (by decide)
    rw [List.cons_append, pieces, if_neg hc, if_neg hq, ih fun d hd => h d (by simp [hd])]
    simp

/-- A parameter as it stands after its semicolon. -/
def paramPiece (p : Param) : List Char :=
  ' ' :: (p.name.toList ++ '=' :: p.written.toList)

/-- A token holds nothing that a content type is taken apart at, and is lower case. -/
theorem token_char {s : String} (h : isToken s = true) :
    ∀ c ∈ s.toList, c ≠ ';' ∧ c ≠ '"' ∧ c ≠ '=' ∧ c ≠ ' ' ∧ c.toLower = c := by
  intro c hc
  simp only [isToken, Bool.and_eq_true, List.all_eq_true] at h
  have htoken := h.2 c hc
  refine ⟨?_, ?_, ?_, ?_, ?_⟩
  all_goals try (rintro rfl; exact absurd htoken (by decide))
  apply dif_neg
  rintro ⟨hge, hle⟩
  have hlower : c.isLower = (decide ('a'.val ≤ c.val) && decide (c.val ≤ 'z'.val)) := rfl
  simp only [tokenChar, hlower, Char.isDigit, Bool.or_eq_true, Bool.and_eq_true,
    decide_eq_true_eq, List.contains_cons, beq_iff_eq, List.contains_nil, UInt32.le_iff_toNat_le,
    ge_iff_le] at htoken hge hle
  have hA : 'A'.val.toNat = 65 := rfl
  have hZ : 'Z'.val.toNat = 90 := rfl
  have ha : 'a'.val.toNat = 97 := rfl
  have h9 : '9'.val.toNat = 57 := rfl
  rcases htoken with (hlow | hdig) | rfl | rfl | rfl | rfl | hfalse
  · omega
  · omega
  · exact absurd hge (by decide)
  · exact absurd hge (by decide)
  · exact absurd hge (by decide)
  · exact absurd hge (by decide)
  · exact absurd hfalse (by decide)

/-- A parameter's piece is gathered whole, quotation marks and what they hold included. -/
theorem pieces_param {p : Param} (h : p.wf = true) (acc rest : List Char) :
    pieces false acc (paramPiece p ++ rest) =
      pieces false ((paramPiece p).reverse ++ acc) rest := by
  simp only [Param.wf, Bool.and_eq_true] at h
  have hname : ∀ c ∈ ' ' :: (p.name.toList ++ ['=']), c ≠ '"' ∧ (c = ';' → false = true) := by
    intro c hc
    simp only [List.mem_cons, List.mem_append, List.not_mem_nil, or_false] at hc
    rcases hc with rfl | hc | rfl
    · decide
    · have := token_char h.1 c hc
      exact ⟨this.2.1, fun hs => absurd hs this.1⟩
    · decide
  have hpiece : paramPiece p = (' ' :: (p.name.toList ++ ['='])) ++ p.written.toList := by
    simp [paramPiece]
  cases hq : p.quoted with
  | false =>
    rw [hq, if_neg (by decide)] at h
    have hwritten : p.written = p.value := by simp [Param.written, hq]
    have hvalue : ∀ c ∈ p.value.toList, c ≠ '"' ∧ (c = ';' → false = true) := by
      intro c hc
      have := token_char h.2 c hc
      exact ⟨this.2.1, fun hs => absurd hs this.1⟩
    rw [hpiece, hwritten, List.append_assoc, pieces_push hname, pieces_push hvalue]
    simp
  | true =>
    rw [hq, if_pos rfl] at h
    have hwritten : p.written.toList = '"' :: (p.value.toList ++ ['"']) := by
      simp [Param.written, hq]
    have hvalue : ∀ c ∈ p.value.toList, c ≠ '"' ∧ (c = ';' → true = true) := by
      intro c hc
      simp only [isQuotable, List.all_eq_true] at h
      refine ⟨?_, fun _ => rfl⟩
      rintro rfl
      exact absurd (h.2 _ hc) (by decide)
    have hmark : ∀ (q : Bool) (acc rest : List Char),
        pieces q acc ('"' :: rest) = pieces (!q) ('"' :: acc) rest := by
      intro q acc rest
      rw [pieces, if_neg (by rintro ⟨h, -⟩; exact absurd h (by decide)), if_pos rfl]
    rw [hpiece, hwritten, List.append_assoc, pieces_push hname, List.cons_append, hmark,
      Bool.not_false, List.append_assoc, pieces_push hvalue, List.singleton_append, hmark,
      Bool.not_true]
    simp

/-- Parameters are cut into a piece each. -/
theorem pieces_paramText {ps : List Param} (h : ∀ p ∈ ps, p.wf = true) (acc : List Char) :
    pieces false acc (paramText ps).toList = acc.reverse :: ps.map paramPiece := by
  induction ps generalizing acc with
  | nil => simp [paramText, pieces]
  | cons p ps ih =>
    have htext : (paramText (p :: ps)).toList = ';' :: (paramPiece p ++ (paramText ps).toList) := by
      simp [paramText, paramPiece]
    rw [htext, pieces, if_pos ⟨rfl, rfl⟩, pieces_param (h p (by simp)),
      ih fun q hq => h q (by simp [hq])]
    simp

/-- A content type is cut into its media type and its parameters. -/
theorem pieces_contentTypeText {media : String} {ps : List Param} (hm : isToken media = true)
    (h : ∀ p ∈ ps, p.wf = true) :
    pieces false [] (contentTypeText media ps).toList = media.toList :: ps.map paramPiece := by
  have hmedia : ∀ c ∈ media.toList, c ≠ '"' ∧ (c = ';' → false = true) := by
    intro c hc
    have := token_char hm c hc
    exact ⟨this.2.1, fun hs => absurd hs this.1⟩
  rw [contentTypeText, String.toList_append, pieces_push hmedia, pieces_paramText h]
  simp

/-- A parameter is read back off its piece. -/
theorem readParam_paramPiece {p : Param} (h : p.wf = true) :
    readParam (paramPiece p) = (p.name.toList, p.value.toList) := by
  simp only [Param.wf, Bool.and_eq_true] at h
  have hname : ∀ c ∈ p.name.toList, (c != '=') = true := fun c hc => by
    simpa using (token_char h.1 c hc).2.2.1
  have hlower : p.name.toList.map Char.toLower = p.name.toList := by
    conv_rhs => rw [← List.map_id p.name.toList]
    exact List.map_congr_left fun c hc => (token_char h.1 c hc).2.2.2.2
  have hne : p.name.toList ≠ [] := by
    have := h.1
    simp only [isToken, Bool.and_eq_true, Bool.not_eq_true', List.isEmpty_eq_false_iff] at this
    exact this.1
  have hdrop : (paramPiece p).dropWhile (· == ' ') = p.name.toList ++ '=' :: p.written.toList := by
    obtain ⟨c, cs, hc⟩ := List.exists_cons_of_ne_nil hne
    have hsp : c ≠ ' ' := (token_char h.1 c (by simp [hc])).2.2.2.1
    simp [paramPiece, hc, hsp]
  have htake : (p.name.toList ++ '=' :: p.written.toList).takeWhile (· != '=') =
      p.name.toList := by
    rw [List.takeWhile_append_of_pos hname]
    simp
  have hvalue : ((p.name.toList ++ '=' :: p.written.toList).dropWhile (· != '=')).tail =
      p.written.toList := by
    rw [List.dropWhile_append_of_pos hname]
    simp
  simp only [readParam, hdrop, htake, hvalue, hlower, Prod.mk.injEq, true_and]
  cases hq : p.quoted with
  | false =>
    rw [hq, if_neg (by decide)] at h
    have hwritten : p.written = p.value := by simp [Param.written, hq]
    have hhead : p.value.toList.head? ≠ some '"' := by
      intro hh
      exact (token_char h.2 _ (List.mem_of_head? hh)).2.1 rfl
    rw [hwritten, if_neg hhead]
  | true =>
    rw [hq, if_pos rfl] at h
    have hwritten : p.written.toList = '"' :: (p.value.toList ++ ['"']) := by
      simp [Param.written, hq]
    have hquote : ∀ c ∈ p.value.toList, (c != '"') = true := by
      intro c hc
      simp only [isQuotable, List.all_eq_true] at h
      rw [bne_iff_ne]
      rintro rfl
      exact absurd (h.2 _ hc) (by decide)
    rw [hwritten, List.head?_cons, if_pos rfl, List.tail_cons,
      List.takeWhile_append_of_pos hquote]
    simp

/-- A parameter is looked up in the text of a content type as in the list of them. -/
theorem parameter_contentTypeText {media : String} {ps : List Param} (hm : isToken media = true)
    (h : ∀ p ∈ ps, p.wf = true) (n : String) :
    parameter (contentTypeText media ps) n = (ps.find? fun p => p.name == n).map Param.value := by
  rw [parameter, pieces_contentTypeText hm h, List.tail_cons]
  induction ps with
  | nil => rfl
  | cons p ps ih =>
    rw [List.map_cons, List.map_cons, readParam_paramPiece (h p (by simp)), List.lookup_cons]
    by_cases hn : p.name = n
    · simp [hn]
    · have hne : (n.toList == p.name.toList) = false := by
        rw [beq_eq_false_iff_ne]
        exact fun he => hn (String.toList_inj.mp he).symm
      rw [hne, List.find?_cons_of_neg (by simpa using hn)]
      exact ih fun q hq => h q (by simp [hq])

/-- The media type is read back off a content type. -/
theorem mediaType_contentTypeText {media : String} {ps : List Param}
    (hm : isToken media = true) : mediaType (contentTypeText media ps) = media := by
  have hmedia : ∀ c ∈ media.toList, (c != ';') = true := fun c hc => by
    simpa using (token_char hm c hc).1
  have hlower : media.toList.map Char.toLower = media.toList := by
    conv_rhs => rw [← List.map_id media.toList]
    exact List.map_congr_left fun c hc => (token_char hm c hc).2.2.2.2
  have htail : (paramText ps).toList.takeWhile (· != ';') = [] := by
    cases ps with
    | nil => simp [paramText]
    | cons p ps => simp [paramText]
  rw [mediaType, contentTypeText, String.toList_append, List.takeWhile_append_of_pos hmedia, htail,
    List.append_nil, hlower, String.ofList_toList]

/-- The first header of a name is the one read. -/
theorem headerOf_append {name : String} {pre post : List (String × String)} {value : String}
    {body : Bytes} (h : ∀ h ∈ pre, folded h.1 ≠ folded name) :
    headerOf name ⟨pre ++ (name, value) :: post, body⟩ = some value := by
  have hpre : pre.find? (fun h => folded h.1 == folded name) = none := by
    rw [List.find?_eq_none]
    intro x hx
    simpa using h x hx
  simp [headerOf, List.find?_append, hpre]

/-- A content id is taken out of its angle brackets. -/
theorem unbracketed_bracketed (cid : String) : unbracketed ("<" ++ cid ++ ">") = cid := by
  have htext : ("<" ++ cid ++ ">").toList = '<' :: (cid.toList ++ ['>']) := by simp
  have hlast : ('<' :: (cid.toList ++ ['>'])).getLast? = some '>' := by
    rw [← List.cons_append, List.getLast?_append]
    rfl
  rw [unbracketed, htext, if_pos ⟨rfl, hlast⟩]
  simp

end Delimited

open Delimited

/-- The delimited codec keeps the promises of a MIME codec. -/
theorem delimited_lawful : delimited.Lawful where
  parameter_of _ _ n hm h _ := parameter_contentTypeText hm h n
  mediaType_of _ _ hm _ := mediaType_contentTypeText hm
  read_write := ⟨fun p => readPart (crlf ++ partBytes p), fun _ h => readPart_partBytes h,
    fun _ _ hb h => read_write hb h⟩
  contentType_of _ _ _ _ h := headerOf_append h
  contentId_of _ cid _ _ h _ := by
    change (headerOf "Content-ID" _).map unbracketed = some cid
    rw [headerOf_append h, Option.map_some, unbracketed_bracketed]

end Multipart
