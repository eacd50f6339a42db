import XmipAs4.Multipart.Bytes

/-!
# Multipart codecs

The interface of a MIME codec: parts written between a boundary and read back, and
the parameters of a content type.  `Codec.Lawful` says what such a codec promises.

A part whose headers hold no line break comes back as it was written.  Of any other
part the promise is only that it is read by itself: what comes back of it, if anything
does, depends neither on the boundary nor on the parts beside it.
-/

namespace Multipart

/-- One part: its headers in order, and its bytes. -/
structure Part where
  headers : List (String × String)
  body : Bytes

/-- A part without headers. -/
def Part.new (bytes : Bytes) : Part :=
  ⟨[], bytes⟩

/-- The part with one more header. -/
def Part.header (p : Part) (name value : String) : Part :=
  ⟨p.headers ++ [(name, value)], p.body⟩

/-! ## Content types -/

/-- A parameter of a content type, in quotation marks or not. -/
structure Param where
  name : String
  value : String
  quoted : Bool

/-- A character of a lower-case media type or token. -/
def tokenChar (c : Char) : Bool :=
  c.isLower || c.isDigit || ['-', '/', '+', '.'].contains c

/-- A lower-case media type, a parameter's name or an unquoted value. -/
def isToken (s : String) : Bool :=
  !s.toList.isEmpty && s.toList.all tokenChar

/-- A value that may stand in quotation marks as it is. -/
def isQuotable (s : String) : Bool :=
  s.toList.all fun c => !(['"', '\\', '\r', '\n'].contains c)

/-- A parameter that is written so that it can be read. -/
def Param.wf (p : Param) : Bool :=
  isToken p.name && if p.quoted then isQuotable p.value else isToken p.value

/-- A parameter's value as it is written. -/
def Param.written (p : Param) : String :=
  if p.quoted then "\"" ++ p.value ++ "\"" else p.value

/-- Parameters as they follow a media type. -/
def paramText : List Param → String
  | [] => ""
  | p :: ps => "; " ++ p.name ++ "=" ++ p.written ++ paramText ps

/-- The text of a content type. -/
def contentTypeText (media : String) (ps : List Param) : String :=
  media ++ paramText ps

/-! ## Boundaries -/

/-- A boundary's characters: none that ends a line or separates a header's name from
its value. -/
def boundaryChar (c : Char) : Bool :=
  c.isAlphanum || ['=', '_', '-', '.', '+'].contains c

/-- A boundary that may be written between parts. -/
def isBoundary (b : String) : Bool :=
  !b.toList.isEmpty && b.toList.all boundaryChar

/-- The boundary occurs in none of the parts. -/
def Absent (b : String) (parts : List Part) : Prop :=
  ∀ p ∈ parts, ¬ asBytes b <:+: p.body ∧
    ∀ h ∈ p.headers, ¬ asBytes b <:+: asBytes h.1 ∧ ¬ asBytes b <:+: asBytes h.2

/-- What a boundary must not occur in: the bodies, and the names and values of the headers. -/
def pieces (parts : List Part) : List Bytes :=
  parts.flatMap fun p => p.body :: p.headers.flatMap fun h => [asBytes h.1, asBytes h.2]

/-- A boundary that is longer than every piece occurs in none. -/
theorem absent_of_length {b : String} {parts : List Part}
    (h : ∀ piece ∈ pieces parts, piece.length < b.toList.length) : Absent b parts := by
  have hpiece : ∀ piece ∈ pieces parts, ¬ asBytes b <:+: piece := by
    intro piece hp hin
    have hle := hin.length_le
    have hb := length_le_asBytes b
    have := h piece hp
    omega
  intro p hp
  refine ⟨hpiece _ ?_, ?_⟩
  · exact List.mem_flatMap.mpr ⟨p, hp, List.mem_cons_self⟩
  · intro header hh
    have hin : ∀ piece ∈ [asBytes header.1, asBytes header.2], piece ∈ pieces parts := by
      intro piece hpiece
      refine List.mem_flatMap.mpr ⟨p, hp, List.mem_cons_of_mem _ ?_⟩
      exact List.mem_flatMap.mpr ⟨header, hh, hpiece⟩
    exact ⟨hpiece _ (hin _ (by simp)), hpiece _ (hin _ (by simp))⟩

/-- For any parts there is a boundary that occurs in none of them. -/
theorem exists_absent (parts : List Part) : ∃ b, isBoundary b = true ∧ Absent b parts := by
  have hchar : boundaryChar '=' = true := by decide
  refine ⟨String.ofList (List.replicate ((pieces parts).flatten.length + 1) '='), ?_, ?_⟩
  · simp [isBoundary, hchar, List.replicate_succ]
  · apply absent_of_length
    intro piece hp
    have hle := (List.sublist_flatten_of_mem hp).length_le
    rw [String.toList_ofList, List.length_replicate]
    omega

/-! ## Headers -/

/-- A name as names are compared: without regard to case. -/
def folded (s : String) : List Char :=
  s.toList.map Char.toLower

/-- The name of a header: letters and dashes. -/
def isHeaderName (s : String) : Bool :=
  !s.toList.isEmpty && s.toList.all fun c => c.isAlpha || c == '-'

/-- The value of a header on one line, with no blank at either end. -/
def isHeaderValue (s : String) : Bool :=
  s.toList.all (fun c => c != '\r' && c != '\n') &&
    !(s.toList.head?.any fun c => c == ' ' || c == '\t') &&
    !(s.toList.getLast?.any fun c => c == ' ' || c == '\t')

/-- A part whose headers are written on a line each. -/
def Part.wf (p : Part) : Bool :=
  p.headers.all fun h => isHeaderName h.1 && isHeaderValue h.2

/-- A content id that may be written in angle brackets. -/
def isContentId (s : String) : Bool :=
  s.toList.all fun c => !(['\r', '\n', '<', '>'].contains c)

/-! ## The codec and its promises -/

/-- A MIME codec. -/
structure Codec where
  /-- Parts as a body between a boundary. -/
  write : String → List Part → Bytes
  /-- The parts of a body between a boundary, or why it has none. -/
  read : Bytes → String → Except String (List Part)
  /-- A parameter of a content type. -/
  parameter : String → String → Option String
  /-- The media type of a content type. -/
  mediaType : String → String
  /-- A part's content type. -/
  contentType : Part → Option String
  /-- A part's content id. -/
  contentId : Part → Option String

/-- What a MIME codec promises. -/
structure Codec.Lawful (C : Codec) : Prop where
  parameter_of : ∀ media ps n, isToken media → (∀ p ∈ ps, p.wf) → isToken n →
    C.parameter (contentTypeText media ps) n = (ps.find? fun p => p.name == n).map Param.value
  mediaType_of : ∀ media ps, isToken media → (∀ p ∈ ps, p.wf) →
    C.mediaType (contentTypeText media ps) = media
  read_write : ∃ carry : Part → Except String Part, (∀ p, p.wf → carry p = .ok p) ∧
    ∀ b parts, isBoundary b → Absent b parts → C.read (C.write b parts) b = parts.mapM carry
  contentType_of : ∀ pre value post body,
    (∀ h ∈ pre, folded h.1 ≠ folded "Content-Type") →
    C.contentType ⟨pre ++ ("Content-Type", value) :: post, body⟩ = some value
  contentId_of : ∀ pre cid post body,
    (∀ h ∈ pre, folded h.1 ≠ folded "Content-ID") → isContentId cid →
    C.contentId ⟨pre ++ ("Content-ID", "<" ++ cid ++ ">") :: post, body⟩ = some cid

end Multipart
