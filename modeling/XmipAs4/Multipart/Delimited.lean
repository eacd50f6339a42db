import XmipAs4.Multipart.Codec

/-!
# A delimited codec

`delimited` is an executable MIME codec.  Parts are written one after another, each
after a line of the boundary, and a body is read by splitting it at the line break,
the two dashes and the boundary that stand before each part.
-/

namespace Multipart

namespace Delimited

/-! ## Writing -/

/-- The end of a line. -/
def crlf : Bytes := [13, 10]

/-- One header line. -/
def headerBytes (h : String × String) : Bytes :=
  asBytes h.1 ++ asBytes ": " ++ asBytes h.2 ++ crlf

/-- A part: its headers, an empty line, and its bytes. -/
def partBytes (p : Part) : Bytes :=
  p.headers.flatMap headerBytes ++ crlf ++ p.body

/-- What stands before each part and after the last one. -/
def delimiter (b : String) : Bytes :=
  crlf ++ asBytes "--" ++ asBytes b

/-- The parts, each after the delimiter and a line break. -/
def delimitedBytes (b : String) (parts : List Part) : Bytes :=
  parts.flatMap fun p => delimiter b ++ (crlf ++ partBytes p)

/-- The body: the delimited parts and the closing delimiter, less the line break that
the first delimiter would begin with. -/
def write (b : String) (parts : List Part) : Bytes :=
  (delimitedBytes b parts ++ delimiter b ++ asBytes "--" ++ crlf).drop 2

/-! ## Splitting -/

/-- The stretches of a body between the occurrences of a delimiter, given the reversed
stretch being read and how many bytes of a delimiter are still to be passed over. -/
def split (d : Bytes) : Bytes → Nat → Bytes → List Bytes
  | acc, _, [] => [acc.reverse]
  | acc, skip + 1, _ :: bs => split d acc skip bs
  | acc, 0, c :: bs =>
    if d.isPrefixOf (c :: bs) then acc.reverse :: split d [] (d.length - 1) bs
    else split d (c :: acc) 0 bs

/-! ## Reading a part -/

/-- A header line taken apart at its colon. -/
def readHeader (line : Bytes) : Except String (String × String) :=
  let name := line.takeWhile (· != 58)
  let value := (line.dropWhile (· != 58)).drop 2
  match fromUtf8 name, fromUtf8 value with
  | some n, some v => .ok (n, v)
  | _, _ => .error "a header that is not text"

/-- The headers of a part and the bytes after the empty line that ends them, given the
reversed line being read. -/
def readHeaders : Bytes → Bytes → Except String (List (String × String) × Bytes)
  | _, [] => .error "a part whose headers have no end"
  | acc, c :: bs =>
    if c = 10 ∧ acc.head? = some 13 then
      if acc.tail = [] then .ok ([], bs)
      else do
        let h ← readHeader acc.tail.reverse
        let (hs, body) ← readHeaders [] bs
        return (h :: hs, body)
    else readHeaders (c :: acc) bs

/-- A part, by what follows its delimiter. -/
def readPart (bytes : Bytes) : Except String Part := do
  let (headers, body) ← readHeaders [] (bytes.drop 2)
  return ⟨headers, body⟩

/-- The parts among the stretches after the first, the last of which closes the body. -/
def readParts : List Bytes → Except String (List Part)
  | [] => .error "a multipart with no end"
  | [last] => if (asBytes "--").isPrefixOf last then .ok [] else .error "a part with no end"
  | stretch :: stretches => do
    let part ← readPart stretch
    let parts ← readParts stretches
    return part :: parts

/-- The parts of a body. -/
def read (body : Bytes) (b : String) : Except String (List Part) :=
  readParts (split (delimiter b) [] 0 (crlf ++ body)).tail

/-! ## Content types and headers -/

/-- The text cut at the semicolons outside quotation marks, given whether one is open
and the reversed piece being read. -/
def pieces : Bool → List Char → List Char → List (List Char)
  | _, acc, [] => [acc.reverse]
  | quoted, acc, c :: cs =>
    if c = ';' ∧ quoted = false then acc.reverse :: pieces false [] cs
    else pieces (if c = '"' then !quoted else quoted) (c :: acc) cs

/-- A parameter's name and value, by the piece of the content type it stands in. -/
def readParam (piece : List Char) : List Char × List Char :=
  let piece := piece.dropWhile (· == ' ')
  let value := (piece.dropWhile (· != '=')).tail
  ((piece.takeWhile (· != '=')).map Char.toLower,
    if value.head? = some '"' then value.tail.takeWhile (· != '"') else value)

/-- A parameter of a content type. -/
def parameter (text name : String) : Option String :=
  (((pieces false [] text.toList).tail.map readParam).lookup name.toList).map String.ofList

/-- The media type of a content type. -/
def mediaType (text : String) : String :=
  String.ofList ((text.toList.takeWhile (· != ';')).map Char.toLower)

/-- The value of a header. -/
def headerOf (name : String) (p : Part) : Option String :=
  (p.headers.find? fun h => folded h.1 == folded name).map Prod.snd

/-- A value without the angle brackets around it. -/
def unbracketed (s : String) : String :=
  if s.toList.head? = some '<' ∧ s.toList.getLast? = some '>' then
    String.ofList s.toList.tail.dropLast
  else s

end Delimited

/-- The delimited codec. -/
def delimited : Codec where
  write := Delimited.write
  read := Delimited.read
  parameter := Delimited.parameter
  mediaType := Delimited.mediaType
  contentType := Delimited.headerOf "Content-Type"
  contentId p := (Delimited.headerOf "Content-ID" p).map Delimited.unbracketed

end Multipart
