import XmipAs4.Markup.Scanner

/-!
# A flat scan

`flatScan` is an executable scanner: text is cut into characters and tags, a start
tag is taken apart into its label and attributes, and elements are found by walking
the cut text.
-/

namespace Markup

namespace FlatScan

/-! ## Escaping -/

/-- A character as character data writes it. -/
def escapeChar (c : Char) : List Char :=
  if c = '&' then ['&', 'a', 'm', 'p', ';']
  else if c = '<' then ['&', 'l', 't', ';']
  else if c = '>' then ['&', 'g', 't', ';']
  else if c = '"' then ['&', 'q', 'u', 'o', 't', ';']
  else if c = '\'' then ['&', 'a', 'p', 'o', 's', ';']
  else [c]

/-- Text as character data writes it. -/
def escape (cs : List Char) : List Char :=
  cs.flatMap escapeChar

/-- The escaping of the flat scan, on strings. -/
def quote (s : String) : String :=
  String.ofList (escape s.toList)

/-- Character data read back; nothing where an entity is not one XML defines. -/
def unescape : List Char → Option (List Char)
  | [] => some []
  | '&' :: 'a' :: 'm' :: 'p' :: ';' :: cs => (unescape cs).map ('&' :: ·)
  | '&' :: 'l' :: 't' :: ';' :: cs => (unescape cs).map ('<' :: ·)
  | '&' :: 'g' :: 't' :: ';' :: cs => (unescape cs).map ('>' :: ·)
  | '&' :: 'q' :: 'u' :: 'o' :: 't' :: ';' :: cs => (unescape cs).map ('"' :: ·)
  | '&' :: 'a' :: 'p' :: 'o' :: 's' :: ';' :: cs => (unescape cs).map ('\'' :: ·)
  | c :: cs => if c = '&' then none else (unescape cs).map (c :: ·)

/-! ## Cutting text -/

/-- A character of the text, or what stands between a pair of angle brackets. -/
inductive Token where
  | char (c : Char)
  | tag (body : List Char)
  deriving DecidableEq

/-- The text a token was cut from. -/
def Token.raw : Token → List Char
  | char c => [c]
  | tag body => '<' :: body ++ ['>']

/-- The text cut into tokens, given the reversed body of the tag being read, if one is. -/
def cut : Option (List Char) → List Char → List Token
  | none, [] => []
  | none, c :: cs => if c = '<' then cut (some []) cs else .char c :: cut none cs
  | some _, [] => []
  | some body, c :: cs =>
    if c = '>' then .tag body.reverse :: cut none cs else cut (some (c :: body)) cs

/-- The local part of a label: what follows the colon, where there is one. -/
def localPart (label : List Char) : List Char :=
  if ':' ∈ label then (label.dropWhile (· != ':')).tail else label

/-- The label a start tag's body begins with. -/
def labelOf (body : List Char) : List Char :=
  body.takeWhile fun c => c != ' ' && c != '/'

/-- The body is that of a start tag whose local name is `n`. -/
def starts (n body : List Char) : Bool :=
  body.head? != some '/' && body.head? != some '?' && localPart (labelOf body) == n

/-- The body is that of an end tag whose local name is `n`. -/
def ends (n body : List Char) : Bool :=
  body.head? == some '/' && localPart body.tail == n

/-- The body is that of a tag that closes itself. -/
def closesItself (body : List Char) : Bool :=
  body.getLast? == some '/'

/-! ## Attributes -/

/-- Where the reading of a start tag's attributes stands. -/
inductive AttrState where
  | between
  | inName (name : List Char)
  | inValue (name value : List Char)

/-- The attributes written in the text, names and values as they stand there. -/
def attributes : AttrState → List Char → List (List Char × List Char)
  | _, [] => []
  | .between, c :: cs => if c = ' ' then attributes .between cs else attributes (.inName [c]) cs
  | .inName name, c :: cs =>
    if c = '"' then attributes (.inValue name.reverse []) cs
    else if c = '=' then attributes (.inName name) cs
    else attributes (.inName (c :: name)) cs
  | .inValue name value, c :: cs =>
    if c = '"' then (name, value.reverse) :: attributes .between cs
    else attributes (.inValue name (c :: value)) cs

/-- The attributes of a start tag, by its body. -/
def attributesOf (body : List Char) : List (List Char × List Char) :=
  attributes .between (body.dropWhile fun c => c != ' ' && c != '/')

/-! ## Reading -/

/-- The body of the first start tag with the local name `n`, and the tokens after it. -/
def after (n : List Char) : List Token → Option (List Char × List Token)
  | [] => none
  | .char _ :: ts => after n ts
  | .tag body :: ts => if starts n body then some (body, ts) else after n ts

/-- The tokens up to the first end tag with the local name `n`. -/
def upTo (n : List Char) : List Token → List Token
  | [] => []
  | .char c :: ts => .char c :: upTo n ts
  | .tag body :: ts => if ends n body then [] else .tag body :: upTo n ts

/-- What stands in an element with the start tag `body`, before the tokens `ts`. -/
def innerText (n body : List Char) (ts : List Token) : List Char :=
  if closesItself body then [] else (upTo n ts).flatMap Token.raw

variable {ε : Type}

/-- Character data as a reader returns it, refused by `bad` where it does not read. -/
def decoded (bad : ε) (cs : List Char) : Except ε String :=
  match unescape cs with
  | some s => .ok (String.ofList s)
  | none => .error bad

/-- The attribute `a` of the start tag `body`. -/
def attributeIn (bad : ε) (body : List Char) (a : String) : Except ε (Option String) :=
  match (attributesOf body).lookup a.toList with
  | some v => (decoded bad v).map some
  | none => .ok none

/-- A handle on the element with the start tag `body`, before the tokens `ts`. -/
def handle (bad : ε) (n body : List Char) (ts : List Token) : Handle ε where
  closedItself := closesItself body
  attributeOf := attributeIn bad body
  text := decoded bad (innerText n body ts)

/-- A handle on each element with the local name `n`. -/
def handles (bad : ε) (n : List Char) : List Token → List (Handle ε)
  | [] => []
  | .char _ :: ts => handles bad n ts
  | .tag body :: ts =>
    if starts n body then handle bad n body ts :: handles bad n ts else handles bad n ts

end FlatScan

open FlatScan

/-- The flat scan, refusing an undefined entity by `bad`. -/
def flatScan {ε : Type} (bad : ε) : Scanner ε where
  escape := quote
  content s n := (after n.toList (cut none s.toList)).map fun p =>
    String.ofList (innerText n.toList p.1 p.2)
  text s n := match after n.toList (cut none s.toList) with
    | some p => (decoded bad (innerText n.toList p.1 p.2)).map some
    | none => .ok none
  attributeOf s n a := match after n.toList (cut none s.toList) with
    | some p => attributeIn bad p.1 a
    | none => .ok none
  elements s n := handles bad n.toList (cut none s.toList)

end Markup
