import XmipAs4.Markup.Scanner
import XmipAs4.Multipart.Codec

/-!
# The estate

What the transport calls and does not define: the estate's XML scan and MIME codec
(`codec::xml`, `codec::mime`), the error and verdict types of `transport`, the request,
response and endpoint of `net::http`, and the few answers of the `http` crate.  All of
it is gathered in one parameter, `Estate`, and what the transport relies on is
`Estate.Lawful` and `Estate.Statuses`.

What differs from one call to the next without being handed in (the clock, the random
source, whatever a signer or a profile's check consults) is a `Moment`, given to each
call that looks at it.
-/

namespace As4

open Multipart (Bytes)

/-! ## Errors, verdicts, moments -/

/-- Why something failed, and whether trying it again may succeed. -/
structure TransportError where
  message : String
  retryable : Bool
  deriving DecidableEq

/-- What a fallible function of the transport returns. -/
abbrev Result := Except TransportError

/-- `Option::ok_or_else`: the value, or the error where there is none. -/
def okOr {α : Type} : Option α → TransportError → Result α
  | some a, _ => .ok a
  | none, e => .error e

/-- Why a message was refused by the cycle that received it. -/
inductive Refusal where
  | Unidentified
  | Forbidden
  | Unacceptable
  deriving DecidableEq

/-- How the cycle that received a message ended. -/
inductive Verdict where
  | Accepted
  | Refused (why : Refusal)
  | Failed
  deriving DecidableEq

/-- What one call sees of the world: the clock as RFC 3339 text, which holds no markup, 128
random bits in hex, a MIME boundary, and a tick, on which whatever else may differ between
calls depends. -/
structure Moment where
  clock : String
  random : String
  boundary : String
  tick : ℕ
  clock_plain : Markup.isPlain clock = true
  boundary_wf : Multipart.isBoundary boundary = true

/-! ## HTTP -/

/-- A peer's address, as it is displayed. -/
abbrev SocketAddr := String

/-- A request as it is on the wire. -/
structure Request where
  method : String
  path : String
  headers : List (String × String)
  body : Bytes
  deriving DecidableEq

/-- A request with neither headers nor a body. -/
def Request.new (method path : String) : Request :=
  ⟨method, path, [], []⟩

/-- The request with one more header. -/
def Request.header (r : Request) (name value : String) : Request :=
  { r with headers := r.headers ++ [(name, value)] }

/-- The request with a body. -/
def Request.withBody (r : Request) (body : Bytes) : Request :=
  { r with body := body }

/-- A response as it is on the wire. -/
structure Response where
  status : ℕ
  headers : List (String × String)
  body : Bytes
  deriving DecidableEq

/-- A response with neither headers nor a body. -/
def Response.new (status : ℕ) : Response :=
  ⟨status, [], []⟩

/-- The response with one more header. -/
def Response.header (r : Response) (name value : String) : Response :=
  { r with headers := r.headers ++ [(name, value)] }

/-- The response with a body. -/
def Response.withBody (r : Response) (body : Bytes) : Response :=
  { r with body := body }

/-- Where a Party is posted to. -/
structure Endpoint where
  path : String
  authority : String
  deriving DecidableEq

/-- The schemes an endpoint may be written in, plain and under TLS. -/
structure Schemes where
  plain : List String
  secure : List String

/-- What the request said of its sender: what it was made of. -/
structure Sender where
  request : Request
  peer : SocketAddr
  deriving DecidableEq

/-- What a request is heard as: answered at once, or waiting for its answer. -/
inductive Heard (α : Type) where
  | Answered (said : α) (answer : Response)
  | Waiting (said : α)

/-! ## The parameter -/

/-- The code this transport calls and does not define. -/
structure Estate where
  /-- `codec::xml`. -/
  xml : Markup.Scanner TransportError
  /-- `codec::mime`. -/
  mime : Multipart.Codec
  /-- `transport::error::protocol_error`. -/
  protocolError : String → TransportError
  /-- The text of a `Utf8Error`. -/
  utf8Error : Bytes → String
  /-- `header_value` of a request or a response. -/
  headerValue : List (String × String) → String → Option String
  /-- `net::Endpoint::parse_under`. -/
  parseUnder : String → Schemes → Result Endpoint
  /-- `http::server::refused`. -/
  refused : Refusal → ℕ
  /-- `http::server::FAILED`. -/
  failed : ℕ
  /-- `http::status::retryable`. -/
  retryable : ℕ → Bool

/-- What the transport relies on of the code it calls. -/
structure Estate.Lawful (L : Estate) : Prop where
  xml : L.xml.Lawful
  mime : L.mime.Lawful
  protocolError_final : ∀ s, (L.protocolError s).retryable = false
  headerValue_of : ∀ pre name value,
    (∀ h ∈ pre, Multipart.folded h.1 ≠ Multipart.folded name) →
      L.headerValue (pre ++ [(name, value)]) name = some value

/-- The statuses of the `http` crate and which of them say that a request may be sent again. -/
structure Estate.Statuses (L : Estate) : Prop where
  refused_mem : ∀ why, L.refused why ∈ [401, 403, 422]
  failed_eq : L.failed = 503
  retryable_of : ∀ s ∈ [500, 503], L.retryable s = true
  final_of : ∀ s ∈ [400, 401, 403, 422], L.retryable s = false

/-! ## Peeling results apart -/

@[simp] theorem ok_bind {α β : Type} (a : α) (f : α → Result β) :
    (Except.ok a >>= f : Result β) = f a := rfl

@[simp] theorem error_bind {α β : Type} (e : TransportError) (f : α → Result β) :
    ((Except.error e : Result α) >>= f) = Except.error e := rfl

@[simp] theorem okOr_some {α : Type} (a : α) (e : TransportError) : okOr (some a) e = .ok a := rfl

@[simp] theorem okOr_none {α : Type} (e : TransportError) :
    okOr (none : Option α) e = .error e := rfl

/-- A computation that succeeded went through its first step. -/
theorem bind_eq_ok {α β : Type} {x : Result α} {f : α → Result β} {b : β}
    (h : x >>= f = .ok b) : ∃ a, x = .ok a ∧ f a = .ok b := by
  cases x with
  | error e => exact absurd h (by simp)
  | ok a => exact ⟨a, rfl, h⟩

/-- A value was there where it was asked for. -/
theorem okOr_eq_ok {α : Type} {o : Option α} {e : TransportError} {a : α}
    (h : okOr o e = .ok a) : o = some a := by
  cases o with
  | none => exact absurd h (by simp)
  | some b =>
    rw [okOr_some, Except.ok.injEq] at h
    rw [h]

end As4
