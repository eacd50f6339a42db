import XmipAs4.Delivery.Run
import XmipAs4.Reference.Bench

/-!
# The far end that accepts at once

Runs of `accept_one` on one transport, call after call.  Where every answer reaches the
wire, the ids remembered are the last 1024 of those handed up, which gives the exact window
in which a message is not handed up again.  Where a connection breaks while the answer is
written, the id of a message that no caller was handed is remembered; a run without such a
call remembers only what was handed up.
-/

namespace As4

open Delivery (run outputs Along window Spaced)
open Multipart (Bytes)

/-! ## Runs -/

/-- A call of `accept_one`: when, and what became of the connection. -/
abbrev Call := Moment × Connection

/-- What a call told its caller, and what it answered. -/
abbrev Outcome := Result (Option (UserMessage × Taken)) × Option Response

/-- One call of `accept_one` on the transport. -/
def accepting (L : Estate) (t : As4Transport) (call : Call) : As4Transport × Outcome :=
  ((t.acceptOne L call.1 call.2).2, (t.acceptOne L call.1 call.2).1)

/-- A POST that is read off its connection, and whose answer reaches the wire. -/
structure Post where
  now : Moment
  request : Request
  peer : SocketAddr

/-- The call of `accept_one` that takes the POST. -/
def Post.call (p : Post) : Call :=
  (p.now, .read p.request p.peer (.ok ()))

/-- The id of the message that a call handed up, if it handed one up. -/
def handedUp (outcome : Outcome) : Option String :=
  match outcome.1 with
  | .ok (some (message, _)) => some message.messageId
  | _ => none

/-- The ids of the messages handed up in a run, in order. -/
def handUps (L : Estate) (t : As4Transport) (calls : List Call) : List String :=
  (outputs (accepting L) t calls).filterMap handedUp

section Runs

variable {L : Estate} {t : As4Transport}

/-- What a run of further calls hands up comes after. -/
theorem handUps_append (calls calls' : List Call) :
    handUps L t (calls ++ calls') =
      handUps L t calls ++ handUps L (run (accepting L) t calls) calls' := by
  rw [handUps, Delivery.outputs_append, List.filterMap_append]
  rfl

/-- What one more call hands up comes last. -/
theorem handUps_singleton (calls : List Call) (call : Call) :
    handUps L t (calls ++ [call]) = handUps L t calls ++
      (handedUp (accepting L (run (accepting L) t calls) call).2).toList := by
  rw [handUps_append]
  rfl

/-- A call tells its caller what the request was served as, where the answer is written. -/
theorem accepting_of_serve {now : Moment} {request : Request} {peer : SocketAddr}
    {said : Result (Option (UserMessage × Taken))} {answer : Response} {t' : As4Transport}
    (h : t.serve L now request peer = ((said, answer), t')) (written : Result Unit) :
    accepting L t (now, .read request peer written) =
      (t', (written >>= fun _ => said, some answer)) := by
  simp only [accepting, As4Transport.acceptOne, h]
  cases written <;> rfl

/-- A call changes nothing but what is remembered. -/
theorem accepting_eq (call : Call) :
    ∃ ids, (accepting L t call).1 = t.remembering ids := by
  obtain ⟨now, connection⟩ := call
  cases connection with
  | broken e => exact ⟨t.receipting.ids, rfl⟩
  | read request peer written =>
    obtain ⟨said, answer, ids, hserve, -⟩ := t.serves L now request peer
    rw [accepting_of_serve hserve]
    exact ⟨ids, rfl⟩

/-- A run changes nothing but what is remembered. -/
theorem run_accepting_eq (calls : List Call) :
    run (accepting L) t calls =
      t.remembering (run (accepting L) t calls).receipting.ids := by
  refine Delivery.run_invariant (fun s => s = t.remembering s.receipting.ids) ?_ ?_ calls
  · intro s call hs
    obtain ⟨ids, hids⟩ := accepting_eq (L := L) (t := s) call
    rw [hids, hs]
    rfl
  · rfl

/-- What a call does with a request that is read off its connection. -/
theorem accepting_read (now : Moment) (request : Request) (peer : SocketAddr)
    (written : Result Unit) :
    ∃ said answer ids, Serves L t now request peer said answer ids ∧
      (accepting L t (now, .read request peer written)).1 = t.remembering ids ∧
      (accepting L t (now, .read request peer written)).2 =
        (written >>= fun _ => said, some answer) := by
  obtain ⟨said, answer, ids, hserve, hserves⟩ := t.serves L now request peer
  rw [accepting_of_serve hserve]
  exact ⟨said, answer, ids, hserves, rfl, rfl⟩

end Runs

/-! ## Every answer reaches the wire -/

section Window

variable {L : Estate} {t : As4Transport}

/-- What a call does with a POST whose answer reaches the wire. -/
theorem accepting_post (p : Post) :
    ∃ said answer ids, Serves L t p.now p.request p.peer said answer ids ∧
      (accepting L t p.call).1 = t.remembering ids ∧
      (accepting L t p.call).2 = (said, some answer) := by
  obtain ⟨said, answer, ids, hserves, hstate, hout⟩ :=
    accepting_read (L := L) (t := t) p.now p.request p.peer (.ok ())
  exact ⟨said, answer, ids, hserves, hstate, hout⟩

/-- One POST keeps the store the window of the hand-ups, and the hand-ups spaced. -/
theorem window_step {h : List String} (hids : t.receipting.ids = window remembered h)
    (hspaced : Spaced remembered h) (p : Post) :
    (accepting L t p.call).1.receipting.ids =
        window remembered (h ++ (handedUp (accepting L t p.call).2).toList) ∧
      Spaced remembered (h ++ (handedUp (accepting L t p.call).2).toList) := by
  obtain ⟨said, answer, ids, hserves, hstate, hout⟩ := accepting_post (L := L) (t := t) p
  rw [hstate, hout, ids_remembering]
  cases hserves with
  | refused hnot => simpa [handedUp] using ⟨hids, hspaced⟩
  | again hunpack hadmits hseen hreceipt => simpa [handedUp] using ⟨hids, hspaced⟩
  | unsigned hunpack hadmits hreceipt => simpa [handedUp] using ⟨hids, hspaced⟩
  | @accepted m bytes a hunpack hadmits hnew hreceipt =>
    rw [hids] at hnew
    have hlist : (handedUp (.ok (some (m, (⟨originOf p.request p.peer m, bytes,
        ⟨p.request, p.peer⟩⟩ : Taken))), some answer)).toList = [m.messageId] := rfl
    rw [hlist, hids, Delivery.remember_window Receipting.remembered_pos hnew]
    exact ⟨rfl, hspaced.append_singleton hnew⟩

/-- After any POSTs the store is the window of the hand-ups, and the hand-ups are spaced. -/
theorem window_run (hids : t.receipting.ids = []) (posts : List Post) :
    (run (accepting L) t (posts.map Post.call)).receipting.ids =
        window remembered (handUps L t (posts.map Post.call)) ∧
      Spaced remembered (handUps L t (posts.map Post.call)) := by
  induction posts using List.reverseRecOn with
  | nil =>
    refine ⟨hids.trans ?_, Delivery.spaced_nil remembered⟩
    exact (Delivery.window_of_length_le (Nat.zero_le remembered)).symm
  | append_singleton posts p ih =>
    rw [List.map_append, List.map_singleton, Delivery.run_append, handUps_singleton]
    exact window_step ih.1 ih.2 p

/-- The exact window of a far end that takes POSTs one after another, every answer reaching
the wire.  A POST is handed up exactly where it is read, admitted, its Receipt is signed and
its id is not among those of the last 1024 messages handed up; a POST answered `200` has an
id handed up by then; and between two hand-ups of one id there are 1024 of other ids, no two
of them the same. -/
theorem acceptOne_window (hids : t.receipting.ids = []) (posts : List Post) :
    (∀ pre p post, posts = pre ++ p :: post →
      (∀ message taken,
        (accepting L (run (accepting L) t (pre.map Post.call)) p.call).2.1 =
            .ok (some (message, taken)) ↔
          ∃ bytes, t.unpack L p.now p.request = .ok (message, bytes) ∧
            t.admits L p.now message bytes = .ok () ∧
            (∃ receipt, t.receipting.receipt L p.now message = .ok receipt) ∧
            message.messageId ∉ window remembered (handUps L t (pre.map Post.call)) ∧
            taken = ⟨originOf p.request p.peer message, bytes, ⟨p.request, p.peer⟩⟩) ∧
      ∀ answer, (accepting L (run (accepting L) t (pre.map Post.call)) p.call).2.2 = some answer →
        answer.status = 200 →
          ∃ message bytes, t.unpack L p.now p.request = .ok (message, bytes) ∧
            message.messageId ∈ handUps L t ((pre ++ [p]).map Post.call)) ∧
    ∀ xs x ys zs, handUps L t (posts.map Post.call) = xs ++ x :: (ys ++ x :: zs) →
      ∃ ws, ws <:+ ys ∧ ws.length = remembered ∧ ws.Nodup ∧ x ∉ ws := by
  constructor
  · intro pre p post _
    obtain ⟨hwindow, -⟩ := window_run (L := L) hids pre
    have hsame := run_accepting_eq (L := L) (t := t) (pre.map Post.call)
    have hhand := handUps_singleton (L := L) (t := t) (pre.map Post.call) p.call
    set s := run (accepting L) t (pre.map Post.call) with hs
    obtain ⟨said, answer, ids, hserves, -, hout⟩ := accepting_post (L := L) (t := s) p
    rw [hsame, hwindow] at hserves
    constructor
    · intro message taken
      rw [hout]
      exact hserves.said_iff message taken
    · intro answer' hanswer hstatus
      rw [hout, Option.some.injEq] at hanswer
      subst hanswer
      rw [List.map_append, List.map_singleton, hhand, hout]
      obtain ⟨message, bytes, hunpack, hseen | ⟨taken, rfl⟩⟩ := hserves.of_status hstatus
      · refine ⟨message, bytes, hunpack, List.mem_append_left _ ?_⟩
        exact (Delivery.window_suffix remembered _).subset hseen
      · refine ⟨message, bytes, hunpack, List.mem_append_right _ ?_⟩
        simp [handedUp]
  · intro xs x ys zs heq
    exact (window_run (L := L) hids posts).2.exists_others heq

end Window

/-! ## The order sent twice on the bench -/

/-- The first call that takes the order remembers its id, whether or not the answer reaches
the wire. -/
theorem accepting_order (tick : ℕ) (written : Result Unit) :
    accepting bench seller (moment tick, .read orderRequest "peer" written) =
      (seller.remembering [order.messageId],
        (written >>= fun _ => .ok (some (order,
          ⟨originOf orderRequest "peer" order, goods, ⟨orderRequest, "peer"⟩⟩)),
          some (soap bench (moment tick) 200 (Signal.receipt bench (moment tick) order)))) := by
  obtain ⟨hunpack, hadmits, hreceipt⟩ := seller_takes_order tick []
  have hserve := As4Transport.serve_new "peer" hunpack hadmits List.not_mem_nil hreceipt
  have hids : Delivery.remember remembered order.messageId [] = [order.messageId] := by
    simp [Delivery.remember]
  rw [ids_remembering, hids] at hserve
  have hseller : seller.remembering [] = seller := rfl
  rw [hseller] at hserve
  exact accepting_of_serve hserve written

/-- A call that takes the order again receipts it, hands up nothing and stays as it was. -/
theorem accepting_order_again (tick : ℕ) (written : Result Unit) :
    accepting bench (seller.remembering [order.messageId])
        (moment tick, .read orderRequest "peer" written) =
      (seller.remembering [order.messageId], (written >>= fun _ => .ok none,
        some (soap bench (moment tick) 200 (Signal.receipt bench (moment tick) order)))) := by
  obtain ⟨hunpack, hadmits, hreceipt⟩ := seller_takes_order tick [order.messageId]
  have hserve := As4Transport.serve_again "peer" hunpack hadmits (List.mem_singleton.mpr rfl)
    hreceipt
  rw [accepting_of_serve hserve]

/-- The order as it is posted at a tick. -/
def orderPost (tick : ℕ) : Post :=
  ⟨moment tick, orderRequest, "peer"⟩

/-- The first of two POSTs of the order is handed up, and the second is not. -/
theorem acceptOne_window_order :
    (accepting bench seller (orderPost 1).call).2.1 =
      .ok (some (order, ⟨originOf orderRequest "peer" order, goods, ⟨orderRequest, "peer"⟩⟩)) ∧
    ∀ message taken, (accepting bench (run (accepting bench) seller [(orderPost 1).call])
      (orderPost 2).call).2.1 ≠ .ok (some (message, taken)) := by
  have hread : ∀ tick, seller.unpack bench (moment tick) orderRequest = .ok (order, goods) :=
    fun tick => unpack_order (fun _ _ _ => rfl) (moment tick)
  have hwindow := (acceptOne_window (L := bench) (t := seller) rfl [orderPost 1, orderPost 2]).1
  have hfirst := (hwindow [] (orderPost 1) [orderPost 2] rfl).1
  have hsecond := (hwindow [orderPost 1] (orderPost 2) [] rfl).1
  constructor
  · have hadmits : seller.admits bench (moment 1) order goods = .ok () := rfl
    have hsigned : ∃ a, seller.receipting.receipt bench (moment 1) order = .ok a :=
      ⟨_, Receipting.receipt_eq_ok.mpr ⟨_, rfl, rfl⟩⟩
    have hnone : window remembered (handUps bench seller ([].map Post.call)) = [] :=
      Delivery.window_of_length_le (Nat.zero_le remembered)
    have hiff := hfirst order
      ⟨originOf orderRequest "peer" order, goods, ⟨orderRequest, "peer"⟩⟩
    rw [hnone, List.map_nil, Delivery.run_nil] at hiff
    exact hiff.mpr ⟨goods, hread 1, hadmits, hsigned, List.not_mem_nil, rfl⟩
  · rw [List.map_cons, List.map_nil] at hsecond
    intro message taken hsaid
    obtain ⟨bytes, hunpack, -, -, hnew, -⟩ := (hsecond message taken).mp hsaid
    -- The one hand-up before it was of the order.
    have hhanded : handUps bench seller [(orderPost 1).call] = [order.messageId] := by
      have hone := accepting_order 1 (.ok ())
      have hlast := handUps_singleton (L := bench) (t := seller) [] (orderPost 1).call
      rw [List.nil_append, Delivery.run_nil] at hlast
      rw [hlast, orderPost, Post.call, hone]
      rfl
    have hlength : [order.messageId].length ≤ remembered := by
      rw [List.length_singleton]
      exact Receipting.remembered_pos
    have horder : message = order := (read_unique hunpack (hread 2)).1
    rw [hhanded, Delivery.window_of_length_le hlength, horder] at hnew
    exact hnew (List.mem_singleton.mpr rfl)

/-! ## Some answers do not reach the wire -/

/-- The call loses a message: its POST is new, read and admitted and its Receipt signed, and
the connection breaks while the Receipt is written. -/
def LosesMessage (L : Estate) (t : As4Transport) (call : Call) : Prop :=
  ∃ request peer e message bytes receipt, call.2 = .read request peer (.error e) ∧
    t.unpack L call.1 request = .ok (message, bytes) ∧
    t.admits L call.1 message bytes = .ok () ∧
    t.receipting.seen message.messageId = false ∧
    t.receipting.receipt L call.1 message = .ok receipt

/-- Some call of the run returned a message of the id to its caller, with the payload that
arrived with it. -/
def Returned (L : Estate) (t : As4Transport) (calls : List Call) (id : String) : Prop :=
  ∃ pre call post request peer message taken, calls = pre ++ call :: post ∧
    call.2 = .read request peer (.ok ()) ∧
    t.unpack L call.1 request = .ok (message, taken.bytes) ∧
    (accepting L (run (accepting L) t pre) call).2.1 = .ok (some (message, taken)) ∧
    message.messageId = id

section Lost

variable {L : Estate} {t : As4Transport}

/-- What was returned in a run was returned in the run continued. -/
theorem Returned.append {calls : List Call} {id : String} (h : Returned L t calls id)
    (calls' : List Call) : Returned L t (calls ++ calls') id := by
  obtain ⟨pre, call, post, request, peer, message, taken, rfl, hrest⟩ := h
  refine ⟨pre, call, post ++ calls', request, peer, message, taken, ?_, hrest⟩
  simp

/-- A call that loses no message remembers no id but one it returns. -/
theorem mem_ids_accepting {call : Call} (hkept : ¬ LosesMessage L t call) {id : String}
    (hid : id ∈ (accepting L t call).1.receipting.ids) :
    id ∈ t.receipting.ids ∨ ∃ request peer message taken, call.2 = .read request peer (.ok ()) ∧
      t.unpack L call.1 request = .ok (message, taken.bytes) ∧
      (accepting L t call).2.1 = .ok (some (message, taken)) ∧ message.messageId = id := by
  obtain ⟨now, connection⟩ := call
  cases connection with
  | broken e => exact .inl hid
  | read request peer written =>
    obtain ⟨said, answer, ids, hserves, hstate, hout⟩ :=
      accepting_read (L := L) (t := t) now request peer written
    rw [hstate, ids_remembering] at hid
    cases hserves with
    | refused _ => exact .inl hid
    | again _ _ _ _ => exact .inl hid
    | unsigned _ _ _ => exact .inl hid
    | @accepted m bytes a hunpack hadmits hnew hreceipt =>
      rcases Delivery.mem_of_mem_remember hid with hid | rfl
      · exact .inl hid
      · right
        cases written with
        | ok _ =>
          refine ⟨request, peer, m, ⟨originOf request peer m, bytes, ⟨request, peer⟩⟩, rfl,
            hunpack, ?_, rfl⟩
          rw [hout]
          rfl
        | error e =>
          exfalso
          exact hkept ⟨request, peer, e, m, bytes, _, rfl, hunpack, hadmits,
            t.receipting.seen_eq_false_iff.mpr hnew, hreceipt⟩

/-- In a run in which no call loses a message, every id remembered is one returned. -/
theorem returned_of_mem (hids : t.receipting.ids = []) (calls : List Call)
    (hkept : Along (accepting L) (fun s call => ¬ LosesMessage L s call) t calls) :
    ∀ id ∈ (run (accepting L) t calls).receipting.ids, Returned L t calls id := by
  induction calls using List.reverseRecOn with
  | nil =>
    intro id hid
    rw [Delivery.run_nil, hids] at hid
    exact absurd hid List.not_mem_nil
  | append_singleton calls call ih =>
    intro id hid
    have hlast := hkept.last
    have hbefore := ((Delivery.along_append (accepting L) t calls [call]).mp hkept).1
    have hsame := run_accepting_eq (L := L) (t := t) calls
    rw [Delivery.run_append] at hid
    rcases mem_ids_accepting hlast hid with hid | ⟨request, peer, message, taken, hread, hunpack,
        hsaid, hmessage⟩
    · exact (ih hbefore id hid).append [call]
    · rw [hsame, unpack_remembering] at hunpack
      exact ⟨calls, call, [], request, peer, message, taken, rfl, hread, hunpack, hsaid, hmessage⟩

/-- Where no call of a run loses a message, an id is remembered only if a call returned that
message and its payload to its caller, and a POST is answered `200` without being handed up
only if the message of its id was returned before. -/
theorem remembered_was_returned (hids : t.receipting.ids = []) (calls : List Call)
    (hkept : Along (accepting L) (fun s call => ¬ LosesMessage L s call) t calls) :
    (∀ id ∈ (run (accepting L) t calls).receipting.ids, Returned L t calls id) ∧
    ∀ pre call post, calls = pre ++ call :: post → ∀ answer,
      (accepting L (run (accepting L) t pre) call).2.2 = some answer → answer.status = 200 →
      (∀ message taken, (accepting L (run (accepting L) t pre) call).2.1 ≠
        .ok (some (message, taken))) →
      ∃ request peer written message bytes, call.2 = .read request peer written ∧
        t.unpack L call.1 request = .ok (message, bytes) ∧ Returned L t pre message.messageId := by
  refine ⟨returned_of_mem hids calls hkept, ?_⟩
  rintro pre ⟨now, connection⟩ post rfl answer hanswer hstatus hnot
  obtain ⟨hbefore, hcall, -⟩ := (Delivery.along_append (accepting L) t pre _).mp hkept
  have hsame := run_accepting_eq (L := L) (t := t) pre
  cases connection with
  | broken e =>
    have hnone : (none : Option Response) = some answer := hanswer
    cases hnone
  | read request peer written =>
    obtain ⟨said, answer', ids, hserves, -, hout⟩ :=
      accepting_read (L := L) (t := run (accepting L) t pre) now request peer written
    rw [hout, Option.some.injEq] at hanswer
    subst hanswer
    obtain ⟨message, bytes, hunpack, hseen | ⟨taken, hsaid⟩⟩ := hserves.of_status hstatus
    · rw [hsame, unpack_remembering] at hunpack
      exact ⟨request, peer, written, message, bytes, rfl, hunpack,
        returned_of_mem hids pre hbefore _ hseen⟩
    · exfalso
      cases written with
      | ok _ => exact hnot message taken (by rw [hout]; exact hsaid)
      | error e =>
        obtain ⟨bytes', hunpack', hadmits, ⟨receipt, hreceipt⟩, hnew, -⟩ :=
          (hserves.said_iff message taken).mp hsaid
        exact hcall ⟨request, peer, e, message, bytes', receipt, rfl, hunpack', hadmits,
          (Receipting.seen_eq_false_iff _).mpr hnew, hreceipt⟩

end Lost

/-! ## A message lost on the bench -/

/-- The order arrives and is accepted, and the connection breaks while its Receipt is
written. -/
def brokenCall : Call :=
  (moment 1, .read orderRequest "peer" (.error ⟨"connection reset", true⟩))

/-- The order is sent again, and the answer reaches the wire. -/
def resentCall : Call :=
  (moment 2, .read orderRequest "peer" (.ok ()))

/-- The order is lost: no call returns it, its id is remembered, and sent again it is
answered a Receipt and not handed up. -/
theorem lost_behind_receipt :
    order.messageId ∈ (run (accepting bench) seller [brokenCall]).receipting.ids ∧
    (∃ receipt, receipt.status = 200 ∧
      (accepting bench (run (accepting bench) seller [brokenCall]) resentCall).2 =
        (.ok none, some receipt)) ∧
    ∀ outcome ∈ outputs (accepting bench) seller [brokenCall, resentCall],
      handedUp outcome = none := by
  have hfirst := accepting_order 1 (.error ⟨"connection reset", true⟩)
  have hsecond : (accepting bench (seller.remembering [order.messageId]) resentCall).2 =
      (.ok none, some (soap bench (moment 2) 200 (Signal.receipt bench (moment 2) order))) := by
    rw [resentCall, accepting_order_again]
    rfl
  have hstate : (accepting bench seller brokenCall).1 = seller.remembering [order.messageId] := by
    rw [brokenCall, hfirst]
  refine ⟨?_, ?_, ?_⟩
  · rw [Delivery.run_cons, Delivery.run_nil, hstate]
    exact List.mem_singleton.mpr rfl
  · rw [Delivery.run_cons, Delivery.run_nil, hstate]
    exact ⟨_, rfl, hsecond⟩
  · intro outcome houtcome
    rw [Delivery.outputs_cons, Delivery.outputs_cons, Delivery.outputs_nil, hstate, brokenCall,
      hfirst, hsecond] at houtcome
    simp only [List.mem_cons, List.not_mem_nil, or_false] at houtcome
    rcases houtcome with rfl | rfl
    · rfl
    · rfl

/-- The connection breaks before anything is read off it. -/
def resetCall : Call :=
  (moment 1, .broken ⟨"connection reset", true⟩)

/-- The order is sent once more, and the connection breaks while it is receipted again. -/
def repeatedCall : Call :=
  (moment 3, .read orderRequest "peer" (.error ⟨"connection reset", true⟩))

/-- Where connections break but before a POST is read, or as a message is receipted again, the
order is remembered for the call that returned it, and so is what is receipted again. -/
theorem remembered_was_returned_order :
    Returned bench seller [resetCall, resentCall, repeatedCall] order.messageId ∧
    (∃ receipt, receipt.status = 200 ∧
      (accepting bench (run (accepting bench) seller [resetCall, resentCall]) repeatedCall).2 =
        (.error ⟨"connection reset", true⟩, some receipt)) ∧
    Returned bench seller [resetCall, resentCall] order.messageId := by
  have hreset : (accepting bench seller resetCall).1 = seller := rfl
  have hresent : (accepting bench seller resentCall).1 =
      seller.remembering [order.messageId] := by
    rw [resentCall, accepting_order]
  have hstate : run (accepting bench) seller [resetCall, resentCall] =
      seller.remembering [order.messageId] := by
    rw [Delivery.run_cons, hreset, Delivery.run_cons, hresent, Delivery.run_nil]
  have hrepeated : accepting bench (run (accepting bench) seller [resetCall, resentCall])
      repeatedCall = (seller.remembering [order.messageId], .error ⟨"connection reset", true⟩,
        some (soap bench (moment 3) 200 (Signal.receipt bench (moment 3) order))) := by
    rw [hstate, repeatedCall, accepting_order_again]
    rfl
  have hkept : Along (accepting bench) (fun s call => ¬ LosesMessage bench s call) seller
      [resetCall, resentCall, repeatedCall] := by
    refine ⟨?_, ?_, ?_, trivial⟩
    · rintro ⟨request, peer, e, message, bytes, receipt, hread, -⟩
      cases hread
    · rintro ⟨request, peer, e, message, bytes, receipt, hread, -⟩
      cases hread
    · rw [hreset, hresent]
      rintro ⟨request, peer, e, message, bytes, receipt, hread, hunpack, -, hnew, -⟩
      cases hread
      -- The order it takes was seen before, so nothing is lost with it.
      have horder := (seller_takes_order 3 [order.messageId]).1
      rw [(read_unique hunpack horder).1, Receipting.seen_eq_false_iff] at hnew
      exact hnew (List.mem_singleton.mpr rfl)
  obtain ⟨hids, hreceipts⟩ := remembered_was_returned (L := bench) (t := seller) rfl
    [resetCall, resentCall, repeatedCall] hkept
  refine ⟨hids _ ?_, ?_, ?_⟩
  · rw [Delivery.run_cons, Delivery.run_cons, Delivery.run_cons, Delivery.run_nil]
    rw [Delivery.run_cons, Delivery.run_cons, Delivery.run_nil] at hrepeated
    rw [hrepeated]
    exact List.mem_singleton.mpr rfl
  · rw [hrepeated]
    exact ⟨_, rfl, rfl⟩
  · obtain ⟨request, peer, written, message, bytes, hread, hunpack, hreturned⟩ :=
      hreceipts [resetCall, resentCall] repeatedCall [] rfl _ (by rw [hrepeated]) rfl (by
        intro message taken
        rw [hrepeated]
        intro h
        cases h)
    cases hread
    have horder : seller.unpack bench (moment 3) orderRequest = .ok (order, goods) :=
      unpack_order (fun _ _ _ => rfl) (moment 3)
    rw [(read_unique hunpack horder).1] at hreturned
    exact hreturned

end As4
