import Rfsis.Echo.Server
import Rfsis.Pico.Address
import Rfsis.Pieces

/-!
The UDP echo of `udpechoserver.hpp`: `cb_udpecho` and the receive queue it drains.

`pico_udp_recv` hands out the head of the queue. What is longer than the buffer
comes in pieces, and an empty datagram is answered with 0, as an empty queue is.
The loop of `cb_udpecho` takes every positive answer for a datagram and 0 for
the end of the queue. So one call handles the pieces of all datagrams before the
first empty one, drops that one and leaves the rest (`cbUdpecho_read`), and every
datagram gets its one reply exactly when none is empty or longer than the buffer
(`cb_udpecho_replies_iff`).

The socket is bound and `udpecho_pas` is set, allocation and `pico_timer_add` do
not fail, and no datagram comes in during a call: the stack runs in the same
thread.
-/

namespace Rfsis.Echo

open Rfsis.Pico Rfsis.Pieces

/-- The longest payload of a UDP datagram over IPv4. -/
abbrev maxUdpPayload : Nat := 65507

/-- A frame in the receive queue: its network origin, the source port in its
header, and the payload as far as it has not been handed out. -/
structure UdpFrame where
  origin : Ip4
  sport : UInt16
  payload : List UInt8
  fits : payload.length ≤ maxUdpPayload
deriving DecidableEq, Repr

/-- `f->payload += len` with the length adjusted. -/
def UdpFrame.advance (f : UdpFrame) (len : Nat) : UdpFrame where
  origin := f.origin
  sport := f.sport
  payload := f.payload.drop len
  fits := by
    rw [List.length_drop]
    exact Nat.le_trans (Nat.sub_le _ _) f.fits

/-- What `pico_udp_recv` returns and writes, and the queue after it. -/
structure RecvAnswer where
  ret : Nat
  data : List UInt8
  src : Ip4
  port : UInt16
  qIn : List UdpFrame
deriving DecidableEq, Repr

/-- `pico_udp_recv`. An empty queue leaves `src` and `port` as they were. -/
def picoUdpRecv (qIn : List UdpFrame) (len : Nat) (src : Ip4) (port : UInt16) : RecvAnswer :=
  match qIn with
  | [] => ⟨0, [], src, port, []⟩
  | f :: rest =>
      if len < f.payload.length then
        ⟨len, f.payload.take len, f.origin, f.sport, f.advance len :: rest⟩
      else ⟨f.payload.length, f.payload, f.origin, f.sport, rest⟩

/-- `udpecho_pas->datasize`, as `udpecho_start` sets it. -/
abbrev datasize : Nat := 5000

/-- The three bytes "end". -/
def endBytes : List UInt8 := [0x65, 0x6e, 0x64]

/-- `strncmp(recvbuf, "end", 3) == 0`; none of the three bytes is a terminator. -/
def beginsEnd (recvbuf : Nat → UInt8) : Prop :=
  segment recvbuf 0 3 = endBytes

instance (recvbuf : Nat → UInt8) : Decidable (beginsEnd recvbuf) :=
  inferInstanceAs (Decidable (_ = _))

/-- A call `pico_socket_sendto(s, "Hello from ACTIVE!", 20, &peer, port)`. Not in
the program: `datagram` numbers the datagram in the loop's hands, in the order in
which the socket received them. -/
structure Sendto where
  peer : Ip4
  port : UInt16
  datagram : Nat
deriving DecidableEq, Repr

/-- The receive queue and the globals of the UDP echo. `timers` keeps the delays
of the calls `pico_timer_add(.., deferred_exit, udpecho_pas)`, `exited` the status
of a call of `exit`, and `handed` counts the datagrams that have left the queue. -/
structure UdpEcho where
  qIn : List UdpFrame := []
  handed : Nat := 0
  udpechoExit : Int := 0
  timers : List Nat := []
  sent : List Sendto := []
  exited : Option Int := none
deriving DecidableEq, Repr

/-- The local variables of the loop of `cb_udpecho`. -/
structure UdpLocals where
  recvbuf : Nat → UInt8
  peer : Ip4
  port : UInt16

/-- The branch `r > 0` of the loop, with the number of the datagram. -/
def UdpEcho.reply (app : UdpEcho) (l : UdpLocals) (datagram : Nat) : UdpEcho :=
  let app :=
    if beginsEnd l.recvbuf then
      { app with timers := app.timers ++ [1000], udpechoExit := app.udpechoExit + 1 }
    else app
  { app with sent := app.sent ++ [⟨l.peer, l.port, datagram⟩] }

/-- The loop of `cb_udpecho`; each turn takes something out of the queue or ends it. -/
def udpRecvLoop : Nat → UdpLocals → UdpEcho → UdpEcho
  | 0, _, app => app
  | fuel + 1, l, app =>
      let a := picoUdpRecv app.qIn datasize l.peer l.port
      let l : UdpLocals := { recvbuf := overwrite l.recvbuf a.data, peer := a.src, port := a.port }
      let datagram := app.handed
      let app := { app with
        qIn := a.qIn
        handed := app.handed + (app.qIn.length - a.qIn.length) }
      if 0 < a.ret then udpRecvLoop fuel l (app.reply l datagram) else app

/-- Enough turns for any call of the loop. -/
def udpRecvFuel (qIn : List UdpFrame) : Nat :=
  (qIn.map fun f => f.payload.length + 1).sum + 1

/-- `cb_udpecho`. The buffer comes from `calloc`; `peer` has no value before the
first `pico_socket_recvfrom`, and nothing reads it then. -/
def cbUdpecho (ev : BitVec 16) (app : UdpEcho) : UdpEcho :=
  if app.udpechoExit ≠ 0 then app
  else
    let app :=
      if raised ev picoSockEvFin then { app with timers := app.timers ++ [2000] } else app
    let app :=
      if ev.setWidth 32 = picoSockEvRd then
        udpRecvLoop (udpRecvFuel app.qIn) { recvbuf := fun _ => 0, peer := 0, port := 0 } app
      else app
    if ev.setWidth 32 = picoSockEvErr then { app with exited := some 7 } else app

/-- The event `PICO_SOCK_EV_RD` alone. -/
def evRd : BitVec 16 := 1

/-! ### The loop as a whole -/

/-- A positive answer of `pico_socket_recvfrom`, with the number of its datagram. -/
structure Reception where
  data : List UInt8
  peer : Ip4
  port : UInt16
  datagram : Nat
deriving DecidableEq, Repr

/-- The call of `pico_socket_sendto` for a positive answer. -/
def Reception.sendto (r : Reception) : Sendto :=
  ⟨r.peer, r.port, r.datagram⟩

/-- The answer for a piece of the `i`-th datagram. -/
def UdpFrame.reception (f : UdpFrame) (i : Nat) (data : List UInt8) : Reception :=
  ⟨data, f.origin, f.sport, i⟩

/-- The positive answers that a call gets, when the head of the queue is the `i`-th datagram. -/
def receptions : List UdpFrame → Nat → List Reception
  | [], _ => []
  | f :: q, i =>
      if f.payload = [] then []
      else (pieces datasize f.payload).map (f.reception i) ++ receptions q (i + 1)

/-- The datagrams that a call leaves in the queue: those behind the first empty one. -/
def behindEmpty : List UdpFrame → List UdpFrame
  | [] => []
  | f :: q => if f.payload = [] then q else behindEmpty q

/-- How often the test for "end" succeeds in the course of these answers. -/
def triggers (recvbuf : Nat → UInt8) (rs : List Reception) : Nat :=
  hits beginsEnd overwrite recvbuf (rs.map Reception.data)

variable {f : UdpFrame} {q : List UdpFrame} {i fuel : Nat} {l : UdpLocals} {app : UdpEcho}

theorem UdpFrame.payload_ne_nil (long : datasize < f.payload.length) : f.payload ≠ [] :=
  List.ne_nil_of_length_pos (Nat.lt_of_le_of_lt (Nat.zero_le _) long)

/-- Something is left of a datagram that does not fit into the buffer. -/
theorem UdpFrame.advance_ne_nil (long : datasize < f.payload.length) :
    (f.advance datasize).payload ≠ [] := by
  apply List.ne_nil_of_length_pos
  rw [UdpFrame.advance, List.length_drop]
  omega

theorem receptions_long (long : datasize < f.payload.length) :
    receptions (f :: q) i =
      f.reception i (f.payload.take datasize) :: receptions (f.advance datasize :: q) i := by
  rw [receptions, receptions, if_neg (UdpFrame.payload_ne_nil long),
    if_neg (UdpFrame.advance_ne_nil long), pieces_of_lt (by decide) long]
  rfl

theorem behindEmpty_long (long : datasize < f.payload.length) :
    behindEmpty (f :: q) = behindEmpty (f.advance datasize :: q) := by
  rw [behindEmpty, behindEmpty, if_neg (UdpFrame.payload_ne_nil long),
    if_neg (UdpFrame.advance_ne_nil long)]

theorem receptions_whole (some : f.payload ≠ []) (fits : f.payload.length ≤ datasize) :
    receptions (f :: q) i = f.reception i f.payload :: receptions q (i + 1) := by
  rw [receptions, if_neg some, pieces_of_le some fits]
  rfl

theorem receptions_empty (empty : f.payload = []) : receptions (f :: q) i = [] :=
  if_pos empty

/-- The state after a call's loop that starts with this buffer, in closed form. -/
def UdpEcho.drained (app : UdpEcho) (recvbuf : Nat → UInt8) : UdpEcho :=
  let rs := receptions app.qIn app.handed
  { app with
    qIn := behindEmpty app.qIn
    handed := app.handed + (app.qIn.length - (behindEmpty app.qIn).length)
    udpechoExit := app.udpechoExit + triggers recvbuf rs
    timers := app.timers ++ List.replicate (triggers recvbuf rs) 1000
    sent := app.sent ++ rs.map Reception.sendto }

theorem behindEmpty_length_le (q : List UdpFrame) : (behindEmpty q).length ≤ q.length := by
  induction q with
  | nil => exact Nat.le_refl 0
  | cons f q ih =>
      rw [behindEmpty, List.length_cons]
      split
      · exact Nat.le_succ q.length
      · exact Nat.le_succ_of_le ih

/-- The queue and the count after a receive. -/
def UdpEcho.take (app : UdpEcho) (qIn : List UdpFrame) (handed : Nat) : UdpEcho :=
  { app with qIn := qIn, handed := handed }

theorem triggers_cons (recvbuf : Nat → UInt8) (r : Reception) (rs : List Reception) :
    triggers recvbuf (r :: rs) =
      (if beginsEnd (overwrite recvbuf r.data) then 1 else 0) +
        triggers (overwrite recvbuf r.data) rs := rfl

/-- The closed form, by the first positive answer. -/
theorem UdpEcho.drained_cons (app : UdpEcho) (q : List UdpFrame) (handed : Nat)
    (recvbuf : Nat → UInt8) {r : Reception}
    (first : receptions app.qIn app.handed = r :: receptions q handed)
    (left : behindEmpty app.qIn = behindEmpty q)
    (count : app.handed + app.qIn.length = handed + q.length) :
    app.drained recvbuf =
      ((app.take q handed).reply ⟨overwrite recvbuf r.data, r.peer, r.port⟩ r.datagram).drained
        (overwrite recvbuf r.data) := by
  have fewer := behindEmpty_length_le q
  have fewer' := behindEmpty_length_le app.qIn
  rw [left] at fewer'
  have handed_ : app.handed + (app.qIn.length - (behindEmpty q).length) =
      handed + (q.length - (behindEmpty q).length) := by omega
  by_cases now : beginsEnd (overwrite recvbuf r.data)
  · simp [UdpEcho.drained, UdpEcho.reply, UdpEcho.take, now, first, left, handed_, triggers_cons,
      Reception.sendto, List.replicate_add, Int.add_assoc]
  · simp [UdpEcho.drained, UdpEcho.reply, UdpEcho.take, now, first, left, handed_, triggers_cons,
      Reception.sendto]

theorem picoUdpRecv_long {len : Nat} {src : Ip4} {port : UInt16} (long : len < f.payload.length) :
    picoUdpRecv (f :: q) len src port =
      ⟨len, f.payload.take len, f.origin, f.sport, f.advance len :: q⟩ :=
  if_pos long

theorem picoUdpRecv_whole {len : Nat} {src : Ip4} {port : UInt16} (fits : f.payload.length ≤ len) :
    picoUdpRecv (f :: q) len src port = ⟨f.payload.length, f.payload, f.origin, f.sport, q⟩ :=
  if_neg (Nat.not_lt.mpr fits)

/-- One turn of the loop. -/
theorem udpRecvLoop_succ (fuel : Nat) (l : UdpLocals) (app : UdpEcho) :
    udpRecvLoop (fuel + 1) l app =
      let a := picoUdpRecv app.qIn datasize l.peer l.port
      let l : UdpLocals := ⟨overwrite l.recvbuf a.data, a.src, a.port⟩
      let mid := app.take a.qIn (app.handed + (app.qIn.length - a.qIn.length))
      if 0 < a.ret then udpRecvLoop fuel l (mid.reply l app.handed) else mid := rfl

@[simp] theorem UdpEcho.reply_qIn (app : UdpEcho) (l : UdpLocals) (datagram : Nat) :
    (app.reply l datagram).qIn = app.qIn := by
  unfold UdpEcho.reply
  split <;> rfl

/-- The loop ends by itself, in the state of the closed form. -/
theorem udpRecvLoop_eq (enough : udpRecvFuel app.qIn ≤ fuel) :
    udpRecvLoop fuel l app = app.drained l.recvbuf := by
  induction fuel generalizing l app with
  | zero => simp [udpRecvFuel] at enough
  | succ fuel ih =>
      rw [udpRecvLoop_succ]
      cases queue : app.qIn with
      | nil =>
          simp [picoUdpRecv, UdpEcho.take, UdpEcho.drained, receptions, behindEmpty, triggers,
            hits, queue]
      | cons f q =>
          simp only [udpRecvFuel, queue, List.map_cons, List.sum_cons] at enough
          have room : 0 < datasize := by decide
          by_cases long : datasize < f.payload.length
          · -- a full piece; the rest of the datagram stays at the head
            rw [picoUdpRecv_long long]
            have more : udpRecvFuel (f.advance datasize :: q) ≤ fuel := by
              simp only [udpRecvFuel, UdpFrame.advance, List.map_cons, List.sum_cons,
                List.length_drop]
              omega
            have turn := app.drained_cons (f.advance datasize :: q) app.handed l.recvbuf
              (queue ▸ receptions_long long) (queue ▸ behindEmpty_long long) (by rw [queue]; rfl)
            simp [ih, more, turn, UdpEcho.take, UdpFrame.reception]
          · have fits : f.payload.length ≤ datasize := Nat.not_lt.mp long
            rw [picoUdpRecv_whole fits]
            have more : udpRecvFuel q ≤ fuel := by
              rw [udpRecvFuel]
              omega
            by_cases empty : f.payload = []
            · -- the answer 0 for an empty datagram
              simp [empty, UdpEcho.take, UdpEcho.drained, receptions, behindEmpty, triggers, hits,
                queue]
            · have some := List.length_pos_iff.mpr empty
              have turn := app.drained_cons q (app.handed + 1) l.recvbuf
                (queue ▸ receptions_whole empty fits) (by rw [queue, behindEmpty, if_neg empty])
                (by rw [queue, List.length_cons]; omega)
              simp [ih, more, turn, some, UdpEcho.take, UdpFrame.reception]

/-- What a call for `PICO_SOCK_EV_RD` does before the shutdown has been asked for. -/
theorem cbUdpecho_read (idle : app.udpechoExit = 0) :
    cbUdpecho evRd app = app.drained fun _ => 0 := by
  have bits : raised evRd picoSockEvFin = false ∧ evRd.setWidth 32 = picoSockEvRd ∧
      picoSockEvRd ≠ picoSockEvErr := by decide
  obtain ⟨fin, rd, err⟩ := bits
  simp only [cbUdpecho, idle, fin, rd, err, ne_eq, not_true_eq_false, if_false, if_true,
    Bool.false_eq_true]
  exact udpRecvLoop_eq (Nat.le_refl _)

theorem cbUdpecho_exiting (asked : app.udpechoExit ≠ 0) (ev : BitVec 16) :
    cbUdpecho ev app = app :=
  if_pos asked

/-! ### One reply for each datagram -/

/-- The reply to a datagram: to its source address and port. -/
def UdpFrame.answer (f : UdpFrame) (i : Nat) : Sendto :=
  ⟨f.origin, f.sport, i⟩

/-- The queue is empty, and `pico_socket_sendto` has been called exactly once for
every datagram that was in it, in their order, to its source. -/
def OneReplyEach (app after : UdpEcho) : Prop :=
  after.qIn = [] ∧
    after.sent = app.sent ++ (app.qIn.zipIdx app.handed).map fun (f, i) => f.answer i

instance (app after : UdpEcho) : Decidable (OneReplyEach app after) :=
  inferInstanceAs (Decidable (_ ∧ _))

/-- The datagram is handed out in one piece, with a positive answer. -/
def UdpFrame.Whole (f : UdpFrame) : Prop :=
  0 < f.payload.length ∧ f.payload.length ≤ datasize

instance (f : UdpFrame) : Decidable f.Whole :=
  inferInstanceAs (Decidable (_ ∧ _))

theorem UdpFrame.Whole.payload_ne_nil (whole : f.Whole) : f.payload ≠ [] :=
  List.length_pos_iff.mp whole.1

theorem behindEmpty_of_whole (whole : ∀ f ∈ q, f.Whole) : behindEmpty q = [] := by
  induction q with
  | nil => rfl
  | cons f q ih =>
      rw [behindEmpty, if_neg (whole f List.mem_cons_self).payload_ne_nil]
      exact ih fun g mem => whole g (List.mem_cons_of_mem f mem)

/-- The first answer for a datagram that is not empty carries its number. -/
theorem receptions_head (some : f.payload ≠ []) :
    ∃ data rs, receptions (f :: q) i = f.reception i data :: rs := by
  by_cases long : datasize < f.payload.length
  · exact ⟨_, _, receptions_long long⟩
  · exact ⟨_, _, receptions_whole some (Nat.not_lt.mp long)⟩

/-- The replies of a call are one for each datagram exactly when all are whole. -/
theorem receptions_sendto_iff :
    ((receptions q i).map Reception.sendto = (q.zipIdx i).map fun (f, i) => f.answer i) ↔
      ∀ f ∈ q, f.Whole := by
  induction q generalizing i with
  | nil => simp [receptions]
  | cons f q ih =>
      rw [List.forall_mem_cons, List.zipIdx_cons, List.map_cons]
      by_cases empty : f.payload = []
      · -- the call ends here without a reply
        simp [receptions_empty, empty, UdpFrame.Whole]
      · by_cases long : datasize < f.payload.length
        · -- the second piece gets a reply of its own
          have notWhole : ¬f.Whole := fun whole => Nat.not_lt.mpr whole.2 long
          obtain ⟨data, rs, second⟩ :=
            receptions_head (q := q) (i := i) (UdpFrame.advance_ne_nil long)
          rw [receptions_long long, second]
          refine iff_of_false ?_ fun both => notWhole both.1
          intro same
          have tails := (List.cons_eq_cons.mp same).2
          cases q with
          | nil => cases tails
          | cons g q =>
              have number := congrArg Sendto.datagram (List.cons_eq_cons.mp tails).1
              have same : i = i + 1 := number
              omega
        · have fits : f.payload.length ≤ datasize := Nat.not_lt.mp long
          have whole : f.Whole := ⟨List.length_pos_iff.mpr empty, fits⟩
          rw [receptions_whole empty fits, List.map_cons]
          constructor
          · intro same
            exact ⟨whole, ih.mp (List.cons_eq_cons.mp same).2⟩
          · rintro ⟨-, rest⟩
            exact List.cons_eq_cons.mpr ⟨rfl, ih.mpr rest⟩

/-- **One reply per datagram** is what a call gives exactly when every datagram in
the queue has at least one byte and fits into the buffer. -/
theorem cb_udpecho_replies_iff (idle : app.udpechoExit = 0) :
    OneReplyEach app (cbUdpecho evRd app) ↔ ∀ f ∈ app.qIn, f.Whole := by
  rw [cbUdpecho_read idle, OneReplyEach, ← receptions_sendto_iff]
  constructor
  · rintro ⟨-, replies⟩
    exact List.append_cancel_left replies
  · intro replies
    have whole := receptions_sendto_iff.mp replies
    exact ⟨behindEmpty_of_whole whole, congrArg (app.sent ++ ·) replies⟩

/-- A datagram of a host in 10.0.0.0/24. -/
def hostFrame (host : UInt8) (payload : List UInt8)
    (fits : payload.length ≤ maxUdpPayload := by decide) : UdpFrame where
  origin := longFrom #v[10, 0, 0, host]
  sport := shortBe 4000
  payload := payload
  fits := fits

/-- Two hosts, one datagram each. -/
theorem cb_udpecho_replies_iff_two :
    OneReplyEach { qIn := [hostFrame 1 [0x61], hostFrame 2 endBytes] }
      (cbUdpecho evRd { qIn := [hostFrame 1 [0x61], hostFrame 2 endBytes] }) :=
  (cb_udpecho_replies_iff rfl).mpr (by decide)

/-- An empty datagram gets no reply, and one behind it waits. -/
theorem cb_udpecho_strands :
    (∃ app : UdpEcho, app.udpechoExit = 0 ∧ app.qIn = [hostFrame 1 []] ∧
      (cbUdpecho evRd app).sent = [] ∧ ¬OneReplyEach app (cbUdpecho evRd app)) ∧
    ∃ app : UdpEcho, app.udpechoExit = 0 ∧ app.qIn = [hostFrame 1 [], hostFrame 2 [0x61]] ∧
      (cbUdpecho evRd app).qIn = [hostFrame 2 [0x61]] ∧ (cbUdpecho evRd app).sent = [] ∧
        ¬OneReplyEach app (cbUdpecho evRd app) :=
  ⟨⟨{ qIn := [hostFrame 1 []] }, by decide⟩,
    { qIn := [hostFrame 1 [], hostFrame 2 [0x61]] }, by decide⟩

end Rfsis.Echo
