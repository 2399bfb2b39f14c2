import Rfsis.Echo.HalfClose

/-!
Progress of the echo on an open connection.

* `echo_drains_iff` — when received data is left in the socket although the
  buffer has room: the read branch is the only one that reads, and both branches
  may empty a full buffer.
* `echo_wakes` — the write credit is never lost: bytes that wait, or a cleared
  credit, always come with a `PICO_SOCK_EV_WR` that is still owed.

Both rest on `Conn.call_open`, the effect of a call without a close event.
-/

namespace Rfsis.Echo

open Rfsis.Offers

variable {s : Sock} {w : World TcpSock} {es : List TcpEvent} {c : Conn} {ev : BitVec 16}

/-- Neither side has closed the connection. -/
def Conn.Open (c : Conn) : Prop :=
  c.sock.shutLocal = false ∧ c.sock.remoteClosed = false

/-- The event does not close the connection either. -/
def TcpEvent.Open (e : TcpEvent) : Prop :=
  e.fin = false ∧ raised e.ev picoSockEvClose = false ∧ raised e.ev picoSockEvFin = false ∧
    raised e.ev picoSockEvErr = false

instance (e : TcpEvent) : Decidable e.Open :=
  inferInstanceAs (Decidable (_ ∧ _ ∧ _ ∧ _))

/-! ### One call on an open connection -/

/-- The bytes that a call reads. -/
def Conn.gets (c : Conn) (ev : BitVec 16) (reads : List Int) : Nat :=
  if raised ev picoSockEvRd then c.taken reads else 0

/-- The bytes that the read branch of a call sends, out of `n`. -/
def Conn.echoes (c : Conn) (ev : BitVec 16) (n : Nat) : Nat :=
  if raised ev picoSockEvRd ∧ c.wr then Offers.taken c.sock.writes n else 0

/-- The answers that the read branch leaves to the write branch. -/
def Conn.answersLeft (c : Conn) (ev : BitVec 16) (n : Nat) : List Int :=
  if raised ev picoSockEvRd ∧ c.wr then rest c.sock.writes n else c.sock.writes

/-- The bytes that the write branch of a call sends, out of `n` before the read branch. -/
def Conn.resumes (c : Conn) (ev : BitVec 16) (n : Nat) : Nat :=
  if raised ev picoSockEvWr then Offers.taken (c.answersLeft ev n) (n - c.echoes ev n) else 0

/-- `d` has sent `k` of the bytes that wait in `c`. -/
structure Conn.Sends (c : Conn) (k : Nat) (d : Conn) : Prop where
  le : k ≤ c.waiting.length
  waiting : d.waiting.length = c.waiting.length - k
  queued : d.sock.queued = c.sock.queued + k
  len : d.waiting ≠ [] → d.len = c.len
  unread : d.sock.unread = c.sock.unread
  firstWr : d.sock.firstWr = c.sock.firstWr
  open_ : d.Open

theorem Conn.Sends.none (open_ : c.Open) : c.Sends 0 c :=
  ⟨Nat.zero_le _, rfl, rfl, fun _ => rfl, rfl, rfl, open_⟩

theorem Conn.Sends.trans {d e : Conn} {k m : Nat} (first : c.Sends k d) (second : d.Sends m e) :
    c.Sends (k + m) e where
  le := by
    have some := second.le
    rw [first.waiting] at some
    have le := first.le
    omega
  waiting := by
    rw [second.waiting, first.waiting]
    omega
  queued := by rw [second.queued, first.queued, Nat.add_assoc]
  len := fun more => by
    rw [second.len more, first.len]
    intro none
    have length := second.waiting
    rw [none, List.length_nil, Nat.zero_sub] at length
    exact more (List.eq_nil_of_length_eq_zero length)
  unread := second.unread.trans first.unread
  firstWr := second.firstWr.trans first.firstWr
  open_ := second.open_

/-- What `send_resp` does on an open connection. -/
theorem Conn.sends_send (open_ : c.Open) :
    c.Sends (Offers.taken c.sock.writes c.waiting.length) c.send.2 ∧
      c.send.1 = Offers.taken c.sock.writes c.waiting.length ∧
      (c.send.2.waiting ≠ [] → c.send.2.sock.writes = rest c.sock.writes c.waiting.length) ∧
      c.send.2.wr = c.wr := by
  by_cases none : c.waiting = []
  · have idle : c.send = (0, c) := if_pos (Or.inl none)
    rw [idle, none, List.length_nil, taken_zero]
    exact ⟨.none open_, rfl, fun some => absurd rfl some, rfl⟩
  · rw [send_eq none open_.1]
    refine ⟨⟨Offers.taken_le _ _, List.length_drop, rfl, fun more => ?_, rfl, rfl, open_⟩, rfl,
      fun _ => rfl, rfl⟩
    refine if_neg fun all => more ?_
    exact List.drop_eq_nil_of_le (Nat.le_of_eq all.symm)

/-- What the read loop does on an open connection. -/
structure Conn.Reads (c : Conn) (k : Nat) (d : Conn) : Prop where
  waiting : d.waiting.length = c.waiting.length + k
  len : d.len = c.len + k
  unread : d.sock.unread = c.sock.unread.drop k
  wr : d.wr = c.wr
  writes : d.sock.writes = c.sock.writes
  queued : d.sock.queued = c.sock.queued
  firstWr : d.sock.firstWr = c.sock.firstWr
  open_ : d.Open

theorem Conn.reads_receive (open_ : c.Open) (reads : List Int) :
    c.Reads (c.taken reads) (c.receive reads) := by
  have silent : c.raisesClose = false := by
    rw [raisesClose, open_.2, Bool.false_and]
  have small := c.taken_le_unread reads
  have kept : ¬(c.len < 2048 ∧ c.raisesClose = true ∧ c.rd = true) := by
    rw [silent]
    exact fun closes => Bool.noConfusion closes.2.1
  have rest : (c.receive reads).sock.queued = c.sock.queued ∧
      (c.receive reads).sock.firstWr = c.sock.firstWr ∧
        (c.receive reads).sock.remoteClosed = c.sock.remoteClosed := by
    unfold receive
    rw [silent]
    split
    · exact ⟨rfl, rfl, rfl⟩
    · exact ⟨rfl, rfl, rfl⟩
  refine ⟨?_, c.receive_len reads, c.receive_unread reads, c.receive_wr reads,
    c.receive_writes reads, rest.1, rest.2.1, (c.receive_shutLocal reads kept).trans open_.1,
    rest.2.2.trans open_.2⟩
  rw [c.receive_waiting, List.length_append, List.length_take]
  omega

theorem Conn.Reads.none (open_ : c.Open) : c.Reads 0 c :=
  ⟨rfl, rfl, rfl, rfl, rfl, rfl, rfl, open_⟩

/-- The read branch, or nothing. -/
theorem Conn.reads_sends (open_ : c.Open) (ev : BitVec 16) (reads : List Int) :
    ∃ d e, e = (if raised ev picoSockEvRd then c.readBranch reads else c) ∧
      c.Reads (c.gets ev reads) d ∧ d.Sends (c.echoes ev d.waiting.length) e ∧
      (e.waiting ≠ [] → e.sock.writes = c.answersLeft ev d.waiting.length) ∧
      e.wr = if raised ev picoSockEvRd then false else c.wr := by
  unfold gets echoes answersLeft
  cases raised ev picoSockEvRd with
  | false => exact ⟨c, c, by simpa using ⟨.none open_, .none open_⟩⟩
  | true =>
      have read := reads_receive open_ reads
      refine ⟨c.receive reads, _, rfl, read, ?_⟩
      rw [if_pos rfl, if_pos rfl, readBranch, read.wr, ← read.writes]
      cases credit : c.wr with
      | false =>
          simp only [Bool.false_eq_true, and_false, if_false]
          exact ⟨.none read.open_, fun _ => trivial, read.wr.trans credit⟩
      | true =>
          simp only [and_self, if_true]
          obtain ⟨sends, -, left, wr⟩ := sends_send (c := { c.receive reads with wr := false })
            read.open_
          exact ⟨⟨sends.le, sends.waiting, sends.queued, sends.len, sends.unread, sends.firstWr,
            sends.open_⟩, left, wr⟩

/-- **What a call does on an open connection**, if it closes nothing: it reads, and
of what waits then it sends what the read branch and the write branch can. -/
theorem Conn.call_open (open_ : c.Open) (close : raised ev picoSockEvClose = false)
    (failed : raised ev picoSockEvErr = false) (reads : List Int) :
    ∃ d, c.Reads (c.gets ev reads) d ∧
      d.Sends (c.echoes ev d.waiting.length + c.resumes ev d.waiting.length) (c.call ev reads) ∧
      (c.call ev reads).wr = if raised ev picoSockEvWr then
          decide (c.resumes ev d.waiting.length = 0)
        else if raised ev picoSockEvRd then false else c.wr := by
  obtain ⟨d, e, branch, read, sends, left, wr⟩ := reads_sends open_ ev reads
  refine ⟨d, read, ?_⟩
  unfold call
  rw [← branch, close, failed]
  dsimp only
  rw [if_neg Bool.false_ne_true, if_neg Bool.false_ne_true]
  cases write : raised ev picoSockEvWr with
  | false =>
      have none : c.resumes ev d.waiting.length = 0 := by
        rw [resumes, write, if_neg Bool.false_ne_true]
      rw [none, Nat.add_zero]
      exact ⟨sends, wr⟩
  | true =>
      obtain ⟨more, count, -, -⟩ := sends_send sends.open_
      have total : Offers.taken e.sock.writes e.waiting.length =
          c.resumes ev d.waiting.length := by
        rw [resumes, write, if_pos rfl, ← sends.waiting]
        by_cases none : e.waiting = []
        · rw [none, List.length_nil, taken_zero, taken_zero]
        · rw [left none]
      rw [total] at more count
      have all := sends.trans more
      rw [if_pos rfl, if_pos rfl, writeBranch]
      exact ⟨⟨all.le, all.waiting, all.queued, all.len, all.unread, all.firstWr, all.open_⟩,
        congrArg (fun k : Nat => decide (k = 0)) count⟩

theorem Conn.Open.input (open_ : c.Open) {e : TcpEvent} (opens : e.Open) :
    (c.input e).Open := by
  refine ⟨open_.1, ?_⟩
  show (c.sock.remoteClosed || e.fin && _) = false
  rw [open_.2, opens.1, Bool.false_and, Bool.or_false]

/-- A run that closes nothing leaves the connection open. -/
theorem ConnRun.open_ (run : ConnRun s es w)
    (opens : Transition.Meets (connStep s) (fun _ e => e.Open) { net := {} } es) :
    w.conn.Open := by
  refine Transition.Run.history (P := fun es w => Transition.Meets (connStep s)
    (fun _ e => e.Open) { net := {} } es → w.conn.Open) (fun _ => ⟨rfl, rfl⟩) ?_ run opens
  intro es u e v before ih taken opens
  obtain ⟨earlier, last⟩ := Transition.Meets.snoc_iff.mp opens
  have now := last u before
  rw [ConnRun.step_conn before taken]
  obtain ⟨d, -, sends, -⟩ := Conn.call_open ((ih earlier).input now) now.2.1 now.2.2.2 e.reads
  exact sends.open_

/-! ### Unread data -/

/-- Data may only be left in the socket when the buffer is full. -/
def Conn.FullIfUnread (c : Conn) : Prop :=
  c.sock.unread ≠ [] → c.len = 2048 ∧ c.waiting ≠ []

/-- There is more unread data than the buffer has room for, and the call sends
everything that waits once the buffer is full. -/
def Conn.Strands (c : Conn) (ev : BitVec 16) : Prop :=
  2048 < c.len + c.sock.unread.length ∧
    c.echoes ev (c.waiting.length + (2048 - c.len)) +
      c.resumes ev (c.waiting.length + (2048 - c.len)) = c.waiting.length + (2048 - c.len)

instance (c : Conn) (ev : BitVec 16) : Decidable (c.Strands ev) :=
  inferInstanceAs (Decidable (_ ∧ _))

theorem Conn.gets_of_idle (rd : raised ev picoSockEvRd = false) (reads : List Int) :
    c.gets ev reads = 0 := by
  rw [gets, rd, if_neg Bool.false_ne_true]

/-- If no read is refused, as much is read as there is and fits. -/
theorem Conn.gets_of_accepts (rd : raised ev picoSockEvRd = true) {reads : List Int}
    (accepts : ∀ a ∈ reads, 0 < a) :
    c.gets ev reads = min (2048 - c.len) c.sock.unread.length := by
  rw [gets, if_pos rd]
  exact taken_all accepts

/-- If there is more than fits, the buffer is full once the reads are done. -/
theorem Conn.gets_full {reads : List Int} (accepts : ∀ a ∈ reads, 0 < a)
    (idle : raised ev picoSockEvRd = false → c.FullIfUnread) (len : c.len ≤ 2048)
    (more : 2048 < c.len + c.sock.unread.length) : c.gets ev reads = 2048 - c.len := by
  cases rd : raised ev picoSockEvRd with
  | true =>
      rw [gets_of_accepts rd accepts]
      omega
  | false =>
      have some : c.sock.unread ≠ [] := List.ne_nil_of_length_pos (by omega)
      rw [gets_of_idle rd, (idle rd some).1]

theorem Conn.call_fullIfUnread (open_ : c.Open) (fits : c.Fits)
    (close : raised ev picoSockEvClose = false) (failed : raised ev picoSockEvErr = false)
    {reads : List Int} (accepts : ∀ a ∈ reads, 0 < a)
    (idle : raised ev picoSockEvRd = false → c.FullIfUnread) :
    (c.call ev reads).FullIfUnread ↔ ¬c.Strands ev := by
  obtain ⟨d, read, sends, -⟩ := call_open open_ close failed reads
  have unread : (c.call ev reads).sock.unread = [] ↔
      c.sock.unread.length ≤ c.gets ev reads := by
    rw [sends.unread, read.unread, List.drop_eq_nil_iff]
  have len := fits.len
  by_cases more : 2048 < c.len + c.sock.unread.length
  · have full := gets_full accepts idle len more
    have size : d.waiting.length = c.waiting.length + (2048 - c.len) := by
      rw [read.waiting, full]
    have waits : 0 < d.waiting.length := by
      have reset := fits.reset
      rw [← List.length_eq_zero_iff] at reset
      omega
    have left : (c.call ev reads).sock.unread ≠ [] := by
      rw [Ne, unread, full]
      omega
    have emptied : (c.call ev reads).waiting = [] ↔ c.Strands ev := by
      rw [Strands, ← size, ← List.length_eq_zero_iff, sends.waiting]
      have le := sends.le
      omega
    rw [← emptied, FullIfUnread]
    constructor
    · exact fun all => (all left).2
    · intro some _
      refine ⟨?_, some⟩
      rw [sends.len some, read.len, full]
      omega
  · have fitting : ¬c.Strands ev := fun strands => more strands.1
    refine iff_of_true (fun left => absurd (unread.mpr ?_) left) fitting
    cases rd : raised ev picoSockEvRd with
    | true =>
        rw [gets_of_accepts rd accepts]
        omega
    | false =>
        have empty : c.sock.unread = [] := by
          by_contra some
          have positive := List.length_pos_iff.mpr some
          have full := (idle rd some).1
          omega
        rw [empty]
        exact Nat.zero_le _

/-- Data may only be left in the socket when the buffer is full of waiting bytes. -/
def FullIfUnread (w : World TcpSock) : Prop :=
  w.net.unread ≠ [] → w.help.len = 2048 ∧ w.help.pos < w.help.len

/-- The socket contract: the connection stays open, `PICO_SOCK_EV_RD` is raised by
the arrival of data and by nothing else, and a read returns at least one byte
while there are any. -/
def ReadContract (_ : World TcpSock) (e : TcpEvent) : Prop :=
  e.Open ∧ (raised e.ev picoSockEvRd = true ↔ e.data ≠ []) ∧ ∀ a ∈ e.reads, 0 < a

instance (w : World TcpSock) (e : TcpEvent) : Decidable (ReadContract w e) :=
  inferInstanceAs (Decidable (_ ∧ (_ ↔ _) ∧ ∀ a ∈ e.reads, 0 < a))

/-- The call does not empty the full buffer with data left in the socket. -/
def Drains (w : World TcpSock) (e : TcpEvent) : Prop :=
  ¬(w.conn.input e).Strands e.ev

instance (w : World TcpSock) (e : TcpEvent) : Decidable (Drains w e) :=
  inferInstanceAs (Decidable (¬Conn.Strands _ _))

theorem fullIfUnread_conn (bounded : w.help.Bounded) :
    FullIfUnread w ↔ w.conn.FullIfUnread := by
  obtain ⟨pos, le, len, reset⟩ := bounded
  refine imp_congr_right fun _ => ?_
  have size := w.length_conn_waiting
  have end_ : w.conn.len = w.help.len.toNat := rfl
  rw [Ne, ← List.length_eq_zero_iff, size, end_]
  omega

/-- **When no received data is left behind.** In a run of one open connection under
the socket contract, every callback returns with the socket read empty or the
buffer full of waiting bytes, if and only if no callback empties the full buffer
with data left in the socket. -/
theorem echo_drains_iff (run : ConnRun s es w)
    (contract : Transition.Meets (connStep s) ReadContract { net := {} } es) :
    Transition.Throughout (connStep s) FullIfUnread { net := {} } es ↔
      Transition.Meets (connStep s) Drains { net := {} } es := by
  refine Transition.Throughout.iff_meets (fun some => absurd rfl some) ?_ contract run
  rintro es u e v before earlier full ⟨opens, arrival, accepts⟩ taken
  have before : ConnRun s es u := before
  have after : ConnRun s (es ++ [e]) v := Transition.Run.snoc_iff.mpr ⟨u, before, taken⟩
  have open_ := before.open_ (earlier.mono fun _ _ contract => contract.1)
  rw [fullIfUnread_conn before.bounded] at full
  rw [fullIfUnread_conn after.bounded, before.step_conn taken]
  refine Conn.call_fullIfUnread (open_.input opens) ?_ opens.2.1 opens.2.2.2 accepts fun idle => ?_
  · obtain ⟨le, len, reset⟩ := conn_fits before.bounded
    exact ⟨le, len, reset⟩
  · have none : e.data = [] := by
      by_contra some
      exact Bool.noConfusion (idle.symm.trans (arrival.mpr some))
    show u.net.unread ++ e.data ≠ [] → _
    rw [none, List.append_nil]
    exact full

/-- Three bytes are echoed, and two more wait for the next write credit. -/
theorem echo_drains_small :
    ∃ es w, ConnRun 7 es w ∧ w.net.sent = [1, 2, 3] ∧ w.waiting = [4, 5] ∧
      Transition.Throughout (connStep 7) FullIfUnread { net := {} } es := by
  let es : List TcpEvent := [{ ev := 2 }, { ev := 1, data := [1, 2, 3] },
    { ev := 1, data := [4, 5], reads := [1] }]
  have ends : (Transition.exec (connStep 7) { net := {} } es).any
      (fun w => w.net.sent = [1, 2, 3] ∧ w.waiting = [4, 5]) := by decide
  have contract : Transition.Meets (connStep 7) ReadContract { net := {} } es := by decide
  have drains : Transition.Meets (connStep 7) Drains { net := {} } es := by decide
  obtain ⟨w, run, sent, waiting⟩ := Transition.Run.of_any ends
  exact ⟨es, w, run, sent, waiting, (echo_drains_iff run contract).mpr drains⟩

/-- **Received data is left behind.** 3000 bytes become readable at once, while the
write credit is there: 2048 are read and sent, and 952 stay in the socket with
an empty buffer. -/
theorem echo_strands :
    ∃ es w, ConnRun 7 es w ∧ Transition.Meets (connStep 7) ReadContract { net := {} } es ∧
      w.net.unread.length = 952 ∧ w.help.len = 0 ∧ ¬FullIfUnread w := by
  let es : List TcpEvent := [{ ev := 2 }, { ev := 1, data := List.replicate 3000 0 }]
  have ends : (Transition.exec (connStep 7) { net := {} } es).any
      (fun w => w.net.unread.length = 952 ∧ w.help.len = 0) := by decide +kernel
  have contract : Transition.Meets (connStep 7) ReadContract { net := {} } es := by
    decide +kernel
  obtain ⟨w, run, left, empty⟩ := Transition.Run.of_any ends
  refine ⟨es, w, run, contract, left, empty, fun full => ?_⟩
  have some : w.net.unread ≠ [] := by
    intro none
    rw [none] at left
    cases left
  exact absurd (empty.symm.trans (full some).1) (by decide)

/-! ### The write credit -/

/-- A `PICO_SOCK_EV_WR` is still to come: for queued bytes, once they are
acknowledged, or for the establishment. -/
def TcpSock.OwesWr (sock : TcpSock) : Prop :=
  0 < sock.queued ∨ sock.firstWr = true

/-- Whoever waits for a write credit will get it. -/
def Conn.Wakes (c : Conn) : Prop :=
  c.waiting ≠ [] ∨ c.wr = false → c.sock.OwesWr

/-- A call after an input that acknowledged queued bytes only together with
`PICO_SOCK_EV_WR`; `c` is the state before the input, `d` the one after it. -/
theorem Conn.call_wakes (open_ : c.Open) (fits : c.Fits)
    (close : raised ev picoSockEvClose = false) (failed : raised ev picoSockEvErr = false)
    {reads : List Int}
    (readable : raised ev picoSockEvRd = true → c.sock.unread ≠ [] ∧ ∀ a ∈ reads, 0 < a)
    (writable : c.sock.queued = 0 → ∀ a ∈ c.sock.writes.head?, 0 < a)
    (idle : raised ev picoSockEvWr = false → c.Wakes) : (c.call ev reads).Wakes := by
  obtain ⟨d, read, sends, wr⟩ := call_open open_ close failed reads
  have queued : (c.call ev reads).sock.queued = c.sock.queued +
      (c.echoes ev d.waiting.length + c.resumes ev d.waiting.length) := by
    rw [sends.queued, read.queued]
  have firstWr := sends.firstWr.trans read.firstWr
  intro needs
  rw [TcpSock.OwesWr, queued, firstWr]
  by_cases some : 0 < c.sock.queued ∨ 0 < c.echoes ev d.waiting.length ∨
      0 < c.resumes ev d.waiting.length
  · left
    omega
  -- Nothing is queued and nothing was accepted, so no write was tried.
  obtain ⟨none, noEcho, noResume⟩ : c.sock.queued = 0 ∧ c.echoes ev d.waiting.length = 0 ∧
      c.resumes ev d.waiting.length = 0 := by omega
  have tried : ∀ n, Offers.taken c.sock.writes n = 0 → n = 0 := by
    intro n refused
    by_contra offers
    have moved := taken_pos (Nat.pos_of_ne_zero offers) (writable none)
    omega
  have left : (c.call ev reads).waiting.length = d.waiting.length := by
    rw [sends.waiting, noEcho, noResume]
    omega
  have echoed : raised ev picoSockEvRd = true ∧ c.wr = true → d.waiting.length = 0 := by
    intro credit
    rw [Conn.echoes, if_pos credit] at noEcho
    exact tried _ noEcho
  cases write : raised ev picoSockEvWr with
  | true =>
      have empty : d.waiting.length = 0 := by
        by_cases credit : raised ev picoSockEvRd = true ∧ c.wr = true
        · exact echoed credit
        · rw [Conn.resumes, if_pos write, noEcho, answersLeft, if_neg credit] at noResume
          exact tried _ noResume
      rw [write, if_pos rfl, noResume] at wr
      rw [empty, List.length_eq_zero_iff] at left
      rcases needs with waits | unset
      · exact absurd left waits
      · exact absurd (wr.symm.trans unset) (by decide)
  | false =>
      have before := idle write
      rw [write, if_neg Bool.false_ne_true] at wr
      have owed : c.sock.OwesWr := by
        cases rd : raised ev picoSockEvRd with
        | true =>
            have waits : d.waiting.length ≠ 0 := by
              have unread := List.length_pos_iff.mpr (readable rd).1
              have reset := fits.reset
              have len := fits.len
              rw [← List.length_eq_zero_iff] at reset
              rw [read.waiting, gets_of_accepts rd (readable rd).2]
              omega
            refine before (Or.inr ?_)
            by_contra set
            exact waits (echoed ⟨rd, eq_true_of_ne_false set⟩)
        | false =>
            rw [rd, if_neg Bool.false_ne_true] at wr
            rw [read.waiting, gets_of_idle rd, Nat.add_zero] at left
            rw [Ne, ← List.length_eq_zero_iff, left, List.length_eq_zero_iff, wr] at needs
            exact before needs
      exact Or.inr (owed.resolve_left (by omega))

/-- The socket contract: the connection stays open; `PICO_SOCK_EV_RD` is delivered
only while there are unread bytes, and a read then returns at least one; a write
is refused only while bytes are queued; `PICO_SOCK_EV_WR` is delivered with every
acknowledgement that frees queued bytes. -/
def WriteContract (w : World TcpSock) (e : TcpEvent) : Prop :=
  e.Open ∧
    (raised e.ev picoSockEvRd = true → w.net.unread ++ e.data ≠ [] ∧ ∀ a ∈ e.reads, 0 < a) ∧
    (w.net.queued - e.acked = 0 → ∀ a ∈ e.writes.head?, 0 < a) ∧
    (0 < e.acked → raised e.ev picoSockEvWr = true)

instance (w : World TcpSock) (e : TcpEvent) : Decidable (WriteContract w e) :=
  inferInstanceAs (Decidable (_ ∧ (_ → _ ∧ ∀ a ∈ e.reads, 0 < a) ∧
    (_ → ∀ a ∈ e.writes.head?, 0 < a) ∧ (_ → _)))

/-- **No write wake-up is lost.** In a run of one open connection under the socket
contract, after every callback: if bytes wait in the buffer or the write credit
is cleared, a `PICO_SOCK_EV_WR` is still owed. -/
theorem echo_wakes (run : ConnRun s es w)
    (contract : Transition.Meets (connStep s) WriteContract { net := {} } es) :
    w.help.pos < w.help.len ∨ w.help.has picoSockEvWr = false →
      0 < w.net.queued ∨ w.net.firstWr = true := by
  have wakes : w.conn.Wakes := by
    refine Transition.Run.history (P := fun es w => Transition.Meets (connStep s)
      WriteContract { net := {} } es → w.conn.Wakes) (fun _ _ => Or.inr rfl) ?_ run contract
    intro es u e v before ih taken contract
    obtain ⟨earlier, last⟩ := Transition.Meets.snoc_iff.mp contract
    obtain ⟨opens, readable, writable, acks⟩ := last u before
    have before : ConnRun s es u := before
    have open_ := before.open_ (earlier.mono fun _ _ contract => contract.1)
    have fits : (u.conn.input e).Fits := by
      obtain ⟨le, len, reset⟩ := conn_fits before.bounded
      exact ⟨le, len, reset⟩
    rw [before.step_conn taken]
    refine Conn.call_wakes (open_.input opens) fits opens.2.1 opens.2.2.2 readable writable ?_
    intro quiet needs
    have none : e.acked = 0 := by
      by_contra some
      exact Bool.noConfusion (quiet.symm.trans (acks (Nat.pos_of_ne_zero some)))
    have owed := ih earlier needs
    show 0 < u.net.queued - e.acked ∨ (u.net.firstWr && !raised e.ev picoSockEvWr) = true
    rw [none, quiet, Nat.sub_zero, Bool.not_false, Bool.and_true]
    exact owed
  intro needs
  refine wakes (needs.imp_left fun waits none => ?_)
  have size := w.length_conn_waiting
  rw [none, List.length_nil] at size
  omega

/-- Bytes wait because the second write of the call was refused; two are queued. -/
theorem echo_wakes_partial :
    ∃ es w, ConnRun 7 es w ∧ w.waiting = [3, 4] ∧ w.net.queued = 2 ∧
      (w.help.pos < w.help.len ∨ w.help.has picoSockEvWr = false →
        0 < w.net.queued ∨ w.net.firstWr = true) := by
  let es : List TcpEvent := [{ ev := 2 }, { ev := 1, data := [1, 2, 3, 4], writes := [2, 0] }]
  have ends : (Transition.exec (connStep 7) { net := {} } es).any
      (fun w => w.waiting = [3, 4] ∧ w.net.queued = 2) := by decide
  have contract : Transition.Meets (connStep 7) WriteContract { net := {} } es := by decide
  obtain ⟨w, run, waiting, queued⟩ := Transition.Run.of_any ends
  exact ⟨es, w, run, waiting, queued, echo_wakes run contract⟩

end Rfsis.Echo
