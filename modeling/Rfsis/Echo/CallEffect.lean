import Rfsis.Echo.Connection

/-!
What one call of the callback does to a connection, without its loops.

`Conn` keeps of the application what the other functions of this directory read:
the bytes that wait, `len`, and the `PICO_SOCK_EV_RD` and `PICO_SOCK_EV_WR` bits
of the flag. `Conn.receive` and `Conn.send` give the two loops in closed form, by
the amount that the answers of the call let through. `cbTcpserver_conn` says that
the callback, loops and nested callbacks included, is `Conn.call`.
-/

namespace Rfsis.Echo

open Rfsis.Offers

/-- A connection between two statements of the callback. The socket is kept
without the answers to reads, which are an argument of `Conn.receive`. -/
structure Conn where
  waiting : List UInt8
  len : Nat
  rd : Bool
  wr : Bool
  sock : TcpSock
deriving DecidableEq, Repr

/-- The connection in the globals and the stack. -/
def World.conn (w : World TcpSock) : Conn where
  waiting := w.waiting
  len := w.help.len.toNat
  rd := w.help.has picoSockEvRd
  wr := w.help.has picoSockEvWr
  sock := { w.net with reads := [] }

theorem World.length_conn_waiting (w : World TcpSock) :
    w.conn.waiting.length = (w.help.len - w.help.pos).toNat :=
  w.length_waiting

theorem World.conn_waiting_nil_iff (w : World TcpSock) :
    w.conn.waiting = [] ↔ w.help.len ≤ w.help.pos := by
  rw [← List.length_eq_zero_iff, w.length_conn_waiting]
  omega

/-- The close branch. -/
def Conn.close (c : Conn) : Conn :=
  if c.rd then { c with sock := c.sock.shutdown } else c

/-- The next read raises `PICO_SOCK_EV_CLOSE`: the peer's FIN waits behind unread
data, and the end of the data has not been reported yet. -/
def Conn.raisesClose (c : Conn) : Bool :=
  c.sock.remoteClosed && !(c.sock.shutRemote && c.sock.unread.isEmpty)

/-- How many bytes the reads of a call could take. -/
def Conn.readable (c : Conn) : Nat :=
  min (2048 - c.len) c.sock.unread.length

/-- The bytes that the reads of a call take. -/
def Conn.taken (c : Conn) (reads : List Int) : Nat :=
  Offers.taken reads c.readable

/-- `n` bytes move from the socket to the buffer; `rd` is the bit that is left. -/
def Conn.store (c : Conn) (n : Nat) (rd : Bool) : Conn :=
  { c with
    waiting := c.waiting ++ c.sock.unread.take n
    len := c.len + n
    rd := rd
    sock := { c.sock with
      unread := c.sock.unread.drop n
      shutRemote := c.sock.shutRemote || c.sock.remoteClosed } }

/-- The loop of the read branch. Only its first read can find the bit set. -/
def Conn.receive (c : Conn) (reads : List Int) : Conn :=
  if c.len < 2048 then
    let n := c.taken reads
    (if c.raisesClose then c.close else c).store n (c.len + n < 2048)
  else c

/-- `send_resp`, with its result. -/
def Conn.send (c : Conn) : Nat × Conn :=
  if c.waiting = [] ∨ c.sock.shutLocal then (0, c)
  else
    let n := Offers.taken c.sock.writes c.waiting.length
    (n, { c with
      waiting := c.waiting.drop n
      len := if n = c.waiting.length then 0 else c.len
      sock := { c.sock with
        queued := c.sock.queued + n
        sent := c.sock.sent ++ c.waiting.take n
        writes := rest c.sock.writes c.waiting.length } })

/-- The read branch. -/
def Conn.readBranch (c : Conn) (reads : List Int) : Conn :=
  let c := c.receive reads
  if c.wr then (Conn.send { c with wr := false }).2 else c

/-- The write branch. -/
def Conn.writeBranch (c : Conn) : Conn :=
  { c.send.2 with wr := c.send.1 = 0 }

/-- The callback. -/
def Conn.call (c : Conn) (ev : BitVec 16) (reads : List Int) : Conn :=
  let c := if raised ev picoSockEvRd then c.readBranch reads else c
  if raised ev picoSockEvErr then c
  else
    let c := if raised ev picoSockEvClose then c.close else c
    if raised ev picoSockEvWr then c.writeBranch else c

variable {s : Sock} {w : World TcpSock}

/-! ### The flag -/

theorem EchoHelper.has_clear_self (help : EchoHelper) (bit : BitVec 32) :
    (help.clear bit).has bit = false := by
  have gone : ~~~bit &&& bit = 0#32 := by
    rw [BitVec.and_comm, BitVec.and_not_self]
    rfl
  rw [has, clear, BitVec.and_assoc, gone, BitVec.and_zero]
  exact decide_eq_false fun some => some rfl

theorem EchoHelper.has_set_self (help : EchoHelper) {bit : BitVec 32} (some : bit ≠ 0#32) :
    (help.set bit).has bit = true := by
  have kept : (help.flag ||| bit) &&& bit = bit := by
    ext i
    simp only [BitVec.getElem_and, BitVec.getElem_or, Bool.and_eq_right_iff_imp, Bool.or_eq_true]
    exact Or.inr
  rw [has, set, kept]
  exact decide_eq_true some

/-! ### The read branch -/

section Fields

variable (c : Conn)

theorem Conn.close_of_clear (clear : c.rd = false) : c.close = c :=
  if_neg (Bool.eq_false_iff.mp clear)

theorem Conn.close_waiting : c.close.waiting = c.waiting := by
  unfold close
  split <;> rfl

theorem Conn.close_len : c.close.len = c.len := by
  unfold close
  split <;> rfl

theorem Conn.close_wr : c.close.wr = c.wr := by
  unfold close
  split <;> rfl

theorem Conn.close_unread : c.close.sock.unread = c.sock.unread := by
  unfold close
  split <;> rfl

theorem Conn.close_writes : c.close.sock.writes = c.sock.writes := by
  unfold close
  split <;> rfl

theorem Conn.store_store (m n : Nat) (rd rd' : Bool) :
    (c.store m rd).store n rd' = c.store (m + n) rd' := by
  simp [store, List.take_add, List.drop_drop, Nat.add_assoc]

end Fields

/-- What the next read returns. -/
def Conn.reply (c : Conn) (reads : List Int) : Int :=
  if c.sock.shutRemote ∧ c.sock.unread = [] then -1 else answer reads c.readable

/-- The state after one turn of the read loop that has read `n` bytes. -/
def Conn.readOnce (c : Conn) (n : Nat) (rd : Bool) : Conn :=
  (if c.raisesClose then c.close else c).store n rd

/-- A turn that reads something is followed by the rest of the loop. -/
theorem Conn.receive_of_pos {c : Conn} {reads : List Int} (room : c.len < 2048)
    (some : 0 < c.reply reads) :
    c.receive reads = (c.readOnce (c.reply reads).toNat false).receive reads.tail := by
  have more : c.reply reads = answer reads c.readable := by
    unfold reply at some ⊢
    split at some
    · exact absurd some (by decide)
    · rename_i more
      exact if_neg more
  generalize c.reply reads = n at some more ⊢
  have total : c.taken reads = n.toNat + Offers.taken reads.tail (c.readable - n.toNat) := by
    rw [more] at some ⊢
    exact taken_of_pos some
  have small : n ≤ c.readable := more ▸ answer_le reads c.readable
  rw [receive, if_pos room, total, readOnce]
  generalize start : (if c.raisesClose then c.close else c) = d
  have len : (d.store n.toNat false).len = c.len + n.toNat := by
    rw [← start]
    split
    · exact congrArg (· + n.toNat) c.close_len
    · rfl
  have unread : d.sock.unread = c.sock.unread := by
    rw [← start]
    split
    · exact c.close_unread
    · rfl
  have left : (d.store n.toNat false).readable = c.readable - n.toNat := by
    rw [readable, len]
    simp only [store, readable, List.length_drop, unread]
    omega
  have quiet : ∀ e : Conn, e.rd = false → (if e.raisesClose then e.close else e) = e := by
    intro e clear
    rw [e.close_of_clear clear, ite_self]
  rw [receive, taken, left, quiet _ rfl, store_store, len]
  dsimp only
  split
  · rw [Nat.add_assoc]
  · rename_i full
    have none : c.readable - n.toNat = 0 := by
      unfold readable
      omega
    rw [none, taken_zero, Nat.add_zero, decide_eq_false full]

/-- A turn that reads nothing is the last one. -/
theorem Conn.receive_of_nonpos {c : Conn} {reads : List Int} (room : c.len < 2048)
    (none : c.reply reads ≤ 0) : c.receive reads = c.readOnce 0 true := by
  have total : c.taken reads = 0 := by
    unfold reply at none
    split at none
    · rename_i ended
      have empty : c.readable = 0 := by simp [readable, ended.2]
      rw [taken, empty, taken_zero]
    · exact (taken_of_nonpos none).1
  rw [receive, if_pos room, total, readOnce]
  dsimp only
  rw [Nat.add_zero, decide_eq_true room]

theorem closeBranch_conn (w : World TcpSock) :
    (closeBranch tcpLayer s w).conn = w.conn.close := by
  unfold closeBranch Conn.close
  show _ = if w.help.has picoSockEvRd then _ else _
  split <;> rfl

section Read

variable (bounded : w.help.Bounded)

theorem socketRead_recvbuf (off count : Int) :
    (socketRead tcpLayer s off count w).2.recvbuf =
      fill w.recvbuf off.toNat (w.net.read count).data := by
  unfold socketRead closeBranch
  dsimp only
  split
  · split <;> rfl
  · rfl

theorem socketRead_net (off count : Int) :
    (socketRead tcpLayer s off count w).2.net =
      if (w.net.read count).closes && w.help.has picoSockEvRd then (w.net.read count).net.shutdown
      else (w.net.read count).net := by
  unfold socketRead closeBranch
  show World.net (if (w.net.read count).closes then if w.help.has picoSockEvRd then _ else _
    else _) = _
  cases (w.net.read count).closes with
  | false => rfl
  | true => cases w.help.has picoSockEvRd <;> rfl

include bounded in
theorem World.readable_eq :
    min (bsize - w.help.len).toNat w.net.unread.length = w.conn.readable := by
  have start := bounded.pos
  have le := bounded.le
  show min (2048 - w.help.len).toNat _ = min (2048 - w.help.len.toNat) _
  congr 1
  omega

include bounded in
/-- A read, in the words of the closed form. -/
theorem read_conn :
    (w.net.read (bsize - w.help.len)).ret = w.conn.reply w.net.reads ∧
    (w.net.read (bsize - w.help.len)).data =
      w.net.unread.take (w.conn.reply w.net.reads).toNat ∧
    (w.net.read (bsize - w.help.len)).closes = w.conn.raisesClose ∧
    { (w.net.read (bsize - w.help.len)).net with reads := [] } =
      (w.conn.store (w.conn.reply w.net.reads).toNat false).sock ∧
    (0 < w.conn.reply w.net.reads →
      (w.net.read (bsize - w.help.len)).net.reads = w.net.reads.tail) := by
  have raises : w.conn.raisesClose =
      (w.net.remoteClosed && !(w.net.shutRemote && w.net.unread.isEmpty)) := rfl
  have reply : w.conn.reply w.net.reads = if w.net.shutRemote ∧ w.net.unread = [] then -1
      else answer w.net.reads w.conn.readable := rfl
  unfold TcpSock.read
  rw [World.readable_eq bounded, raises]
  by_cases ended : w.net.shutRemote ∧ w.net.unread = []
  · rw [if_pos ended] at reply ⊢
    rw [reply]
    refine ⟨rfl, ?_, ?_, ?_, fun some => absurd some (by decide)⟩
    · rfl
    · simp [ended]
    · simp [Conn.store, World.conn, ended]
  · have more : (w.net.shutRemote && w.net.unread.isEmpty) = false := by
      simpa using ended
    rw [if_neg ended] at reply ⊢
    rw [more, reply, Bool.not_false, Bool.and_true]
    exact ⟨rfl, rfl, rfl, rfl, fun _ => rfl⟩

include bounded in
/-- One read, once `len` has been moved past what it stored. -/
theorem socketRead_conn {n : Int} {w' : World TcpSock}
    (call : socketRead tcpLayer s w.help.len (bsize - w.help.len) w = (n, w')) (help : EchoHelper)
    (pos : help.pos = w.help.pos) (len : help.len = w.help.len + n.toNat)
    (wr : help.has picoSockEvWr = w.help.has picoSockEvWr) :
    n = w.conn.reply w.net.reads ∧
      World.conn { w' with help := help } = w.conn.readOnce n.toNat (help.has picoSockEvRd) ∧
        (0 < n → w'.net.reads = w.net.reads.tail) := by
  obtain ⟨ret, data, closes, net, reads⟩ := read_conn bounded
  have reply : w.conn.reply w.net.reads = n := ret.symm.trans (congrArg Prod.fst call)
  have after : (socketRead tcpLayer s w.help.len (bsize - w.help.len) w).2 = w' :=
    congrArg Prod.snd call
  have buffer := socketRead_recvbuf (s := s) (w := w) w.help.len (bsize - w.help.len)
  have stack := socketRead_net (s := s) (w := w) w.help.len (bsize - w.help.len)
  rw [after] at buffer stack
  rw [reply] at data net reads
  have length : (w.net.read (bsize - w.help.len)).data.length = n.toNat :=
    (tcpLayer.read_data w.net s _).trans (congrArg Int.toNat (ret.trans reply))
  have waiting : segment w'.recvbuf help.pos.toNat (help.len - help.pos).toNat =
      w.waiting ++ w.net.unread.take n.toNat := by
    rw [pos, len, buffer, ← data, ← length]
    exact World.waiting_store bounded _
  have moved : help.len.toNat = w.help.len.toNat + n.toNat := by
    have start := bounded.pos
    have le := bounded.le
    omega
  refine ⟨reply.symm, ?_, fun some => ?_⟩
  · show Conn.mk (segment w'.recvbuf help.pos.toNat (help.len - help.pos).toNat) help.len.toNat
      (help.has picoSockEvRd) (help.has picoSockEvWr) { w'.net with reads := [] } = _
    rw [waiting, moved, wr, stack, closes, Conn.readOnce]
    cases w.conn.raisesClose with
    | false => exact congrArg (Conn.mk _ _ _ _) net
    | true =>
        cases bit : w.help.has picoSockEvRd with
        | false =>
            rw [if_pos rfl, w.conn.close_of_clear bit]
            exact congrArg (Conn.mk _ _ _ _) net
        | true =>
            rw [if_pos rfl, Conn.close, if_pos (show w.conn.rd = true from bit)]
            exact congrArg (fun sock => Conn.mk _ _ _ _ (TcpSock.shutdown sock)) net
  · rw [stack]
    split
    · exact reads some
    · exact reads some

end Read

variable (s)

/-- The read loop, in closed form. -/
theorem readLoop_conn (bounded : w.help.Bounded) {fuel : Nat}
    (enough : (bsize - w.help.len).toNat < fuel) :
    (readLoop tcpLayer s fuel w).conn = w.conn.receive w.net.reads ∧
      (readLoop tcpLayer s fuel w).help.Bounded := by
  induction fuel generalizing w with
  | zero => omega
  | succ fuel ih =>
      have start := bounded.pos
      have le := bounded.le
      rw [readLoop]
      by_cases room : w.help.len < 2048
      · have room' : w.conn.len < 2048 := by
          show w.help.len.toNat < 2048
          omega
        rw [if_pos room]
        have kept := socketRead_help tcpLayer s w.help.len (bsize - w.help.len) w
        have small : (socketRead tcpLayer s w.help.len (bsize - w.help.len) w).1 ≤
            max (bsize - w.help.len) 0 := tcpLayer.read_le w.net s (bsize - w.help.len)
        cases call : socketRead tcpLayer s w.help.len (bsize - w.help.len) w with
        | mk n w' =>
            rw [call] at kept small
            dsimp only at kept small ⊢
            rw [kept]
            by_cases some : 0 < n
            · have size : (n.toNat : Int) = n := by omega
              let help := { w.help with read := n, len := w.help.len + n }.clear picoSockEvRd
              rw [if_pos some]
              obtain ⟨reply, conn, reads⟩ := socketRead_conn bounded call help rfl
                (congrArg (w.help.len + ·) size.symm) (EchoHelper.has_clear _ (by decide))
              have bounded' : help.Bounded := by
                have room : w.help.len + (n.toNat : Int) ≤ bsize := by omega
                exact (bounded.store room).flags rfl (congrArg (w.help.len + ·) size.symm)
              have less : (bsize - (w.help.len + n)).toNat < fuel := by omega
              obtain ⟨closed, ends⟩ := ih (w := { w' with help := help }) bounded' less
              refine ⟨closed.trans ?_, ends⟩
              rw [conn, EchoHelper.has_clear_self, reply, Conn.receive_of_pos room' (reply ▸ some)]
              exact congrArg _ (reads some)
            · have none : n.toNat = 0 := by omega
              let help := { w.help with read := n }.set picoSockEvRd
              rw [if_neg some]
              obtain ⟨reply, conn, -⟩ := socketRead_conn bounded call help rfl
                (by rw [none]; exact (Int.add_zero _).symm) (EchoHelper.has_set _ (by decide))
              refine ⟨conn.trans ?_, bounded.flags rfl rfl⟩
              rw [none, EchoHelper.has_set_self _ (by decide),
                Conn.receive_of_nonpos room' (reply ▸ Int.not_lt.mp some)]
      · have full : ¬w.conn.len < 2048 := by
          show ¬w.help.len.toNat < 2048
          omega
        rw [if_neg room, Conn.receive, if_neg full]
        exact ⟨rfl, bounded⟩

/-! ### The loop of `send_resp` -/

/-- The state after one turn of the loop of `send_resp` that has sent `n` bytes. -/
def Conn.sendOnce (c : Conn) (n : Nat) : Conn :=
  { c with
    waiting := c.waiting.drop n
    len := if n = c.waiting.length then 0 else c.len
    sock := { c.sock with
      queued := c.sock.queued + n
      sent := c.sock.sent ++ c.waiting.take n
      writes := c.sock.writes.tail } }

theorem Conn.send_eq {c : Conn} (some : c.waiting ≠ []) (open_ : c.sock.shutLocal = false) :
    c.send = (Offers.taken c.sock.writes c.waiting.length,
      { c.sendOnce (Offers.taken c.sock.writes c.waiting.length) with
        sock := { (c.sendOnce (Offers.taken c.sock.writes c.waiting.length)).sock with
          writes := rest c.sock.writes c.waiting.length } }) := by
  rw [send, if_neg]
  · rfl
  · simp [some, open_]

/-- A turn that sends nothing is the last one. -/
theorem Conn.send_of_nonpos {c : Conn} (some : c.waiting ≠ []) (open_ : c.sock.shutLocal = false)
    (refused : answer c.sock.writes c.waiting.length ≤ 0) : c.send = (0, c.sendOnce 0) := by
  obtain ⟨none, tail⟩ := taken_of_nonpos refused
  rw [send_eq some open_, none, tail]
  rfl

/-- A turn that sends something is followed by the rest of the loop. -/
theorem Conn.send_of_pos {c : Conn} (some : c.waiting ≠ []) (open_ : c.sock.shutLocal = false)
    {n : Nat} (reply : answer c.sock.writes c.waiting.length = n) (moves : 0 < n) :
    c.send = (n + (c.sendOnce n).send.1, (c.sendOnce n).send.2) := by
  have small := answer_le c.sock.writes c.waiting.length
  have total := taken_of_pos (reply ▸ Int.natCast_pos.mpr moves)
  have left := rest_of_pos (reply ▸ Int.natCast_pos.mpr moves)
  rw [reply] at small
  rw [reply, Int.toNat_natCast] at total left
  rw [send_eq some open_, total, left]
  by_cases all : n = c.waiting.length
  · have none : (c.sendOnce n).waiting = [] := List.drop_eq_nil_of_le (all ▸ Nat.le_refl _)
    have last : (c.sendOnce n).send = (0, c.sendOnce n) := if_pos (Or.inl none)
    rw [last, if_pos all, all, Nat.sub_self, taken_zero]
    rfl
  · have length : (c.sendOnce n).waiting.length = c.waiting.length - n := List.length_drop
    have more : (c.sendOnce n).waiting ≠ [] := by
      intro none
      rw [none, List.length_nil] at length
      omega
    have writes : (c.sendOnce n).sock.writes = c.sock.writes.tail := rfl
    rw [if_neg all, send_eq more open_, length, writes]
    have later := taken_le c.sock.writes.tail (c.waiting.length - n)
    generalize Offers.taken c.sock.writes.tail (c.waiting.length - n) = m at later ⊢
    have ends : n + m = c.waiting.length ↔ m = c.waiting.length - n := by omega
    simp [sendOnce, List.drop_drop, List.take_add, Nat.add_assoc, ends, all]

theorem EchoHelper.has_advance (help : EchoHelper) (n : Int) (bit : BitVec 32) :
    (help.advance n).has bit = help.has bit := by
  rw [advance_eq]
  split <;> rfl

/-- One write, once `pos` has been moved past what it accepted. -/
theorem socketWrite_conn (bounded : w.help.Bounded) (waits : w.help.pos < w.help.len)
    (open_ : w.net.shutLocal = false) {n : Int} {w' : World TcpSock}
    (call : socketWrite tcpLayer s w.help.pos (w.help.len - w.help.pos) w = (n, w')) :
    n = answer w.net.writes w.waiting.length ∧
      World.conn { w' with help := w.help.advance n.toNat } = w.conn.sendOnce n.toNat := by
  have written : w.net.write w.waiting = ({ w.net with
      queued := w.net.queued + (answer w.net.writes w.waiting.length).toNat
      sent := w.net.sent ++ w.waiting.take (answer w.net.writes w.waiting.length).toNat
      writes := w.net.writes.tail }, answer w.net.writes w.waiting.length) :=
    if_neg (Bool.eq_false_iff.mp open_)
  have reply : answer w.net.writes w.waiting.length = n := by
    have ret : (w.net.write w.waiting).2 = n := congrArg Prod.fst call
    rwa [written] at ret
  have buffer : w'.recvbuf = w.recvbuf := (congrArg (·.2.recvbuf) call).symm
  have stack : w'.net = (w.net.write w.waiting).1 := (congrArg (·.2.net) call).symm
  have size := w.length_waiting
  have small : n ≤ w.waiting.length := reply ▸ answer_le _ _
  have waiting := World.waiting_advance (n := n.toNat) bounded (by omega)
  have ends : (w.help.advance n.toNat).len.toNat =
      if n.toNat = w.waiting.length then 0 else w.help.len.toNat := by
    rw [EchoHelper.advance_eq]
    have reached : w.help.pos + n.toNat ≥ w.help.len ↔ n.toNat = w.waiting.length := by omega
    simp only [reached]
    split <;> rfl
  refine ⟨reply.symm, ?_⟩
  show Conn.mk (segment w'.recvbuf (w.help.advance n.toNat).pos.toNat _)
    (w.help.advance n.toNat).len.toNat ((w.help.advance n.toNat).has picoSockEvRd)
    ((w.help.advance n.toNat).has picoSockEvWr) { w'.net with reads := [] } = _
  rw [buffer, waiting, ends, EchoHelper.has_advance, EchoHelper.has_advance, stack, written, reply]
  rfl

/-- A write on a socket that has been shut down is refused and changes nothing. -/
theorem socketWrite_shut (shut : w.net.shutLocal = true) {off count n : Int} {w' : World TcpSock}
    (call : socketWrite tcpLayer s off count w = (n, w')) : n = -1 ∧ w'.conn = w.conn := by
  have refused (bytes : List UInt8) : w.net.write bytes = (w.net, -1) := if_pos shut
  cases call
  refine ⟨congrArg Prod.snd (refused _), ?_⟩
  exact congrArg (fun net => World.conn { w with net := net }) (congrArg Prod.fst (refused _))

/-- The loop of `send_resp`, in closed form. -/
theorem sendLoop_conn (bounded : w.help.Bounded) (waits : w.help.pos < w.help.len) {fuel : Nat}
    (enough : (w.help.len - w.help.pos).toNat < fuel) (ww : Int) :
    (sendLoop tcpLayer s fuel ww w).1 = ww + w.conn.send.1 ∧
      (sendLoop tcpLayer s fuel ww w).2.conn = w.conn.send.2 ∧
        (sendLoop tcpLayer s fuel ww w).2.help.Bounded := by
  induction fuel generalizing w ww with
  | zero => omega
  | succ fuel ih =>
      have some : w.conn.waiting ≠ [] := fun none =>
        Int.not_le.mpr waits (w.conn_waiting_nil_iff.mp none)
      rw [sendLoop]
      cases call : socketWrite tcpLayer s w.help.pos (w.help.len - w.help.pos) w with
      | mk n w' =>
          have kept : w'.help = w.help := (congrArg (·.2.help) call).symm
          dsimp only
          rw [kept]
          cases shut : w.net.shutLocal with
          | true =>
              obtain ⟨refused, same⟩ := socketWrite_shut s shut call
              have none : w.conn.send = (0, w.conn) := if_pos (Or.inr shut)
              rw [none, refused, if_neg (by decide), same, kept]
              exact ⟨(Int.add_zero ww).symm, rfl, bounded⟩
          | false =>
              obtain ⟨reply, conn⟩ := socketWrite_conn s bounded waits shut call
              by_cases moves : 0 < n
              · have size : (n.toNat : Int) = n := by omega
                have all := Conn.send_of_pos some shut (reply.symm.trans size.symm) (by omega)
                have bounded' := bounded.advance n.toNat
                rw [size] at conn bounded'
                have waiting : (w.conn.sendOnce n.toNat).waiting.length =
                    ((w.help.advance n).len - (w.help.advance n).pos).toNat := by
                  rw [← conn]
                  exact World.length_conn_waiting _
                rw [if_pos moves, all]
                by_cases more : (w.help.advance n).pos < (w.help.advance n).len
                · have less : ((w.help.advance n).len - (w.help.advance n).pos).toNat < fuel := by
                    have once : ((w.help.advance n).len - (w.help.advance n).pos).toNat =
                        (w.help.len - w.help.pos).toNat - n.toNat := by
                      have drops : (w.conn.sendOnce n.toNat).waiting.length =
                          w.conn.waiting.length - n.toNat := List.length_drop
                      have size := w.length_conn_waiting
                      omega
                    omega
                  obtain ⟨sum, closed, ends⟩ :=
                    ih (w := { w' with help := w.help.advance n }) bounded' more less (ww + n)
                  rw [if_pos more, sum, closed, conn]
                  refine ⟨?_, rfl, ends⟩
                  push_cast
                  omega
                · have none : (w.conn.sendOnce n.toNat).waiting = [] := by
                    apply List.eq_nil_of_length_eq_zero
                    omega
                  have last : (w.conn.sendOnce n.toNat).send = (0, w.conn.sendOnce n.toNat) :=
                    if_pos (Or.inl none)
                  rw [if_neg more, last, conn]
                  refine ⟨?_, rfl, bounded'⟩
                  push_cast
                  omega
              · have none : n.toNat = 0 := by omega
                have stays : w.help.advance ((0 : Nat) : Int) = w.help := by
                  rw [EchoHelper.advance_eq, Int.natCast_zero, Int.add_zero, if_neg (by omega)]
                rw [none, stays, ← kept] at conn
                rw [if_neg moves, Conn.send_of_nonpos some shut (reply ▸ Int.not_lt.mp moves)]
                exact ⟨(Int.add_zero ww).symm, conn, kept.symm ▸ bounded⟩

/-- `send_resp`, in closed form. -/
theorem sendResp_conn (bounded : w.help.Bounded) :
    (sendResp tcpLayer s w).1 = w.conn.send.1 ∧ (sendResp tcpLayer s w).2.conn = w.conn.send.2 ∧
      (sendResp tcpLayer s w).2.help.Bounded := by
  unfold sendResp
  split
  · rename_i waits
    have closed := sendLoop_conn s bounded waits (Nat.lt_succ_self _) 0
    rwa [Int.zero_add] at closed
  · rename_i idle
    have none := w.conn_waiting_nil_iff.mpr (Int.not_lt.mp idle)
    have last : w.conn.send = (0, w.conn) := if_pos (Or.inl none)
    rw [last]
    exact ⟨rfl, rfl, bounded⟩

/-! ### The callback -/

theorem readBranch_conn (bounded : w.help.Bounded) :
    (readBranch tcpLayer false s w).conn = w.conn.readBranch w.net.reads ∧
      (readBranch tcpLayer false s w).help.Bounded := by
  have enough : (bsize - w.help.len).toNat < readFuel w := Nat.lt_succ_self _
  obtain ⟨reads, inside⟩ := readLoop_conn s bounded enough
  unfold readBranch Conn.readBranch
  rw [← reads]
  change World.conn (if (readLoop tcpLayer s (readFuel w) w).help.has picoSockEvWr then _ else _) =
    (if (readLoop tcpLayer s (readFuel w) w).help.has picoSockEvWr then _ else _) ∧
      EchoHelper.Bounded (World.help
        (if (readLoop tcpLayer s (readFuel w) w).help.has picoSockEvWr then _ else _))
  generalize readLoop tcpLayer s (readFuel w) w = v at inside ⊢
  split
  · have cleared : World.conn { v with help := v.help.clear picoSockEvWr } =
        { v.conn with wr := false } := by
      show Conn.mk _ _ (EchoHelper.has _ _) (EchoHelper.has _ _) _ = _
      rw [EchoHelper.has_clear _ (by decide), EchoHelper.has_clear_self]
      rfl
    obtain ⟨-, sends, inside'⟩ := sendResp_conn s
      (w := { v with help := v.help.clear picoSockEvWr }) (inside.flags rfl rfl)
    rw [cleared] at sends
    exact ⟨sends, inside'⟩
  · exact ⟨rfl, inside⟩

theorem writeBranch_conn (bounded : w.help.Bounded) :
    (writeBranch tcpLayer false s w).conn = w.conn.writeBranch := by
  obtain ⟨sum, sends, -⟩ := sendResp_conn s bounded
  have marks : ∀ v : World TcpSock, World.conn (if v.help.read = 0 then
      { v with help := v.help.set picoSockEvWr } else
      { v with help := v.help.clear picoSockEvWr }) =
        { v.conn with wr := v.help.read = 0 } := by
    intro v
    split
    · rename_i zero
      show Conn.mk _ _ (EchoHelper.has _ _) (EchoHelper.has _ _) _ = _
      rw [EchoHelper.has_set _ (by decide), EchoHelper.has_set_self _ (by decide)]
      simp [World.conn, zero, World.waiting, EchoHelper.set]
    · rename_i moved
      show Conn.mk _ _ (EchoHelper.has _ _) (EchoHelper.has _ _) _ = _
      rw [EchoHelper.has_clear _ (by decide), EchoHelper.has_clear_self]
      simp [World.conn, moved, World.waiting, EchoHelper.clear]
  have marked := marks { (sendResp tcpLayer s w).2 with
    help := { (sendResp tcpLayer s w).2.help with read := (sendResp tcpLayer s w).1 } }
  refine marked.trans ?_
  show Conn.mk (sendResp tcpLayer s w).2.conn.waiting (sendResp tcpLayer s w).2.conn.len
    (sendResp tcpLayer s w).2.conn.rd (decide ((sendResp tcpLayer s w).1 = 0))
      (sendResp tcpLayer s w).2.conn.sock = _
  rw [sends, sum, Conn.writeBranch]
  simp only [Int.natCast_eq_zero]

/-- **The callback, loops and nested callbacks included, is `Conn.call`.** -/
theorem cbTcpserver_conn (bounded : w.help.Bounded) (ev : BitVec 16) :
    (cbTcpserver tcpLayer false ev s w).conn = w.conn.call ev w.net.reads := by
  obtain ⟨reads, inside⟩ :
      World.conn (if raised ev picoSockEvRd then readBranch tcpLayer false s w else w) =
        (if raised ev picoSockEvRd then w.conn.readBranch w.net.reads else w.conn) ∧
      (World.help
        (if raised ev picoSockEvRd then readBranch tcpLayer false s w else w)).Bounded := by
    split
    · exact readBranch_conn s bounded
    · exact ⟨rfl, bounded⟩
  unfold cbTcpserver Conn.call
  rw [← reads]
  generalize (if raised ev picoSockEvRd then readBranch tcpLayer false s w else w) = v at inside ⊢
  dsimp only
  have conn : World.conn (if raised ev picoSockEvConn then connBranch tcpLayer s v else v) =
      v.conn ∧ World.help (if raised ev picoSockEvConn then connBranch tcpLayer s v else v) =
        v.help := by
    split <;> exact ⟨rfl, rfl⟩
  rw [← conn.1]
  rw [← conn.2] at inside
  generalize (if raised ev picoSockEvConn then connBranch tcpLayer s v else v) = v at inside ⊢
  have fin : World.conn (if raised ev picoSockEvFin then finBranch v else v) = v.conn ∧
      World.help (if raised ev picoSockEvFin then finBranch v else v) = v.help := by
    split <;> exact ⟨rfl, rfl⟩
  rw [← fin.1]
  rw [← fin.2] at inside
  generalize (if raised ev picoSockEvFin then finBranch v else v) = v at inside ⊢
  split
  · rfl
  · have close : World.conn (if raised ev picoSockEvClose then closeBranch tcpLayer s v else v) =
        (if raised ev picoSockEvClose then v.conn.close else v.conn) ∧
          World.help (if raised ev picoSockEvClose then closeBranch tcpLayer s v else v) =
            v.help := by
      split
      · exact ⟨closeBranch_conn v, closeBranch_help tcpLayer s v⟩
      · exact ⟨rfl, rfl⟩
    rw [← close.1]
    rw [← close.2] at inside
    split
    · exact writeBranch_conn s inside
    · rfl

/-! ### What the two loops leave -/

section Left

variable (c : Conn) (reads : List Int)

theorem Conn.taken_full (full : ¬c.len < 2048) : c.taken reads = 0 := by
  have none : c.readable = 0 := by
    unfold readable
    omega
  rw [taken, none, taken_zero]

theorem Conn.taken_le_unread : c.taken reads ≤ c.sock.unread.length :=
  Nat.le_trans (Offers.taken_le reads c.readable) (Nat.min_le_right _ _)

/-- What a property of the state after the read loop has to be shown of. -/
theorem Conn.receive_cases {P : Conn → Prop} (full : ¬c.len < 2048 → P c)
    (reads_ : c.len < 2048 → P ((if c.raisesClose then c.close else c).store (c.taken reads)
      (c.len + c.taken reads < 2048))) : P (c.receive reads) := by
  unfold receive
  split
  · rename_i room
    exact reads_ room
  · rename_i room
    exact full room

theorem Conn.receive_waiting :
    (c.receive reads).waiting = c.waiting ++ c.sock.unread.take (c.taken reads) := by
  refine Conn.receive_cases (P := fun d =>
      d.waiting = c.waiting ++ c.sock.unread.take (c.taken reads)) c reads
    (fun full => ?_) fun _ => ?_
  · rw [c.taken_full reads full, List.take_zero, List.append_nil]
  · show Conn.waiting (if c.raisesClose then c.close else c) ++
      List.take _ (Conn.sock (if c.raisesClose then c.close else c)).unread = _
    split
    · rw [c.close_waiting, c.close_unread]
    · rfl

theorem Conn.receive_unread :
    (c.receive reads).sock.unread = c.sock.unread.drop (c.taken reads) := by
  refine Conn.receive_cases (P := fun d =>
      d.sock.unread = c.sock.unread.drop (c.taken reads)) c reads (fun full => ?_) fun _ => ?_
  · rw [c.taken_full reads full, List.drop_zero]
  · show List.drop _ (Conn.sock (if c.raisesClose then c.close else c)).unread = _
    split
    · rw [c.close_unread]
    · rfl

theorem Conn.receive_len : (c.receive reads).len = c.len + c.taken reads := by
  refine Conn.receive_cases (P := fun d => d.len = c.len + c.taken reads) c reads
    (fun full => ?_) fun _ => ?_
  · rw [c.taken_full reads full, Nat.add_zero]
  · show Conn.len (if c.raisesClose then c.close else c) + _ = _
    split
    · rw [c.close_len]
    · rfl

theorem Conn.receive_wr : (c.receive reads).wr = c.wr := by
  refine Conn.receive_cases (P := fun d => d.wr = c.wr) c reads
    (fun _ => rfl) fun _ => ?_
  show Conn.wr (if c.raisesClose then c.close else c) = _
  split
  · exact c.close_wr
  · rfl

theorem Conn.receive_writes : (c.receive reads).sock.writes = c.sock.writes := by
  refine Conn.receive_cases (P := fun d => d.sock.writes = c.sock.writes) c reads
    (fun _ => rfl) fun _ => ?_
  show (Conn.sock (if c.raisesClose then c.close else c)).writes = _
  split
  · exact c.close_writes
  · rfl

theorem Conn.receive_rd : (c.receive reads).rd =
    if c.len < 2048 then decide (c.len + c.taken reads < 2048) else c.rd := by
  refine Conn.receive_cases (P := fun d => d.rd =
      if c.len < 2048 then decide (c.len + c.taken reads < 2048) else c.rd) c reads
    (fun full => ?_) fun room => ?_
  · rw [if_neg full]
  · rw [if_pos room]
    rfl

/-- Only a read that raises `PICO_SOCK_EV_CLOSE` while the bit is set shuts the socket down. -/
theorem Conn.receive_shutLocal (stays : ¬(c.len < 2048 ∧ c.raisesClose = true ∧ c.rd = true)) :
    (c.receive reads).sock.shutLocal = c.sock.shutLocal := by
  refine Conn.receive_cases (P := fun d => d.sock.shutLocal = c.sock.shutLocal) c reads
    (fun _ => rfl) fun room => ?_
  show (Conn.sock (if c.raisesClose then c.close else c)).shutLocal = _
  split
  · rename_i raises
    have clear : c.rd = false := by
      by_contra bit
      exact stays ⟨room, raises, eq_true_of_ne_false bit⟩
    rw [c.close_of_clear clear]
  · rfl

theorem Conn.send_unread : c.send.2.sock.unread = c.sock.unread := by
  unfold send
  split <;> rfl

theorem Conn.send_rd : c.send.2.rd = c.rd := by
  unfold send
  split <;> rfl

/-- `send_resp` leaves nothing waiting if nothing waited or everything was accepted. -/
theorem Conn.send_waiting_iff : c.send.2.waiting = [] ↔ c.waiting = [] ∨
    c.sock.shutLocal = false ∧
      Offers.taken c.sock.writes c.waiting.length = c.waiting.length := by
  by_cases none : c.waiting = []
  · have idle : c.send = (0, c) := if_pos (Or.inl none)
    simp [idle, none]
  · cases shut : c.sock.shutLocal with
    | true =>
        have idle : c.send = (0, c) := if_pos (Or.inr shut)
        simp [idle, none]
    | false =>
        have small := Offers.taken_le c.sock.writes c.waiting.length
        rw [send_eq none shut]
        simp only [sendOnce, List.drop_eq_nil_iff, none, false_or, true_and]
        omega

end Left

/-! ### Runs -/

variable {s} {es : List TcpEvent}

/-- A segment comes in. -/
def Conn.input (c : Conn) (e : TcpEvent) : Conn :=
  { c with sock := { c.sock.input e with reads := [] } }

/-- The indices are inside the buffer, and at its start when nothing waits. -/
structure Conn.Fits (c : Conn) : Prop where
  le : c.waiting.length ≤ c.len
  len : c.len ≤ 2048
  reset : c.waiting = [] → c.len = 0

theorem conn_fits (bounded : w.help.Bounded) : w.conn.Fits := by
  obtain ⟨pos, le, len, reset⟩ := bounded
  have size := w.length_conn_waiting
  have end_ : w.conn.len = w.help.len.toNat := rfl
  have len : w.help.len ≤ 2048 := len
  refine ⟨by omega, by omega, fun none => ?_⟩
  rw [none, List.length_nil] at size
  omega

theorem ConnRun.bounded (run : ConnRun s es w) : w.help.Bounded := by
  obtain ⟨l, sim⟩ := run.simulates
  exact sim.bounded

/-- One step of a run, in closed form. -/
theorem ConnRun.step_conn (run : ConnRun s es w) {e : TcpEvent} {v : World TcpSock}
    (taken : connStep s w e = some v) : v.conn = (w.conn.input e).call e.ev e.reads := by
  obtain ⟨-, -, rfl⟩ := connStep_iff.mp taken
  exact cbTcpserver_conn s (w := { w with net := w.net.input e }) run.bounded e.ev

end Rfsis.Echo
