import Mathlib.Data.List.Basic
import Rfsis.Transition

/-!
The TCP echo of `echoserver.hpp`: one buffer and one `help` for all sockets.

The sockets of picoTCP are a parameter, `SocketLayer`. Its fields are the
contract of `pico_socket_read` and `pico_socket_write`: a result above zero is
at most the requested count, and a read that returns `n` has written `n` bytes.
A read may also raise `PICO_SOCK_EV_CLOSE` on its socket before it returns
(`tcp_read_finish`), which enters `cb_tcpserver` again; `closes` says so.
Every operation on a socket is recorded in `trace`, with `help` as it was when
the operation was called.
-/

namespace Rfsis.Echo

universe u

/-- A `struct pico_socket *`. -/
abbrev Sock := Nat

/-- `BSIZE`. -/
abbrev bsize : Int := 2048

/-- `PICO_SOCK_EV_RD`. -/
def picoSockEvRd : BitVec 32 := 1
/-- `PICO_SOCK_EV_WR`. -/
def picoSockEvWr : BitVec 32 := 2
/-- `PICO_SOCK_EV_CONN`. -/
def picoSockEvConn : BitVec 32 := 4
/-- `PICO_SOCK_EV_CLOSE`. -/
def picoSockEvClose : BitVec 32 := 8
/-- `PICO_SOCK_EV_FIN`. -/
def picoSockEvFin : BitVec 32 := 0x10
/-- `PICO_SOCK_EV_ERR`. -/
def picoSockEvErr : BitVec 32 := 0x80

/-- `class echoHelper`. -/
structure EchoHelper where
  read : Int := 0
  pos : Int := 0
  len : Int := 0
  flag : BitVec 32 := 0
deriving DecidableEq, Repr

/-- `help.getFlag() & bit`. -/
def EchoHelper.has (help : EchoHelper) (bit : BitVec 32) : Bool :=
  help.flag &&& bit ≠ 0

/-- `help.setFlag(help.getFlag() | bit)`. -/
def EchoHelper.set (help : EchoHelper) (bit : BitVec 32) : EchoHelper :=
  { help with flag := help.flag ||| bit }

/-- `help.setFlag(help.getFlag() & ~bit)`. -/
def EchoHelper.clear (help : EchoHelper) (bit : BitVec 32) : EchoHelper :=
  { help with flag := help.flag &&& ~~~bit }

/-- `pos` past `n` bytes sent, and both indices back at the start when it reaches `len`. -/
def EchoHelper.advance (help : EchoHelper) (n : Int) : EchoHelper :=
  let help := { help with pos := help.pos + n }
  if help.pos ≥ help.len then { help with pos := 0, len := 0 } else help

theorem EchoHelper.advance_eq (help : EchoHelper) (n : Int) :
    help.advance n = if help.pos + n ≥ help.len then { help with pos := 0, len := 0 }
      else { help with pos := help.pos + n } := rfl

/-- `ev & bit`, with the `uint16_t` promoted. -/
def raised (ev : BitVec 16) (bit : BitVec 32) : Bool :=
  ev.setWidth 32 &&& bit ≠ 0

/-- What a read answers: its result, the bytes it stored, and whether it raised
`PICO_SOCK_EV_CLOSE` before it returned. -/
structure ReadAnswer (ω : Type u) where
  net : ω
  ret : Int
  data : List UInt8
  closes : Bool

/-- The socket functions, over a state `ω` of the stack, with their contract. -/
structure SocketLayer (ω : Type u) where
  read : ω → Sock → Int → ReadAnswer ω
  write : ω → Sock → List UInt8 → ω × Int
  shutdown : ω → Sock → ω
  accept : ω → Sock → ω
  read_le : ∀ net s count, (read net s count).ret ≤ max count 0
  read_data : ∀ net s count, (read net s count).data.length = (read net s count).ret.toNat
  write_le : ∀ net s bytes, (write net s bytes).2 ≤ bytes.length

/-- An operation of the application on a socket or a timer. Reads and writes keep
`help` at the call, the offset in `recvbuf`, the count, the result, and the
bytes stored or accepted. -/
inductive Io where
  | read (s : Sock) (help : EchoHelper) (off count ret : Int) (data : List UInt8)
  | write (s : Sock) (help : EchoHelper) (off count ret : Int) (data : List UInt8)
  | shutdown (s : Sock)
  | accept (s : Sock)
  | timerAdd (expire : Nat)
deriving DecidableEq, Repr

/-- The globals of the application, the state of the stack and the trace.
`exited` is the status of a call of `exit`. -/
structure World (ω : Type u) where
  help : EchoHelper := {}
  recvbuf : Nat → UInt8 := fun _ => 0
  net : ω
  trace : List Io := []
  exited : Option Int := none

/-- The buffer with `data` stored from the offset `off` on. -/
def fill (buf : Nat → UInt8) (off : Nat) (data : List UInt8) : Nat → UInt8 :=
  fun i => if i < off then buf i else (data[i - off]?).getD (buf i)

/-- The `count` bytes of the buffer from the offset `off` on. -/
def segment (buf : Nat → UInt8) (off count : Nat) : List UInt8 :=
  (List.range' off count).map buf

/-- A stack that answers from a script, and nothing once the script has ended. -/
structure Script where
  reads : List (List UInt8 × Bool) := []
  writes : List Nat := []
deriving DecidableEq, Repr

/-- The sockets of a script, whichever socket is asked. -/
def scripted : SocketLayer Script where
  read script _ count :=
    match script.reads with
    | [] => ⟨script, 0, [], false⟩
    | (bytes, closes) :: reads =>
        ⟨{ script with reads := reads }, (bytes.take count.toNat).length, bytes.take count.toNat,
          closes⟩
  write script _ bytes :=
    match script.writes with
    | [] => (script, 0)
    | n :: writes => ({ script with writes := writes }, (min n bytes.length : Nat))
  shutdown script _ := script
  accept script _ := script
  read_le script _ count := by
    cases script.reads with
    | nil => exact Int.le_max_right _ _
    | cons answer reads =>
        simp only [List.length_take]
        omega
  read_data script _ count := by
    cases script.reads with
    | nil => rfl
    | cons answer reads => exact (Int.toNat_natCast _).symm
  write_le script _ bytes := by
    cases script.writes with
    | nil => exact Int.natCast_nonneg _
    | cons n writes =>
        simp only []
        omega

section Server

variable {ω : Type u} (layer : SocketLayer ω)

/-- The branch of `cb_tcpserver` for `PICO_SOCK_EV_CLOSE`. -/
def closeBranch (s : Sock) (w : World ω) : World ω :=
  if w.help.has picoSockEvRd then
    { w with net := layer.shutdown w.net s, trace := w.trace ++ [.shutdown s] }
  else w

/-- `pico_socket_read(s, recvbuf + off, count)`, with the callback it may raise. -/
def socketRead (s : Sock) (off count : Int) (w : World ω) : Int × World ω :=
  let answer := layer.read w.net s count
  let w := { w with
    net := answer.net
    recvbuf := fill w.recvbuf off.toNat answer.data
    trace := w.trace ++ [.read s w.help off count answer.ret answer.data] }
  (answer.ret, if answer.closes then closeBranch layer s w else w)

/-- `pico_socket_write(s, recvbuf + off, count)`. -/
def socketWrite (s : Sock) (off count : Int) (w : World ω) : Int × World ω :=
  let bytes := segment w.recvbuf off.toNat count.toNat
  let answer := layer.write w.net s bytes
  (answer.2, { w with
    net := answer.1
    trace := w.trace ++ [.write s w.help off count answer.2 (bytes.take answer.2.toNat)] })

/-- The loop of the read branch; each turn reads at least one byte or ends it. -/
def readLoop (s : Sock) : Nat → World ω → World ω
  | 0, w => w
  | fuel + 1, w =>
      if w.help.len < bsize then
        let (n, w) := socketRead layer s w.help.len (bsize - w.help.len) w
        let help := { w.help with read := n }
        if 0 < n then
          readLoop s fuel { w with
            help := { help with len := help.len + n }.clear picoSockEvRd }
        else { w with help := help.set picoSockEvRd }
      else w

/-- The loop of `send_resp`, with its sum `ww`; each turn sends at least one byte
or ends it. -/
def sendLoop (s : Sock) : Nat → Int → World ω → Int × World ω
  | 0, ww, w => (ww, w)
  | fuel + 1, ww, w =>
      let (n, w) := socketWrite layer s w.help.pos (w.help.len - w.help.pos) w
      if 0 < n then
        let w := { w with help := w.help.advance n }
        if w.help.pos < w.help.len then sendLoop s fuel (ww + n) w else (ww + n, w)
      else (ww, w)

/-- Enough turns for any call of the read loop. -/
def readFuel (w : World ω) : Nat :=
  (bsize - w.help.len).toNat + 1

/-- Enough turns for any call of `send_resp`. -/
def sendFuel (w : World ω) : Nat :=
  (w.help.len - w.help.pos).toNat + 1

/-- `send_resp`. -/
def sendResp (s : Sock) (w : World ω) : Int × World ω :=
  if w.help.len > w.help.pos then sendLoop layer s (sendFuel w) 0 w else (0, w)

/-- The branch of `cb_tcpserver` for `PICO_SOCK_EV_RD`. -/
def readBranch (backup : Bool) (s : Sock) (w : World ω) : World ω :=
  let w := readLoop layer s (readFuel w) w
  if w.help.has picoSockEvWr then
    let w := { w with help := w.help.clear picoSockEvWr }
    if !backup then (sendResp layer s w).2 else w
  else w

/-- The branch of `cb_tcpserver` for `PICO_SOCK_EV_CONN`. -/
def connBranch (s : Sock) (w : World ω) : World ω :=
  { w with net := layer.accept w.net s, trace := w.trace ++ [.accept s] }

/-- The branch of `cb_tcpserver` for `PICO_SOCK_EV_FIN`. -/
def finBranch (w : World ω) : World ω :=
  { w with trace := w.trace ++ [.timerAdd 2000] }

/-- The branch of `cb_tcpserver` for `PICO_SOCK_EV_WR`. -/
def writeBranch (backup : Bool) (s : Sock) (w : World ω) : World ω :=
  let w :=
    if !backup then
      let (ww, w) := sendResp layer s w
      { w with help := { w.help with read := ww } }
    else w
  if w.help.read = 0 then { w with help := w.help.set picoSockEvWr }
  else { w with help := w.help.clear picoSockEvWr }

/-- `cb_tcpserver`, with conf's backup flag as it is during the call. -/
def cbTcpserver (backup : Bool) (ev : BitVec 16) (s : Sock) (w : World ω) : World ω :=
  let w := if raised ev picoSockEvRd then readBranch layer backup s w else w
  let w := if raised ev picoSockEvConn then connBranch layer s w else w
  let w := if raised ev picoSockEvFin then finBranch w else w
  if raised ev picoSockEvErr then { w with exited := some 1 }
  else
    let w := if raised ev picoSockEvClose then closeBranch layer s w else w
    if raised ev picoSockEvWr then writeBranch layer backup s w else w

/-- A call of the callback by the stack. -/
structure EchoCall where
  ev : BitVec 16
  sock : Sock
  backup : Bool
deriving DecidableEq, Repr

/-- One call; a process that has exited takes none. -/
def echoStep (w : World ω) (call : EchoCall) : Option (World ω) :=
  if w.exited.isSome then none else some (cbTcpserver layer call.backup call.ev call.sock w)

/-- A run of calls from the start of the process, on a stack in any state. -/
abbrev EchoRun (net : ω) (calls : List EchoCall) (w : World ω) : Prop :=
  Transition.Run (echoStep layer) { net := net } calls w

/-! ### The loops end by themselves -/

theorem closeBranch_help (s : Sock) (w : World ω) : (closeBranch layer s w).help = w.help := by
  unfold closeBranch
  split <;> rfl

theorem socketRead_help (s : Sock) (off count : Int) (w : World ω) :
    (socketRead layer s off count w).2.help = w.help := by
  unfold socketRead
  dsimp only
  split
  · exact closeBranch_help layer s _
  · rfl

/-- The bound of the read loop is never what ends it. -/
theorem readLoop_fuel (s : Sock) {fuel : Nat} {w : World ω}
    (enough : (bsize - w.help.len).toNat < fuel) (more : Nat) :
    readLoop layer s (fuel + more) w = readLoop layer s fuel w := by
  induction fuel generalizing w with
  | zero => omega
  | succ fuel ih =>
      rw [Nat.add_right_comm, readLoop, readLoop]
      by_cases room : w.help.len < bsize
      · rw [if_pos room, if_pos room]
        have kept := socketRead_help layer s w.help.len (bsize - w.help.len) w
        cases call : socketRead layer s w.help.len (bsize - w.help.len) w with
        | mk n w' =>
            rw [call] at kept
            dsimp only at kept ⊢
            by_cases some : 0 < n
            · rw [if_pos some, if_pos some]
              apply ih
              show (bsize - (w'.help.len + n)).toNat < fuel
              rw [kept]
              omega
            · rw [if_neg some, if_neg some]
      · rw [if_neg room, if_neg room]

/-- The bound of the loop of `send_resp` is never what ends it. -/
theorem sendLoop_fuel (s : Sock) {fuel : Nat} {w : World ω}
    (enough : (w.help.len - w.help.pos).toNat < fuel) (more : Nat) (ww : Int) :
    sendLoop layer s (fuel + more) ww w = sendLoop layer s fuel ww w := by
  induction fuel generalizing w ww with
  | zero => omega
  | succ fuel ih =>
      rw [Nat.add_right_comm, sendLoop, sendLoop]
      have kept : (socketWrite layer s w.help.pos (w.help.len - w.help.pos) w).2.help = w.help :=
        rfl
      cases call : socketWrite layer s w.help.pos (w.help.len - w.help.pos) w with
      | mk n w' =>
          rw [call] at kept
          dsimp only at kept ⊢
          by_cases some : 0 < n
          · rw [if_pos some, if_pos some]
            by_cases left : (w'.help.advance n).pos < (w'.help.advance n).len
            · rw [if_pos left, if_pos left]
              apply ih
              show ((w'.help.advance n).len - (w'.help.advance n).pos).toNat < fuel
              rw [EchoHelper.advance_eq] at left ⊢
              split at left
              · exact absurd left (Int.lt_irrefl 0)
              · rename_i waits
                rw [if_neg waits]
                have left : w'.help.pos + n < w'.help.len := left
                show (w'.help.len - (w'.help.pos + n)).toNat < fuel
                rw [kept] at left ⊢
                omega
            · rw [if_neg left, if_neg left]
          · rw [if_neg some, if_neg some]

/-- The callback that a read raises is the close branch. -/
theorem cbTcpserver_close (backup : Bool) (s : Sock) (w : World ω) :
    cbTcpserver layer backup 8#16 s w = closeBranch layer s w := by
  have bits : raised 8#16 picoSockEvRd = false ∧ raised 8#16 picoSockEvConn = false ∧
      raised 8#16 picoSockEvFin = false ∧ raised 8#16 picoSockEvErr = false ∧
        raised 8#16 picoSockEvClose = true ∧ raised 8#16 picoSockEvWr = false := by decide
  obtain ⟨rd, conn, fin, err, close, wr⟩ := bits
  simp [cbTcpserver, rd, conn, fin, err, close, wr]

end Server

end Rfsis.Echo
