import Rfsis.Echo.Stream
import Rfsis.Offers

/-!
One connection of the TCP echo, with the socket that picoTCP gives it.

`TcpSock` is what a callback can learn of its socket, with a record of what the
peer has sent and of what `pico_socket_write` has accepted. `tcpLayer` gives the
functions of the socket layer on it. How much a call moves is up to the stack
and the peer, so it is read from a list of answers that comes with each event; a
call that finds no answer gets everything it can.

Between two callbacks the socket takes in a segment (`TcpSock.input`): data, the
peer's FIN, an acknowledgement. `connStep` is that, followed by the callback
with the events it raises.
-/

namespace Rfsis.Echo

open Rfsis.Offers

/-- A connected socket. `remoteClosed` is `remote_closed`, a FIN that came behind
unread data, `shutRemote` and `shutLocal` are the two shutdown bits of `state`,
`queued` the size of `tcpq_out`. `firstWr` holds until the `PICO_SOCK_EV_WR` of
the establishment is delivered. `halfCloses` keeps, for each call of
`pico_socket_shutdown`, the bytes that had arrived and those that had been
accepted by then. -/
structure TcpSock where
  unread : List UInt8 := []
  remoteClosed : Bool := false
  shutRemote : Bool := false
  shutLocal : Bool := false
  queued : Nat := 0
  firstWr : Bool := true
  arrived : List UInt8 := []
  sent : List UInt8 := []
  halfCloses : List (List UInt8 × List UInt8) := []
  reads : List Int := []
  writes : List Int := []
deriving DecidableEq, Repr

/-- `pico_socket_shutdown(s, PICO_SHUT_WR)`. -/
def TcpSock.shutdown (sock : TcpSock) : TcpSock :=
  { sock with
    shutLocal := true
    halfCloses := sock.halfCloses ++ [(sock.arrived, sock.sent)] }

/-- `pico_socket_tcp_read`, with the `PICO_SOCK_EV_CLOSE` of `tcp_read_finish`. -/
def TcpSock.read (sock : TcpSock) (count : Int) : ReadAnswer TcpSock :=
  if sock.shutRemote ∧ sock.unread = [] then ⟨sock, -1, [], false⟩
  else
    let n := answer sock.reads (min count.toNat sock.unread.length)
    ⟨{ sock with
        unread := sock.unread.drop n.toNat
        shutRemote := sock.shutRemote || sock.remoteClosed
        reads := sock.reads.tail },
      n, sock.unread.take n.toNat, sock.remoteClosed⟩

/-- `pico_socket_write`. -/
def TcpSock.write (sock : TcpSock) (bytes : List UInt8) : TcpSock × Int :=
  if sock.shutLocal then (sock, -1)
  else
    let n := answer sock.writes bytes.length
    ({ sock with
        queued := sock.queued + n.toNat
        sent := sock.sent ++ bytes.take n.toNat
        writes := sock.writes.tail }, n)

/-- The socket functions of the one connection. -/
def tcpLayer : SocketLayer TcpSock where
  read sock _ count := sock.read count
  write sock _ bytes := sock.write bytes
  shutdown sock _ := sock.shutdown
  accept sock _ := sock
  read_le sock _ count := by
    unfold TcpSock.read
    split
    · show (-1 : Int) ≤ max count 0
      omega
    · have small := answer_le sock.reads (min count.toNat sock.unread.length)
      dsimp only
      omega
  read_data sock _ count := by
    unfold TcpSock.read
    split
    · rfl
    · have small := answer_le sock.reads (min count.toNat sock.unread.length)
      dsimp only
      rw [List.length_take]
      omega
  write_le sock _ bytes := by
    unfold TcpSock.write
    split
    · show (-1 : Int) ≤ bytes.length
      omega
    · exact answer_le sock.writes bytes.length

/-- What happens on the connection up to and with one callback: the data that
came in order, whether the peer's FIN came behind it, how many queued bytes were
acknowledged; then the events raised and the answers during the callback. -/
structure TcpEvent where
  ev : BitVec 16
  data : List UInt8 := []
  fin : Bool := false
  acked : Nat := 0
  reads : List Int := []
  writes : List Int := []
deriving DecidableEq, Repr

/-- The socket when the callback is called. -/
def TcpSock.input (sock : TcpSock) (e : TcpEvent) : TcpSock :=
  let unread := sock.unread ++ e.data
  { sock with
    unread := unread
    arrived := sock.arrived ++ e.data
    remoteClosed := sock.remoteClosed || e.fin && !unread.isEmpty
    shutRemote := sock.shutRemote || e.fin && unread.isEmpty
    queued := sock.queued - e.acked
    firstWr := sock.firstWr && !raised e.ev picoSockEvWr
    reads := e.reads
    writes := e.writes }

/-- Nothing comes after the peer's FIN, and only queued bytes are acknowledged. -/
def TcpSock.Accepts (sock : TcpSock) (e : TcpEvent) : Prop :=
  (sock.remoteClosed || sock.shutRemote → e.data = []) ∧ e.acked ≤ sock.queued

instance (sock : TcpSock) (e : TcpEvent) : Decidable (sock.Accepts e) :=
  inferInstanceAs (Decidable (_ ∧ _))

/-- The segment comes in and the callback runs. -/
def connStep (s : Sock) (w : World TcpSock) (e : TcpEvent) : Option (World TcpSock) :=
  if w.exited.isSome ∨ ¬w.net.Accepts e then none
  else some (cbTcpserver tcpLayer false e.ev s { w with net := w.net.input e })

/-- A run of one connection, from its establishment. -/
abbrev ConnRun (s : Sock) (es : List TcpEvent) (w : World TcpSock) : Prop :=
  Transition.Run (connStep s) { net := {} } es w

variable {s : Sock} {w : World TcpSock} {es : List TcpEvent}

theorem connStep_iff {e : TcpEvent} {v : World TcpSock} :
    connStep s w e = some v ↔ w.exited = none ∧ w.net.Accepts e ∧
      v = cbTcpserver tcpLayer false e.ev s { w with net := w.net.input e } := by
  unfold connStep
  by_cases exited : w.exited.isSome
  · have some : w.exited ≠ none := Option.isSome_iff_ne_none.mp exited
    simp [exited, some]
  · have none : w.exited = none := by simpa using exited
    by_cases accepts : w.net.Accepts e
    · simp [none, accepts, eq_comm]
    · simp [none, accepts]

/-- The echo of a connection keeps an account of the buffer, whatever the segments are. -/
theorem ConnRun.simulates (run : ConnRun s es w) : ∃ l, Simulates w l := by
  refine Transition.Run.invariant (I := fun w => ∃ l, Simulates w l)
    ⟨.empty, simulates_start {}⟩ ?_ run
  rintro u e v ⟨l, sim⟩ taken
  obtain ⟨-, -, rfl⟩ := connStep_iff.mp taken
  have input : Simulates { u with net := u.net.input e } l :=
    ⟨sim.received, sim.handed, sim.pending, sim.bounded, sim.ranges⟩
  obtain ⟨l', sim', -⟩ := input.cbTcpserver tcpLayer s false e.ev
  exact ⟨l', sim'⟩

end Rfsis.Echo
