import Rfsis.Echo.CallEffect

/-!
What is lost when the echo half-closes its connection.

The close branch looks at the `PICO_SOCK_EV_RD` bit of the flag and at nothing
else, so it may shut the socket down while bytes wait in `recvbuf` or in the
socket; no later write is accepted. `halfClose_lossless_iff` says in which runs
that never happens: every call that reaches the shutdown must find both empty.
-/

namespace Rfsis.Echo

variable {s : Sock} {w : World TcpSock} {es : List TcpEvent} {c : Conn}

/-- What the peer has sent is what has been accepted, what waits in the buffer
and what is unread, in this order. -/
def Conn.Conserves (c : Conn) : Prop :=
  c.sock.sent ++ c.waiting ++ c.sock.unread = c.sock.arrived

/-- Nothing waits in the buffer and nothing is unread. -/
def Conn.Clear (c : Conn) : Prop :=
  c.waiting = [] ∧ c.sock.unread = []

instance (c : Conn) : Decidable c.Clear :=
  inferInstanceAs (Decidable (_ ∧ _))

/-- All bytes that had arrived when the socket was shut down had been accepted. -/
def Lossless (halfClose : List UInt8 × List UInt8) : Prop :=
  halfClose.2 = halfClose.1

/-- Everything that has arrived has been accepted exactly when nothing is left. -/
theorem Conn.Conserves.sent_iff (conserves : c.Conserves) :
    c.sock.sent = c.sock.arrived ↔ c.Clear := by
  rw [← conserves, List.append_assoc]
  constructor
  · intro all
    have none := List.append_cancel_left ((List.append_nil _).trans all)
    exact List.append_eq_nil_iff.mp none.symm
  · rintro ⟨waiting, unread⟩
    rw [waiting, unread, List.append_nil, List.append_nil]

/-! ### What each function keeps -/

theorem Conn.Conserves.close (conserves : c.Conserves) : c.close.Conserves := by
  unfold Conn.close
  split <;> exact conserves

theorem Conn.Conserves.store (conserves : c.Conserves) (n : Nat) (rd : Bool) :
    (c.store n rd).Conserves := by
  show c.sock.sent ++ (c.waiting ++ c.sock.unread.take n) ++ c.sock.unread.drop n = c.sock.arrived
  rw [List.append_assoc, List.append_assoc, List.take_append_drop, ← List.append_assoc]
  exact conserves

theorem Conn.Conserves.receive (conserves : c.Conserves) (reads : List Int) :
    (c.receive reads).Conserves := by
  unfold Conn.receive
  split
  · apply Conn.Conserves.store
    split
    · exact conserves.close
    · exact conserves
  · exact conserves

theorem Conn.Conserves.send (conserves : c.Conserves) : c.send.2.Conserves := by
  unfold Conn.send
  split
  · exact conserves
  · show c.sock.sent ++ c.waiting.take _ ++ c.waiting.drop _ ++ c.sock.unread = c.sock.arrived
    rw [List.append_assoc c.sock.sent, List.take_append_drop]
    exact conserves

theorem Conn.Conserves.readBranch (conserves : c.Conserves) (reads : List Int) :
    (c.readBranch reads).Conserves := by
  have received := conserves.receive reads
  unfold Conn.readBranch
  dsimp only
  split
  · exact Conn.Conserves.send (c := { c.receive reads with wr := false }) received
  · exact received

theorem Conn.Conserves.call (conserves : c.Conserves) (ev : BitVec 16) (reads : List Int) :
    (c.call ev reads).Conserves := by
  have read : Conn.Conserves (if raised ev picoSockEvRd then c.readBranch reads else c) := by
    split
    · exact conserves.readBranch reads
    · exact conserves
  unfold Conn.call
  dsimp only
  generalize (if raised ev picoSockEvRd then c.readBranch reads else c) = d at read ⊢
  have close : Conn.Conserves (if raised ev picoSockEvClose then d.close else d) := by
    split
    · exact read.close
    · exact read
  split
  · exact read
  · split
    · exact close.send
    · exact close

theorem Conn.Conserves.input (conserves : c.Conserves) (e : TcpEvent) :
    (c.input e).Conserves := by
  show c.sock.sent ++ c.waiting ++ (c.sock.unread ++ e.data) = c.sock.arrived ++ e.data
  rw [← conserves, List.append_assoc, List.append_assoc, List.append_assoc]

theorem ConnRun.conserves (run : ConnRun s es w) : w.conn.Conserves := by
  refine Transition.Run.history (P := fun _ w => w.conn.Conserves) rfl ?_ run
  intro es u e v before conserves taken
  rw [ConnRun.step_conn before taken]
  exact (conserves.input e).call e.ev e.reads

/-! ### The half-closes of one call -/

/-- Every shutdown so far was lossless. -/
def Conn.AllLossless (c : Conn) : Prop :=
  ∀ halfClose ∈ c.sock.halfCloses, Lossless halfClose

theorem Conn.allLossless_close (conserves : c.Conserves) :
    c.close.AllLossless ↔ c.AllLossless ∧ (c.rd = true → c.Clear) := by
  unfold Conn.close
  split
  · rename_i bit
    rw [← conserves.sent_iff]
    constructor
    · intro all
      refine ⟨fun halfClose mem => all halfClose (List.mem_append_left _ mem), fun _ => ?_⟩
      exact all (c.sock.arrived, c.sock.sent) (List.mem_append_right _ (List.mem_singleton_self _))
    · rintro ⟨earlier, now⟩ halfClose mem
      rcases List.mem_append.mp mem with old | new
      · exact earlier halfClose old
      · rw [List.mem_singleton.mp new]
        exact now bit
  · rename_i clear
    simp [clear]

/-- The read loop shuts the socket down at its first read or not at all. -/
def Conn.ClosesReading (c : Conn) : Prop :=
  c.len < 2048 ∧ c.raisesClose = true ∧ c.rd = true

instance (c : Conn) : Decidable c.ClosesReading :=
  inferInstanceAs (Decidable (_ ∧ _ ∧ _))

theorem Conn.allLossless_receive (conserves : c.Conserves) (reads : List Int) :
    (c.receive reads).AllLossless ↔ c.AllLossless ∧ (c.ClosesReading → c.Clear) := by
  refine Conn.receive_cases (P := fun d => d.AllLossless ↔ _) c reads
    (fun full => ?_) fun room => ?_
  · simp [ClosesReading, full]
  · show Conn.AllLossless (if c.raisesClose then c.close else c) ↔ _
    split
    · rename_i raises
      rw [allLossless_close conserves]
      simp [ClosesReading, room, raises]
    · rename_i silent
      simp [ClosesReading, silent]

theorem Conn.allLossless_send : c.send.2.AllLossless ↔ c.AllLossless := by
  unfold Conn.send
  split <;> exact Iff.rfl

theorem Conn.allLossless_readBranch (conserves : c.Conserves) (reads : List Int) :
    (c.readBranch reads).AllLossless ↔ c.AllLossless ∧ (c.ClosesReading → c.Clear) := by
  rw [← allLossless_receive conserves reads]
  unfold Conn.readBranch
  dsimp only
  split
  · exact allLossless_send (c := { c.receive reads with wr := false })
  · exact Iff.rfl

/-! ### What the read branch leaves for the close branch -/

theorem Conn.readBranch_rd (reads : List Int) : (c.readBranch reads).rd =
    if c.len < 2048 then decide (c.len + c.taken reads < 2048) else c.rd := by
  rw [← c.receive_rd reads]
  unfold Conn.readBranch
  dsimp only
  split
  · exact Conn.send_rd { c.receive reads with wr := false }
  · rfl

/-- The reads and writes of a call with these answers leave nothing: nothing is
unread, and nothing waited or the write credit was there and all was accepted. -/
def Conn.Drains (c : Conn) (reads : List Int) : Prop :=
  c.taken reads = c.sock.unread.length ∧ (c.Clear ∨ c.wr = true ∧ c.sock.shutLocal = false ∧
    Offers.taken c.sock.writes (c.waiting.length + c.taken reads) =
      c.waiting.length + c.taken reads)

instance (c : Conn) (reads : List Int) : Decidable (c.Drains reads) :=
  inferInstanceAs (Decidable (_ ∧ (_ ∨ _ ∧ _ ∧ _)))

/-- What the read branch leaves is what the reads leave, less what is sent if the
write credit was there. -/
theorem Conn.readBranch_clear (c : Conn) (reads : List Int) : (c.readBranch reads).Clear ↔
    (c.receive reads).sock.unread = [] ∧ ((c.receive reads).waiting = [] ∨
      c.wr = true ∧ (c.receive reads).sock.shutLocal = false ∧
        Offers.taken c.sock.writes (c.receive reads).waiting.length =
          (c.receive reads).waiting.length) := by
  have credit := c.receive_wr reads
  have writes := c.receive_writes reads
  unfold Conn.readBranch Clear
  dsimp only
  split
  · rename_i set
    rw [Conn.send_unread, Conn.send_waiting_iff, ← credit, set, ← writes]
    constructor
    · rintro ⟨waiting, unread⟩
      exact ⟨unread, waiting.imp_right fun accepted => ⟨rfl, accepted⟩⟩
    · rintro ⟨unread, waiting⟩
      exact ⟨waiting.imp_right fun accepted => accepted.2, unread⟩
  · rename_i unset
    rw [← credit]
    simp [unset, and_comm]

theorem Conn.readBranch_clear_iff (reads : List Int) (first : c.ClosesReading → c.Clear) :
    (c.readBranch reads).Clear ↔ c.Drains reads := by
  have small := c.taken_le_unread reads
  have length : (c.receive reads).waiting.length = c.waiting.length + c.taken reads := by
    rw [c.receive_waiting, List.length_append, List.length_take]
    omega
  have unread : (c.receive reads).sock.unread = [] ↔
      c.taken reads = c.sock.unread.length := by
    rw [c.receive_unread, List.drop_eq_nil_iff]
    omega
  rw [readBranch_clear, unread, length, Drains]
  refine and_congr_right fun all => ?_
  have empty : (c.receive reads).waiting = [] ↔ c.Clear := by
    rw [c.receive_waiting, List.append_eq_nil_iff, all, List.take_length]
    exact Iff.rfl
  rw [empty]
  by_cases clear : c.Clear
  · simp [clear]
  · rw [c.receive_shutLocal reads fun closes => clear (first closes)]

/-! ### The half-closes of a run -/

/-- The call half-closes the connection only when nothing is left: if it does so
inside the read loop, nothing waits and nothing is unread before; if it does so
in the close branch, the same holds after the read branch, if `PICO_SOCK_EV_RD`
was raised too, and before the call otherwise. -/
def Conn.KeepsAll (c : Conn) (ev : BitVec 16) (reads : List Int) : Prop :=
  (raised ev picoSockEvRd = true → c.ClosesReading → c.Clear) ∧
  (raised ev picoSockEvErr = false → raised ev picoSockEvClose = true →
    if raised ev picoSockEvRd then
      (if c.len < 2048 then c.len + c.taken reads < 2048 else c.rd = true) → c.Drains reads
    else c.rd = true → c.Clear)

instance (c : Conn) (ev : BitVec 16) (reads : List Int) : Decidable (c.KeepsAll ev reads) :=
  inferInstanceAs (Decidable (_ ∧ (_ → _ → _)))

theorem Conn.allLossless_call (conserves : c.Conserves) (ev : BitVec 16) (reads : List Int) :
    (c.call ev reads).AllLossless ↔ c.AllLossless ∧ c.KeepsAll ev reads := by
  -- The shutdowns of the read branch, and what that branch leaves.
  obtain ⟨d, read, kept, before, after⟩ : ∃ d,
      d = (if raised ev picoSockEvRd then c.readBranch reads else c) ∧ d.Conserves ∧
        (d.AllLossless ↔ c.AllLossless ∧
          (raised ev picoSockEvRd = true → c.ClosesReading → c.Clear)) ∧
        ((raised ev picoSockEvRd = true → c.ClosesReading → c.Clear) →
          ((d.rd = true → d.Clear) ↔ if raised ev picoSockEvRd then
            (if c.len < 2048 then c.len + c.taken reads < 2048 else c.rd = true) → c.Drains reads
          else c.rd = true → c.Clear)) := by
    refine ⟨_, rfl, ?_⟩
    cases raised ev picoSockEvRd with
    | true =>
        refine ⟨conserves.readBranch reads, ?_, fun first => ?_⟩
        · simpa using allLossless_readBranch conserves reads
        · rw [if_pos rfl, if_pos rfl, readBranch_clear_iff reads (first rfl), readBranch_rd]
          split
          · rw [decide_eq_true_iff]
          · exact Iff.rfl
    | false => exact ⟨conserves, by simp, fun _ => Iff.rfl⟩
  unfold Conn.call KeepsAll
  rw [← read]
  dsimp only
  cases failed : raised ev picoSockEvErr with
  | true => simpa using before
  | false =>
      have close : (if raised ev picoSockEvClose then d.close else d).AllLossless ↔
          d.AllLossless ∧ (raised ev picoSockEvClose = true → d.rd = true → d.Clear) := by
        cases raised ev picoSockEvClose with
        | true => simpa using allLossless_close kept
        | false => simp
      generalize (if raised ev picoSockEvClose then d.close else d) = e at close ⊢
      have write : (if raised ev picoSockEvWr then e.writeBranch else e).AllLossless ↔
          e.AllLossless := by
        split
        · exact allLossless_send
        · exact Iff.rfl
      rw [if_neg Bool.false_ne_true, write, close, before, and_assoc]
      refine and_congr_right fun _ => and_congr_right fun first => ?_
      rw [after first]
      simp

/-- The condition on a callback of the connection, in the state before it. -/
def KeepsAll (w : World TcpSock) (e : TcpEvent) : Prop :=
  (w.conn.input e).KeepsAll e.ev e.reads

instance (w : World TcpSock) (e : TcpEvent) : Decidable (KeepsAll w e) :=
  inferInstanceAs (Decidable (Conn.KeepsAll _ _ _))

/-- **When no half-close loses data.** In a run of one connection, whatever the
events, the answers and the nested callbacks, every byte that had arrived at each
shutdown had been accepted by `pico_socket_write` if and only if every callback
that shuts the socket down finds nothing left. -/
theorem halfClose_lossless_iff (run : ConnRun s es w) :
    (∀ halfClose ∈ w.net.halfCloses, halfClose.2 = halfClose.1) ↔
      Transition.Meets (connStep s) KeepsAll { net := {} } es := by
  refine Transition.Run.history (P := fun es w => w.conn.AllLossless ↔
    Transition.Meets (connStep s) KeepsAll { net := {} } es) ?_ ?_ run
  · exact ⟨fun _ => trivial, fun _ _ mem => absurd mem List.not_mem_nil⟩
  · intro es u e v before ih taken
    have conserves := (ConnRun.conserves before).input e
    rw [ConnRun.step_conn before taken, Conn.allLossless_call conserves,
      Transition.Meets.snoc_iff, ← ih]
    refine and_congr_right fun _ => ?_
    exact ⟨fun now x other => Transition.Run.unique before other ▸ now, fun all => all u before⟩

/-- A peer that sends three bytes, waits for the echo and closes. -/
theorem halfClose_lossless_idle :
    ∃ es w, ConnRun 7 es w ∧ w.net.halfCloses = [([1, 2, 3], [1, 2, 3])] ∧
      ∀ halfClose ∈ w.net.halfCloses, halfClose.2 = halfClose.1 := by
  let es : List TcpEvent := [{ ev := 2 }, { ev := 1, data := [1, 2, 3] }, { ev := 2, acked := 3 },
    { ev := 8, fin := true }]
  have ends : (Transition.exec (connStep 7) { net := {} } es).any
      (fun w => w.net.halfCloses = [([1, 2, 3], [1, 2, 3])]) := by decide
  have keeps : Transition.Meets (connStep 7) KeepsAll { net := {} } es := by decide
  obtain ⟨w, run, cuts⟩ := Transition.Run.of_any ends
  exact ⟨es, w, run, cuts, (halfClose_lossless_iff run).mpr keeps⟩

/-- **A half-close that loses data.** The peer sends three bytes, sends three more
before it acknowledges the echo of the first, and closes: the later three wait
for a write credit when the socket is shut down, and no acknowledgement helps. -/
theorem halfClose_loses :
    ∃ es w, ConnRun 7 es w ∧ w.net.halfCloses = [([1, 2, 3, 4, 5, 6], [1, 2, 3])] ∧
      w.net.sent = [1, 2, 3] ∧ w.waiting = [4, 5, 6] ∧
        ¬∀ halfClose ∈ w.net.halfCloses, halfClose.2 = halfClose.1 := by
  let es : List TcpEvent := [{ ev := 2 }, { ev := 1, data := [1, 2, 3] },
    { ev := 1, data := [4, 5, 6] }, { ev := 8, fin := true }, { ev := 2, acked := 3 }]
  have ends : (Transition.exec (connStep 7) { net := {} } es).any (fun w =>
      w.net.halfCloses = [([1, 2, 3, 4, 5, 6], [1, 2, 3])] ∧ w.net.sent = [1, 2, 3] ∧
        w.waiting = [4, 5, 6] ∧ ¬∀ halfClose ∈ w.net.halfCloses, halfClose.2 = halfClose.1) := by
    decide
  obtain ⟨w, run, lost⟩ := Transition.Run.of_any ends
  exact ⟨es, w, run, lost⟩

end Rfsis.Echo
