import Rfsis.Echo.Server
import Rfsis.SharedFifo

/-!
The echo as a stream: what `cb_tcpserver` has sent, followed by what waits in
`recvbuf`, is what it has read.

`Simulates` relates the globals of the application to the account of a shared
queue (`SharedFifo.Ledger`): a read receives on its socket, a write hands out on
its socket, and the bytes between `pos` and `len` are the pending ones. Each
function of the application has one lemma that says which account it leaves.
-/

namespace Rfsis.Echo

open Rfsis.SharedFifo

universe u

variable {ω : Type u} {layer : SocketLayer ω} {w : World ω} {l : Ledger Sock UInt8} {s : Sock}

/-! ### Segments of the buffer -/

theorem length_segment (buf : Nat → UInt8) (off count : Nat) :
    (segment buf off count).length = count := by
  rw [segment, List.length_map, List.length_range']

theorem segment_append (buf : Nat → UInt8) (off m n : Nat) :
    segment buf off (m + n) = segment buf off m ++ segment buf (off + m) n := by
  rw [segment, segment, segment, ← List.map_append, List.range'_append_1]

theorem segment_fill_below (buf : Nat → UInt8) {off count start : Nat} (data : List UInt8)
    (below : off + count ≤ start) : segment (fill buf start data) off count =
      segment buf off count := by
  apply List.map_congr_left
  intro i mem
  have inside := List.mem_range'_1.mp mem
  exact if_pos (by omega)

theorem segment_fill (buf : Nat → UInt8) (off : Nat) (data : List UInt8) :
    segment (fill buf off data) off data.length = data := by
  apply List.ext_getElem
  · rw [length_segment]
  · intro i inside here
    simp [segment, fill, here, Nat.not_lt.mpr (Nat.le_add_right off i)]

/-! ### The trace -/

/-- The bytes an operation stored in the buffer, with their socket. -/
def Io.returned : Io → List (Sock × UInt8)
  | .read s _ _ _ _ data => data.map (Prod.mk s)
  | _ => []

/-- The bytes an operation handed to a socket, with that socket. -/
def Io.accepted : Io → List (Sock × UInt8)
  | .write s _ _ _ _ data => data.map (Prod.mk s)
  | _ => []

/-- All bytes read so far, in order. -/
def returned (trace : List Io) : List (Sock × UInt8) :=
  trace.flatMap Io.returned

/-- All bytes sent so far, in order. -/
def accepted (trace : List Io) : List (Sock × UInt8) :=
  trace.flatMap Io.accepted

/-- The bytes of the buffer that wait to be sent. -/
def World.waiting (w : World ω) : List UInt8 :=
  segment w.recvbuf w.help.pos.toNat (w.help.len - w.help.pos).toNat

theorem World.length_waiting (w : World ω) :
    w.waiting.length = (w.help.len - w.help.pos).toNat :=
  length_segment _ _ _

/-- The indices are inside the buffer, and at its start when nothing waits. -/
structure EchoHelper.Bounded (help : EchoHelper) : Prop where
  pos : 0 ≤ help.pos
  le : help.pos ≤ help.len
  len : help.len ≤ bsize
  reset : help.pos < help.len ∨ help.pos = 0 ∧ help.len = 0

theorem EchoHelper.bounded_start : EchoHelper.Bounded {} :=
  ⟨Int.le_refl 0, Int.le_refl 0, (by decide : (0 : Int) ≤ bsize), Or.inr ⟨rfl, rfl⟩⟩

/-- Only the indices matter. -/
theorem EchoHelper.Bounded.flags {help help' : EchoHelper} (bounded : help.Bounded)
    (pos : help'.pos = help.pos) (len : help'.len = help.len) : help'.Bounded := by
  obtain ⟨h1, h2, h3, h4⟩ := bounded
  exact ⟨pos ▸ h1, by rwa [pos, len], len ▸ h3, by rwa [pos, len]⟩

/-- `len` may move up to the end of the buffer. -/
theorem EchoHelper.Bounded.store {help : EchoHelper} (bounded : help.Bounded) {n : Nat}
    (room : help.len + n ≤ bsize) : EchoHelper.Bounded { help with len := help.len + n } := by
  obtain ⟨pos, le, len, reset⟩ := bounded
  refine ⟨pos, ?_, room, ?_⟩
  · show help.pos ≤ help.len + n
    omega
  · show help.pos < help.len + n ∨ help.pos = 0 ∧ help.len + n = 0
    omega

/-- `pos` may move up to `len`. -/
theorem EchoHelper.Bounded.advance {help : EchoHelper} (bounded : help.Bounded) (n : Nat) :
    (help.advance n).Bounded := by
  obtain ⟨pos, le, len, reset⟩ := bounded
  rw [advance_eq]
  split
  · exact bounded_start.flags rfl rfl
  · rename_i more
    have inside : help.pos + n < help.len := by omega
    refine ⟨?_, Int.le_of_lt inside, len, Or.inl inside⟩
    show 0 ≤ help.pos + n
    omega

/-- What waits after a read that stored `data` behind it. -/
theorem World.waiting_store (bounded : w.help.Bounded) (data : List UInt8) :
    segment (fill w.recvbuf w.help.len.toNat data) w.help.pos.toNat
      (w.help.len + data.length - w.help.pos).toNat = w.waiting ++ data := by
  obtain ⟨pos, le, len, reset⟩ := bounded
  have count : (w.help.len + data.length - w.help.pos).toNat =
      (w.help.len - w.help.pos).toNat + data.length := by omega
  have start : w.help.pos.toNat + (w.help.len - w.help.pos).toNat = w.help.len.toNat := by
    omega
  rw [count, segment_append, start, segment_fill, segment_fill_below _ _ (by omega)]
  rfl

/-- What waits after a write that accepted `n` bytes. -/
theorem World.waiting_advance (bounded : w.help.Bounded) {n : Nat}
    (accepted : n ≤ (w.help.len - w.help.pos).toNat) :
    segment w.recvbuf (w.help.advance n).pos.toNat
      ((w.help.advance n).len - (w.help.advance n).pos).toNat = w.waiting.drop n := by
  obtain ⟨pos, le, len, reset⟩ := bounded
  have parts : w.waiting = segment w.recvbuf w.help.pos.toNat n ++
      segment w.recvbuf (w.help.pos.toNat + n) (w.help.len - w.help.pos - n).toNat := by
    have count : (w.help.len - w.help.pos).toNat =
        n + (w.help.len - w.help.pos - n).toNat := by omega
    rw [World.waiting, count, segment_append]
  rw [parts, List.drop_left' (length_segment _ _ _), EchoHelper.advance_eq]
  split
  · have none : (w.help.len - w.help.pos - n).toNat = 0 := by omega
    rw [none]
    rfl
  · have start : (w.help.pos + n).toNat = w.help.pos.toNat + n := by omega
    have count : w.help.len - (w.help.pos + n) = w.help.len - w.help.pos - n := by omega
    show segment w.recvbuf (w.help.pos + n).toNat (w.help.len - (w.help.pos + n)).toNat = _
    rw [start, count]

/-! ### The flag -/

theorem EchoHelper.has_clear (help : EchoHelper) {bit other : BitVec 32}
    (apart : ~~~bit &&& other = other) : (help.clear bit).has other = help.has other := by
  rw [has, clear, BitVec.and_assoc, apart, has]

theorem EchoHelper.has_set (help : EchoHelper) {bit other : BitVec 32}
    (apart : bit &&& other = 0#32) : (help.set bit).has other = help.has other := by
  rw [has, set, BitVec.and_or_distrib_right, apart, BitVec.or_zero, has]

/-! ### The account -/

/-- A read fills the free end of the buffer, and a write sends from the waiting part. -/
def Io.InRange : Io → Prop
  | .read _ help off count _ _ =>
      help.Bounded ∧ off = help.len ∧ 0 ≤ count ∧ off + count ≤ bsize
  | .write _ help off count _ _ =>
      help.Bounded ∧ help.pos ≤ off ∧ 0 ≤ count ∧ off + count ≤ help.len
  | _ => True

/-- The globals and the trace agree with the account `l` of a shared queue. -/
structure Simulates (w : World ω) (l : Ledger Sock UInt8) : Prop where
  received : returned w.trace = l.received
  handed : accepted w.trace = l.handed
  pending : w.waiting = l.pending.map Prod.snd
  bounded : w.help.Bounded
  ranges : ∀ io ∈ w.trace, io.InRange

/-! ### The functions of the application -/

theorem simulates_start (net : ω) : Simulates { net := net } .empty where
  received := rfl
  handed := rfl
  pending := rfl
  bounded := EchoHelper.bounded_start
  ranges := fun _ mem => by cases mem

/-- An operation that moves no bytes and leaves the indices alone changes nothing. -/
theorem Simulates.idle (sim : Simulates w l) {net : ω} {io : Io} (returns : io.returned = [])
    (accepts : io.accepted = []) (inRange : io.InRange) :
    Simulates { w with net := net, trace := w.trace ++ [io] } l where
  received := by
    rw [returned, List.flatMap_append, List.flatMap_singleton, returns, List.append_nil]
    exact sim.received
  handed := by
    rw [accepted, List.flatMap_append, List.flatMap_singleton, accepts, List.append_nil]
    exact sim.handed
  pending := sim.pending
  bounded := sim.bounded
  ranges := fun other mem => by
    rcases List.mem_append.mp mem with old | new
    · exact sim.ranges other old
    · exact List.mem_singleton.mp new ▸ inRange

/-- Only the indices of `help` matter. -/
theorem Simulates.flags (sim : Simulates w l) {help : EchoHelper} (pos : help.pos = w.help.pos)
    (len : help.len = w.help.len) : Simulates { w with help := help } l where
  received := sim.received
  handed := sim.handed
  pending := by
    rw [← sim.pending, World.waiting, World.waiting, pos, len]
  bounded := sim.bounded.flags pos len
  ranges := sim.ranges

/-- The close branch may add a shutdown to the trace, whatever the indices become next. -/
theorem Simulates.closeBranch {help : EchoHelper} (sim : Simulates { w with help := help } l) :
    Simulates { closeBranch layer s w with help := help } l := by
  unfold Echo.closeBranch
  split
  · exact sim.idle rfl rfl trivial
  · exact sim

/-- A read receives on its socket what it stores, once `len` has moved past it. -/
theorem Simulates.socketRead (sim : Simulates w l) (room : w.help.len < bsize) {n : Int}
    {w' : World ω} (call : socketRead layer s w.help.len (bsize - w.help.len) w = (n, w')) :
    ∃ data, Simulates { w' with
      help := { w.help with len := w.help.len + (n.toNat : Int) } } (l.receive s data) := by
  let answer := layer.read w.net s (bsize - w.help.len)
  have ret : answer.ret = n := congrArg Prod.fst call
  have small : n ≤ max (bsize - w.help.len) 0 := ret ▸ layer.read_le w.net s _
  have length : answer.data.length = n.toNat := ret ▸ layer.read_data w.net s _
  obtain ⟨pos, le, len, reset⟩ := sim.bounded
  let stored : World ω := { w with
    net := answer.net
    recvbuf := fill w.recvbuf w.help.len.toNat answer.data
    trace := w.trace ++ [.read s w.help w.help.len (bsize - w.help.len) answer.ret answer.data] }
  have reads : Simulates { stored with
      help := { w.help with len := w.help.len + (n.toNat : Int) } } (l.receive s answer.data) := by
    refine ⟨?_, ?_, ?_, sim.bounded.store (by omega), ?_⟩
    · show returned (w.trace ++ [_]) = l.received ++ answer.data.map (Prod.mk s)
      rw [returned, List.flatMap_append, List.flatMap_singleton, ← sim.received]
      rfl
    · show accepted (w.trace ++ [_]) = l.handed
      rw [accepted, List.flatMap_append, List.flatMap_singleton, ← sim.handed]
      exact List.append_nil _
    · show segment (fill w.recvbuf w.help.len.toNat answer.data) w.help.pos.toNat
        (w.help.len + (n.toNat : Int) - w.help.pos).toNat = _
      rw [← length, World.waiting_store sim.bounded, Ledger.pending_receive, List.map_append,
        ← sim.pending, List.map_map]
      congr 1
      exact (List.map_id _).symm
    · intro io mem
      rcases List.mem_append.mp mem with old | new
      · exact sim.ranges io old
      · rw [List.mem_singleton.mp new]
        exact ⟨sim.bounded, rfl, by omega, by omega⟩
  refine ⟨answer.data, ?_⟩
  have after : w' = if answer.closes then Echo.closeBranch layer s stored else stored :=
    (congrArg Prod.snd call).symm
  rw [after]
  split
  · exact reads.closeBranch
  · exact reads

/-- A write hands out what it accepts on its socket, once `pos` has moved past it. -/
theorem Simulates.socketWrite (sim : Simulates w l) (waits : w.help.pos < w.help.len) {n : Int}
    {w' : World ω} (call : socketWrite layer s w.help.pos (w.help.len - w.help.pos) w = (n, w')) :
    Simulates { w' with help := w.help.advance (n.toNat : Int) } (l.hand s n.toNat) := by
  obtain ⟨pos, le, len, reset⟩ := sim.bounded
  have ret : (layer.write w.net s w.waiting).2 = n := congrArg Prod.fst call
  have small : n.toNat ≤ (w.help.len - w.help.pos).toNat := by
    have le := ret ▸ layer.write_le w.net s w.waiting
    rw [World.length_waiting] at le
    omega
  have after : w' = { w with
      net := (layer.write w.net s w.waiting).1
      trace := w.trace ++ [.write s w.help w.help.pos (w.help.len - w.help.pos) n
        (w.waiting.take n.toNat)] } := by
    rw [← ret]
    exact (congrArg Prod.snd call).symm
  subst after
  refine ⟨?_, ?_, ?_, sim.bounded.advance n.toNat, ?_⟩
  · show returned (w.trace ++ [_]) = l.received
    rw [returned, List.flatMap_append, List.flatMap_singleton, ← sim.received]
    exact List.append_nil _
  · show accepted (w.trace ++ [_]) = l.handed ++ (l.pending.take n.toNat).map fun x => (s, x.2)
    rw [accepted, List.flatMap_append, List.flatMap_singleton, ← sim.handed]
    show accepted w.trace ++ (w.waiting.take n.toNat).map (Prod.mk s) = _
    rw [sim.pending, ← List.map_take, List.map_map]
    rfl
  · rw [Ledger.pending_hand, List.map_drop, ← sim.pending]
    exact World.waiting_advance sim.bounded small
  · intro io mem
    rcases List.mem_append.mp mem with old | new
    · exact sim.ranges io old
    · rw [List.mem_singleton.mp new]
      exact ⟨sim.bounded, Int.le_refl _, by omega, by omega⟩

/-! ### The two loops -/

variable (layer s)

/-- The read loop receives on its socket and leaves the `PICO_SOCK_EV_WR` bit alone. -/
theorem Simulates.readLoop (sim : Simulates w l) (fuel : Nat) :
    ∃ l', Simulates (readLoop layer s fuel w) l' ∧ l.Receives s l' ∧
      (readLoop layer s fuel w).help.has picoSockEvWr = w.help.has picoSockEvWr := by
  induction fuel generalizing w l with
  | zero => exact ⟨l, sim, .refl, rfl⟩
  | succ fuel ih =>
      rw [Echo.readLoop]
      by_cases room : w.help.len < bsize
      · rw [if_pos room]
        cases call : Echo.socketRead layer s w.help.len (bsize - w.help.len) w with
        | mk n w' =>
            have help : w'.help = w.help := by
              have kept : (Echo.socketRead layer s w.help.len (bsize - w.help.len) w).2.help =
                  w.help := socketRead_help _ _ _ _ _
              rwa [call] at kept
            obtain ⟨data, reads⟩ := sim.socketRead room call
            dsimp only
            split
            · rename_i some
              have size : (n.toNat : Int) = n := by omega
              have next : Simulates { w' with help := { w'.help with
                  read := n
                  len := w'.help.len + n }.clear picoSockEvRd } (l.receive s data) :=
                reads.flags (by rw [help]; rfl) (by rw [help, size]; rfl)
              obtain ⟨l', sim', receives, bit⟩ := ih next
              refine ⟨l', sim', (Ledger.Receives.refl.receive data).trans receives, bit.trans ?_⟩
              rw [help]
              exact EchoHelper.has_clear _ (by decide)
            · rename_i none
              have size : (n.toNat : Int) = 0 := by omega
              refine ⟨_, reads.flags ?_ ?_, Ledger.Receives.refl.receive data, ?_⟩
              · rw [help]
                rfl
              · rw [help, size]
                exact (Int.add_zero _).symm
              · rw [help]
                exact EchoHelper.has_set _ (by decide)
      · rw [if_neg room]
        exact ⟨l, sim, .refl, rfl⟩

/-- The send loop serves its socket. -/
theorem Simulates.sendLoop (sim : Simulates w l) (waits : w.help.pos < w.help.len) (fuel : Nat)
    (ww : Int) : ∃ l', Simulates (sendLoop layer s fuel ww w).2 l' ∧ l.Serves s l' := by
  induction fuel generalizing w l ww with
  | zero => exact ⟨l, sim, .refl⟩
  | succ fuel ih =>
      rw [Echo.sendLoop]
      cases call : Echo.socketWrite layer s w.help.pos (w.help.len - w.help.pos) w with
      | mk n w' =>
          have help : w'.help = w.help := by
            have kept : (Echo.socketWrite layer s w.help.pos (w.help.len - w.help.pos) w).2.help =
                w.help := rfl
            rwa [call] at kept
          have writes := sim.socketWrite waits call
          dsimp only
          rw [help]
          by_cases some : 0 < n
          · have size : (n.toNat : Int) = n := by omega
            rw [size] at writes
            rw [if_pos some]
            by_cases more : (w.help.advance n).pos < (w.help.advance n).len
            · rw [if_pos more]
              obtain ⟨l', sim', serves⟩ := ih writes more (ww + n)
              exact ⟨l', sim', (Ledger.Serves.refl.hand n.toNat).trans serves⟩
            · rw [if_neg more]
              exact ⟨_, writes, Ledger.Serves.refl.hand n.toNat⟩
          · have size : (n.toNat : Int) = 0 := by omega
            rw [if_neg some]
            refine ⟨_, ?_, Ledger.Serves.refl.hand n.toNat⟩
            have stays : w.help.advance 0 = w.help := by
              rw [EchoHelper.advance_eq, Int.add_zero, if_neg (by omega)]
            rw [size, stays, ← help] at writes
            exact writes

theorem Simulates.sendResp (sim : Simulates w l) :
    ∃ l', Simulates (sendResp layer s w).2 l' ∧ l.Serves s l' := by
  unfold Echo.sendResp
  split
  · rename_i waits
    exact sim.sendLoop layer s waits _ 0
  · exact ⟨l, sim, .refl⟩

/-! ### The callback -/

/-- A call may reach `send_resp`: the node is active, and `PICO_SOCK_EV_WR` is
raised, or was left in the flag and `PICO_SOCK_EV_RD` is raised. -/
def MayRespond (w : World ω) (call : EchoCall) : Prop :=
  call.backup = false ∧ (raised call.ev picoSockEvWr = true ∨
    raised call.ev picoSockEvRd = true ∧ w.help.has picoSockEvWr = true)

instance (w : World ω) (call : EchoCall) : Decidable (MayRespond w call) :=
  inferInstanceAs (Decidable (_ ∧ (_ ∨ _ ∧ _)))

theorem Simulates.readBranch (sim : Simulates w l) (backup : Bool) :
    ∃ l', Simulates (readBranch layer backup s w) l' ∧ l.Serves s l' ∧
      (backup = true ∨ w.help.has picoSockEvWr = false → l.Receives s l') := by
  unfold Echo.readBranch
  dsimp only
  obtain ⟨l', reads, receives, bit⟩ := sim.readLoop layer s (readFuel w)
  rw [bit]
  by_cases credit : w.help.has picoSockEvWr = true
  · rw [if_pos credit]
    have cleared : Simulates { Echo.readLoop layer s (readFuel w) w with
        help := (Echo.readLoop layer s (readFuel w) w).help.clear picoSockEvWr } l' :=
      reads.flags rfl rfl
    cases backup with
    | true => exact ⟨l', cleared, receives.serves, fun _ => receives⟩
    | false =>
        obtain ⟨l'', sends, serves⟩ := cleared.sendResp layer s
        refine ⟨l'', sends, receives.serves.trans serves, fun idle => ?_⟩
        rcases idle with standby | unset
        · cases standby
        · rw [credit] at unset
          cases unset
  · rw [if_neg credit]
    exact ⟨l', reads, receives.serves, fun _ => receives⟩

theorem Simulates.writeBranch (sim : Simulates w l) (backup : Bool) :
    ∃ l', Simulates (writeBranch layer backup s w) l' ∧ l.Serves s l' ∧
      (backup = true → l.Receives s l') := by
  have marks : ∀ {v : World ω} {k : Ledger Sock UInt8}, Simulates v k →
      Simulates (if v.help.read = 0 then { v with help := v.help.set picoSockEvWr }
        else { v with help := v.help.clear picoSockEvWr }) k := by
    intro v k sim
    split
    · exact sim.flags rfl rfl
    · exact sim.flags rfl rfl
  unfold Echo.writeBranch
  cases backup with
  | true => exact ⟨l, marks sim, .refl, fun _ => .refl⟩
  | false =>
      obtain ⟨l', sends, serves⟩ := sim.sendResp layer s
      exact ⟨l', marks (sends.flags rfl rfl), serves, fun standby => by cases standby⟩

/-- **One callback**: it serves its socket, and only receives unless it may respond. -/
theorem Simulates.cbTcpserver (sim : Simulates w l) (backup : Bool) (ev : BitVec 16) :
    ∃ l', Simulates (cbTcpserver layer backup ev s w) l' ∧ l.Serves s l' ∧
      (¬MayRespond w ⟨ev, s, backup⟩ → l.Receives s l') := by
  unfold Echo.cbTcpserver
  dsimp only
  obtain ⟨l₁, read, serves, receives⟩ : ∃ l₁,
      Simulates (if raised ev picoSockEvRd then Echo.readBranch layer backup s w else w) l₁ ∧
        l.Serves s l₁ ∧ (¬MayRespond w ⟨ev, s, backup⟩ → l.Receives s l₁) := by
    by_cases rd : raised ev picoSockEvRd = true
    · rw [if_pos rd]
      obtain ⟨l₁, read, serves, receives⟩ := sim.readBranch layer s backup
      refine ⟨l₁, read, serves, fun silent => receives ?_⟩
      cases backup with
      | true => exact Or.inl rfl
      | false =>
          right
          by_contra credit
          exact silent ⟨rfl, Or.inr ⟨rd, eq_true_of_ne_false credit⟩⟩
    · rw [if_neg rd]
      exact ⟨l, sim, .refl, fun _ => .refl⟩
  generalize (if raised ev picoSockEvRd then Echo.readBranch layer backup s w else w) = w₁ at read ⊢
  have conn : Simulates (if raised ev picoSockEvConn then connBranch layer s w₁ else w₁) l₁ := by
    split
    · exact read.idle rfl rfl trivial
    · exact read
  generalize (if raised ev picoSockEvConn then connBranch layer s w₁ else w₁) = w₂ at conn ⊢
  have fin : Simulates (if raised ev picoSockEvFin then finBranch w₂ else w₂) l₁ := by
    split
    · exact conn.idle rfl rfl trivial
    · exact conn
  generalize (if raised ev picoSockEvFin then finBranch w₂ else w₂) = w₃ at fin ⊢
  split
  · exact ⟨l₁, ⟨fin.received, fin.handed, fin.pending, fin.bounded, fin.ranges⟩, serves, receives⟩
  · have close : Simulates (if raised ev picoSockEvClose then Echo.closeBranch layer s w₃ else w₃)
        l₁ := by
      split
      · unfold Echo.closeBranch
        split
        · exact fin.idle rfl rfl trivial
        · exact fin
      · exact fin
    by_cases wr : raised ev picoSockEvWr = true
    · rw [if_pos wr]
      obtain ⟨l₂, write, serves', receives'⟩ := close.writeBranch layer s backup
      refine ⟨l₂, write, serves.trans serves', fun silent => ?_⟩
      cases backup with
      | true => exact (receives silent).trans (receives' rfl)
      | false => exact absurd ⟨rfl, Or.inl wr⟩ silent
    · rw [if_neg wr]
      exact ⟨l₁, close, serves, receives⟩

/-- Every run of the callback keeps an account of the shared buffer. -/
theorem simulates_of_run {net : ω} {calls : List EchoCall} (run : EchoRun layer net calls w) :
    ∃ l, Simulates w l := by
  refine Transition.Run.invariant (I := fun w => ∃ l, Simulates w l)
    ⟨.empty, simulates_start net⟩ ?_ run
  rintro u call v ⟨l, sim⟩ taken
  unfold echoStep at taken
  split at taken
  · cases taken
  · cases taken
    obtain ⟨l', sim', -⟩ := sim.cbTcpserver layer call.sock call.backup call.ev
    exact ⟨l', sim'⟩

/-! ### Fidelity -/

/-- **The echo loses, duplicates and reorders nothing.** After every run of calls,
on any sockets and with any event masks, the indices are inside the buffer,
every read and write was in range, and the bytes sent followed by those that
wait are the bytes read. -/
theorem echo_faithful {net : ω} {calls : List EchoCall} (run : EchoRun layer net calls w) :
    w.help.Bounded ∧ (∀ io ∈ w.trace, io.InRange) ∧
      (accepted w.trace).map Prod.snd ++ w.waiting = (returned w.trace).map Prod.snd := by
  obtain ⟨l, sim⟩ := simulates_of_run layer run
  refine ⟨sim.bounded, sim.ranges, ?_⟩
  rw [sim.handed, sim.pending, sim.received]
  exact l.conserved

/-- Five bytes come in two reads, the second of which raises `PICO_SOCK_EV_CLOSE`;
the first write takes two of them. -/
theorem echo_faithful_partial :
    ∃ calls w, EchoRun scripted ⟨[([1, 2, 3], false), ([4, 5], true)], [2]⟩ calls w ∧
      w.help.pos = 2 ∧ w.help.len = 5 ∧
        w.help.Bounded ∧ (∀ io ∈ w.trace, io.InRange) ∧
          (accepted w.trace).map Prod.snd ++ w.waiting = (returned w.trace).map Prod.snd := by
  let calls : List EchoCall := [⟨1, 7, false⟩, ⟨2, 7, false⟩]
  have ends : (Transition.exec (echoStep scripted)
      { net := ⟨[([1, 2, 3], false), ([4, 5], true)], [2]⟩ } calls).any
        (fun w => w.help.pos = 2 ∧ w.help.len = 5) := by decide
  obtain ⟨w, run, pos, len⟩ := Transition.Run.of_any ends
  exact ⟨calls, w, run, pos, len, echo_faithful scripted run⟩

end Rfsis.Echo
