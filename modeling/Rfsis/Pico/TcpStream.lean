import Rfsis.Pico.TcpReceive

/-!
A connection over whole runs. The segments of a stream come in in any order, some of
them more than once and some never, between reads of any length; after the last one the
peer sends a FIN.

* `tcp_reads_stream`: reads give out the bytes of the stream in order, each of them once,
  and all that are acknowledged.
* `tcp_end_of_stream`: the end is reported when all has been read, and not before.
-/

namespace Rfsis.Pico

open SearchTree Transition

/-- The socket, what the reads have given out, and the last place of the stream that has
been in a window of the socket. -/
structure TcpReader where
  sock : PicoSocketTcp
  got : List UInt8 := []
  edge : Nat

/-- What happens to a connection: a segment comes in, the application reads, a segment of
the own side goes out, or other trees of the stack change the colour of `LEAF`. -/
inductive TcpCall where
  | input (f : TcpFrame) (psh fin : Bool)
  | read (behind : Nat → UInt8) (len : UInt32)
  | send
  | others (leafColor : Color)

/-- The place that `rcv_nxt` stands for. -/
def TcpReader.place (s : TcpReader) : Nat :=
  s.got.length + (s.sock.rcvNxt - s.sock.rcvProcessed).toNat

/-- The new state of the socket, after a read gave out bytes. -/
def TcpReader.after (s : TcpReader) (sock : PicoSocketTcp) (bytes : List UInt8) : TcpReader :=
  let got := s.got ++ bytes
  { sock, got, edge := max s.edge
      (got.length + (sock.rcvNxt - sock.rcvProcessed).toNat + sock.wnd.toNat) }

theorem TcpReader.after_edge (s : TcpReader) (sock : PicoSocketTcp) (bytes : List UInt8) :
    (s.after sock bytes).edge ≤
      max s.edge ((s.after sock bytes).place + (s.after sock bytes).sock.wnd.toNat) :=
  Nat.le_refl _

/-- One step. A segment that goes out repeats the last acknowledgement. -/
def tcpStep (s : TcpReader) : TcpCall → Option TcpReader
  | .input f psh fin => some (s.after (picoTcpInput s.sock f psh fin) [])
  | .read behind len =>
      match picoSocketTcpRead behind s.sock len with
      | none => some s
      | some (sock, bytes) => some (s.after sock bytes)
  | .send => some (s.after (pushAck s.sock) [])
  | .others leafColor =>
      some { s with sock := { s.sock with tcpqIn := { s.sock.tcpqIn with leafColor } } }

/-- A read reports the end of the stream, or reads. -/
theorem tcpStep_read {s s' : TcpReader} {behind : Nat → UInt8} {len : UInt32}
    (taken : tcpStep s (.read behind len) = some s') :
    (s' = s ∧ s.sock.shutRemote = true ∧ s.sock.tcpqIn.frames = 0) ∨
      s' = s.after (picoTcpRead behind s.sock len).1 (picoTcpRead behind s.sock len).2 := by
  simp only [tcpStep, picoSocketTcpRead] at taken
  split at taken
  · rename_i shut
    split at shut
    · rename_i ended
      exact Or.inl ⟨(Option.some.inj taken).symm, ended⟩
    · cases shut
  · rename_i sock bytes out
    split at out
    · cases out
    · rw [Option.some.inj out]
      exact Or.inr (Option.some.inj taken).symm

/-- The socket of a new connection. -/
def newSocket (isn maxSize : UInt32) (leafColor : Color) (sackOk : Bool) : PicoSocketTcp where
  tcpqIn := { leafColor, maxSize }
  rcvNxt := isn
  rcvProcessed := isn
  sackOk := sackOk

/-- A new connection, with its first window. -/
def tcpStart (st : SentStream) (maxSize : UInt32) (leafColor : Color) (sackOk : Bool) : TcpReader :=
  let sock := (tcpSetSpace (newSocket st.isn maxSize leafColor sackOk)).1
  { sock, edge := sock.wnd.toNat }

/-- The FIN has been taken. -/
def finSeen (t : PicoSocketTcp) : Bool := t.remoteClosed || t.shutRemote

/-- The fields that a FIN sets. -/
def endFlags (t : PicoSocketTcp) : Bool × Bool := (t.remoteClosed, t.shutRemote)

/-- The FIN has a sequence number of its own. -/
def finLen (t : PicoSocketTcp) : Nat := if finSeen t then 1 else 0

/-- The bytes that are acknowledged and have not been read. -/
def unread (t : PicoSocketTcp) : Nat := (t.rcvNxt - t.rcvProcessed).toNat - finLen t

/-! ### The invariant of the socket -/

variable {st : SentStream} {N : Nat} {t t' : PicoSocketTcp} {numbers : List Nat}
  {j k m done : Nat}

/-- A socket that gets the segments before `N`, and then a FIN. -/
structure InStream (st : SentStream) (N : Nat) (t : PicoSocketTcp) (numbers : List Nat)
    (j m done : Nat) : Prop where
  receiving : Receiving st t numbers j m done
  sent : ∀ i ∈ numbers, i < N
  le : m ≤ N
  next : t.rcvNxt = st.seqAt (st.cut m + finLen t)
  fin : finSeen t → m = N
  state : t.state = .closeWait → finSeen t

theorem SentStream.seqAt_sub {a b : Nat} (le : b ≤ a) (near : a < b + 2 ^ 32) :
    (st.seqAt a - st.seqAt b).toNat = a - b := by
  obtain ⟨n, rfl⟩ := Nat.exists_eq_add_of_le le
  have small := st.isn.toNat_lt
  simp only [seqAt, UInt32.toNat_sub, UInt32.toNat_add, UInt32.toNat_ofNat']
  omega

theorem finLen_le (t : PicoSocketTcp) : finLen t ≤ 1 := by
  unfold finLen
  split <;> decide

theorem finSeen_of_shut (shut : t.shutRemote = true) : finSeen t = true := by
  rw [finSeen, shut, Bool.or_true]

theorem finSeen_of_endFlags (same : endFlags t' = endFlags t) : finSeen t' = finSeen t :=
  congrArg (fun flags : Bool × Bool => flags.1 || flags.2) same

theorem Announces.endFlags (out : Announces t t') : endFlags t' = endFlags t := by
  have same := congrArg Pico.endFlags out.frame
  exact same

theorem Announces.seen (out : Announces t t') : finSeen t' = finSeen t :=
  finSeen_of_endFlags out.endFlags

/-- The fields that the invariant reads. -/
theorem InStream.of_fields (c : InStream st N t numbers j m done)
    (holds : Holds st t'.tcpqIn numbers) (processed : t'.rcvProcessed = t.rcvProcessed)
    (next : t'.rcvNxt = t.rcvNxt) (seen : finSeen t' = finSeen t)
    (state : t'.state = .closeWait → finSeen t') : InStream st N t' numbers j m done := by
  have r := c.receiving
  have len : finLen t' = finLen t := by rw [finLen, seen, finLen]
  refine ⟨⟨holds, r.first, r.filled, r.gap, r.le, processed ▸ r.processed, r.begun, r.within,
    r.window⟩, c.sent, c.le, ?_, fun all => c.fin (seen ▸ all), state⟩
  rw [next, len, c.next]

/-- Sending acknowledgements keeps the invariant. -/
theorem InStream.announces (c : InStream st N t numbers j m done) (out : Announces t t') :
    InStream st N t' numbers j m done := by
  have processed := congrArg PicoSocketTcp.rcvProcessed out.frame
  have state := congrArg PicoSocketTcp.state out.frame
  refine c.of_fields (out.tcpqIn ▸ c.receiving.holds) processed out.rcvNxt out.seen fun closed => ?_
  have closed' : t.state = .closeWait := state.symm.trans closed
  exact out.seen.symm ▸ c.state closed'

theorem InStream.ahead (c : InStream st N t numbers j m done) :
    (t.rcvNxt - t.rcvProcessed).toNat = st.cut m + finLen t - done := by
  have one := finLen_le t
  have done_ := c.receiving.done_le
  have next := c.receiving.next_le
  rw [c.next, c.receiving.processed]
  exact SentStream.seqAt_sub (by omega) (by omega)

theorem InStream.unread_eq (c : InStream st N t numbers j m done) :
    unread t = st.cut m - done := by
  have done_ := c.receiving.done_le
  rw [unread, c.ahead]
  omega

/-! ### Segments -/

/-- The queue has no room for the segment. -/
def NoRoom (st : SentStream) (t : PicoSocketTcp) (k : Nat) : Prop :=
  t.tcpqIn.size + (st.segment k).payloadLen > t.tcpqIn.maxSize

/-- What a segment does. -/
structure TakesIn (st : SentStream) (N : Nat) (t : PicoSocketTcp) (numbers : List Nat)
    (j m done k : Nat) (t' : PicoSocketTcp) (numbers' : List Nat) (m' : Nat) : Prop where
  inStream : InStream st N t' numbers' j m' done
  le : m ≤ m'
  old : ∀ i ∈ numbers, i ∈ numbers'
  new : ∀ i ∈ numbers', i ∈ numbers ∨ (i = k ∧ m ≤ k)
  moved : m' = m ∨ k = m
  maxSize : t'.tcpqIn.maxSize = t.tcpqIn.maxSize
  sackOk : t'.sackOk = t.sackOk
  seen : finSeen t' = finSeen t
  taken : k < m' ∨ k ∈ numbers' ∨ (m' < k ∧ t.sackOk = false) ∨ NoRoom st t k

theorem TakesIn.announces {u : PicoSocketTcp} {numbers' : List Nat} {m' : Nat}
    (takes : TakesIn st N t numbers j m done k t' numbers' m') (out : Announces t' u) :
    TakesIn st N t numbers j m done k u numbers' m' where
  inStream := takes.inStream.announces out
  le := takes.le
  old := takes.old
  new := takes.new
  moved := takes.moved
  maxSize := by
    have same := congrArg (fun t => t.tcpqIn.maxSize) out.frame
    exact same.trans takes.maxSize
  sackOk := out.sackOk.trans takes.sackOk
  seen := out.seen.trans takes.seen
  taken := takes.taken

/-- A segment that is of no use. -/
theorem InStream.unchanged (c : InStream st N t numbers j m done)
    (taken : k < m ∨ k ∈ numbers ∨ (m < k ∧ t.sackOk = false) ∨ NoRoom st t k) :
    TakesIn st N t numbers j m done k t numbers m :=
  ⟨c, Nat.le_refl m, fun _ => id, fun _ => Or.inl, Or.inl rfl, rfl, rfl, rfl, taken⟩

/-- Behind the FIN every segment is old. -/
theorem InStream.afterFin (c : InStream st N t numbers j m done) (seen : finSeen t)
    (below : k < N) (recent : st.cut m + finLen t < st.cut k + 2 ^ 31) :
    picoSeqCompare (st.frame k).seq t.rcvNxt < 0 := by
  have last := c.fin seen
  have less := st.cut_mono below
  have compare : picoSeqCompare (st.frame k).seq t.rcvNxt =
      (st.cut k : Int) - (st.cut m + finLen t : Nat) := by
    rw [c.next]
    exact SentStream.compare_near ⟨by rw [last]; omega, recent⟩
  have one : finLen t = 1 := if_pos seen
  rw [compare, last, one]
  omega

/-- A segment with data. -/
theorem InStream.dataIn (c : InStream st N t numbers j m done) (below : k < N)
    (recent : st.cut m + finLen t < st.cut k + 2 ^ 31)
    (window : st.cut (k + 1) + 2 ^ 16 ≤ done + 2 ^ 31) :
    ∃ numbers' m', TakesIn st N t numbers j m done k (tcpDataIn t (st.frame k)) numbers' m' := by
  unfold tcpDataIn
  dsimp only
  by_cases seen : finSeen t
  · have old := c.afterFin seen below recent
    have other : ¬ picoSeqCompare (st.frame k).seq t.rcvNxt = 0 := by omega
    have same : TakesIn st N t numbers j m done k t numbers m :=
      c.unchanged (Or.inl (by rw [c.fin seen]; exact below))
    have ignored : (if picoSeqCompare (st.frame k).seq t.rcvNxt ≤ 0 then
        tcpDataInExpected t (st.frame k) else tcpDataInHighSegment t (st.frame k)) = t := by
      rw [if_pos (Int.le_of_lt old), tcpDataInExpected, if_neg other]
    rw [ignored]
    refine ⟨numbers, m, ?_⟩
    split
    · exact same
    · exact same.announces (tcpSendAck_announces t)
  · have none_ : finLen t = 0 := if_neg seen
    have next := c.next
    rw [none_] at next recent
    have accepts := c.receiving.accepts next recent window
    generalize (if picoSeqCompare (st.frame k).seq t.rcvNxt ≤ 0 then
      tcpDataInExpected t (st.frame k) else tcpDataInHighSegment t (st.frame k)) = t' at accepts ⊢
    obtain ⟨numbers', m', takes⟩ : ∃ numbers' m',
        TakesIn st N t numbers j m done k t' numbers' m' := by
      cases accepts with
      | refused why =>
          exact ⟨numbers, m, c.unchanged why⟩
      | queued m' late out le moved next' frame maxSize r =>
          have seen' : finSeen t' = finSeen t := by rw [frame]; rfl
          have state' : t'.state = t.state := by rw [frame]
          have len' : finLen t' = 0 := if_neg (by rw [seen']; exact seen)
          refine ⟨withNumber k numbers, m', ⟨r, ?_, ?_, ?_, ?_, ?_⟩, le, ?_, ?_, moved, maxSize, ?_,
            seen', Or.inr (Or.inl (mem_withNumber.mpr (Or.inl rfl)))⟩
          · intro i mem
            rcases mem_withNumber.mp mem with rfl | old
            · exact below
            · exact c.sent i old
          · -- the segments before the next expected one have all been sent
            by_contra beyond
            have last : N ∈ withNumber k numbers :=
              r.filled N (c.receiving.le.trans c.le) (Nat.lt_of_not_le beyond)
            rcases mem_withNumber.mp last with same | old
            · omega
            · exact Nat.lt_irrefl N (c.sent N old)
          · rw [len']
            exact next'
          · intro fin
            exact absurd (seen' ▸ fin) seen
          · intro closed
            exact seen' ▸ c.state (state' ▸ closed)
          · intro i mem
            exact mem_withNumber.mpr (Or.inr mem)
          · intro i mem
            exact (mem_withNumber.mp mem).symm.imp_right fun same => ⟨same, late⟩
          · rw [frame]
    refine ⟨numbers', m', ?_⟩
    split
    · exact takes
    · exact takes.announces (tcpSendAck_announces t')

/-! ### The FIN -/

theorem tcpAttemptClosewait_seen (f : TcpFrame) (seen : finSeen t) :
    finSeen (tcpAttemptClosewait t f) := by
  unfold tcpAttemptClosewait
  split
  · dsimp only
    split
    · exact Bool.or_true _
    · exact Bool.true_or _
  · exact seen

/-- A FIN without data is taken when all segments are there. -/
theorem InStream.attempt (c : InStream st N t numbers j m done) {f : TcpFrame}
    (at_ : f.seq = st.seqAt (st.cut N)) (window : st.cut N < st.cut m + finLen t + 2 ^ 31) :
    InStream st N (tcpAttemptClosewait t f) numbers j m done := by
  have one := finLen_le t
  have cuts := st.cut_mono.monotone c.le
  have compare : picoSeqCompare f.seq t.rcvNxt =
      (st.cut N : Int) - (st.cut m + finLen t : Nat) := by
    rw [at_, c.next]
    exact SentStream.compare_near ⟨window, by omega⟩
  unfold tcpAttemptClosewait
  split
  · rename_i equal
    -- the place of the FIN is the next one, so no segment is missing
    have unseen : ¬ finSeen t := by
      intro seen
      have len : finLen t = 1 := if_pos seen
      rw [compare, c.fin seen, len] at equal
      omega
    have last : m = N := by
      have len : finLen t = 0 := if_neg unseen
      rw [compare, len] at equal
      exact st.cut_mono.injective (by omega)
    have after : f.seq + 1 = st.seqAt (st.cut m + 1) := by
      rw [at_, last]
      exact SentStream.seqAt_add _ 1
    have r := c.receiving
    have moved : ∀ t', t'.tcpqIn = t.tcpqIn → t'.rcvProcessed = t.rcvProcessed →
        t'.rcvNxt = f.seq + 1 → finSeen t' = true → InStream st N t' numbers j m done := by
      intro t' queue processed next seen
      have len : finLen t' = 1 := if_pos seen
      refine ⟨⟨queue ▸ r.holds, r.first, r.filled, r.gap, r.le, processed ▸ r.processed, r.begun,
        r.within, r.window⟩, c.sent, c.le, ?_, fun _ => last, fun _ => seen⟩
      rw [next, after, len]
    dsimp only
    split
    · exact moved _ rfl rfl rfl (Bool.or_true _)
    · exact moved _ rfl rfl rfl (Bool.true_or _)
  · exact c

theorem tcpDataIn_endFlags (t : PicoSocketTcp) (f : TcpFrame) :
    endFlags (tcpDataIn t f) = endFlags t := by
  have expected : endFlags (tcpDataInExpected t f) = endFlags t := by
    unfold tcpDataInExpected
    split
    · split
      · rfl
      · dsimp only
        split <;> rfl
    · rfl
  have high : endFlags (tcpDataInHighSegment t f) = endFlags t := by
    unfold tcpDataInHighSegment
    split
    · split
      · rfl
      · dsimp only
        split <;> rfl
    · rfl
  have both : endFlags (if picoSeqCompare f.seq t.rcvNxt ≤ 0 then tcpDataInExpected t f
      else tcpDataInHighSegment t f) = endFlags t := by
    split
    · exact expected
    · exact high
  unfold tcpDataIn
  dsimp only
  generalize (if picoSeqCompare f.seq t.rcvNxt ≤ 0 then tcpDataInExpected t f
      else tcpDataInHighSegment t f) = t' at both ⊢
  split
  · exact both
  · exact (tcpSendAck_announces t').endFlags.trans both

theorem tcpActionData_endFlags (t : PicoSocketTcp) (f : TcpFrame) (psh : Bool) :
    endFlags (tcpActionData t f psh) = endFlags t := by
  unfold tcpActionData
  split
  · rfl
  · split
    · exact tcpDataIn_endFlags t f
    · rfl

/-- What a segment keeps of the fields that a FIN sets, if a FIN keeps it. -/
theorem picoTcpInput_endFlags {P : Bool × Bool → Prop} (f : TcpFrame) (psh fin : Bool)
    (before : P (endFlags t))
    (attempt : ∀ t, P (endFlags t) → P (endFlags (tcpAttemptClosewait t f))) :
    P (endFlags (picoTcpInput t f psh fin)) := by
  have data := tcpActionData_endFlags t f psh
  unfold picoTcpInput
  dsimp only
  split
  · rw [tcpClosewait, (tcpSendAck_announces _).endFlags]
    apply attempt
    split
    · rwa [data]
    · rwa [tcpDataIn_endFlags, data]
  · rwa [data]

/-- A FIN is not forgotten. -/
theorem picoTcpInput_seen (f : TcpFrame) (psh fin : Bool) (seen : finSeen t) :
    finSeen (picoTcpInput t f psh fin) :=
  picoTcpInput_endFlags (P := fun flags => (flags.1 || flags.2) = true) f psh fin seen
    fun _ seen => tcpAttemptClosewait_seen f seen

theorem tcpAttemptClosewait_shutRemote (f : TcpFrame) (shut : t.shutRemote = true) :
    (tcpAttemptClosewait t f).shutRemote = true := by
  unfold tcpAttemptClosewait
  split
  · dsimp only
    split
    · rfl
    · exact shut
  · exact shut

theorem picoTcpInput_shutRemote (f : TcpFrame) (psh fin : Bool) (shut : t.shutRemote = true) :
    (picoTcpInput t f psh fin).shutRemote = true :=
  picoTcpInput_endFlags (P := fun flags => flags.2 = true) f psh fin shut
    fun _ shut => tcpAttemptClosewait_shutRemote f shut

/-! ### Reading -/

theorem tcpReadFinish_seen (t : PicoSocketTcp) : finSeen (tcpReadFinish t) = finSeen t := by
  have same := (tcpUpdateSpace_announces t).1.seen
  have closing : (tcpUpdateSpace t).remoteClosed = true → true = finSeen (tcpUpdateSpace t) := by
    intro closed
    rw [finSeen, closed]
    rfl
  rw [← same]
  unfold tcpReadFinish
  dsimp only
  split
  · split
    · rename_i closed
      exact (Bool.or_true _).trans (closing closed)
    · rfl
  · split
    · rename_i closed
      exact (Bool.or_true _).trans (closing closed)
    · rfl

theorem InStream.readFinish (c : InStream st N t numbers j m done) :
    InStream st N (tcpReadFinish t) numbers j m done := by
  have c' := c.announces (tcpUpdateSpace_announces t).1
  have same : finSeen (tcpReadFinish t) = finSeen (tcpUpdateSpace t) :=
    (tcpReadFinish_seen t).trans (tcpUpdateSpace_announces t).1.seen.symm
  have holds := c'.receiving.holds
  unfold tcpReadFinish at same ⊢
  dsimp only at same ⊢
  split
  · split
    · rename_i empty closed
      rw [if_pos empty, if_pos closed] at same
      exact c'.of_fields holds rfl rfl same fun _ => Bool.or_true _
    · exact c'.of_fields holds rfl rfl rfl c'.state
  · split
    · rename_i some_ closed
      rw [if_neg some_, if_pos closed] at same
      exact c'.of_fields holds rfl rfl same fun _ => Bool.or_true _
    · exact c'.of_fields holds rfl rfl rfl c'.state

theorem tcpReadFinish_shutRemote (seen : finSeen t) : (tcpReadFinish t).shutRemote = true := by
  have seen' : finSeen (tcpUpdateSpace t) = true :=
    (tcpUpdateSpace_announces t).1.seen.trans seen
  have closing : (tcpUpdateSpace t).remoteClosed = false →
      (tcpUpdateSpace t).shutRemote = true := by
    intro open_
    rw [finSeen, open_, Bool.false_or] at seen'
    exact seen'
  unfold tcpReadFinish
  dsimp only
  split
  · split
    · rfl
    · rename_i open_
      exact closing (Bool.eq_false_of_not_eq_true open_)
  · split
    · rfl
    · rename_i open_
      exact closing (Bool.eq_false_of_not_eq_true open_)

/-- A read gives out the bytes that follow, as many as are there. -/
theorem InStream.read (c : InStream st N t numbers j m done) (behind : Nat → UInt8)
    (len : UInt32) :
    ∃ numbers' j',
      InStream st N (picoTcpRead behind t len).1 numbers' j' m
          (done + min len.toNat (unread t)) ∧
        Kept m j j' numbers numbers' ∧
          (picoTcpRead behind t len).2 = st.bytes done (done + min len.toNat (unread t)) ∧
            (picoTcpRead behind t len).1.sackOk = t.sackOk ∧
              finSeen (picoTcpRead behind t len).1 = finSeen t := by
  have r := c.receiving
  have next := r.next_le
  have fuel : len.toNat - (0 : UInt32).toNat < len.toNat + 1 := Nat.lt_succ_self _
  have small : (0 : UInt32).toNat + (st.cut m - done) + 2 ^ 16 < 2 ^ 32 := by
    rw [UInt32.toNat_zero]
    omega
  have reads : Reads st t numbers j m done (min len.toNat (st.cut m - done))
      (readLoop behind len (len.toNat + 1) t 0) :=
    r.readLoop behind (Nat.zero_le _) fuel small
  have call : picoTcpRead behind t len =
      (tcpReadFinish (readLoop behind len (len.toNat + 1) t 0).1,
        (readLoop behind len (len.toNat + 1) t 0).2) := rfl
  rw [c.unread_eq, call]
  generalize readLoop behind len (len.toNat + 1) t 0 = out at reads ⊢
  obtain ⟨bytes, ⟨numbers', j', r', kept⟩, frame⟩ := reads
  refine ⟨numbers', j', InStream.readFinish ⟨r', ?_, c.le, ?_, ?_, ?_⟩, kept, bytes, ?_, ?_⟩
  · exact fun i mem => c.sent i (kept.old i mem)
  · have next' : out.1.rcvNxt = t.rcvNxt := by rw [frame]
    have len' : finLen out.1 = finLen t := by
      rw [frame]
      rfl
    rw [next', len', c.next]
  · rw [frame]
    exact c.fin
  · rw [frame]
    exact c.state
  · rw [tcpReadFinish_sackOk, frame]
  · rw [tcpReadFinish_seen, frame]
    rfl

/-! ### Runs -/

variable {s s' : TcpReader} {call : TcpCall} {calls : List TcpCall}

/-- The numbers of a segment can be told from others: it is less than 2^31 bytes old, and
ends at most 2^31 - 2^16 bytes after what has been read. -/
def InWindow (st : SentStream) (s : TcpReader) (k : Nat) : Prop :=
  s.place < st.cut k + 2 ^ 31 ∧ st.cut (k + 1) + 2 ^ 16 ≤ s.got.length + 2 ^ 31

/-- What the peer sends: segments without data, the segments of the stream, and a FIN
behind the last one. The application may do what it likes. -/
inductive Genuine (st : SentStream) (N : Nat) (s : TcpReader) : TcpCall → Prop where
  | empty {f : TcpFrame} {psh : Bool} : f.payload = [] → Genuine st N s (.input f psh false)
  | segment {k : Nat} {psh : Bool} : k < N → InWindow st s k →
      Genuine st N s (.input (st.frame k) psh false)
  | fin {f : TcpFrame} {psh : Bool} : f.payload = [] → f.seq = st.seqAt (st.cut N) →
      st.cut N < s.place + 2 ^ 31 → Genuine st N s (.input f psh true)
  | read {behind : Nat → UInt8} {len : UInt32} : Genuine st N s (.read behind len)
  | send : Genuine st N s .send
  | others {leafColor : Color} : Genuine st N s (.others leafColor)

/-- The call brings a segment. -/
def Brings (st : SentStream) (s : TcpReader) (call : TcpCall) (k : Nat) : Prop :=
  ∃ psh fin, call = .input (st.frame k) psh fin ∧ InWindow st s k

/-- The invariant of a run. -/
structure TcpSound (st : SentStream) (N : Nat) (s : TcpReader) (numbers : List Nat)
    (j m : Nat) : Prop where
  inStream : InStream st N s.sock numbers j m s.got.length
  got : s.got = st.bytes 0 s.got.length
  windowSet : WindowSet s.sock

/-- What a call does. -/
structure Onward (st : SentStream) (N : Nat) (s : TcpReader) (numbers : List Nat) (j m : Nat)
    (call : TcpCall) (s' : TcpReader) (numbers' : List Nat) (j' m' : Nat) : Prop where
  sound : TcpSound st N s' numbers' j' m'
  first : j ≤ j'
  next : m ≤ m'
  old : ∀ i ∈ numbers, i < m' ∨ i ∈ numbers'
  new : ∀ i ∈ numbers', i ∈ numbers ∨ (m ≤ i ∧ Brings st s call i)
  taken : ∀ k, Brings st s call k →
    k < m' ∨ k ∈ numbers' ∨ s.sock.sackOk = false ∨ NoRoom st s.sock k
  maxSize : s'.sock.tcpqIn.maxSize = s.sock.tcpqIn.maxSize
  sackOk : s'.sock.sackOk = s.sock.sackOk
  seen : finSeen s.sock → finSeen s'.sock
  fin : finSeen s'.sock → finSeen s.sock ∨ ∃ f psh, call = .input f psh true
  edge : s'.edge ≤ max s.edge (s'.place + s'.sock.wnd.toNat)

theorem InStream.place_eq (c : InStream st N s.sock numbers j m s.got.length) :
    s.place = st.cut m + finLen s.sock := by
  have done_ := c.receiving.done_le
  rw [TcpReader.place, c.ahead]
  omega

/-- A frame in the window is that of one segment only. -/
theorem InWindow.unique {i : Nat} (inI : InWindow st s i) (inK : InWindow st s k)
    (same : st.frame i = st.frame k) : i = k := by
  have seq : st.seqAt (st.cut i) = st.seqAt (st.cut k) := congrArg TcpFrame.seq same
  have numbers := congrArg UInt32.toNat seq
  have longI := st.long i
  have longK := st.long k
  have small := st.isn.toNat_lt
  simp only [SentStream.seqAt, UInt32.toNat_add, UInt32.toNat_ofNat'] at numbers
  obtain ⟨recentI, windowI⟩ := inI
  obtain ⟨recentK, windowK⟩ := inK
  have ahead : s.got.length ≤ s.place := Nat.le_add_right _ _
  exact st.cut_mono.injective (by omega)

/-- A segment without data is none of the stream. -/
theorem Brings.payload_ne {f : TcpFrame} {psh fin : Bool}
    (brings : Brings st s (.input f psh fin) k) : f.payload ≠ [] := by
  obtain ⟨_, _, same, -⟩ := brings
  injection same with frame
  exact frame ▸ SentStream.frame_payload_ne k

/-- A segment of the stream brings only itself. -/
theorem Brings.eq {i : Nat} {psh fin : Bool} (brings : Brings st s (.input (st.frame k) psh fin) i)
    (window : InWindow st s k) : i = k := by
  obtain ⟨_, _, same, there⟩ := brings
  injection same with frame
  exact there.unique window frame.symm

/-- What a peer sends comes before the FIN. -/
theorem Genuine.brings_lt (genuine : Genuine st N s call) (brings : Brings st s call k) :
    k < N := by
  cases genuine with
  | empty none_ => exact absurd none_ brings.payload_ne
  | segment below window => exact brings.eq window ▸ below
  | fin none_ => exact absurd none_ brings.payload_ne
  | read =>
      obtain ⟨_, _, same, -⟩ := brings
      cases same
  | send =>
      obtain ⟨_, _, same, -⟩ := brings
      cases same
  | others =>
      obtain ⟨_, _, same, -⟩ := brings
      cases same

/-- A step that gives out bytes, or none. -/
theorem TcpSound.after {bytes : List UInt8} {numbers' : List Nat} {j' m' n : Nat}
    (c : InStream st N t numbers' j' m' (s.got.length + n))
    (got : s.got ++ bytes = st.bytes 0 (s.got.length + n)) (set : WindowSet t) :
    TcpSound st N (s.after t bytes) numbers' j' m' := by
  have length : (s.got ++ bytes).length = s.got.length + n := by
    rw [got, st.length_bytes, Nat.sub_zero]
  refine ⟨?_, ?_, set⟩
  · exact length.symm ▸ c
  · exact length.symm ▸ got

/-- A step that does not read. -/
theorem TcpSound.quiet (sound : TcpSound st N s numbers j m) {numbers' : List Nat} {m' : Nat}
    (c : InStream st N t numbers' j m' s.got.length) (set : WindowSet t) :
    TcpSound st N (s.after t []) numbers' j m' :=
  TcpSound.after (n := 0) c ((List.append_nil _).trans sound.got) set

/-- A segment without data. -/
theorem tcpDataIn_empty (t : PicoSocketTcp) {f : TcpFrame} (empty : f.payload = []) :
    tcpDataIn t f = t ∨ tcpDataIn t f = tcpSendAck t := by
  have none_ : segmentFromFrame f = none := if_pos empty
  have expected : tcpDataInExpected t f = t := by
    unfold tcpDataInExpected
    rw [none_]
    split <;> rfl
  have high : tcpDataInHighSegment t f = t := by
    unfold tcpDataInHighSegment
    rw [none_]
    split <;> rfl
  unfold tcpDataIn
  rw [expected, high, ite_self]
  dsimp only
  split
  · exact Or.inl rfl
  · exact Or.inr rfl

/-- `data` is called for a segment without data only if it has PSH, and does not matter. -/
theorem InStream.actionData_empty (c : InStream st N t numbers j m done) {f : TcpFrame}
    (empty : f.payload = []) (psh : Bool) :
    InStream st N (tcpActionData t f psh) numbers j m done ∧
      (tcpActionData t f psh).tcpqIn = t.tcpqIn ∧ (tcpActionData t f psh).sackOk = t.sackOk ∧
        finSeen (tcpActionData t f psh) = finSeen t := by
  unfold tcpActionData
  split
  · exact ⟨c, rfl, rfl, rfl⟩
  · split
    · rcases tcpDataIn_empty t empty with same | ack
      · rw [same]
        exact ⟨c, rfl, rfl, rfl⟩
      · have out := tcpSendAck_announces t
        rw [ack]
        exact ⟨c.announces out, out.tcpqIn, out.sackOk, out.seen⟩
    · exact ⟨c.of_fields c.receiving.holds rfl rfl rfl c.state, rfl, rfl, rfl⟩

/-- A call that leaves the queue alone. -/
theorem TcpSound.idle (sound : TcpSound st N s numbers j m)
    (c : InStream st N t numbers j m s.got.length) (set : WindowSet t)
    (maxSize : t.tcpqIn.maxSize = s.sock.tcpqIn.maxSize) (sackOk : t.sackOk = s.sock.sackOk)
    (seen : finSeen s.sock → finSeen t)
    (fin : finSeen t → finSeen s.sock ∨ ∃ f psh, call = .input f psh true)
    (old : ∀ k, Brings st s call k → k < m) :
    Onward st N s numbers j m call (s.after t []) numbers j m where
  sound := sound.quiet c set
  first := Nat.le_refl j
  next := Nat.le_refl m
  old := fun _ => Or.inr
  new := fun _ => Or.inl
  taken := fun k brings => Or.inl (old k brings)
  maxSize := maxSize
  sackOk := sackOk
  seen := seen
  fin := fin
  edge := s.after_edge t []

theorem TcpSound.input (sound : TcpSound st N s numbers j m) {f : TcpFrame} {psh fin : Bool}
    (genuine : Genuine st N s (.input f psh fin)) :
    ∃ numbers' m', Onward st N s numbers j m (.input f psh fin)
      (s.after (picoTcpInput s.sock f psh fin) []) numbers' j m' := by
  have set := picoTcpInput_windowSet f psh fin sound.windowSet
  cases genuine with
  | empty none_ =>
      obtain ⟨c, queue, sackOk, seen⟩ := sound.inStream.actionData_empty none_ psh
      have call : picoTcpInput s.sock f psh false = tcpActionData s.sock f psh := rfl
      rw [call] at set ⊢
      generalize tcpActionData s.sock f psh = t at c queue sackOk seen set ⊢
      refine ⟨numbers, m, sound.idle c set (congrArg PicoTcpQueue.maxSize queue) sackOk
        (fun before => seen.trans before) (fun after => Or.inl (seen.symm.trans after)) ?_⟩
      exact fun k brings => absurd none_ brings.payload_ne
  | @segment k psh below window =>
      have some_ : (st.frame k).payload ≠ [] := SentStream.frame_payload_ne k
      cases state : s.sock.state with
      | established =>
          have call : picoTcpInput s.sock (st.frame k) psh false =
              tcpDataIn s.sock (st.frame k) := tcpActionData_established some_ state psh
          have recent := window.1
          rw [sound.inStream.place_eq] at recent
          obtain ⟨numbers', m', takes⟩ := sound.inStream.dataIn below recent window.2
          rw [call] at set ⊢
          generalize tcpDataIn s.sock (st.frame k) = t' at takes set ⊢
          refine ⟨numbers', m', sound.quiet takes.inStream set, Nat.le_refl j, takes.le, ?_, ?_, ?_,
            takes.maxSize, takes.sackOk, fun before => takes.seen.trans before,
            fun after => Or.inl (takes.seen.symm.trans after), s.after_edge _ []⟩
          · exact fun i mem => Or.inr (takes.old i mem)
          · intro i mem
            refine (takes.new i mem).imp_right ?_
            rintro ⟨rfl, late⟩
            exact ⟨late, psh, false, rfl, window⟩
          · intro i brings
            rw [brings.eq window]
            exact takes.taken.imp_right (Or.imp_right (Or.imp_left And.right))
      | closeWait =>
          have call : picoTcpInput s.sock (st.frame k) psh false =
              { s.sock with resets := s.sock.resets + 1 } := tcpActionData_closeWait some_ state psh
          have c := sound.inStream
          rw [call] at set ⊢
          refine ⟨numbers, m, sound.idle (c.of_fields c.receiving.holds rfl rfl rfl c.state) set rfl
            rfl id Or.inl ?_⟩
          intro i brings
          rw [brings.eq window, c.fin (c.state state)]
          exact below
  | fin none_ at_ window =>
      obtain ⟨c, queue, sackOk, seen⟩ := sound.inStream.actionData_empty none_ psh
      have len : finLen (tcpActionData s.sock f psh) = finLen s.sock := by rw [finLen, seen, finLen]
      rw [sound.inStream.place_eq, ← len] at window
      have call : picoTcpInput s.sock f psh true =
          tcpSendAck (tcpAttemptClosewait (tcpActionData s.sock f psh) f) := by
        rw [picoTcpInput, if_pos rfl, tcpClosewait, if_pos none_]
      have out := tcpSendAck_announces (tcpAttemptClosewait (tcpActionData s.sock f psh) f)
      rw [call] at set ⊢
      refine ⟨numbers, m, sound.idle ((c.attempt at_ window).announces out) set ?_ ?_ ?_
        (fun _ => Or.inr ⟨f, psh, rfl⟩) ?_⟩
      · rw [out.tcpqIn, tcpAttemptClosewait_tcpqIn, queue]
      · rw [out.sackOk, tcpAttemptClosewait_sackOk, sackOk]
      · intro before
        exact out.seen.trans (tcpAttemptClosewait_seen f (seen.trans before))
      · exact fun k brings => absurd none_ brings.payload_ne

theorem picoTcpRead_maxSize (behind : Nat → UInt8) (t : PicoSocketTcp) (len : UInt32) :
    (picoTcpRead behind t len).1.tcpqIn.maxSize = t.tcpqIn.maxSize := by
  rw [picoTcpRead, tcpReadFinish_tcpqIn, readLoop_maxSize]

/-- A read that gives out bytes. -/
theorem TcpSound.read (sound : TcpSound st N s numbers j m) (behind : Nat → UInt8)
    (len : UInt32) :
    ∃ numbers' j', Onward st N s numbers j m (.read behind len)
        (s.after (picoTcpRead behind s.sock len).1 (picoTcpRead behind s.sock len).2)
        numbers' j' m ∧
      s.got ++ (picoTcpRead behind s.sock len).2 =
        st.bytes 0 (s.got.length + min len.toNat (unread s.sock)) := by
  obtain ⟨numbers', j', c, kept, bytes, sackOk, seen⟩ := sound.inStream.read behind len
  have got : s.got ++ (picoTcpRead behind s.sock len).2 =
      st.bytes 0 (s.got.length + min len.toNat (unread s.sock)) := by
    rw [bytes, ← st.bytes_append (Nat.zero_le _) (Nat.le_add_right _ _), ← sound.got]
  have maxSize := picoTcpRead_maxSize behind s.sock len
  have set : WindowSet (picoTcpRead behind s.sock len).1 := tcpReadFinish_windowSet _
  generalize picoTcpRead behind s.sock len = out at c got sackOk seen maxSize set
  refine ⟨numbers', j', ⟨.after c got set, kept.le, Nat.le_refl m, ?_, ?_, ?_, maxSize, sackOk,
    fun before => seen.trans before, fun after => Or.inl (seen.symm.trans after),
    s.after_edge _ _⟩, got⟩
  · intro i mem
    rcases Nat.lt_or_ge i m with before | late
    · exact Or.inl before
    · exact Or.inr (kept.kept i mem late)
  · exact fun i mem => Or.inl (kept.old i mem)
  · rintro k ⟨_, _, same, -⟩
    cases same

/-- What one call does to the invariant. -/
theorem TcpSound.step (sound : TcpSound st N s numbers j m) (genuine : Genuine st N s call)
    (taken : tcpStep s call = some s') :
    ∃ numbers' j' m', Onward st N s numbers j m call s' numbers' j' m' := by
  have c := sound.inStream
  have refl : ∀ call, (∀ k, ¬ Brings st s call k) →
      Onward st N s numbers j m call s numbers j m := by
    intro call none_
    exact ⟨sound, Nat.le_refl j, Nat.le_refl m, fun _ => Or.inr, fun _ => Or.inl,
      fun k brings => absurd brings (none_ k), rfl, rfl, id, Or.inl,
      Nat.le_max_left _ _⟩
  cases call with
  | input f psh fin =>
      obtain rfl := Option.some.inj taken
      obtain ⟨numbers', m', onward⟩ := sound.input genuine
      exact ⟨numbers', j, m', onward⟩
  | read behind len =>
      have noSegment : ∀ k, ¬ Brings st s (.read behind len) k := by
        rintro k ⟨_, _, same, -⟩
        cases same
      rcases tcpStep_read taken with ⟨rfl, -⟩ | rfl
      · exact ⟨numbers, j, m, refl _ noSegment⟩
      · obtain ⟨numbers', j', onward, -⟩ := sound.read behind len
        exact ⟨numbers', j', m, onward⟩
  | send =>
      cases taken
      have out : Announces s.sock (pushAck s.sock) :=
        Announces.pushAck ⟨rfl, fun _ => Or.inl⟩ sound.windowSet
      refine ⟨numbers, j, m, sound.idle (c.announces out) sound.windowSet rfl rfl id Or.inl ?_⟩
      rintro k ⟨_, _, same, -⟩
      cases same
  | others leafColor =>
      cases taken
      have holds := c.receiving.holds
      refine ⟨numbers, j, m, ⟨c.of_fields ⟨holds.keys, holds.sorted, holds.size, holds.frames⟩ rfl
        rfl rfl c.state, sound.got, sound.windowSet⟩, Nat.le_refl j, Nat.le_refl m, fun _ => Or.inr,
        fun _ => Or.inl, ?_, rfl, rfl, id, Or.inl, Nat.le_max_left _ _⟩
      rintro k ⟨_, _, same, -⟩
      cases same

/-- A new connection has received nothing. -/
theorem tcpStart_sound (st : SentStream) (N : Nat) (maxSize : UInt32) (leafColor : Color)
    (sackOk : Bool) : TcpSound st N (tcpStart st maxSize leafColor sackOk) [] 0 0 := by
  have zero : st.isn = st.seqAt 0 := (UInt32.add_zero st.isn).symm
  have fresh : InStream st N (newSocket st.isn maxSize leafColor sackOk) [] 0 0 0 := by
    refine ⟨⟨⟨rfl, List.Pairwise.nil, rfl, rfl⟩, ?_, ?_, List.not_mem_nil, Nat.le_refl 0, zero, ?_,
      Nat.zero_le _, ?_⟩, ?_, Nat.zero_le N, ?_, ?_, ?_⟩
    · intro i mem
      cases mem
    · intro i _ less
      cases less
    · rw [st.start]
    · intro i mem
      cases mem
    · intro i mem
      cases mem
    · rw [st.start]
      exact zero
    · intro seen
      cases seen
    · intro closed
      cases closed
  have out := tcpSetSpace_announces (newSocket st.isn maxSize leafColor sackOk)
  refine ⟨fresh.announces out, rfl, ?_⟩
  rw [WindowSet, tcpStart, tcpSetSpace_wnd, out.tcpqIn]

/-- When the FIN has been taken, the number of frames does not wrap. -/
theorem InStream.numbers_nil (c : InStream st N t numbers j m done) (seen : finSeen t)
    (empty : t.tcpqIn.frames = 0) : numbers = [] := by
  have r := c.receiving
  have last := c.fin seen
  have subset : numbers ⊆ List.range' j (N - j) := by
    intro i mem
    have low := r.first i mem
    have high := c.sent i mem
    exact List.mem_range'_1.mpr ⟨low, by omega⟩
  have few := (List.subperm_of_subset (r.holds.sorted.imp Nat.ne_of_lt) subset).length_le
  have spread := st.cut_mono.add_le_nat (N - j) j
  have next := r.next_le
  have start := r.done_lt
  have count := congrArg UInt32.toNat (r.holds.frames.symm.trans empty)
  rw [List.length_range'] at few
  rw [UInt32.toNat_ofNat', UInt32.toNat_zero] at count
  rw [last] at next
  have le := r.le
  have reach : st.cut (N - j + j) = st.cut N := by rw [Nat.sub_add_cancel (last ▸ le)]
  exact List.eq_nil_of_length_eq_zero (by omega)

/-- When the FIN has been taken, an empty queue means that all has been read. -/
theorem InStream.ended (c : InStream st N t numbers j m done) (seen : finSeen t)
    (empty : t.tcpqIn.frames = 0) : done = st.cut N := by
  have r := c.receiving
  have last := c.fin seen
  have none_ := c.numbers_nil seen empty
  have all : ¬ j < m := by
    intro less
    have mem := r.filled j (Nat.le_refl j) less
    rw [none_] at mem
    cases mem
  have same : j = m := Nat.le_antisymm r.le (Nat.le_of_not_lt all)
  have begun := r.begun
  have done_ := r.done_le
  rw [same] at begun
  rw [← last]
  exact Nat.le_antisymm done_ begun

/-- What the reads have given out after one more. -/
theorem TcpSound.read_got (sound : TcpSound st N s numbers j m) (behind : Nat → UInt8)
    (len : UInt32) (taken : tcpStep s (.read behind len) = some s') :
    s'.got = st.bytes 0 (s.got.length + min len.toNat (unread s.sock)) := by
  obtain ⟨-, -, -, read⟩ := sound.read behind len
  rcases tcpStep_read taken with ⟨rfl, shut, empty⟩ | rfl
  · have seen := finSeen_of_shut shut
    have all := sound.inStream.ended seen empty
    have none_ : unread s'.sock = 0 := by
      rw [sound.inStream.unread_eq, all, sound.inStream.fin seen, Nat.sub_self]
    rw [none_, Nat.min_zero]
    exact sound.got
  · exact read

/-- When all has been read, a read empties the queue and notices the end. -/
theorem InStream.drained (c : InStream st N t numbers j m done) (seen : finSeen t)
    (all : done = st.cut N) (behind : Nat → UInt8) {len : UInt32} (some_ : 0 < len) :
    (picoTcpRead behind t len).1.shutRemote = true ∧
      (picoTcpRead behind t len).1.tcpqIn.frames = 0 := by
  obtain ⟨numbers', j', r, before, kept⟩ := c.receiving.release
  have last := c.fin seen
  have none_ : numbers' = [] := by
    apply List.eq_nil_iff_forall_not_mem.mpr
    intro i mem
    have low := r.first i mem
    have high := c.sent i (kept.old i mem)
    have unread := before (by omega)
    have cuts := st.cut_mono.monotone (a := j' + 1) (b := N) (by omega)
    omega
  rw [none_] at r
  have first : firstSegment (releaseUntil t.tcpqIn t.rcvProcessed) = none := r.holds.first
  have nothing : readLoop behind len (len.toNat + 1) t 0 =
      ({ t with tcpqIn := releaseUntil t.tcpqIn t.rcvProcessed }, []) := by
    rw [readLoop, if_pos some_]
    dsimp only
    rw [first]
  rw [picoTcpRead, nothing]
  dsimp only
  constructor
  · exact tcpReadFinish_shutRemote seen
  · rw [tcpReadFinish_tcpqIn]
    exact r.holds.frames

/-- All has been read, and the end has been noticed. -/
structure Ended (st : SentStream) (N : Nat) (s : TcpReader) : Prop where
  sound : ∃ j m, TcpSound st N s [] j m
  shut : s.sock.shutRemote = true

theorem Ended.read (ended : Ended st N s) (behind : Nat → UInt8) (len : UInt32) :
    picoSocketTcpRead behind s.sock len = none := by
  obtain ⟨j, m, sound⟩ := ended.sound
  exact if_pos ⟨ended.shut, sound.inStream.receiving.holds.frames⟩

/-- Nothing comes behind the end. -/
theorem Ended.step (ended : Ended st N s) (genuine : Genuine st N s call)
    (taken : tcpStep s call = some s') : Ended st N s' := by
  obtain ⟨j, m, sound⟩ := ended.sound
  have seen := finSeen_of_shut ended.shut
  constructor
  · obtain ⟨numbers', j', m', onward⟩ := sound.step genuine taken
    have none_ : numbers' = [] := by
      apply List.eq_nil_iff_forall_not_mem.mpr
      intro i mem
      rcases onward.new i mem with old | ⟨late, brings⟩
      · cases old
      · have below := genuine.brings_lt brings
        have last := sound.inStream.fin seen
        omega
    exact ⟨j', m', none_ ▸ onward.sound⟩
  · cases call with
    | input f psh fin =>
        obtain rfl := Option.some.inj taken
        exact picoTcpInput_shutRemote f psh fin ended.shut
    | read behind len =>
        rw [tcpStep, ended.read behind len] at taken
        obtain rfl := Option.some.inj taken
        exact ended.shut
    | send =>
        obtain rfl := Option.some.inj taken
        exact ended.shut
    | others leafColor =>
        obtain rfl := Option.some.inj taken
        exact ended.shut

/-- The read after the last byte. -/
theorem TcpSound.read_ended (sound : TcpSound st N s numbers j m) (seen : finSeen s.sock)
    (all : s.got.length = st.cut N) {behind : Nat → UInt8} {len : UInt32} (some_ : 0 < len)
    (taken : tcpStep s (.read behind len) = some s') : Ended st N s' := by
  obtain ⟨numbers', j', m', onward⟩ := sound.step .read taken
  have drained := sound.inStream.drained seen all behind some_
  have ended : s'.sock.shutRemote = true ∧ s'.sock.tcpqIn.frames = 0 := by
    rcases tcpStep_read taken with ⟨rfl, ended⟩ | rfl
    · exact ended
    · exact drained
  have none_ := onward.sound.inStream.numbers_nil (onward.seen seen) ended.2
  exact ⟨⟨j', m', none_ ▸ onward.sound⟩, ended.1⟩

section Run

variable {maxSize : UInt32} {leafColor : Color} {sackOk : Bool}

/-- A run from a new connection. -/
abbrev TcpRun (st : SentStream) (maxSize : UInt32) (leafColor : Color) (sackOk : Bool)
    (calls : List TcpCall) (s : TcpReader) : Prop :=
  Run tcpStep (tcpStart st maxSize leafColor sackOk) calls s

/-- Every call of a run was genuine. -/
abbrev AllGenuine (st : SentStream) (N : Nat) (maxSize : UInt32) (leafColor : Color)
    (sackOk : Bool) (calls : List TcpCall) : Prop :=
  Meets tcpStep (Genuine st N) (tcpStart st maxSize leafColor sackOk) calls

theorem TcpRun.sound (run : TcpRun st maxSize leafColor sackOk calls s)
    (genuine : AllGenuine st N maxSize leafColor sackOk calls) :
    ∃ numbers j m, TcpSound st N s numbers j m := by
  refine Meets.invariant (I := fun s => ∃ numbers j m, TcpSound st N s numbers j m)
    ⟨[], 0, 0, tcpStart_sound st N maxSize leafColor sackOk⟩ ?_ genuine run
  rintro u call w ⟨numbers, j, m, sound⟩ genuine taken
  obtain ⟨numbers', j', m', onward⟩ := sound.step genuine taken
  exact ⟨numbers', j', m', onward.sound⟩

/-- In every run, with segments in any order, some of them more than once and some never,
what the reads have given out is the beginning of the stream; and a read gives out all
bytes that follow, up to the first one that is not acknowledged, as far as the buffer
goes. -/
theorem tcp_reads_stream (run : TcpRun st maxSize leafColor sackOk calls s)
    (genuine : AllGenuine st N maxSize leafColor sackOk calls) :
    s.got = st.bytes 0 s.got.length ∧
      ∀ behind len s', tcpStep s (.read behind len) = some s' →
        s'.got = st.bytes 0 (s.got.length + min len.toNat (unread s.sock)) := by
  obtain ⟨numbers, j, m, sound⟩ := run.sound genuine
  exact ⟨sound.got, fun behind len s' taken => sound.read_got behind len taken⟩

/-- Segments of two bytes; the numbers wrap behind the first one. -/
def pairs : SentStream where
  isn := 4294967294
  byte n := UInt8.ofNat n
  cut n := 2 * n
  start := rfl
  long i := by omega
  short i := by omega

/-- The second segment comes in first, and the first one twice. -/
def swapped : List TcpCall :=
  [.input (pairs.frame 1) true false, .input (pairs.frame 0) false false,
    .input (pairs.frame 0) false false]

theorem swapped_genuine : AllGenuine pairs 2 100 .black true swapped := by
  refine ⟨.segment (by decide) ⟨by decide, by decide⟩, fun t taken => ?_⟩
  obtain rfl := Option.some.inj taken
  refine ⟨.segment (by decide) ⟨by decide, by decide⟩, fun t taken => ?_⟩
  obtain rfl := Option.some.inj taken
  exact ⟨.segment (by decide) ⟨by decide, by decide⟩, fun _ _ => trivial⟩

theorem tcp_reads_stream_swapped : ∃ s s',
    TcpRun pairs 100 .black true swapped s ∧ tcpStep s (.read (fun _ => 0) 3) = some s' ∧
      s'.got = [0, 1, 2] := by
  refine ⟨_, _, rfl, rfl, ?_⟩
  exact (tcp_reads_stream (rfl : TcpRun pairs 100 .black true swapped _) swapped_genuine).2
    (fun _ => 0) 3 _ rfl

/-- In every run, the FIN is taken only when every segment has come in; the end of the
stream is reported only when every byte has been read; and after one more read for some
bytes it is reported by every read, whatever comes in. -/
theorem tcp_end_of_stream (run : TcpRun st maxSize leafColor sackOk calls s)
    (genuine : AllGenuine st N maxSize leafColor sackOk calls) :
    (finSeen s.sock → s.got.length + unread s.sock = st.cut N) ∧
      (∀ behind len, picoSocketTcpRead behind s.sock len = none →
        s.got = st.bytes 0 (st.cut N)) ∧
      ∀ behind len s', finSeen s.sock → s.got.length = st.cut N → 0 < len →
        tcpStep s (.read behind len) = some s' →
          ∀ more u, Meets tcpStep (Genuine st N) s' more → Run tcpStep s' more u →
            ∀ behind' len', picoSocketTcpRead behind' u.sock len' = none := by
  obtain ⟨numbers, j, m, sound⟩ := run.sound genuine
  have c := sound.inStream
  refine ⟨?_, ?_, ?_⟩
  · intro seen
    have done_ := c.receiving.done_le
    rw [c.unread_eq, Nat.add_sub_cancel' done_, c.fin seen]
  · intro behind len shut
    rw [picoSocketTcpRead] at shut
    split at shut
    · rename_i ended
      have seen := finSeen_of_shut ended.1
      rw [← c.ended seen ended.2]
      exact sound.got
    · cases shut
  · intro behind len s' seen all some_ taken more u genuine' run' behind' len'
    have ended : Ended st N s' := sound.read_ended seen all some_ taken
    exact (Meets.invariant ended (fun _ _ _ ended now taken => ended.step now taken) genuine'
      run').read behind' len'

/-- The FIN comes in before the data are read. -/
def finished : List TcpCall :=
  swapped ++ [.input ⟨pairs.seqAt 4, [], Nat.two_pow_pos 16⟩ false true, .read (fun _ => 0) 4]

theorem finished_genuine : AllGenuine pairs 2 100 .black true finished := by
  refine Meets.append_iff.mpr ⟨swapped_genuine, fun u run => ?_⟩
  obtain rfl := Option.some.inj run
  exact ⟨.fin rfl rfl (by decide), fun t taken => ⟨.read, fun _ _ => trivial⟩⟩

/-- All has been read; after one more read a segment comes in again. -/
theorem tcp_end_of_stream_finished : ∃ s s' u,
    TcpRun pairs 100 .black true finished s ∧ s.got.length + unread s.sock = 4 ∧
      tcpStep s (.read (fun _ => 0) 1) = some s' ∧
        Run tcpStep s' [.input (pairs.frame 1) true false] u ∧
          picoSocketTcpRead (fun _ => 0) u.sock 1 = none := by
  obtain ⟨s, run, seen, all⟩ : ∃ s, TcpRun pairs 100 .black true finished s ∧
      finSeen s.sock = true ∧ s.got.length = 4 := Run.of_any (by decide +kernel)
  obtain ⟨s', taken, window⟩ : ∃ s', tcpStep s (.read (fun _ => 0) 1) = some s' ∧
      InWindow pairs s' 1 := by
    cases run
    exact ⟨_, rfl, by decide +kernel, by decide +kernel⟩
  have again : Meets tcpStep (Genuine pairs 2) s' [.input (pairs.frame 1) true false] :=
    ⟨.segment (by decide) window, fun _ _ => trivial⟩
  obtain ⟨ends, -, stays⟩ := tcp_end_of_stream run finished_genuine
  have none_ := stays (fun _ => 0) 1 s' seen all (by decide) taken _ _ again rfl
  exact ⟨s, s', _, run, ends seen, taken, rfl, none_ (fun _ => 0) 1⟩

end Run

end Rfsis.Pico
