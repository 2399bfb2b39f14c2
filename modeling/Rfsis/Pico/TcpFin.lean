import Rfsis.Pico.TcpWindow

/-!
A FIN that comes with data.

`tcp_closewait` first takes the data, and then compares the number of the segment, which
is that of its first byte, with what is expected next. That has moved behind the data by
then, unless there was no room for them.

* `fin_with_data_iff`: the FIN is taken exactly if its data were thrown away, unless a
  FIN was taken before.
* `fin_with_data_unnoticed`: so a peer that keeps within the windows, and sends its FIN
  with data each time, is never seen to close.
-/

namespace Rfsis.Pico

open SearchTree Transition

variable {st : SentStream} {N : Nat} {t t' : PicoSocketTcp} {numbers : List Nat}
  {j k m done : Nat} {s s' : TcpReader} {call : TcpCall} {calls : List TcpCall}

/-- The segment whose first byte is expected next. -/
theorem InStream.compare_frame (c : InStream st N t numbers j m done) (unseen : ¬ finSeen t)
    (recent : st.cut m < st.cut k + 2 ^ 31)
    (window : st.cut (k + 1) + 2 ^ 16 ≤ done + 2 ^ 31) :
    picoSeqCompare (st.frame k).seq t.rcvNxt = 0 ↔ k = m := by
  have next := c.next
  have none_ : finLen t = 0 := if_neg unseen
  rw [none_] at next
  rw [c.receiving.compare_next next recent window]
  constructor
  · intro equal
    exact st.cut_mono.injective (by omega)
  · rintro rfl
    exact Int.sub_self _

/-- A segment with data that is taken is not expected next any more. -/
theorem TakesIn.ne_next {numbers' : List Nat} {m' : Nat}
    (takes : TakesIn st N t numbers j m done k t' numbers' m')
    (room : ¬ (k = m ∧ NoRoom st t k)) : k ≠ m' := by
  rintro rfl
  rcases takes.taken with less | there | ⟨less, -⟩ | full
  · exact Nat.lt_irrefl k less
  · exact takes.inStream.receiving.gap there
  · exact Nat.lt_irrefl k less
  · rcases takes.moved with same | same
    · exact room ⟨same, full⟩
    · exact room ⟨same, full⟩

theorem TakesIn.recent {numbers' : List Nat} {m' : Nat}
    (takes : TakesIn st N t numbers j m done k t' numbers' m')
    (c : InStream st N t numbers j m done) (recent : st.cut m < st.cut k + 2 ^ 31) :
    st.cut m' < st.cut k + 2 ^ 31 := by
  rcases takes.moved with rfl | rfl
  · exact recent
  · have next := takes.inStream.receiving.next_le
    have done_ := c.receiving.done_le
    omega

/-- What `tcp_closewait` does with a segment that has data, after they came in once: they
come in again, and the FIN is ignored. -/
theorem TakesIn.again {numbers' : List Nat} {m' : Nat}
    (takes : TakesIn st N t numbers j m done k t' numbers' m')
    (c : InStream st N t numbers j m done) (unseen : ¬ finSeen t) (below : k < N)
    (recent : st.cut m < st.cut k + 2 ^ 31) (window : st.cut (k + 1) + 2 ^ 16 ≤ done + 2 ^ 31)
    (room : ¬ (k = m ∧ NoRoom st t k)) :
    ∃ numbers'' m'', TakesIn st N t numbers j m done k (tcpClosewait t' (st.frame k))
      numbers'' m'' := by
  have unseen' : ¬ finSeen t' := by rwa [takes.seen]
  have none_ : finLen t' = 0 := if_neg unseen'
  have recent' := takes.recent c recent
  obtain ⟨numbers'', m'', takes'⟩ := takes.inStream.dataIn below (by omega) window
  have unseen'' : ¬ finSeen (tcpDataIn t' (st.frame k)) := by rwa [takes'.seen]
  have other := takes'.ne_next fun both => takes.ne_next room both.1
  have ignored : tcpAttemptClosewait (tcpDataIn t' (st.frame k)) (st.frame k) =
      tcpDataIn t' (st.frame k) :=
    if_neg fun equal => other ((takes'.inStream.compare_frame unseen''
      (takes'.recent takes.inStream recent') window).mp equal)
  rw [tcpClosewait, if_neg (SentStream.frame_payload_ne k), ignored]
  refine ⟨numbers'', m'', TakesIn.announces ?_ (tcpSendAck_announces _)⟩
  constructor
  · exact takes'.inStream
  · exact takes.le.trans takes'.le
  · exact fun i mem => takes'.old i (takes.old i mem)
  · intro i mem
    rcases takes'.new i mem with old | ⟨same, late⟩
    · exact takes.new i old
    · exact Or.inr ⟨same, takes.le.trans late⟩
  · rcases takes.moved with rfl | same
    · exact takes'.moved
    · exact Or.inr same
  · exact takes'.maxSize.trans takes.maxSize
  · exact takes'.sackOk.trans takes.sackOk
  · exact takes'.seen.trans takes.seen
  · rcases takes.taken with less | there | ⟨less, noSack⟩ | full
    · exact Or.inl (Nat.lt_of_lt_of_le less takes'.le)
    · exact Or.inr (Or.inl (takes'.old k there))
    · rcases takes'.moved with rfl | same
      · exact Or.inr (Or.inr (Or.inl ⟨less, noSack⟩))
      · omega
    · exact Or.inr (Or.inr (Or.inr full))

/-- A segment with data and FIN: the data come in twice. -/
theorem InStream.input_dataFin (c : InStream st N t numbers j m done) (unseen : ¬ finSeen t)
    (psh : Bool) : picoTcpInput t (st.frame k) psh true =
      tcpClosewait (tcpDataIn t (st.frame k)) (st.frame k) := by
  have established : t.state = .established := by
    cases state : t.state with
    | established => rfl
    | closeWait => exact absurd (c.state state) unseen
  rw [picoTcpInput, tcpActionData_established (SentStream.frame_payload_ne k) established]
  rfl

/-- A segment with data and FIN, when the data are not thrown away. -/
theorem TcpSound.dataFin (sound : TcpSound st N s numbers j m) (unseen : ¬ finSeen s.sock)
    (below : k < N) (window : InWindow st s k) (room : ¬ (k = m ∧ NoRoom st s.sock k))
    (psh : Bool) :
    ∃ numbers' m', Onward st N s numbers j m (.input (st.frame k) psh true)
      (s.after (picoTcpInput s.sock (st.frame k) psh true) []) numbers' j m' ∧
        ¬ finSeen (picoTcpInput s.sock (st.frame k) psh true) := by
  have set := picoTcpInput_windowSet (st.frame k) psh true sound.windowSet
  have c := sound.inStream
  have none_ : finLen s.sock = 0 := if_neg unseen
  have recent := window.1
  rw [c.place_eq] at recent
  obtain ⟨numbers', m', takes⟩ := c.dataIn below recent window.2
  rw [none_] at recent
  obtain ⟨numbers'', m'', all⟩ := takes.again c unseen below recent window.2 room
  rw [c.input_dataFin unseen psh] at set ⊢
  generalize tcpClosewait (tcpDataIn s.sock (st.frame k)) (st.frame k) = t' at all set ⊢
  refine ⟨numbers'', m'', ⟨sound.quiet all.inStream set, Nat.le_refl j, all.le, ?_, ?_, ?_,
    all.maxSize, all.sackOk, fun before => all.seen.trans before,
    fun after => Or.inl (all.seen.symm.trans after), s.after_edge _ []⟩, ?_⟩
  · exact fun i mem => Or.inr (all.old i mem)
  · intro i mem
    refine (all.new i mem).imp_right ?_
    rintro ⟨rfl, late⟩
    exact ⟨late, psh, true, rfl, window⟩
  · intro i brings
    rw [brings.eq window]
    exact all.taken.imp_right (Or.imp_right (Or.imp_left And.right))
  · rwa [all.seen]

/-! ### When the FIN is taken -/

/-- A segment that has no room changes nothing. -/
theorem tcpDataIn_noRoom (full : NoRoom st t k) : Announces t (tcpDataIn t (st.frame k)) := by
  have some_ : (st.segment k).payloadLen ≠ 0 := by
    intro zero
    have pos := payloadLen_pos st k
    rw [zero] at pos
    exact absurd pos (by decide)
  rw [NoRoom] at full
  have refused : picoEnqueueSegment t.tcpqIn (st.segment k) = (0, t.tcpqIn) := by
    rw [picoEnqueueSegment, if_neg some_, doEnqueueSegment, if_pos full]
  have expected : tcpDataInExpected t (st.frame k) = t := by
    unfold tcpDataInExpected
    rw [segmentFromFrame_frame]
    split
    · dsimp only
      rw [refused, if_pos (Int.le_refl 0)]
    · rfl
  have high : tcpDataInHighSegment t (st.frame k) = t := by
    unfold tcpDataInHighSegment
    rw [segmentFromFrame_frame]
    split
    · dsimp only
      rw [refused, if_pos (Int.le_refl 0)]
    · rfl
  unfold tcpDataIn
  rw [expected, high, ite_self]
  dsimp only
  split
  · exact ⟨rfl, fun _ => Or.inl⟩
  · exact tcpSendAck_announces t

/-- The FIN is taken if its data are thrown away. -/
theorem tcpClosewait_noRoom (full : NoRoom st t k) (next : t.rcvNxt = (st.frame k).seq) :
    finSeen (tcpClosewait t (st.frame k)) := by
  have out := tcpDataIn_noRoom full
  have equal : picoSeqCompare (st.frame k).seq (tcpDataIn t (st.frame k)).rcvNxt = 0 :=
    picoSeqCompare_eq_zero.mpr (out.rcvNxt.trans next).symm
  rw [tcpClosewait, if_neg (SentStream.frame_payload_ne k), (tcpSendAck_announces _).seen,
    tcpAttemptClosewait, if_pos equal]
  dsimp only
  split
  · exact Bool.or_true _
  · exact Bool.true_or _

/-- Also when they have been thrown away once. -/
theorem tcpClosewait_again (full : NoRoom st t k) (next : t.rcvNxt = (st.frame k).seq) :
    finSeen (tcpClosewait (tcpDataIn t (st.frame k)) (st.frame k)) := by
  have out := tcpDataIn_noRoom full
  apply tcpClosewait_noRoom
  · rw [NoRoom, out.tcpqIn]
    exact full
  · rw [out.rcvNxt, next]

/-! ### A FIN is not forgotten -/

theorem readLoop_endFlags (behind : Nat → UInt8) (len : UInt32) (fuel : Nat) (t : PicoSocketTcp)
    (totRdLen : UInt32) :
    endFlags (readLoop behind len fuel t totRdLen).1 = endFlags t := by
  induction fuel generalizing t totRdLen with
  | zero => rfl
  | succ fuel ih =>
      unfold readLoop
      split
      · dsimp only
        split
        · rfl
        · split
          · rfl
          · rw [ih]
            rfl
      · rfl

theorem tcpStep_seen (seen : finSeen s.sock) (taken : tcpStep s call = some s') :
    finSeen s'.sock := by
  cases call with
  | input f psh fin =>
      obtain rfl := Option.some.inj taken
      exact picoTcpInput_seen f psh fin seen
  | read behind len =>
      rcases tcpStep_read taken with ⟨rfl, -⟩ | rfl
      · exact seen
      · have loop := finSeen_of_endFlags (readLoop_endFlags behind len (len.toNat + 1) s.sock 0)
        have finish := tcpReadFinish_seen (readLoop behind len (len.toNat + 1) s.sock 0).1
        exact (finish.trans loop).trans seen
  | send =>
      obtain rfl := Option.some.inj taken
      exact seen
  | others leafColor =>
      obtain rfl := Option.some.inj taken
      exact seen

/-- What a peer sends that may put its FIN on data, too. -/
inductive Sends (st : SentStream) (N : Nat) (s : TcpReader) : TcpCall → Prop where
  | genuine {call : TcpCall} : Genuine st N s call → Sends st N s call
  | dataFin {k : Nat} {psh : Bool} : k < N → InWindow st s k →
      Sends st N s (.input (st.frame k) psh true)

/-- As long as no FIN has been taken, the stream comes in as it was sent. -/
def Unended (st : SentStream) (N : Nat) (s : TcpReader) : Prop :=
  finSeen s.sock ∨ ∃ numbers j m, TcpSound st N s numbers j m

theorem Unended.step (unended : Unended st N s) (sends : Sends st N s call)
    (taken : tcpStep s call = some s') : Unended st N s' := by
  rcases unended with seen | ⟨numbers, j, m, sound⟩
  · exact Or.inl (tcpStep_seen seen taken)
  · cases sends with
    | genuine genuine =>
        obtain ⟨numbers', j', m', onward⟩ := sound.step genuine taken
        exact Or.inr ⟨numbers', j', m', onward.sound⟩
    | @dataFin k psh below window =>
        by_cases seen : finSeen s.sock
        · exact Or.inl (tcpStep_seen seen taken)
        · obtain rfl := Option.some.inj taken
          by_cases room : k = m ∧ NoRoom st s.sock k
          · left
            have c := sound.inStream
            have next := c.next
            have none_ : finLen s.sock = 0 := if_neg seen
            rw [none_, ← room.1] at next
            show finSeen (picoTcpInput s.sock (st.frame k) psh true)
            rw [c.input_dataFin seen psh]
            exact tcpClosewait_again room.2 next
          · obtain ⟨numbers', m', onward, -⟩ := sound.dataFin seen below window room psh
            exact Or.inr ⟨numbers', j, m', onward.sound⟩

section Run

variable {maxSize : UInt32} {leafColor : Color} {sackOk : Bool}

/-- In every run, a FIN that comes with a segment of data is taken exactly if the data are
the next ones and there is no room for them, and then the connection ends without them;
unless a FIN was taken before. -/
theorem fin_with_data_iff (run : TcpRun st maxSize leafColor sackOk calls s)
    (sends : Meets tcpStep (Sends st N) (tcpStart st maxSize leafColor sackOk) calls)
    (below : k < N) (window : InWindow st s k) {psh : Bool}
    (taken : tcpStep s (.input (st.frame k) psh true) = some s') :
    finSeen s'.sock ↔
      finSeen s.sock ∨ ((st.frame k).seq = s.sock.rcvNxt ∧ NoRoom st s.sock k) := by
  by_cases seen : finSeen s.sock
  · exact iff_of_true (tcpStep_seen seen taken) (Or.inl seen)
  · have unended : Unended st N s := Meets.invariant
      (Or.inr ⟨[], 0, 0, tcpStart_sound st N maxSize leafColor sackOk⟩)
      (fun _ _ _ unended sends taken => unended.step sends taken) sends run
    obtain ⟨numbers, j, m, sound⟩ := unended.resolve_left seen
    obtain rfl := Option.some.inj taken
    have c := sound.inStream
    show finSeen (picoTcpInput s.sock (st.frame k) psh true) ↔ _
    have none_ : finLen s.sock = 0 := if_neg seen
    have recent := window.1
    rw [c.place_eq, none_] at recent
    have expected : (st.frame k).seq = s.sock.rcvNxt ↔ k = m := by
      rw [← c.compare_frame seen recent window.2, picoSeqCompare_eq_zero]
    rw [or_iff_right seen]
    constructor
    · intro after
      by_contra room
      rw [expected] at room
      obtain ⟨-, -, -, unseen⟩ := sound.dataFin seen below window room psh
      exact unseen after
    · rintro ⟨next, full⟩
      rw [c.input_dataFin seen psh]
      exact tcpClosewait_again full next.symm

/-- A queue for two bytes: the first segment comes with a FIN, which is ignored, and then
the second one, which has no room. -/
theorem fin_with_data_iff_full : ∃ s s',
    TcpRun pairs 2 .black true [.input (pairs.frame 0) true true] s ∧ ¬ finSeen s.sock ∧
      tcpStep s (.input (pairs.frame 1) true true) = some s' ∧ finSeen s'.sock := by
  have sends : Meets tcpStep (Sends pairs 2) (tcpStart pairs 2 .black true)
      [.input (pairs.frame 0) true true] :=
    ⟨.dataFin (by decide) ⟨by decide, by decide⟩, fun _ _ => trivial⟩
  obtain ⟨s, run, unseen, next, full, window⟩ : ∃ s,
      TcpRun pairs 2 .black true [.input (pairs.frame 0) true true] s ∧
        finSeen s.sock = false ∧ (pairs.frame 1).seq = s.sock.rcvNxt ∧
          s.sock.tcpqIn.size + (pairs.segment 1).payloadLen > s.sock.tcpqIn.maxSize ∧
            (s.place < pairs.cut 1 + 2 ^ 31 ∧ pairs.cut 2 + 2 ^ 16 ≤ s.got.length + 2 ^ 31) :=
    Run.of_any (by decide +kernel)
  refine ⟨s, _, run, by simp [unseen], rfl, ?_⟩
  exact (fin_with_data_iff run sends (by decide) window rfl).mpr (Or.inr ⟨next, full⟩)

/-- A peer that sends its FIN with the last data, and never alone. -/
inductive FinOnData (st : SentStream) (N : Nat) (s : TcpReader) : TcpCall → Prop where
  | empty {f : TcpFrame} {psh : Bool} : f.payload = [] → FinOnData st N s (.input f psh false)
  | segment {k : Nat} {psh fin : Bool} : k < N → InWindow st s k →
      FinOnData st N s (.input (st.frame k) psh fin)
  | read {behind : Nat → UInt8} {len : UInt32} : FinOnData st N s (.read behind len)
  | send : FinOnData st N s .send
  | others {leafColor : Color} : FinOnData st N s (.others leafColor)

/-- The invariant of a run without the end of the stream. -/
theorem TcpSound.step_unseen (sound : TcpSound st N s numbers j m)
    (fits : WindowFits st s numbers j) (unseen : ¬ finSeen s.sock)
    (from_ : FinOnData st N s call) (within : WithinEdge st s call)
    (taken : tcpStep s call = some s') :
    ∃ numbers' j' m', TcpSound st N s' numbers' j' m' ∧ WindowFits st s' numbers' j' ∧
      ¬ finSeen s'.sock := by
  have genuine_ : Genuine st N s call → (∀ f psh, call ≠ .input f psh true) →
      ∃ numbers' j' m', TcpSound st N s' numbers' j' m' ∧ WindowFits st s' numbers' j' ∧
        ¬ finSeen s'.sock := by
    intro genuine other
    obtain ⟨numbers', j', m', onward⟩ := sound.step genuine taken
    refine ⟨numbers', j', m', onward.sound, onward.fits sound fits within, ?_⟩
    intro after
    rcases onward.fin after with before | ⟨f, psh, same⟩
    · exact unseen before
    · exact other f psh same
  cases from_ with
  | empty none_ => exact genuine_ (.empty none_) fun f psh same => by cases same
  | @segment k psh fin below window =>
      cases fin with
      | false => exact genuine_ (.segment below window) fun f psh same => by cases same
      | true =>
          obtain rfl := Option.some.inj taken
          have room : ¬ (k = m ∧ NoRoom st s.sock k) := by
            rintro ⟨rfl, full⟩
            refine fits.room sound unseen (Nat.le_refl k) sound.inStream.receiving.gap ?_ full
            exact within k ⟨psh, true, rfl, window⟩
          obtain ⟨numbers', m', onward, unseen'⟩ := sound.dataFin unseen below window room psh
          exact ⟨numbers', j, m', onward.sound, onward.fits sound fits within, unseen'⟩
  | read => exact genuine_ .read fun f psh same => by cases same
  | send => exact genuine_ .send fun f psh same => by cases same
  | others => exact genuine_ .others fun f psh same => by cases same

/-- A peer that keeps within the windows, and whose FIN always comes with data, is never
seen to close: in no run, however often it sends its FIN. -/
theorem fin_with_data_unnoticed (run : TcpRun st maxSize leafColor sackOk calls s)
    (from_ : Meets tcpStep (FinOnData st N) (tcpStart st maxSize leafColor sackOk) calls)
    (within : Meets tcpStep (WithinEdge st) (tcpStart st maxSize leafColor sackOk) calls)
    (pos : 0 < maxSize) (small : maxSize < 2 ^ 16) : ¬ finSeen s.sock := by
  have start : ¬ finSeen (tcpStart st maxSize leafColor sackOk).sock := by
    have seen := (tcpSetSpace_announces (newSocket st.isn maxSize leafColor sackOk)).seen
    exact fun after => absurd (seen.symm.trans after) Bool.false_ne_true
  obtain ⟨-, -, -, -, -, unseen⟩ : ∃ numbers j m, TcpSound st N s numbers j m ∧
      WindowFits st s numbers j ∧ ¬ finSeen s.sock := by
    refine Meets.invariant (I := fun s => ∃ numbers j m, TcpSound st N s numbers j m ∧
      WindowFits st s numbers j ∧ ¬ finSeen s.sock)
      ⟨[], 0, 0, tcpStart_sound st N maxSize leafColor sackOk, tcpStart_fits pos small, start⟩ ?_
      (from_.both within) run
    rintro u call w ⟨numbers, j, m, sound, fits, unseen⟩ ⟨now, upTo⟩ taken
    exact sound.step_unseen fits unseen now upTo taken
  exact unseen

/-- The only segment of a stream, with its FIN, sent twice. -/
def lastTwice : List TcpCall :=
  [.input (pairs.frame 0) true true, .input (pairs.frame 0) true true]

theorem fin_with_data_unnoticed_twice : ∃ s,
    TcpRun pairs 100 .black false lastTwice s ∧ ¬ finSeen s.sock := by
  have from_ : Meets tcpStep (FinOnData pairs 1) (tcpStart pairs 100 .black false) lastTwice := by
    refine ⟨.segment (by decide) ⟨by decide, by decide⟩, fun t taken => ?_⟩
    obtain rfl := Option.some.inj taken
    exact ⟨.segment (by decide) ⟨by decide, by decide⟩, fun _ _ => trivial⟩
  have within : Meets tcpStep (WithinEdge pairs) (tcpStart pairs 100 .black false) lastTwice := by
    refine ⟨.segment ⟨by decide, by decide⟩ (by decide), fun t taken => ?_⟩
    obtain rfl := Option.some.inj taken
    exact ⟨.segment ⟨by decide, by decide⟩ (by decide), fun _ _ => trivial⟩
  exact ⟨_, rfl, fin_with_data_unnoticed (rfl : TcpRun pairs 100 .black false lastTwice _) from_
    within (by decide) (by decide)⟩

end Run

end Rfsis.Pico
