import Rfsis.Pico.TcpStream

/-!
A connection whose peer keeps within the windows that it was told.

The window is the room in the queue behind all that is in it, so the place where it ends
is never further behind the first segment of the queue than the queue is long (`WindowFits`). A
segment that ends before that place always has room, so nothing is lost
(`tcp_all_arrived`).
-/

namespace Rfsis.Pico

open SearchTree Transition

variable {st : SentStream} {N : Nat} {t t' : PicoSocketTcp} {q : PicoTcpQueue}
  {numbers numbers' : List Nat} {j j' k m m' done : Nat} {s s' : TcpReader} {call : TcpCall}
  {calls : List TcpCall}

/-! ### The bytes in the queue -/

/-- Segments that all lie between two places are not longer than what is between these. -/
theorem sum_size_le {upTo : Nat} (sorted : numbers.Pairwise (· < ·))
    (between : ∀ i ∈ numbers, j ≤ i ∧ st.cut (i + 1) ≤ upTo) (some_ : st.cut j ≤ upTo) :
    (numbers.map st.size).sum + st.cut j ≤ upTo := by
  induction numbers generalizing j with
  | nil => simpa using some_
  | cons i rest ih =>
      obtain ⟨above, sorted'⟩ := List.pairwise_cons.mp sorted
      obtain ⟨low, high⟩ := between i List.mem_cons_self
      have later := ih sorted' (j := i + 1)
        (fun i' mem => ⟨above i' mem, (between i' (List.mem_cons_of_mem i mem)).2⟩) high
      have cuts := st.cut_mono.monotone low
      have long := st.long i
      simp only [List.map_cons, List.sum_cons, SentStream.size]
      omega

/-- Segments that fill what is between two places are not shorter. -/
theorem le_sum_size (sorted : numbers.Pairwise (· < ·)) (first : ∀ i ∈ numbers, j ≤ i)
    (filled : ∀ i, j ≤ i → i < m → i ∈ numbers) :
    st.cut m ≤ (numbers.map st.size).sum + st.cut j := by
  induction numbers generalizing j with
  | nil =>
      have none_ : m ≤ j := by
        by_contra less
        cases filled j (Nat.le_refl j) (Nat.lt_of_not_le less)
      have cuts := st.cut_mono.monotone none_
      omega
  | cons i rest ih =>
      obtain ⟨above, sorted'⟩ := List.pairwise_cons.mp sorted
      have low := first i List.mem_cons_self
      rcases Nat.lt_or_ge j m with less | none_
      · have same : i = j := by
          rcases List.mem_cons.mp (filled j (Nat.le_refl j) less) with here | later
          · exact here.symm
          · have more := above j later
            omega
        have rest_ := ih sorted' (j := j + 1) (fun i' mem => same ▸ above i' mem) (by
          intro i' low' high
          rcases List.mem_cons.mp (filled i' (by omega) high) with here | later
          · omega
          · exact later)
        have long := st.long j
        rw [same]
        simp only [List.map_cons, List.sum_cons, SentStream.size]
        omega
      · have cuts := st.cut_mono.monotone none_
        omega

/-- A window that need not be scaled is the room in the queue. -/
theorem windowOf_eq (pos : 0 < q.maxSize.toNat) (small : q.maxSize.toNat < 2 ^ 16)
    (fits : q.size.toNat ≤ q.maxSize.toNat) :
    (windowOf q).toNat = q.maxSize.toNat - q.size.toNat := by
  have limited : q.maxSize ≠ 0 := by
    intro zero
    rw [zero] at pos
    exact Nat.lt_irrefl 0 pos
  have room : (q.maxSize - q.size).toNat = q.maxSize.toNat - q.size.toNat :=
    UInt32.toNat_sub_of_le _ _ (UInt32.le_iff_toNat_le.mpr fits)
  have free : (freeSpace q).toNat = q.maxSize.toNat - q.size.toNat := by
    rw [freeSpace, if_neg limited, toInt32, if_pos (by omega), room, Int.toNat_natCast]
  have scaled : scaleSpace 32 (q.maxSize.toNat - q.size.toNat) 0 =
      (q.maxSize.toNat - q.size.toNat, 0) := by
    rw [scaleSpace, if_neg (by omega)]
  rw [windowOf, free, scaled, UInt32.toNat_ofNat']
  omega

/-! ### The window is kept open -/

/-- What is queued, and what may come, ends where the queue would be full. -/
structure WindowFits (st : SentStream) (s : TcpReader) (numbers : List Nat) (j : Nat) : Prop where
  pos : 0 < s.sock.tcpqIn.maxSize.toNat
  small : s.sock.tcpqIn.maxSize.toNat < 2 ^ 16
  queued : ∀ i ∈ numbers, st.cut (i + 1) ≤ st.cut j + s.sock.tcpqIn.maxSize.toNat
  edge : finSeen s.sock ∨ s.edge ≤ st.cut j + s.sock.tcpqIn.maxSize.toNat

/-- The peer sends only what ends within a window that it was told. -/
def WithinEdge (st : SentStream) (s : TcpReader) (call : TcpCall) : Prop :=
  ∀ k, Brings st s call k → st.cut (k + 1) ≤ s.edge

theorem WithinEdge.segment {psh fin : Bool} (window : InWindow st s k)
    (upTo : st.cut (k + 1) ≤ s.edge) : WithinEdge st s (.input (st.frame k) psh fin) := by
  intro i brings
  rwa [brings.eq window]

theorem InStream.size_eq (c : InStream st N t numbers j m done)
    (queued : ∀ i ∈ numbers, st.cut (i + 1) ≤ st.cut j + t.tcpqIn.maxSize.toNat) :
    t.tcpqIn.size.toNat = (numbers.map st.size).sum ∧
      t.tcpqIn.size.toNat ≤ t.tcpqIn.maxSize.toNat := by
  have r := c.receiving
  have few := sum_size_le r.holds.sorted (fun i mem => ⟨r.first i mem, queued i mem⟩)
    (Nat.le_add_right _ _)
  have small := t.tcpqIn.maxSize.toNat_lt
  have size := congrArg UInt32.toNat r.holds.size
  rw [UInt32.toNat_ofNat'] at size
  constructor <;> omega

/-- The place up to which the peer may send. -/
theorem TcpSound.edge_le (sound : TcpSound st N s numbers j m)
    (pos : 0 < s.sock.tcpqIn.maxSize.toNat) (small : s.sock.tcpqIn.maxSize.toNat < 2 ^ 16)
    (queued : ∀ i ∈ numbers, st.cut (i + 1) ≤ st.cut j + s.sock.tcpqIn.maxSize.toNat)
    (unseen : ¬ finSeen s.sock) :
    s.place + s.sock.wnd.toNat ≤ st.cut j + s.sock.tcpqIn.maxSize.toNat := by
  have c := sound.inStream
  have r := c.receiving
  obtain ⟨size, fits⟩ := c.size_eq queued
  have none_ : finLen s.sock = 0 := if_neg unseen
  have wnd : s.sock.wnd.toNat = _ :=
    (congrArg UInt32.toNat sound.windowSet).trans (windowOf_eq pos small fits)
  have all : st.cut m ≤ (numbers.map st.size).sum + st.cut j :=
    le_sum_size r.holds.sorted r.first r.filled
  rw [c.place_eq, none_, wnd]
  omega

/-- A segment that ends within the window has room. -/
theorem WindowFits.room (fits : WindowFits st s numbers j) (sound : TcpSound st N s numbers j m)
    (unseen : ¬ finSeen s.sock) (late : m ≤ k) (out : k ∉ numbers)
    (within : st.cut (k + 1) ≤ s.edge) : ¬ NoRoom st s.sock k := by
  have r := sound.inStream.receiving
  have edge := fits.edge.resolve_left unseen
  have few : ((withNumber k numbers).map st.size).sum + st.cut j ≤
      st.cut j + s.sock.tcpqIn.maxSize.toNat := by
    refine sum_size_le (withNumber_sorted r.holds.sorted) ?_ (Nat.le_add_right _ _)
    intro i mem
    rcases mem_withNumber.mp mem with rfl | old
    · exact ⟨r.le.trans late, within.trans edge⟩
    · exact ⟨r.first i old, fits.queued i old⟩
  have sum := List.Perm.sum_nat ((withNumber_perm r.holds.sorted out).map st.size)
  obtain ⟨size, -⟩ := sound.inStream.size_eq fits.queued
  have small := fits.small
  have len : (st.segment k).payloadLen.toNat = st.size k := SentStream.payloadLen_toNat k
  rw [List.map_cons, List.sum_cons] at sum
  rw [NoRoom, gt_iff_lt, UInt32.lt_iff_toNat_lt, UInt32.toNat_add, len, size]
  omega

/-- A call within the window keeps what comes next within it. -/
theorem Onward.fits (onward : Onward st N s numbers j m call s' numbers' j' m')
    (sound : TcpSound st N s numbers j m) (fits : WindowFits st s numbers j)
    (within : WithinEdge st s call) : WindowFits st s' numbers' j' := by
  have maxSize := congrArg UInt32.toNat onward.maxSize
  have cuts := st.cut_mono.monotone onward.first
  have pos := fits.pos
  have small := fits.small
  rw [← maxSize] at pos small
  have queued : ∀ i ∈ numbers', st.cut (i + 1) ≤ st.cut j' + s'.sock.tcpqIn.maxSize.toNat := by
    intro i mem
    rcases onward.new i mem with old | ⟨late, brings⟩
    · have before := fits.queued i old
      omega
    · rcases fits.edge with seen | edge
      · -- behind the FIN nothing new comes in
        have last := sound.inStream.fin seen
        have below := onward.sound.inStream.sent i mem
        omega
      · have upTo := within i brings
        omega
  refine ⟨pos, small, queued, ?_⟩
  by_cases seen : finSeen s'.sock
  · exact Or.inl seen
  · have edge := fits.edge.resolve_left fun before => seen (onward.seen before)
    have now := onward.sound.edge_le pos small queued seen
    have upTo := onward.edge
    exact Or.inr (by omega)

/-- A segment within the window is kept. -/
theorem Onward.kept (onward : Onward st N s numbers j m call s' numbers' j' m')
    (sound : TcpSound st N s numbers j m) (fits : WindowFits st s numbers j)
    (sack : s.sock.sackOk = true) (genuine : Genuine st N s call)
    (within : WithinEdge st s call) (brings : Brings st s call k) : k < m' ∨ k ∈ numbers' := by
  by_cases old : k < m
  · exact Or.inl (Nat.lt_of_lt_of_le old onward.next)
  · by_cases there : k ∈ numbers
    · exact onward.old k there
    · have unseen : ¬ finSeen s.sock := by
        intro seen
        have below := genuine.brings_lt brings
        rw [sound.inStream.fin seen] at old
        exact old below
      have room := fits.room sound unseen (Nat.le_of_not_lt old) there (within k brings)
      rcases onward.taken k brings with past | in_ | noSack | full
      · exact Or.inl past
      · exact Or.inr in_
      · rw [sack] at noSack
        cases noSack
      · exact absurd full room

/-! ### Runs -/

section Run

variable {maxSize : UInt32} {leafColor : Color} {sackOk : Bool}

theorem tcpStart_fits (pos : 0 < maxSize.toNat) (small : maxSize.toNat < 2 ^ 16) :
    WindowFits st (tcpStart st maxSize leafColor sackOk) [] 0 := by
  have out := tcpSetSpace_announces (newSocket st.isn maxSize leafColor sackOk)
  have queue : (tcpStart st maxSize leafColor sackOk).sock.tcpqIn = { leafColor, maxSize } :=
    out.tcpqIn
  have window : (windowOf { leafColor, maxSize }).toNat = maxSize.toNat - 0 :=
    windowOf_eq pos small (Nat.zero_le _)
  have edge : (tcpStart st maxSize leafColor sackOk).edge = maxSize.toNat := by
    rw [tcpStart]
    dsimp only
    rw [tcpSetSpace_wnd]
    exact window
  constructor
  · rw [queue]
    exact pos
  · rw [queue]
    exact small
  · intro i mem
    cases mem
  · rw [edge, queue]
    exact Or.inr (Nat.le_add_left _ _)

/-- The segment has come in. -/
def Arrived (st : SentStream) (maxSize : UInt32) (leafColor : Color) (sackOk : Bool)
    (calls : List TcpCall) (k : Nat) : Prop :=
  ¬ Meets tcpStep (fun s call => ¬ Brings st s call k) (tcpStart st maxSize leafColor sackOk) calls

theorem TcpRun.kept (run : TcpRun st maxSize leafColor true calls s)
    (genuine : AllGenuine st N maxSize leafColor true calls)
    (within : Meets tcpStep (WithinEdge st) (tcpStart st maxSize leafColor true) calls)
    (pos : 0 < maxSize) (small : maxSize < 2 ^ 16) :
    ∃ numbers j m, TcpSound st N s numbers j m ∧ WindowFits st s numbers j ∧
      s.sock.sackOk = true ∧
        ∀ k, Arrived st maxSize leafColor true calls k → k < m ∨ k ∈ numbers := by
  refine Run.history (P := fun calls s => AllGenuine st N maxSize leafColor true calls →
    Meets tcpStep (WithinEdge st) (tcpStart st maxSize leafColor true) calls →
      ∃ numbers j m, TcpSound st N s numbers j m ∧ WindowFits st s numbers j ∧
        s.sock.sackOk = true ∧
          ∀ k, Arrived st maxSize leafColor true calls k → k < m ∨ k ∈ numbers)
    ?_ ?_ run genuine within
  · intro _ _
    refine ⟨[], 0, 0, tcpStart_sound st N maxSize leafColor true, tcpStart_fits pos small, ?_, ?_⟩
    · exact (tcpSetSpace_announces (newSocket st.isn maxSize leafColor true)).sackOk
    · intro k arrived
      exact absurd trivial arrived
  · intro calls u call w before ih taken genuine within
    obtain ⟨genuine', now⟩ := Meets.snoc_iff.mp genuine
    obtain ⟨within', upTo⟩ := Meets.snoc_iff.mp within
    obtain ⟨numbers, j, m, sound, fits, sack, kept⟩ := ih genuine' within'
    obtain ⟨numbers', j', m', onward⟩ := sound.step (now u before) taken
    refine ⟨numbers', j', m', onward.sound, onward.fits sound fits (upTo u before),
      onward.sackOk.trans sack, ?_⟩
    intro k arrived
    by_cases earlier : Arrived st maxSize leafColor true calls k
    · rcases kept k earlier with old | there
      · exact Or.inl (Nat.lt_of_lt_of_le old onward.next)
      · exact onward.old k there
    · -- it comes in with the last call
      have brings : Brings st u call k := by
        by_contra other
        refine arrived (Meets.snoc_iff.mpr ⟨not_not.mp earlier, fun v run' => ?_⟩)
        rwa [Run.unique run' before]
      exact onward.kept sound fits sack (now u before) (upTo u before) brings

/-- A peer that uses selective acknowledgements and stays within the windows loses
nothing: in every run, in whatever order the segments came in, all bytes up to the first
segment that never came are acknowledged and can be read. -/
theorem tcp_all_arrived (run : TcpRun st maxSize leafColor true calls s)
    (genuine : AllGenuine st N maxSize leafColor true calls)
    (within : Meets tcpStep (WithinEdge st) (tcpStart st maxSize leafColor true) calls)
    (pos : 0 < maxSize) (small : maxSize < 2 ^ 16) {n : Nat}
    (arrived : ∀ k < n, Arrived st maxSize leafColor true calls k) :
    st.cut n ≤ s.got.length + unread s.sock ∧
      ∀ behind len s', tcpStep s (.read behind len) = some s' →
        st.cut n ≤ s.got.length + len.toNat → st.bytes 0 (st.cut n) <+: s'.got := by
  obtain ⟨numbers, j, m, sound, -, -, kept⟩ := run.kept genuine within pos small
  have r := sound.inStream.receiving
  have reached : n ≤ m := by
    by_contra beyond
    rcases kept m (arrived m (Nat.lt_of_not_le beyond)) with less | there
    · exact Nat.lt_irrefl m less
    · exact r.gap there
  have cuts := st.cut_mono.monotone reached
  have done_ := r.done_le
  have upTo : st.cut n ≤ s.got.length + unread s.sock := by
    rw [sound.inStream.unread_eq]
    omega
  refine ⟨upTo, ?_⟩
  intro behind len s' taken room
  rw [sound.read_got behind len taken]
  have more : st.cut n ≤ s.got.length + min len.toNat (unread s.sock) := by omega
  exact ⟨_, st.bytes_append (Nat.zero_le _) more⟩

theorem swapped_within :
    Meets tcpStep (WithinEdge pairs) (tcpStart pairs 100 .black true) swapped := by
  refine ⟨.segment ⟨by decide, by decide⟩ (by decide), fun t taken => ?_⟩
  obtain rfl := Option.some.inj taken
  refine ⟨.segment ⟨by decide, by decide⟩ (by decide), fun t taken => ?_⟩
  obtain rfl := Option.some.inj taken
  exact ⟨.segment ⟨by decide, by decide⟩ (by decide), fun _ _ => trivial⟩

theorem tcp_all_arrived_swapped : ∃ s, TcpRun pairs 100 .black true swapped s ∧
    pairs.cut 2 ≤ s.got.length + unread s.sock := by
  refine ⟨_, rfl, (tcp_all_arrived (rfl : TcpRun pairs 100 .black true swapped _) swapped_genuine
    swapped_within (by decide) (by decide) ?_).1⟩
  intro k less never
  obtain ⟨notFirst, later⟩ := never
  obtain ⟨notSecond, -⟩ := later _ rfl
  have cases_ : k = 0 ∨ k = 1 := by omega
  rcases cases_ with rfl | rfl
  · exact notSecond ⟨false, false, rfl, by decide, by decide⟩
  · exact notFirst ⟨true, false, rfl, by decide, by decide⟩

end Run

end Rfsis.Pico
