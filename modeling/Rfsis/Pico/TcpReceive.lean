import Rfsis.Pico.TcpInput
import Rfsis.Transition

/-!
What a connection has received of the stream of its peer.

`Receiving` is the invariant: the queue holds the segments from the one that is being
read up to the one that is expected next, and some after that. Segments may come in
any order, more than once or never (`Receiving.accepts`); a read gives out the bytes
that follow the last one it gave out, as many as are there (`Receiving.readLoop`).
-/

namespace Rfsis.Pico

open Rfsis.SearchTree

variable {st : SentStream} {q : PicoTcpQueue} {t : PicoSocketTcp} {numbers : List Nat}
  {j k m done : Nat}

/-- The connection has all segments before `m`, and has given out the bytes before
`done`, which lies in the segment `j`, the first in the queue. -/
structure Receiving (st : SentStream) (t : PicoSocketTcp) (numbers : List Nat)
    (j m done : Nat) : Prop where
  holds : Holds st t.tcpqIn numbers
  first : ∀ i ∈ numbers, j ≤ i
  filled : ∀ i, j ≤ i → i < m → i ∈ numbers
  gap : m ∉ numbers
  le : j ≤ m
  processed : t.rcvProcessed = st.seqAt done
  begun : st.cut j ≤ done
  within : done ≤ st.cut (min m (j + 1))
  window : ∀ i ∈ numbers, st.cut (i + 1) + 2 ^ 16 ≤ done + 2 ^ 31

/-- Only segments before the next expected one have gone. -/
structure Kept (m j j' : Nat) (numbers numbers' : List Nat) : Prop where
  le : j ≤ j'
  old : ∀ i ∈ numbers', i ∈ numbers
  kept : ∀ i ∈ numbers, m ≤ i → i ∈ numbers'

theorem Kept.refl : Kept m j j numbers numbers :=
  ⟨Nat.le_refl j, fun _ mem => mem, fun _ mem _ => mem⟩

theorem Kept.trans {j' j'' : Nat} {numbers' numbers'' : List Nat}
    (first : Kept m j j' numbers numbers') (second : Kept m j' j'' numbers' numbers'') :
    Kept m j j'' numbers numbers'' :=
  ⟨first.le.trans second.le, fun i mem => first.old i (second.old i mem),
    fun i mem late => second.kept i (first.kept i mem late) late⟩

theorem Kept.without (less : j < m) : Kept m j (j + 1) numbers (withoutNumber j numbers) :=
  ⟨Nat.le_succ j, fun _ mem => (mem_withoutNumber.mp mem).2,
    fun _ mem late => mem_withoutNumber.mpr ⟨by omega, mem⟩⟩

theorem allNear_of_window (done_ : done < st.cut j + 2 ^ 16)
    (window : ∀ i ∈ numbers, j ≤ i ∧ st.cut (i + 1) + 2 ^ 16 ≤ done + 2 ^ 31) (low : j ≤ k)
    (high : st.cut k + 2 ^ 16 ≤ done + 2 ^ 31) : AllNear st numbers k := by
  intro i mem
  obtain ⟨lowI, highI⟩ := window i mem
  have cutI := st.cut_mono.monotone lowI
  have cutK := st.cut_mono.monotone low
  have long := st.long i
  constructor <;> omega

namespace Receiving

theorem done_lt (r : Receiving st t numbers j m done) : done < st.cut j + 2 ^ 16 := by
  have short := st.short j
  have upTo : st.cut (min m (j + 1)) ≤ st.cut (j + 1) := st.cut_mono.monotone (Nat.min_le_right _ _)
  have within := r.within
  omega

theorem done_le (r : Receiving st t numbers j m done) : done ≤ st.cut m :=
  r.within.trans (st.cut_mono.monotone (Nat.min_le_left _ _))

/-- What is expected next is in the window. -/
theorem next_le (r : Receiving st t numbers j m done) : st.cut m ≤ done + 2 ^ 31 - 2 ^ 16 := by
  rcases Nat.lt_or_ge j m with less | all
  · obtain ⟨i, rfl⟩ : ∃ i, m = i + 1 := ⟨m - 1, by omega⟩
    have window := r.window i (r.filled i (by omega) (by omega))
    omega
  · have same : j = m := Nat.le_antisymm r.le all
    have begun := r.begun
    rw [same] at begun
    omega

/-- A place in the window is near to all segments of the queue. -/
theorem near (r : Receiving st t numbers j m done) (low : j ≤ k)
    (high : st.cut k + 2 ^ 16 ≤ done + 2 ^ 31) : AllNear st numbers k :=
  allNear_of_window r.done_lt (fun i mem => ⟨r.first i mem, r.window i mem⟩) low high

theorem head (r : Receiving st t numbers j m done) (less : j < m) : numbers.head? = some j := by
  have mem := r.filled j (Nat.le_refl j) less
  cases numbers with
  | nil => cases mem
  | cons i rest =>
      rcases List.mem_cons.mp mem with rfl | later
      · rfl
      · have above := (List.pairwise_cons.mp r.holds.sorted).1 j later
        have low := r.first i List.mem_cons_self
        omega

/-! ### Reading -/

/-- Taking out the segment that has been read to its end. -/
theorem discard (r : Receiving st t numbers j m done) (less : j < m)
    (end_ : done = st.cut (j + 1)) :
    Receiving st { t with tcpqIn := picoDiscardSegment t.tcpqIn (st.segment j) }
      (withoutNumber j numbers) (j + 1) m done := by
  have mem := r.filled j (Nat.le_refl j) less
  have near := r.near (Nat.le_refl j) (by
    have begun := r.begun
    omega)
  constructor
  · exact r.holds.discard near mem
  · intro i in_
    obtain ⟨off, old⟩ := mem_withoutNumber.mp in_
    have low := r.first i old
    omega
  · intro i low high
    exact mem_withoutNumber.mpr ⟨by omega, r.filled i (by omega) high⟩
  · intro in_
    exact r.gap (mem_withoutNumber.mp in_).2
  · exact less
  · exact r.processed
  · exact Nat.le_of_eq end_.symm
  · rw [end_]
    exact st.cut_mono.monotone (by omega)
  · intro i in_
    exact r.window i (mem_withoutNumber.mp in_).2

/-- `release_until` stops at a segment with bytes that are still to be read. -/
theorem releaseLoop_stop {fuel : Nat} {seq : UInt32} (seq_ : seq = st.seqAt done)
    (later : done < st.cut (k + 1)) (near : st.cut (k + 1) < done + 2 ^ 31) :
    releaseLoop seq fuel q (some (st.segment k)) = q := by
  cases fuel with
  | zero => rfl
  | succ fuel =>
      have more : ¬ picoSeqCompare ((st.segment k).seq + (st.segment k).payloadLen) seq ≤ 0 := by
        rw [st.segment_end, seq_, SentStream.compare_near ⟨near, by omega⟩]
        omega
      rw [releaseLoop, if_neg more]

/-- Nothing can be read from a segment behind a hole. -/
theorem hole (r : Receiving st t numbers j m done) (mem : k ∈ numbers) (all : m ≤ j) :
    picoSeqCompare t.rcvProcessed (st.segment k).seq < 0 := by
  have low := r.first k mem
  have off : k ≠ m := fun same => r.gap (same ▸ mem)
  have later := st.cut_mono (a := m) (b := k) (by omega)
  have done_ := r.done_le
  have window := r.window k mem
  have long := st.long k
  rw [r.processed, SentStream.segment, SentStream.compare_near ⟨by omega, by omega⟩]
  omega

/-- After `release_until` the byte to be read is in the first segment. -/
theorem release (r : Receiving st t numbers j m done) :
    ∃ numbers' j', Receiving st { t with tcpqIn := releaseUntil t.tcpqIn t.rcvProcessed }
      numbers' j' m done ∧ (j' < m → done < st.cut (j' + 1)) ∧ Kept m j j' numbers numbers' := by
  unfold releaseUntil
  rw [r.holds.first]
  rcases Nat.lt_or_ge j m with less | all
  · rw [r.head less, Option.map_some]
    have mem := r.filled j (Nat.le_refl j) less
    have window := r.window j mem
    have upTo : done ≤ st.cut (j + 1) := by
      have within := r.within
      rwa [Nat.min_eq_right less] at within
    rcases Nat.lt_or_ge done (st.cut (j + 1)) with before | through
    · rw [releaseLoop_stop r.processed before (by omega)]
      exact ⟨numbers, j, r, fun _ => before, .refl⟩
    · -- the first segment has been read to its end, and the next one has not
      have end_ : done = st.cut (j + 1) := Nat.le_antisymm upTo through
      have gone : picoSeqCompare ((st.segment j).seq + (st.segment j).payloadLen) t.rcvProcessed
          ≤ 0 := by
        rw [st.segment_end, r.processed, ← end_, SentStream.compare_near ⟨by omega, by omega⟩]
        omega
      have nextNear : AllNear st numbers (j + 1) := r.near (Nat.le_succ j) window
      have next : nextSegment t.tcpqIn (st.segment j) =
          if j + 1 ∈ numbers then some (st.segment (j + 1)) else none := by
        rw [nextSegment, st.segment_end, r.holds.peek nextNear]
      have discarded := r.discard less end_
      refine ⟨withoutNumber j numbers, j + 1, ?_, ?_, .without less⟩
      · rw [releaseLoop, if_pos gone, next]
        split
        · rename_i some_
          have later := st.long (j + 1)
          have window' := r.window (j + 1) some_
          rw [releaseLoop_stop r.processed (by omega) (by omega)]
          exact discarded
        · cases t.tcpqIn.pool.toList.length <;> exact discarded
      · intro less'
        rw [end_]
        exact st.long (j + 1)
  · have same : j = m := Nat.le_antisymm r.le all
    refine ⟨numbers, j, ?_, fun less => absurd less (Nat.not_lt.mpr all), .refl⟩
    have stop : releaseLoop t.rcvProcessed (t.tcpqIn.pool.toList.length + 1) t.tcpqIn
        (numbers.head?.map st.segment) = t.tcpqIn := by
      cases numbers with
      | nil => rfl
      | cons i rest =>
          have low := r.first i List.mem_cons_self
          have window := r.window i List.mem_cons_self
          have mono := st.cut_mono.monotone low
          have long := st.long i
          have done_ := r.done_le
          exact releaseLoop_stop r.processed (by rw [← same] at done_; omega) (by omega)
    rw [stop]
    exact r

/-- The place of the next byte to be read in its segment. -/
theorem offset (r : Receiving st t numbers j m done) :
    picoSeqCompare t.rcvProcessed (st.segment j).seq = (done : Int) - st.cut j := by
  have begun := r.begun
  have done_ := r.done_lt
  rw [r.processed]
  exact SentStream.compare_near ⟨by omega, by omega⟩

end Receiving

theorem SentStream.seqAt_add (n : Nat) (x : UInt32) : st.seqAt n + x = st.seqAt (n + x.toNat) := by
  apply UInt32.toNat_inj.mp
  simp only [seqAt, UInt32.toNat_add, UInt32.toNat_ofNat']
  have small := x.toNat_lt
  omega

/-- One turn copies to the end of the segment, or until the buffer is full. -/
theorem tcpReadInFrameLen_eq {totRdLen len : UInt32} (more : totRdLen.toNat < len.toNat)
    (small : totRdLen.toNat + 2 ^ 16 < 2 ^ 32) (begun : st.cut j ≤ done)
    (before : done < st.cut (j + 1)) :
    (tcpReadInFrameLen (st.segment j) ((done : Int) - st.cut j) totRdLen len).toNat =
      min (len.toNat - totRdLen.toNat) (st.cut (j + 1) - done) := by
  have short := st.short j
  have whole : (st.segment j).payloadLen.toNat = st.cut (j + 1) - st.cut j :=
    SentStream.payloadLen_toNat j
  have left : (if (done : Int) - st.cut j > 0 then
      (st.segment j).payloadLen - UInt32.ofNat ((done : Int) - st.cut j).toNat
      else (st.segment j).payloadLen).toNat = st.cut (j + 1) - done := by
    have place : ((done : Int) - st.cut j).toNat = done - st.cut j := by omega
    rw [place]
    split
    · rw [UInt32.toNat_sub, whole, UInt32.toNat_ofNat']
      omega
    · omega
  unfold tcpReadInFrameLen
  dsimp only
  generalize (if (done : Int) - st.cut j > 0 then
      (st.segment j).payloadLen - UInt32.ofNat ((done : Int) - st.cut j).toNat
      else (st.segment j).payloadLen) = rest at left ⊢
  have lenSmall := len.toNat_lt
  split
  · rename_i full
    rw [gt_iff_lt, UInt32.lt_iff_toNat_lt, UInt32.toNat_add, left] at full
    rw [UInt32.toNat_sub]
    omega
  · rename_i room
    rw [gt_iff_lt, UInt32.lt_iff_toNat_lt, UInt32.toNat_add, left] at room
    omega

/-- The copied bytes are those of the stream. -/
theorem copied_eq (behind : Nat → UInt8) {n : Nat} (begun : st.cut j ≤ done)
    (inside : done + n ≤ st.cut (j + 1)) :
    copied behind (st.segment j) (done - st.cut j) n = st.bytes done (done + n) := by
  have same : done + n - done = n := by omega
  simp only [copied, SentStream.bytes, same]
  apply List.ext_getElem
  · simp
  · intro i lt _
    simp only [List.length_map, List.length_range'] at lt
    have lt' : done - st.cut j + i < st.cut (j + 1) - st.cut j := by omega
    simp [SentStream.segment, SentStream.bytes, lt']
    congr 1
    omega

namespace Receiving

/-- Copying bytes out of the first segment, up to its end at most. -/
theorem advance (r : Receiving st t numbers j m done) {x : UInt32} (less : j < m)
    (pos : 0 < x.toNat) (inside : done + x.toNat ≤ st.cut (j + 1)) :
    ∃ numbers' j', Receiving st
        { t with
          rcvProcessed := t.rcvProcessed + x
          tcpqIn := tcpReadCheckSegmentDone t.tcpqIn (st.segment j) x }
        numbers' j' m (done + x.toNat) ∧ Kept m j j' numbers numbers' := by
  have moved : Receiving st { t with rcvProcessed := t.rcvProcessed + x } numbers j m
      (done + x.toNat) := by
    constructor
    · exact r.holds
    · exact r.first
    · exact r.filled
    · exact r.gap
    · exact r.le
    · rw [← SentStream.seqAt_add, ← r.processed]
    · exact r.begun.trans (Nat.le_add_right _ _)
    · rwa [Nat.min_eq_right less]
    · intro i mem
      have window := r.window i mem
      omega
  unfold tcpReadCheckSegmentDone
  split
  · rename_i through
    have end_ : done + x.toNat = st.cut (j + 1) := by
      rcases through with rfl | rfl
      · exact absurd pos (by decide)
      · have begun := r.begun
        have whole : (st.segment j).payloadLen.toNat = st.cut (j + 1) - st.cut j :=
          SentStream.payloadLen_toNat j
        omega
    exact ⟨withoutNumber j numbers, j + 1, moved.discard less end_, .without less⟩
  · exact ⟨numbers, j, moved, .refl⟩

end Receiving

theorem min_eq_add {a b x : Nat} (left : x ≤ a) (right : x ≤ b) :
    min a b = x + min (a - x) (b - x) := by
  omega

/-- What a read of `n` bytes does. -/
structure Reads (st : SentStream) (t : PicoSocketTcp) (numbers : List Nat) (j m done n : Nat)
    (out : PicoSocketTcp × List UInt8) : Prop where
  bytes : out.2 = st.bytes done (done + n)
  left : ∃ numbers' j', Receiving st out.1 numbers' j' m (done + n) ∧ Kept m j j' numbers numbers'
  frame : out.1 = { t with tcpqIn := out.1.tcpqIn, rcvProcessed := out.1.rcvProcessed }

/-- A read that finds nothing, or has no room left. -/
theorem Receiving.readNothing (r : Receiving st t numbers j m done) :
    Reads st t numbers j m done 0 (t, []) where
  bytes := by simp [SentStream.bytes]
  left := ⟨numbers, j, r, .refl⟩
  frame := rfl

/-- One turn, and then the rest of the read. -/
theorem Reads.cons {t' : PicoSocketTcp} {numbers' : List Nat} {j' a b : Nat}
    {out : PicoSocketTcp × List UInt8} (kept : Kept m j j' numbers numbers')
    (frame : t' = { t with tcpqIn := t'.tcpqIn, rcvProcessed := t'.rcvProcessed })
    (rest : Reads st t' numbers' j' m (done + a) b out) :
    Reads st t numbers j m done (a + b) (out.1, st.bytes done (done + a) ++ out.2) := by
  obtain ⟨bytes, ⟨numbers'', j'', r, kept'⟩, frame'⟩ := rest
  constructor
  · rw [bytes, st.bytes_append (Nat.le_add_right _ _) (Nat.le_add_right _ _), Nat.add_assoc]
  · exact ⟨numbers'', j'', Nat.add_assoc done a b ▸ r, kept.trans kept'⟩
  · rw [frame] at frame'
    exact frame'

namespace Receiving

/-- The loop gives out the bytes that follow, until the buffer is full or the next
segment is not there. -/
theorem readLoop (r : Receiving st t numbers j m done) (behind : Nat → UInt8) {fuel : Nat}
    {totRdLen len : UInt32} (upTo : totRdLen.toNat ≤ len.toNat)
    (enough : len.toNat - totRdLen.toNat < fuel)
    (small : totRdLen.toNat + (st.cut m - done) + 2 ^ 16 < 2 ^ 32) :
    Reads st t numbers j m done (min (len.toNat - totRdLen.toNat) (st.cut m - done))
      (Pico.readLoop behind len fuel t totRdLen) := by
  induction fuel generalizing t numbers j done totRdLen with
  | zero => omega
  | succ fuel ih =>
      by_cases more : totRdLen < len
      · obtain ⟨numbers', j', r', before, kept⟩ := r.release
        rw [Pico.readLoop, if_pos more]
        dsimp only
        rw [UInt32.lt_iff_toNat_lt] at more
        rcases Nat.lt_or_ge j' m with less | all
        · have first : firstSegment (releaseUntil t.tcpqIn t.rcvProcessed) =
              some (st.segment j') := by
            have head := r'.holds.first
            rwa [r'.head less] at head
          have begun := r'.begun
          have upToNext : st.cut (j' + 1) ≤ st.cut m := st.cut_mono.monotone less
          have offset : picoSeqCompare t.rcvProcessed (st.segment j').seq = _ := r'.offset
          have forward : ¬ (done : Int) - st.cut j' < 0 := by omega
          have place : ((done : Int) - st.cut j').toNat = done - st.cut j' := by omega
          have inFrameLen := tcpReadInFrameLen_eq more (by omega) begun (before less)
          rw [first]
          dsimp only
          rw [offset, if_neg forward, place]
          generalize tcpReadInFrameLen (st.segment j') ((done : Int) - st.cut j') totRdLen len = x
            at inFrameLen ⊢
          have pos := before less
          obtain ⟨numbers'', j'', r'', kept'⟩ := r'.advance less (x := x) (by omega) (by omega)
          have total : (totRdLen + x).toNat = totRdLen.toNat + x.toNat := by
            rw [UInt32.toNat_add]
            omega
          have rest : Reads st _ numbers'' j'' m (done + x.toNat) _
              (Pico.readLoop behind len fuel _ (totRdLen + x)) :=
            ih r'' (by omega) (by omega) (by omega)
          rw [total] at rest
          have room : x.toNat ≤ len.toNat - totRdLen.toNat := inFrameLen ▸ Nat.min_le_left _ _
          have there : x.toNat ≤ st.cut m - done := by omega
          rw [min_eq_add room there, Nat.sub_sub, Nat.sub_sub, copied_eq behind begun (by omega)]
          exact rest.cons (kept.trans kept') rfl
        · -- the next segment is not there
          have same : j' = m := Nat.le_antisymm r'.le all
          have begun := r'.begun
          have none_ : min (len.toNat - totRdLen.toNat) (st.cut m - done) = 0 := by
            rw [same] at begun
            omega
          have nothing : Reads st t numbers j m done 0
              ({ t with tcpqIn := releaseUntil t.tcpqIn t.rcvProcessed }, []) :=
            ⟨by simp [SentStream.bytes], ⟨numbers', j', r', kept⟩, rfl⟩
          rw [none_]
          cases numbers' with
          | nil =>
              have first : firstSegment (releaseUntil t.tcpqIn t.rcvProcessed) = none :=
                r'.holds.first
              rw [first]
              exact nothing
          | cons i later =>
              have first : firstSegment (releaseUntil t.tcpqIn t.rcvProcessed) =
                  some (st.segment i) := r'.holds.first
              rw [first]
              dsimp only
              rw [if_pos (r'.hole List.mem_cons_self all)]
              exact nothing
      · have full : min (len.toNat - totRdLen.toNat) (st.cut m - done) = 0 := by
          rw [UInt32.lt_iff_toNat_lt] at more
          omega
        rw [Pico.readLoop, if_neg more, full]
        exact r.readNothing

end Receiving

/-! ### Data -/

/-- The segment as it comes in. -/
def SentStream.frame (st : SentStream) (k : Nat) : TcpFrame :=
  ⟨(st.segment k).seq, (st.segment k).payload, (st.segment k).short⟩

theorem SentStream.frame_payload_ne (k : Nat) : (st.frame k).payload ≠ [] := by
  intro none_
  have length : (st.frame k).payload.length = st.cut (k + 1) - st.cut k :=
    st.length_bytes (st.cut k) (st.cut (k + 1))
  have long := st.long k
  rw [none_, List.length_nil] at length
  omega

theorem segmentFromFrame_frame (k : Nat) : segmentFromFrame (st.frame k) = some (st.segment k) :=
  if_neg (SentStream.frame_payload_ne k)

/-- `rcv_nxt` scrolls over the segments that are there. -/
theorem scroll_spec (fuel : Nat) (holds : Holds st q numbers)
    (near : ∀ i, i = k ∨ (∃ p ∈ numbers, i = p + 1) → AllNear st numbers i) :
    ∃ k', k ≤ k' ∧ scroll q fuel (st.seqAt (st.cut k)) = st.seqAt (st.cut k') ∧
      (∀ i, k ≤ i → i < k' → i ∈ numbers) ∧ (k' ∉ numbers ∨ k' = k + fuel) := by
  induction fuel generalizing k with
  | zero => exact ⟨k, Nat.le_refl k, rfl, by omega, Or.inr rfl⟩
  | succ fuel ih =>
      rw [scroll, holds.peek (near k (Or.inl rfl))]
      by_cases there : k ∈ numbers
      · obtain ⟨k', low, end_, filled, stop⟩ := ih (k := k + 1) fun i at_ =>
          near i (Or.inr (at_.elim (fun same => ⟨k, there, same⟩) id))
        refine ⟨k', by omega, ?_, ?_, ?_⟩
        · simp only [if_pos there]
          rw [← end_, ← st.segment_end]
          rfl
        · intro i low high
          rcases Nat.eq_or_lt_of_le low with rfl | more
          · exact there
          · exact filled i more high
        · exact stop.imp_right fun all => by omega
      · exact ⟨k, Nat.le_refl k, by simp [if_neg there], by omega, Or.inl there⟩

/-- There is a gap behind the queue at the latest. -/
theorem scroll_gap {k' : Nat} (filled : ∀ i, k ≤ i → i < k' → i ∈ numbers)
    (stop : k' ∉ numbers ∨ k' = k + (numbers.length + 1)) : k' ∉ numbers := by
  rcases stop with gap | all
  · exact gap
  · have subset : List.range' k (numbers.length + 1) ⊆ numbers := by
      intro i mem
      obtain ⟨low, high⟩ := List.mem_range'_1.mp mem
      exact filled i low (by omega)
    have fewer := (List.subperm_of_subset List.nodup_range' subset).length_le
    rw [List.length_range'] at fewer
    exact absurd fewer (Nat.not_succ_le_self _)

/-- What a segment does to the queue, before it is acknowledged. -/
inductive Accepts (st : SentStream) (t : PicoSocketTcp) (numbers : List Nat) (j m done k : Nat) :
    PicoSocketTcp → Prop where
  /-- It is old, or there already, or has no room, or comes too early. -/
  | refused : k < m ∨ k ∈ numbers ∨ (m < k ∧ t.sackOk = false) ∨
        t.tcpqIn.size + (st.segment k).payloadLen > t.tcpqIn.maxSize →
      Accepts st t numbers j m done k t
  /-- It goes into the queue. -/
  | queued {t' : PicoSocketTcp} (m' : Nat) : m ≤ k → k ∉ numbers → m ≤ m' → m' = m ∨ k = m →
      t'.rcvNxt = st.seqAt (st.cut m') →
      t' = { t with tcpqIn := t'.tcpqIn, rcvNxt := t'.rcvNxt, evRd := t'.evRd } →
      t'.tcpqIn.maxSize = t.tcpqIn.maxSize →
      Receiving st t' (withNumber k numbers) j m' done →
      Accepts st t numbers j m done k t'

namespace Receiving

/-- `tcp_data_in` compares with what is expected next. -/
theorem compare_next (r : Receiving st t numbers j m done)
    (next : t.rcvNxt = st.seqAt (st.cut m)) (recent : st.cut m < st.cut k + 2 ^ 31)
    (window : st.cut (k + 1) + 2 ^ 16 ≤ done + 2 ^ 31) :
    picoSeqCompare (st.frame k).seq t.rcvNxt = (st.cut k : Int) - st.cut m := by
  have done_ := r.done_le
  have long := st.long k
  rw [next]
  exact SentStream.compare_near ⟨by omega, recent⟩

/-- The window of a queue with a new segment. -/
theorem window_with (r : Receiving st t numbers j m done) (late : m ≤ k)
    (window : st.cut (k + 1) + 2 ^ 16 ≤ done + 2 ^ 31) :
    ∀ i ∈ withNumber k numbers, j ≤ i ∧ st.cut (i + 1) + 2 ^ 16 ≤ done + 2 ^ 31 := by
  intro i mem
  rcases mem_withNumber.mp mem with rfl | old
  · exact ⟨r.le.trans late, window⟩
  · exact ⟨r.first i old, r.window i old⟩

/-- The segment that is expected next. -/
theorem expected (r : Receiving st t numbers j m done)
    (next : t.rcvNxt = st.seqAt (st.cut m))
    (window : st.cut (m + 1) + 2 ^ 16 ≤ done + 2 ^ 31) :
    Accepts st t numbers j m done m (tcpDataInExpected t (st.frame m)) := by
  have long := st.long m
  have equal : picoSeqCompare (st.frame m).seq t.rcvNxt = 0 := by
    rw [r.compare_next next (by omega) window]
    omega
  unfold tcpDataInExpected
  rw [if_pos equal, segmentFromFrame_frame]
  dsimp only
  rcases r.holds.enqueue (r.near r.le (by omega)) with ⟨pos, out, holds⟩ | ⟨zero, -, why⟩
  · rw [if_neg (by omega)]
    have window' := r.window_with (Nat.le_refl m) window
    have near : ∀ i, i = m + 1 ∨ (∃ p ∈ withNumber m numbers, i = p + 1) →
        AllNear st (withNumber m numbers) i := by
      rintro i (rfl | ⟨p, mem, rfl⟩)
      · exact allNear_of_window r.done_lt window' (r.le.trans (Nat.le_succ m)) window
      · obtain ⟨low, high⟩ := window' p mem
        exact allNear_of_window r.done_lt window' (low.trans (Nat.le_succ p)) high
    have count : (picoEnqueueSegment t.tcpqIn (st.segment m)).2.pool.toList.length =
        (withNumber m numbers).length := by
      rw [holds.keys, List.length_map]
    have after : (st.frame m).seq + (st.segment m).payloadLen = st.seqAt (st.cut (m + 1)) :=
      st.segment_end m
    obtain ⟨m', low, end_, filled, stop⟩ :=
      scroll_spec ((withNumber m numbers).length + 1) holds near
    rw [count, after, end_]
    refine .queued m' (Nat.le_refl m) out (by omega) (Or.inr rfl) rfl rfl
      (picoEnqueueSegment_maxSize _ _) ?_
    constructor
    · exact holds
    · exact fun i mem => (window' i mem).1
    · intro i low' high
      rcases Nat.lt_trichotomy i m with old | rfl | more
      · exact mem_withNumber.mpr (Or.inr (r.filled i low' old))
      · exact mem_withNumber.mpr (Or.inl rfl)
      · exact filled i more high
    · exact scroll_gap filled stop
    · exact r.le.trans (by omega)
    · exact r.processed
    · exact r.begun
    · exact r.within.trans (st.cut_mono.monotone (by omega))
    · exact fun i mem => (window' i mem).2
  · rw [if_pos zero]
    exact .refused (Or.inr (why.imp id Or.inr))

/-- A segment behind the one that is expected next. -/
theorem high (r : Receiving st t numbers j m done) (next : t.rcvNxt = st.seqAt (st.cut m))
    (later : m < k)
    (window : st.cut (k + 1) + 2 ^ 16 ≤ done + 2 ^ 31) :
    Accepts st t numbers j m done k (tcpDataInHighSegment t (st.frame k)) := by
  have long := st.long k
  unfold tcpDataInHighSegment
  split
  · rw [segmentFromFrame_frame]
    dsimp only
    have near := r.near (r.le.trans (Nat.le_of_lt later)) (by omega)
    rcases r.holds.enqueue near with ⟨pos, out, holds⟩ | ⟨zero, -, why⟩
    · rw [if_neg (by omega)]
      have window' := r.window_with (Nat.le_of_lt later) window
      refine .queued m (Nat.le_of_lt later) out (Nat.le_refl m) (Or.inl rfl) next rfl
        (picoEnqueueSegment_maxSize _ _) ?_
      constructor
      · exact holds
      · exact fun i mem => (window' i mem).1
      · exact fun i low high => mem_withNumber.mpr (Or.inr (r.filled i low high))
      · intro mem
        rcases mem_withNumber.mp mem with same | old
        · omega
        · exact r.gap old
      · exact r.le
      · exact r.processed
      · exact r.begun
      · exact r.within
      · exact fun i mem => (window' i mem).2
    · rw [if_pos zero]
      exact .refused (Or.inr (why.imp id Or.inr))
  · rename_i noSack
    exact .refused (Or.inr (Or.inr (Or.inl ⟨later, by simpa using noSack⟩)))

/-- Whatever segment of the stream comes in. -/
theorem accepts (r : Receiving st t numbers j m done)
    (next : t.rcvNxt = st.seqAt (st.cut m)) (recent : st.cut m < st.cut k + 2 ^ 31)
    (window : st.cut (k + 1) + 2 ^ 16 ≤ done + 2 ^ 31) :
    Accepts st t numbers j m done k
      (if picoSeqCompare (st.frame k).seq t.rcvNxt ≤ 0 then tcpDataInExpected t (st.frame k)
        else tcpDataInHighSegment t (st.frame k)) := by
  have compare := r.compare_next next recent window
  rw [compare]
  rcases Nat.lt_trichotomy k m with old | rfl | later
  · have less := st.cut_mono old
    have other : ¬ picoSeqCompare (st.frame k).seq t.rcvNxt = 0 := by
      rw [compare]
      omega
    rw [if_pos (by omega), tcpDataInExpected, if_neg other]
    exact .refused (Or.inl old)
  · rw [if_pos (by omega)]
    exact r.expected next window
  · have more := st.cut_mono later
    rw [if_neg (by omega)]
    exact r.high next later window

end Receiving

end Rfsis.Pico
