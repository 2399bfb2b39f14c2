import Rfsis.Pico.Tree
import Mathlib.Data.UInt

/-!
The input queue of a TCP socket, `tcpq_in`, as `pico_tcp.c` keeps it: a tree of
segments in the order of their sequence numbers.

Sequence numbers are compared on a circle, so their order is one only for numbers
less than 2^31 apart (`picoSeqCompare_near`). The results here are about a queue
that holds segments of one stream, cut in one way (`SentStream`), and are stated by
the numbers of the segments: looking for a segment, adding one and taking one out
act on the sorted list of these numbers (`Holds.peek`, `Holds.enqueue`,
`Holds.discard`).
-/

namespace Rfsis.Pico

open Rfsis.SearchTree

/-! ### Sequence numbers -/

/-- `(int32_t)x`. -/
def toInt32 (x : UInt32) : Int :=
  if x.toNat < 2 ^ 31 then x.toNat else x.toNat - 2 ^ 32

/-- `pico_seq_compare`. At a distance of exactly 2^31 the source negates `INT_MIN`, and C
does not say what that is. -/
def picoSeqCompare (a b : UInt32) : Int :=
  let thresh : UInt32 := (-1 : UInt32) >>> (1 : UInt32)
  if a > b then
    if a - b > thresh then -toInt32 (b - a) else toInt32 (a - b)
  else if a < b then
    if b - a > thresh then toInt32 (a - b) else -toInt32 (b - a)
  else 0

/-- Numbers less than 2^31 apart are compared as if they did not wrap. -/
theorem picoSeqCompare_near (i : UInt32) {x y : Nat} (below : x < y + 2 ^ 31)
    (above : y < x + 2 ^ 31) :
    picoSeqCompare (i + UInt32.ofNat x) (i + UInt32.ofNat y) = (x : Int) - y := by
  have thresh : ((-1 : UInt32) >>> (1 : UInt32)).toNat = 2 ^ 31 - 1 := by decide
  have x' : (UInt32.ofNat x).toNat = x % 2 ^ 32 := UInt32.toNat_ofNat'
  have y' : (UInt32.ofNat y).toNat = y % 2 ^ 32 := UInt32.toNat_ofNat'
  simp only [picoSeqCompare, toInt32, gt_iff_lt, UInt32.lt_iff_toNat_lt, UInt32.toNat_sub,
    UInt32.toNat_add, thresh, x', y']
  have small := i.toNat_lt
  generalize i.toNat = i at small
  split
  · split
    · split <;> omega
    · split <;> omega
  · split
    · split
      · split <;> omega
      · split <;> omega
    · omega

/-- Only equal numbers compare as equal. -/
theorem picoSeqCompare_eq_zero {a b : UInt32} : picoSeqCompare a b = 0 ↔ a = b := by
  constructor
  · intro equal
    apply UInt32.toNat_inj.mp
    have smallA := a.toNat_lt
    have smallB := b.toNat_lt
    have thresh : ((-1 : UInt32) >>> (1 : UInt32)).toNat = 2 ^ 31 - 1 := by decide
    simp only [picoSeqCompare, toInt32, gt_iff_lt, UInt32.lt_iff_toNat_lt, UInt32.toNat_sub,
      thresh] at equal
    omega
  · rintro rfl
    rw [picoSeqCompare, if_neg (UInt32.lt_irrefl _), if_neg (UInt32.lt_irrefl _)]

/-! ### The queue -/

/-- `struct tcp_input_segment`; `payload_len` is a `uint16_t`. -/
structure TcpInputSegment where
  seq : UInt32
  payload : List UInt8
  short : payload.length < 2 ^ 16
deriving DecidableEq

def TcpInputSegment.payloadLen (f : TcpInputSegment) : UInt32 := UInt32.ofNat f.payload.length

/-- `input_segment_compare`, as the sign that the tree looks at. -/
def inputSegmentCompare (a b : TcpInputSegment) : Ordering :=
  compare (picoSeqCompare a.seq b.seq) 0

/-- `struct pico_tcp_queue`, with the colour of `LEAF` while it is used. -/
structure PicoTcpQueue where
  pool : CTree TcpInputSegment := .leaf
  leafColor : Color := .black
  maxSize : UInt32
  size : UInt32 := 0
  frames : UInt32 := 0

/-- `peek_segment`. -/
def peekSegment (q : PicoTcpQueue) (seq : UInt32) : Option TcpInputSegment :=
  picoTreeFindKey inputSegmentCompare ⟨seq, [], by decide⟩ q.pool

/-- `first_segment`. -/
def firstSegment (q : PicoTcpQueue) : Option TcpInputSegment :=
  picoTreeFirst q.pool

/-- `next_segment`. -/
def nextSegment (q : PicoTcpQueue) (cur : TcpInputSegment) : Option TcpInputSegment :=
  peekSegment q (cur.seq + cur.payloadLen)

/-- `do_enqueue_segment`. -/
def doEnqueueSegment (q : PicoTcpQueue) (f : TcpInputSegment) : Int × PicoTcpQueue :=
  if q.size + f.payloadLen > q.maxSize then (0, q)
  else
    match picoTreeInsert inputSegmentCompare f q.pool q.leafColor with
    | (some _, _, _) => (0, q)
    | (none, pool, leafColor) =>
        (f.payload.length, { q with
          pool
          leafColor
          size := q.size + f.payloadLen
          frames := if f.payloadLen > 0 then q.frames + 1 else q.frames })

/-- `pico_enqueue_segment`. -/
def picoEnqueueSegment (q : PicoTcpQueue) (f : TcpInputSegment) : Int × PicoTcpQueue :=
  if f.payloadLen = 0 then (-1, q) else doEnqueueSegment q f

/-- `pico_discard_segment`. -/
def picoDiscardSegment (q : PicoTcpQueue) (f : TcpInputSegment) : PicoTcpQueue :=
  match picoTreeDelete inputSegmentCompare f q.pool q.leafColor with
  | (none, pool, leafColor) => { q with pool, leafColor }
  | (some _, pool, leafColor) =>
      { q with
        pool
        leafColor
        size := q.size - f.payloadLen
        frames := if f.payloadLen > 0 then q.frames - 1 else q.frames }

/-- The loop of `release_until`, from `head` on. -/
def releaseLoop (seq : UInt32) : Nat → PicoTcpQueue → Option TcpInputSegment → PicoTcpQueue
  | 0, q, _ => q
  | _, q, none => q
  | fuel + 1, q, some cur =>
      if picoSeqCompare (cur.seq + cur.payloadLen) seq ≤ 0 then
        releaseLoop seq fuel (picoDiscardSegment q cur) (nextSegment q cur)
      else q

/-- `release_until`. Every turn takes a segment out. -/
def releaseUntil (q : PicoTcpQueue) (seq : UInt32) : PicoTcpQueue :=
  releaseLoop seq (q.pool.toList.length + 1) q (firstSegment q)

/-! ### Segments of a stream -/

/-- What the peer sends: bytes, from an initial sequence number on, cut into segments. -/
structure SentStream where
  isn : UInt32
  byte : Nat → UInt8
  cut : Nat → Nat
  start : cut 0 = 0
  long : ∀ i, cut i < cut (i + 1)
  short : ∀ i, cut (i + 1) < cut i + 2 ^ 16

namespace SentStream

variable (st : SentStream)

/-- The sequence number of a byte. -/
def seqAt (n : Nat) : UInt32 := st.isn + UInt32.ofNat n

/-- The bytes from one place to another. -/
def bytes (a b : Nat) : List UInt8 := (List.range' a (b - a)).map st.byte

theorem length_bytes (a b : Nat) : (st.bytes a b).length = b - a := by
  simp [bytes]

theorem bytes_append {a b c : Nat} (ab : a ≤ b) (bc : b ≤ c) :
    st.bytes a b ++ st.bytes b c = st.bytes a c := by
  obtain ⟨m, rfl⟩ := Nat.exists_eq_add_of_le ab
  obtain ⟨n, rfl⟩ := Nat.exists_eq_add_of_le bc
  have whole : a + m + n - a = m + n := by omega
  simp [bytes, whole, List.range'_append_1, ← List.map_append]

/-- The segment with a number. -/
def segment (i : Nat) : TcpInputSegment where
  seq := st.seqAt (st.cut i)
  payload := st.bytes (st.cut i) (st.cut (i + 1))
  short := by
    have := st.short i
    rw [length_bytes]
    omega

theorem cut_mono : StrictMono st.cut := strictMono_nat_of_lt_succ st.long

/-- A segment ends where the next one begins. -/
theorem segment_end (i : Nat) :
    (st.segment i).seq + (st.segment i).payloadLen = st.seqAt (st.cut (i + 1)) := by
  have long := st.long i
  apply UInt32.toNat_inj.mp
  simp only [segment, TcpInputSegment.payloadLen, seqAt, length_bytes, UInt32.toNat_add,
    UInt32.toNat_ofNat']
  omega

/-- Two places less than 2^31 apart. -/
def Near (x y : Nat) : Prop := x < y + 2 ^ 31 ∧ y < x + 2 ^ 31

variable {st}

theorem Near.symm {x y : Nat} (near : Near x y) : Near y x := ⟨near.2, near.1⟩

theorem compare_near {x y : Nat} (near : Near x y) :
    picoSeqCompare (st.seqAt x) (st.seqAt y) = (x : Int) - y :=
  picoSeqCompare_near st.isn near.1 near.2

/-- Near segments are in the order of their numbers. -/
theorem inputSegmentCompare_near {i k : Nat} {a b : TcpInputSegment}
    (atI : a.seq = st.seqAt (st.cut i)) (atK : b.seq = st.seqAt (st.cut k))
    (near : Near (st.cut i) (st.cut k)) : inputSegmentCompare a b = compare i k := by
  rw [inputSegmentCompare, atI, atK, compare_near near]
  rcases lt_trichotomy i k with less | rfl | more
  · have cuts := st.cut_mono less
    rw [compare_lt_iff_lt.mpr less, compare_lt_iff_lt]
    omega
  · simp
  · have cuts := st.cut_mono more
    rw [compare_gt_iff_gt.mpr more, compare_gt_iff_gt]
    omega

/-- The bytes in a segment. -/
def size (st : SentStream) (i : Nat) : Nat := st.cut (i + 1) - st.cut i

theorem payloadLen_toNat (i : Nat) : (st.segment i).payloadLen.toNat = st.size i := by
  have short := st.short i
  simp only [TcpInputSegment.payloadLen, segment, length_bytes, UInt32.toNat_ofNat', size]
  omega

theorem size_pos (i : Nat) : 0 < st.size i := Nat.sub_pos_of_lt (st.long i)

end SentStream

/-- The queue holds the segments with these numbers. -/
structure Holds (st : SentStream) (q : PicoTcpQueue) (numbers : List Nat) : Prop where
  keys : q.pool.toList = numbers.map st.segment
  sorted : numbers.Pairwise (· < ·)
  size : q.size = UInt32.ofNat (numbers.map st.size).sum
  frames : q.frames = UInt32.ofNat numbers.length

section Holds

variable {st : SentStream} {q : PicoTcpQueue} {numbers : List Nat} {k : Nat}

/-- A segment and all those in the queue are near. -/
def AllNear (st : SentStream) (numbers : List Nat) (k : Nat) : Prop :=
  ∀ i ∈ numbers, SentStream.Near (st.cut i) (st.cut k)

theorem Holds.cut (holds : Holds st q numbers) (near : AllNear st numbers k)
    {target : TcpInputSegment} (at_ : target.seq = st.seqAt (st.cut k)) :
    Cut (inputSegmentCompare · target) q.pool.toList ((numbers.filter (· < k)).map st.segment)
      (if k ∈ numbers then some (st.segment k) else none)
      ((numbers.filter (k < ·)).map st.segment) := by
  rw [holds.keys]
  exact cut_of_numbers holds.sorted k fun i mem =>
    SentStream.inputSegmentCompare_near rfl at_ (near i mem)

theorem Holds.peek (holds : Holds st q numbers) (near : AllNear st numbers k) :
    peekSegment q (st.seqAt (st.cut k)) = if k ∈ numbers then some (st.segment k) else none :=
  picoTreeFindKey_eq (holds.cut near rfl)

theorem Holds.first (holds : Holds st q numbers) :
    firstSegment q = numbers.head?.map st.segment := by
  rw [firstSegment, picoTreeFirst_eq, holds.keys, List.head?_map]

/-- The numbers of a queue with a new one. -/
def withNumber (k : Nat) (numbers : List Nat) : List Nat :=
  numbers.filter (· < k) ++ k :: numbers.filter (k < ·)

/-- The numbers of a queue without one. -/
def withoutNumber (k : Nat) (numbers : List Nat) : List Nat :=
  numbers.filter (· < k) ++ numbers.filter (k < ·)

@[simp] theorem mem_withNumber {i : Nat} : i ∈ withNumber k numbers ↔ i = k ∨ i ∈ numbers := by
  simp only [withNumber, List.mem_append, List.mem_filter, List.mem_cons, decide_eq_true_eq]
  grind

@[simp] theorem mem_withoutNumber {i : Nat} :
    i ∈ withoutNumber k numbers ↔ i ≠ k ∧ i ∈ numbers := by
  simp only [withoutNumber, List.mem_append, List.mem_filter, decide_eq_true_eq]
  grind

theorem withNumber_perm (sorted : numbers.Pairwise (· < ·)) (out : k ∉ numbers) :
    (withNumber k numbers).Perm (k :: numbers) := by
  have parts := sorted_split sorted k
  rw [if_neg out, List.append_nil] at parts
  conv_rhs => rw [parts]
  exact List.perm_middle

theorem withoutNumber_perm (sorted : numbers.Pairwise (· < ·)) (in_ : k ∈ numbers) :
    numbers.Perm (k :: withoutNumber k numbers) := by
  have parts := sorted_split sorted k
  rw [if_pos in_, List.append_assoc, List.singleton_append] at parts
  conv_lhs => rw [parts]
  exact List.perm_middle

theorem withNumber_sorted (sorted : numbers.Pairwise (· < ·)) :
    (withNumber k numbers).Pairwise (· < ·) := by
  refine List.pairwise_append.mpr
    ⟨sorted.filter _, List.pairwise_cons.mpr ⟨?_, sorted.filter _⟩, ?_⟩
  · simp
  · simp only [List.mem_filter, List.mem_cons, decide_eq_true_eq]
    grind

theorem withoutNumber_sorted (sorted : numbers.Pairwise (· < ·)) :
    (withoutNumber k numbers).Pairwise (· < ·) := by
  refine List.pairwise_append.mpr ⟨sorted.filter _, sorted.filter _, ?_⟩
  simp only [List.mem_filter, decide_eq_true_eq]
  grind

theorem payloadLen_pos (st : SentStream) (k : Nat) : (st.segment k).payloadLen > 0 := by
  have pos := st.size_pos k
  rw [gt_iff_lt, UInt32.lt_iff_toNat_lt, SentStream.payloadLen_toNat]
  exact pos

theorem payloadLen_eq (st : SentStream) (k : Nat) :
    (st.segment k).payloadLen = UInt32.ofNat (st.size k) := by
  simp [TcpInputSegment.payloadLen, SentStream.segment, SentStream.length_bytes, SentStream.size]

/-- A segment goes into the queue, unless it is there or does not fit. -/
theorem Holds.enqueue (holds : Holds st q numbers) (near : AllNear st numbers k) :
    (0 < (picoEnqueueSegment q (st.segment k)).1 ∧ k ∉ numbers ∧
      Holds st (picoEnqueueSegment q (st.segment k)).2 (withNumber k numbers)) ∨
    ((picoEnqueueSegment q (st.segment k)).1 ≤ 0 ∧
      (picoEnqueueSegment q (st.segment k)).2 = q ∧
        (k ∈ numbers ∨ q.size + (st.segment k).payloadLen > q.maxSize)) := by
  have cut : Cut (inputSegmentCompare · (st.segment k)) q.pool.toList _ _ _ := holds.cut near rfl
  have swap : ∀ a ∈ q.pool.toList,
      inputSegmentCompare (st.segment k) a = (inputSegmentCompare a (st.segment k)).swap := by
    intro a mem
    rw [holds.keys] at mem
    obtain ⟨i, old, rfl⟩ := List.mem_map.mp mem
    have there : inputSegmentCompare (st.segment i) (st.segment k) = compare i k :=
      SentStream.inputSegmentCompare_near rfl rfl (near i old)
    have back : inputSegmentCompare (st.segment k) (st.segment i) = compare k i :=
      SentStream.inputSegmentCompare_near rfl rfl (near i old).symm
    rw [there, back]
    exact Std.OrientedCmp.eq_swap
  obtain ⟨answer, left⟩ := picoTreeInsert_spec q.leafColor cut swap
  have pos := payloadLen_pos st k
  have some_ : (st.segment k).payloadLen ≠ 0 := by
    intro zero
    rw [zero] at pos
    exact absurd pos (by decide)
  unfold picoEnqueueSegment doEnqueueSegment
  rw [if_neg some_]
  split
  · rename_i full
    exact Or.inr ⟨Int.le_refl 0, rfl, Or.inr full⟩
  · generalize picoTreeInsert inputSegmentCompare (st.segment k) q.pool q.leafColor = out
      at answer left ⊢
    obtain ⟨there, pool, leafColor⟩ := out
    by_cases in_ : k ∈ numbers
    · rw [if_pos in_] at answer
      obtain rfl := answer
      exact Or.inr ⟨Int.le_refl 0, rfl, Or.inl in_⟩
    · rw [if_neg in_] at answer left
      obtain rfl := answer
      have perm := withNumber_perm holds.sorted in_
      refine Or.inl ⟨?_, in_, ?_, withNumber_sorted holds.sorted, ?_, ?_⟩
      · simpa [SentStream.segment, SentStream.length_bytes, SentStream.size] using st.size_pos k
      · simpa [withNumber] using left
      · have sum := List.Perm.sum_nat (perm.map st.size)
        rw [List.map_cons, List.sum_cons] at sum
        simp only [holds.size, payloadLen_eq, sum, Nat.add_comm, UInt32.ofNat_add]
      · simp only [holds.frames, perm.length_eq, List.length_cons, UInt32.ofNat_add]
        rfl

theorem picoEnqueueSegment_maxSize (q : PicoTcpQueue) (f : TcpInputSegment) :
    (picoEnqueueSegment q f).2.maxSize = q.maxSize := by
  unfold picoEnqueueSegment doEnqueueSegment
  split
  · rfl
  · split
    · rfl
    · split <;> rfl

theorem picoDiscardSegment_maxSize (q : PicoTcpQueue) (f : TcpInputSegment) :
    (picoDiscardSegment q f).maxSize = q.maxSize := by
  unfold picoDiscardSegment
  split <;> rfl

theorem releaseLoop_maxSize (seq : UInt32) (fuel : Nat) (q : PicoTcpQueue)
    (head : Option TcpInputSegment) : (releaseLoop seq fuel q head).maxSize = q.maxSize := by
  induction fuel generalizing q head with
  | zero => rfl
  | succ fuel ih =>
      cases head with
      | none => rfl
      | some cur =>
          rw [releaseLoop]
          split
          · rw [ih, picoDiscardSegment_maxSize]
          · rfl

/-- A segment that is in the queue is taken out. -/
theorem Holds.discard (holds : Holds st q numbers) (near : AllNear st numbers k)
    (in_ : k ∈ numbers) :
    Holds st (picoDiscardSegment q (st.segment k)) (withoutNumber k numbers) := by
  have cut : Cut (inputSegmentCompare · (st.segment k)) q.pool.toList _ _ _ := holds.cut near rfl
  obtain ⟨answer, left⟩ := picoTreeDelete_spec q.leafColor cut
  have perm := withoutNumber_perm holds.sorted in_
  unfold picoDiscardSegment
  generalize picoTreeDelete inputSegmentCompare (st.segment k) q.pool q.leafColor = out
    at answer left ⊢
  obtain ⟨there, pool, leafColor⟩ := out
  rw [if_pos in_] at answer
  obtain rfl := answer
  refine ⟨?_, withoutNumber_sorted holds.sorted, ?_, ?_⟩
  · simpa [withoutNumber] using left
  · have sum := List.Perm.sum_nat (perm.map st.size)
    rw [List.map_cons, List.sum_cons] at sum
    simp only [holds.size, payloadLen_eq, sum, Nat.add_comm (st.size k), UInt32.ofNat_add,
      UInt32.add_sub_cancel]
  · have count := perm.length_eq
    simp only [if_pos (payloadLen_pos st k), holds.frames, count, List.length_cons,
      UInt32.ofNat_add]
    exact UInt32.add_sub_cancel _ _

end Holds

end Rfsis.Pico
