import Mathlib.Data.Multiset.Filter
import Mathlib.Data.Multiset.UnionInter
import Mathlib.Data.UInt
import Rfsis.BinaryHeap
import Rfsis.Transition

/-!
picoTCP's timers: the heap of `heap.h` and the functions of `pico_stack.c` over it.

`Timers.top` is `heap_get_element`; the blocks behind it matter only for their
number, which bounds the heap (`heapIncreaseSize`). Allocation does not fail. A
`pico_time` has 64 bits and does not wrap here; `PICO_TIME_MS` is a parameter of
each call, and its own wrap is not excluded: nothing below assumes that one reading
is not before another, unless the statement says so. Every timer has a
`struct pico_timer` of its own, and a `PICO_FREE` of one that was freed before has
no result (`picoFree`).

* `Timers.Sound.add`, `Timers.Sound.cancel`: what a call does to the timers that are
  in the heap.
* `heapPeek_spec`: what the loop of a check takes out.
-/

namespace Rfsis.Pico

open BinaryHeap

universe u

/-- `struct pico_timer_ref`; `tmr` is the callback with its argument, and `none`
once it is cancelled. Not in the program: `ticket` numbers the calls of
`pico_timer_add`. -/
structure PicoTimerRef (τ : Type u) where
  expire : Nat
  id : UInt32
  tmr : Option τ
  ticket : Nat
deriving DecidableEq, Repr

/-- What stays of a reference when it is cancelled. -/
def PicoTimerRef.stub {τ : Type u} (r : PicoTimerRef τ) : Nat × Nat :=
  (r.ticket, r.expire)

/-- `MAX_BLOCK_SIZE / sizeof(pico_timer_ref)`, with references of 24 bytes. -/
def elementsPerBlock : Nat := 1600 / 24

/-- `MAX_BLOCK_COUNT`. -/
def maxBlockCount : Nat := 16

/-- The most timers the heap takes: its cell 0 is never used. -/
def maxTimers : Nat := elementsPerBlock * maxBlockCount - 1

/-- `Timers` with `tmr_id`. Not in the program: `created` counts the calls of
`pico_timer_add`, and `freed` has the tickets whose `struct pico_timer` was freed. -/
structure Timers (τ : Type u) where
  size : Nat := 0
  n : Nat := 0
  top : Nat → PicoTimerRef τ := fun _ => ⟨0, 0, none, 0⟩
  tmrId : UInt32 := 0
  created : Nat := 0
  freed : List Nat := []

section Functions

variable {τ : Type u}

/-- `PICO_FREE` of the `struct pico_timer` of a ticket; `none` if it was freed before,
what C leaves undefined. -/
def picoFree (ticket : Nat) (tm : Timers τ) : Option (Timers τ) :=
  if ticket ∈ tm.freed then none else some { tm with freed := ticket :: tm.freed }

/-- `heap_increase_size`, with `n` already counting the new element. -/
def heapIncreaseSize (n size : Nat) : Option Nat :=
  if n + 1 > elementsPerBlock * maxBlockCount then none else some (size + 1)

/-- `heap_insert`; `none` is its exit with -1, which leaves the heap as it was. -/
def heapInsert (tm : Timers τ) (el : PicoTimerRef τ) : Option (Timers τ) :=
  let n := tm.n + 1
  let size := if n ≥ tm.size then heapIncreaseSize n tm.size else some tm.size
  size.map fun size => { tm with
    n := n
    size := size
    top :=
      if n = 1 then Function.update tm.top 1 el
      else siftUp PicoTimerRef.expire n tm.top n el }

/-- `heap_peek`: the first element is taken out, if there is one. -/
def heapPeek (tm : Timers τ) : Option (PicoTimerRef τ) × Timers τ :=
  if tm.n = 0 then (none, tm)
  else
    let n := tm.n - 1
    (some (tm.top 1), { tm with
      n := n
      top := siftDown PicoTimerRef.expire n n tm.top 1 (tm.top tm.n) })

/-- `heap_first`. -/
def heapFirst (tm : Timers τ) : Option (PicoTimerRef τ) :=
  if tm.n = 0 then none else some (tm.top 1)

/-- `pico_timer_add` at the reading `now` of the clock: its result and the timers
after it. A result of 0 says that the heap is full. -/
def picoTimerAdd (now delay : Nat) (t : τ) (tm : Timers τ) : UInt32 × Timers τ :=
  let id := if tm.tmrId = 0 then tm.tmrId + 1 else tm.tmrId
  let counted := { tm with tmrId := id + 1, created := tm.created + 1 }
  match heapInsert counted ⟨now + delay, id, some t, tm.created⟩ with
  | none => (0, { counted with freed := tm.created :: tm.freed })
  | some added => (id, added)

/-- A reference without its callback. -/
def PicoTimerRef.dead (r : PicoTimerRef τ) : PicoTimerRef τ :=
  { r with tmr := none, id := 0 }

/-- `pico_timer_cancel`: the first reference with the id loses its callback and its
id, and stays in the heap. -/
def picoTimerCancel (id : UInt32) (tm : Timers τ) : Option (Timers τ) :=
  if id = 0 then some tm
  else
    match (List.range' 1 tm.n).find? fun i => (tm.top i).id = id with
    | none => some tm
    | some i =>
        if (tm.top i).tmr.isSome then
          (picoFree (tm.top i).ticket tm).map fun tm =>
            { tm with top := Function.update tm.top i (tm.top i).dead }
        else some tm

end Functions

section Heap

variable {τ : Type u} {tm tm' : Timers τ} {el r : PicoTimerRef τ} {start clock delay k : Nat}
  {t : τ} {id : UInt32} {i : Nat}

/-- The references in the heap. -/
def Timers.refs (tm : Timers τ) : Multiset (PicoTimerRef τ) :=
  contents tm.n tm.top

/-- The tickets in the heap, with the time each expires at. -/
def Timers.stubs (tm : Timers τ) : Multiset (Nat × Nat) :=
  tm.refs.map PicoTimerRef.stub

/-- The `k`-th timer gets this id, counted from 0: ids run from 1 to 2^32 - 1. -/
def timerId (k : Nat) : UInt32 :=
  (k % (2 ^ 32 - 1) + 1).toUInt32

/-- What every function over the timers keeps. -/
structure Timers.Sound (tm : Timers τ) : Prop where
  ordered : Ordered PicoTimerRef.expire tm.n tm.top
  n_le : tm.n ≤ tm.size
  n_le_max : tm.n ≤ maxTimers
  size_le : tm.size ≤ elementsPerBlock * maxBlockCount
  nodup : (tm.refs.map PicoTimerRef.ticket).Nodup
  ticket_lt : ∀ r ∈ tm.refs, r.ticket < tm.created
  freed_lt : ∀ k ∈ tm.freed, k < tm.created
  id_eq : ∀ r ∈ tm.refs, r.tmr.isSome → r.id = timerId r.ticket
  id_none : ∀ r ∈ tm.refs, r.tmr = none → r.id = 0
  tmrId : (if tm.tmrId = 0 then tm.tmrId + 1 else tm.tmrId) = timerId tm.created

theorem Timers.sound_empty : Timers.Sound ({} : Timers τ) where
  ordered := by
    intro i low high
    exact absurd (Nat.lt_of_lt_of_le low high) (Nat.not_lt_zero 1)
  n_le := Nat.le_refl 0
  n_le_max := Nat.zero_le _
  size_le := Nat.zero_le _
  nodup := Multiset.nodup_zero
  ticket_lt := by
    intro r mem
    cases Multiset.notMem_zero r mem
  freed_lt := by
    intro k mem
    cases mem
  id_eq := by
    intro r mem
    cases Multiset.notMem_zero r mem
  id_none := by
    intro r mem
    cases Multiset.notMem_zero r mem
  tmrId := rfl

/-! ### Ids -/

theorem timerId_toNat (k : Nat) : (timerId k).toNat = k % (2 ^ 32 - 1) + 1 := by
  have small : k % (2 ^ 32 - 1) + 1 < 2 ^ 32 := by
    have := Nat.mod_lt k (by decide : 0 < 2 ^ 32 - 1)
    omega
  rw [timerId]
  exact UInt32.toNat_ofNat_of_lt' small

theorem timerId_ne_zero (k : Nat) : timerId k ≠ 0 := by
  intro zero
  have value := timerId_toNat k
  rw [zero] at value
  exact absurd value (by simp)

/-- `tmr_id++`, and past 0 before the next use. -/
theorem timerId_succ (k : Nat) :
    (if timerId k + 1 = 0 then timerId k + 1 + 1 else timerId k + 1) = timerId (k + 1) := by
  have value := timerId_toNat k
  have next := timerId_toNat (k + 1)
  rw [← UInt32.toNat_inj, next]
  have sum : (timerId k + 1).toNat = (k % (2 ^ 32 - 1) + 1 + 1) % 2 ^ 32 := by
    rw [UInt32.toNat_add, value]
    rfl
  split
  · rename_i wraps
    rw [← UInt32.toNat_inj, sum] at wraps
    rw [UInt32.toNat_add, sum]
    simp at wraps ⊢
    omega
  · rename_i goesOn
    rw [← UInt32.toNat_inj, sum] at goesOn
    rw [sum]
    simp at goesOn ⊢
    omega

/-- No id comes twice among the first 2^32 - 1 timers. -/
theorem timerId_inj {j k : Nat} (hj : j < 2 ^ 32 - 1) (hk : k < 2 ^ 32 - 1)
    (same : timerId j = timerId k) : j = k := by
  have values := congrArg UInt32.toNat same
  rw [timerId_toNat, timerId_toNat] at values
  omega

/-! ### The heap -/

theorem Timers.first_mem (some_ : tm.n ≠ 0) : tm.top 1 ∈ tm.refs :=
  mem_contents.mpr ⟨1, Nat.le_refl 1, Nat.pos_of_ne_zero some_, rfl⟩

theorem Timers.some_of_mem (mem : r ∈ tm.refs) : tm.n ≠ 0 := by
  obtain ⟨i, pos, le, -⟩ := mem_contents.mp mem
  omega

/-- An insertion fails exactly when the heap is full. -/
theorem Timers.Sound.heapInsert_eq_none (sound : tm.Sound) :
    heapInsert tm el = none ↔ tm.n = maxTimers := by
  have n_le := sound.n_le
  have n_le_max := sound.n_le_max
  have size_le := sound.size_le
  have max : elementsPerBlock * maxBlockCount = maxTimers + 1 := rfl
  simp only [heapInsert, Option.map_eq_none_iff, heapIncreaseSize]
  constructor
  · intro full
    split at full
    · split at full
      · omega
      · cases full
    · cases full
  · intro full
    rw [if_pos (by omega), if_pos (by omega)]

/-- What an insertion that finds room does. -/
theorem heapInsert_refs (ordered : Ordered PicoTimerRef.expire tm.n tm.top)
    (room : heapInsert tm el = some tm') :
    Ordered PicoTimerRef.expire tm'.n tm'.top ∧ tm'.refs = el ::ₘ tm.refs := by
  obtain ⟨size, -, rfl⟩ := Option.map_eq_some_iff.mp room
  have cells : (if tm.n + 1 = 1 then Function.update tm.top 1 el
      else siftUp PicoTimerRef.expire (tm.n + 1) tm.top (tm.n + 1) el) =
        insert PicoTimerRef.expire tm.n tm.top el := by
    split
    · rename_i first
      have empty : tm.n = 0 := by omega
      rw [empty]
      rfl
    · rfl
  simp only [Timers.refs, cells]
  exact insert_spec ordered el

theorem heapInsert_counts (sound : tm.Sound) (room : heapInsert tm el = some tm') :
    tm'.n ≤ tm'.size ∧ tm'.n ≤ maxTimers ∧ tm'.size ≤ elementsPerBlock * maxBlockCount := by
  have n_le := sound.n_le
  have n_le_max := sound.n_le_max
  have size_le := sound.size_le
  have max : elementsPerBlock * maxBlockCount = maxTimers + 1 := rfl
  obtain ⟨size, grown, rfl⟩ := Option.map_eq_some_iff.mp room
  dsimp only
  split at grown
  · unfold heapIncreaseSize at grown
    split at grown
    · cases grown
    · cases grown
      omega
  · cases grown
    omega

theorem heapInsert_globals (room : heapInsert tm el = some tm') :
    tm'.tmrId = tm.tmrId ∧ tm'.created = tm.created ∧ tm'.freed = tm.freed := by
  obtain ⟨size, -, rfl⟩ := Option.map_eq_some_iff.mp room
  exact ⟨rfl, rfl, rfl⟩

/-- The first reference stays where it is, unless the new one takes its place. -/
theorem heapInsert_first (ordered : Ordered PicoTimerRef.expire tm.n tm.top)
    (room : heapInsert tm el = some tm') (some_ : tm.n ≠ 0) :
    tm'.n ≠ 0 ∧ (tm'.top 1 = tm.top 1 ∨ tm'.top 1 = el) := by
  obtain ⟨sorted, refs⟩ := heapInsert_refs ordered room
  have new : el ∈ tm'.refs := refs ▸ Multiset.mem_cons_self el tm.refs
  have some' := Timers.some_of_mem new
  refine ⟨some', ?_⟩
  by_cases notLess : (tm.top 1).expire ≤ el.expire
  · obtain ⟨size, -, rfl⟩ := Option.map_eq_some_iff.mp room
    left
    dsimp only
    rw [if_neg (by omega)]
    exact siftUp_first (by omega) notLess
  · right
    rcases Multiset.mem_cons.mp (refs ▸ Timers.first_mem some') with first | old
    · exact first
    · exact absurd ((ordered.first_le_of_mem old).trans (sorted.first_le_of_mem new)) notLess

/-! ### What a call leaves -/

/-- The `k`-th timer, if it is in the heap, has lost its callback. -/
def Timers.Cancelled (tm : Timers τ) (k : Nat) : Prop :=
  ∀ r ∈ tm.refs, r.ticket = k → r.tmr = none

/-- The heap after an addition that reads the clock at `start` or later, or after a
cancellation: what was there still is, with its `struct pico_timer` unless that was
freed just now, and what came is new, with one that is not freed. -/
structure Grows (start : Nat) (tm tm' : Timers τ) : Prop where
  sound : tm'.Sound
  created : tm.created ≤ tm'.created
  freed : tm.freed ⊆ tm'.freed
  stubs : ∃ added, tm'.stubs = tm.stubs + added ∧ ∀ x ∈ added, tm.created ≤ x.1 ∧ start ≤ x.2
  first : tm.n ≠ 0 → tm'.n ≠ 0 ∧ ((tm'.top 1).ticket = (tm.top 1).ticket ∨
    (tm'.top 1).ticket = tm.created ∧ start ≤ (tm'.top 1).expire)
  kept : ∀ r ∈ tm.refs, r ∈ tm'.refs ∨
    r.dead ∈ tm'.refs ∧ r.ticket ∉ tm.freed ∧ r.ticket ∈ tm'.freed
  live : ∀ r ∈ tm'.refs, r.tmr.isSome → r.ticket ∈ tm'.freed → r ∈ tm.refs ∧ r.ticket ∈ tm.freed
  stays : ∀ k < tm.created, tm.Cancelled k → tm'.Cancelled k

theorem Grows.refl (sound : tm.Sound) : Grows start tm tm where
  sound := sound
  created := Nat.le_refl _
  freed := List.Subset.refl _
  stubs := by
    refine ⟨0, (Multiset.add_zero _).symm, ?_⟩
    intro x mem
    cases Multiset.notMem_zero x mem
  first := fun some_ => ⟨some_, Or.inl rfl⟩
  kept := fun _ mem => Or.inl mem
  live := fun _ mem _ freed => ⟨mem, freed⟩
  stays := fun _ _ cancelled => cancelled

/-- A free keeps the invariant. -/
theorem Timers.Sound.free (sound : tm.Sound) (old : k < tm.created) :
    Timers.Sound { tm with freed := k :: tm.freed } where
  ordered := sound.ordered
  n_le := sound.n_le
  n_le_max := sound.n_le_max
  size_le := sound.size_le
  nodup := sound.nodup
  ticket_lt := sound.ticket_lt
  freed_lt := List.forall_mem_cons.mpr ⟨old, sound.freed_lt⟩
  id_eq := sound.id_eq
  id_none := sound.id_none
  tmrId := sound.tmrId

/-- Taking an id and a ticket keeps the invariant. -/
theorem Timers.Sound.count (sound : tm.Sound) :
    Timers.Sound { tm with
      tmrId := (if tm.tmrId = 0 then tm.tmrId + 1 else tm.tmrId) + 1
      created := tm.created + 1 } where
  ordered := sound.ordered
  n_le := sound.n_le
  n_le_max := sound.n_le_max
  size_le := sound.size_le
  nodup := sound.nodup
  ticket_lt := fun r mem => Nat.lt_succ_of_lt (sound.ticket_lt r mem)
  freed_lt := fun k mem => Nat.lt_succ_of_lt (sound.freed_lt k mem)
  id_eq := sound.id_eq
  id_none := sound.id_none
  tmrId := by
    dsimp only
    rw [sound.tmrId]
    exact timerId_succ tm.created

/-- An addition that finds room keeps the invariant. -/
theorem Timers.Sound.heapInsert (sound : tm.Sound) (old : ∀ r ∈ tm.refs, r.ticket < k)
    (new : k < tm.created) (room : Pico.heapInsert tm ⟨clock, timerId k, some t, k⟩ = some tm') :
    tm'.Sound := by
  obtain ⟨ordered, refs⟩ := heapInsert_refs sound.ordered room
  obtain ⟨n_le, n_le_max, size_le⟩ := heapInsert_counts sound room
  obtain ⟨tmrId, created, freed⟩ := heapInsert_globals room
  refine ⟨ordered, n_le, n_le_max, size_le, ?_, ?_, ?_, ?_, ?_, ?_⟩
  · rw [refs, Multiset.map_cons, Multiset.nodup_cons]
    refine ⟨?_, sound.nodup⟩
    intro mem
    obtain ⟨r, here, same⟩ := Multiset.mem_map.mp mem
    exact absurd (old r here) (same ▸ Nat.lt_irrefl _)
  · intro r mem
    rw [created]
    rw [refs, Multiset.mem_cons] at mem
    rcases mem with rfl | here
    · exact new
    · exact sound.ticket_lt r here
  · rw [freed, created]
    exact sound.freed_lt
  · intro r mem live
    rw [refs, Multiset.mem_cons] at mem
    rcases mem with rfl | here
    · rfl
    · exact sound.id_eq r here live
  · intro r mem dead
    rw [refs, Multiset.mem_cons] at mem
    rcases mem with rfl | here
    · cases dead
    · exact sound.id_none r here dead
  · rw [tmrId, created]
    exact sound.tmrId

theorem Timers.Sound.add (sound : tm.Sound) (later : start ≤ clock) :
    Grows start tm (picoTimerAdd clock delay t tm).2 := by
  have counted := sound.count
  unfold picoTimerAdd
  dsimp only
  rw [sound.tmrId] at counted ⊢
  split
  · have same : Grows start tm tm := .refl sound
    exact {
      sound := counted.free (Nat.lt_succ_self tm.created)
      created := Nat.le_succ _
      freed := List.subset_cons_self _ _
      stubs := same.stubs
      first := same.first
      kept := fun r mem => Or.inl mem
      live := by
        intro r mem callback freed
        refine ⟨mem, (List.mem_cons.mp freed).resolve_left ?_⟩
        exact (sound.ticket_lt r mem).ne
      stays := same.stays }
  · rename_i added room
    obtain ⟨-, refs⟩ := heapInsert_refs counted.ordered room
    obtain ⟨-, created, freed⟩ := heapInsert_globals room
    have stubs : added.stubs = (tm.created, clock + delay) ::ₘ tm.stubs := by
      rw [Timers.stubs, refs, Multiset.map_cons]
      rfl
    constructor
    · exact counted.heapInsert sound.ticket_lt (Nat.lt_succ_self _) room
    · rw [created]
      exact Nat.le_succ _
    · rw [freed]
      exact List.Subset.refl _
    · refine ⟨{(tm.created, clock + delay)}, ?_, ?_⟩
      · rw [stubs, ← Multiset.singleton_add, Multiset.add_comm]
      · intro x mem
        rw [Multiset.mem_singleton.mp mem]
        exact ⟨Nat.le_refl _, Nat.le_trans later (Nat.le_add_right _ _)⟩
    · intro some_
      obtain ⟨some', same | new⟩ := heapInsert_first counted.ordered room some_
      · exact ⟨some', Or.inl (congrArg PicoTimerRef.ticket same)⟩
      · refine ⟨some', Or.inr ?_⟩
        rw [new]
        exact ⟨rfl, Nat.le_trans later (Nat.le_add_right _ _)⟩
    · intro r mem
      rw [refs]
      exact Or.inl (Multiset.mem_cons_of_mem mem)
    · intro r mem callback gone
      rw [refs, Multiset.mem_cons] at mem
      rw [freed] at gone
      rcases mem with rfl | here
      · exact absurd (sound.freed_lt _ gone) (Nat.lt_irrefl _)
      · exact ⟨here, gone⟩
    · intro k old cancelled r mem ticket
      rw [refs, Multiset.mem_cons] at mem
      rcases mem with rfl | here
      · exact absurd old (ticket ▸ Nat.lt_irrefl _)
      · exact cancelled r here ticket

/-- A free has a result when it is the first of its ticket. -/
theorem picoFree_eq_some :
    picoFree k tm = some tm' ↔ k ∉ tm.freed ∧ tm' = { tm with freed := k :: tm.freed } := by
  unfold picoFree
  split
  · rename_i freed
    simp [freed]
  · rename_i live
    simp [live, eq_comm]

/-- A cancellation does nothing, or frees the callback of one reference with the id. -/
theorem picoTimerCancel_cases (done : picoTimerCancel id tm = some tm') :
    tm' = tm ∨ ∃ i, 1 ≤ i ∧ i ≤ tm.n ∧ (tm.top i).id = id ∧ (tm.top i).ticket ∉ tm.freed ∧
      tm' = { tm with
        top := Function.update tm.top i (tm.top i).dead
        freed := (tm.top i).ticket :: tm.freed } := by
  unfold picoTimerCancel at done
  split at done
  · exact Or.inl (Option.some.inj done).symm
  · split at done
    · exact Or.inl (Option.some.inj done).symm
    · rename_i i found
      split at done
      · have range := List.mem_range'_1.mp (List.mem_of_find?_eq_some found)
        obtain ⟨free, freed, rfl⟩ := Option.map_eq_some_iff.mp done
        obtain ⟨live, rfl⟩ := picoFree_eq_some.mp freed
        have same : (tm.top i).id = id := by simpa using List.find?_some found
        exact Or.inr ⟨i, range.1, by omega, same, live, rfl⟩
      · exact Or.inl (Option.some.inj done).symm

/-- The heap after a reference has lost its callback. -/
theorem refs_dead (pos : 1 ≤ i) (le : i ≤ tm.n) {refs : Multiset (PicoTimerRef τ)}
    (after : refs = contents tm.n (Function.update tm.top i (tm.top i).dead)) :
    (∀ r ∈ refs, r = (tm.top i).dead ∨ r ∈ tm.refs) ∧
      (∀ r ∈ tm.refs, r = tm.top i ∨ r ∈ refs) ∧
        refs.map PicoTimerRef.ticket = tm.refs.map PicoTimerRef.ticket ∧
          refs.map PicoTimerRef.stub = tm.stubs := by
  have exchange : tm.top i ::ₘ refs = (tm.top i).dead ::ₘ tm.refs :=
    after ▸ contents_update pos le _
  refine ⟨?_, ?_, ?_, ?_⟩
  · intro r mem
    exact Multiset.mem_cons.mp (exchange ▸ Multiset.mem_cons_of_mem mem)
  · intro r mem
    exact Multiset.mem_cons.mp (exchange ▸ Multiset.mem_cons_of_mem mem)
  · have maps := congrArg (Multiset.map PicoTimerRef.ticket) exchange
    rw [Multiset.map_cons, Multiset.map_cons] at maps
    exact (Multiset.cons_inj_right _).mp maps
  · have maps := congrArg (Multiset.map PicoTimerRef.stub) exchange
    rw [Multiset.map_cons, Multiset.map_cons] at maps
    exact (Multiset.cons_inj_right _).mp maps

/-- A cancellation moves nothing. -/
theorem update_dead_stub (top : Nat → PicoTimerRef τ) (i j : Nat) :
    (Function.update top i (top i).dead j).stub = (top j).stub := by
  by_cases at_ : j = i
  · rw [at_, Function.update_self]
    rfl
  · rw [Function.update_of_ne at_]

theorem Timers.Sound.cancel (sound : tm.Sound) (done : picoTimerCancel id tm = some tm') :
    Grows start tm tm' := by
  rcases picoTimerCancel_cases done with rfl | ⟨i, pos, le, -, live, rfl⟩
  · exact Grows.refl sound
  · obtain ⟨refs, others, tickets, stubs⟩ := refs_dead pos le rfl
    have here : tm.top i ∈ tm.refs := mem_contents.mpr ⟨i, pos, le, rfl⟩
    have expire := fun j => congrArg Prod.snd (update_dead_stub tm.top i j)
    have dead := mem_contents.mpr ⟨i, pos, le, Function.update_self i (tm.top i).dead tm.top⟩
    constructor
    · refine ⟨?_, sound.n_le, sound.n_le_max, sound.size_le, ?_, ?_, ?_, ?_, ?_, sound.tmrId⟩
      · intro j low high
        exact (expire (j / 2)).trans_le ((sound.ordered j low high).trans_eq (expire j).symm)
      · exact tickets.symm ▸ sound.nodup
      · intro r mem
        rcases refs r mem with rfl | old
        · exact sound.ticket_lt (tm.top i) here
        · exact sound.ticket_lt r old
      · exact List.forall_mem_cons.mpr ⟨sound.ticket_lt (tm.top i) here, sound.freed_lt⟩
      · intro r mem callback
        rcases refs r mem with rfl | old
        · cases callback
        · exact sound.id_eq r old callback
      · intro r mem dead
        rcases refs r mem with rfl | old
        · rfl
        · exact sound.id_none r old dead
    · exact Nat.le_refl _
    · exact List.subset_cons_self _ _
    · refine ⟨0, stubs.trans (Multiset.add_zero _).symm, ?_⟩
      intro x mem
      cases Multiset.notMem_zero x mem
    · intro some_
      exact ⟨some_, Or.inl (congrArg Prod.fst (update_dead_stub tm.top i 1))⟩
    · intro r mem
      rcases others r mem with rfl | still
      · exact Or.inr ⟨dead, live, List.mem_cons_self⟩
      · exact Or.inl still
    · intro r mem callback freed
      rcases refs r mem with rfl | old
      · cases callback
      · refine ⟨old, (List.mem_cons.mp freed).resolve_left ?_⟩
        intro same
        have gone := Multiset.inj_on_of_nodup_map (tickets ▸ sound.nodup) r mem _ dead same
        rw [gone] at callback
        cases callback
    · intro k _ cancelled r mem ticket
      rcases refs r mem with rfl | old
      · rfl
      · exact cancelled r old ticket

/-- Taking the first reference out. -/
theorem heapPeek_spec (sound : tm.Sound) (some_ : tm.n ≠ 0) :
    (heapPeek tm).1 = some (tm.top 1) ∧ (heapPeek tm).2.Sound ∧
      tm.refs = tm.top 1 ::ₘ (heapPeek tm).2.refs ∧
        (heapPeek tm).2.created = tm.created ∧ (heapPeek tm).2.freed = tm.freed := by
  obtain ⟨size, n, top, tmrId, created, freed⟩ := tm
  cases n with
  | zero => exact absurd rfl some_
  | succ n =>
      obtain ⟨ordered, refs⟩ := removeFirst_spec sound.ordered
      have sub : contents n (removeFirst PicoTimerRef.expire n top) ≤ contents (n + 1) top := by
        rw [refs]
        exact Multiset.le_cons_self _ _
      refine ⟨rfl, ⟨ordered, ?_, ?_, sound.size_le, ?_, ?_, sound.freed_lt, ?_, ?_, sound.tmrId⟩,
        refs, rfl, rfl⟩
      · exact Nat.le_of_succ_le sound.n_le
      · exact Nat.le_of_succ_le sound.n_le_max
      · exact Multiset.nodup_of_le (Multiset.map_le_map sub) sound.nodup
      · intro r mem
        exact sound.ticket_lt r (Multiset.mem_of_le sub mem)
      · intro r mem
        exact sound.id_eq r (Multiset.mem_of_le sub mem)
      · intro r mem
        exact sound.id_none r (Multiset.mem_of_le sub mem)

end Heap

/-! ### What is due -/

section Due

variable {τ : Type u} {tm : Timers τ} {now : Nat}

/-- The tickets that are due at `now`. -/
def Timers.due (tm : Timers τ) (now : Nat) : Multiset (Nat × Nat) :=
  tm.stubs.filter fun x => x.2 < now

/-- The tickets that are not. -/
def Timers.notDue (tm : Timers τ) (now : Nat) : Multiset (Nat × Nat) :=
  tm.stubs.filter fun x => ¬ x.2 < now

theorem mem_stubs {x : Nat × Nat} : x ∈ tm.stubs ↔ ∃ r ∈ tm.refs, r.stub = x :=
  Multiset.mem_map

/-- The first reference has the least expiry of all. -/
theorem Timers.Sound.first_le (sound : tm.Sound) {x : Nat × Nat} (mem : x ∈ tm.stubs) :
    (tm.top 1).expire ≤ x.2 := by
  obtain ⟨r, here, rfl⟩ := mem_stubs.mp mem
  exact sound.ordered.first_le_of_mem here

/-- If the first reference is not due, none is. -/
theorem Timers.Sound.due_eq_zero (sound : tm.Sound)
    (stops : tm.n = 0 ∨ now ≤ (tm.top 1).expire) : tm.due now = 0 := by
  apply Multiset.filter_eq_nil.mpr
  intro x mem due
  obtain ⟨r, here, rfl⟩ := mem_stubs.mp mem
  rcases stops with none_ | notDue
  · exact Timers.some_of_mem here none_
  · exact absurd (Nat.lt_of_le_of_lt (sound.first_le mem) due) (Nat.not_lt.mpr notDue)

/-- A ticket is in the heap once. -/
theorem Timers.Sound.eq_of_ticket (sound : tm.Sound) {r r' : PicoTimerRef τ} (mem : r ∈ tm.refs)
    (mem' : r' ∈ tm.refs) (same : r.ticket = r'.ticket) : r = r' :=
  Multiset.inj_on_of_nodup_map sound.nodup r mem r' mem' same

end Due

end Rfsis.Pico
