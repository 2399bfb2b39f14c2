import Mathlib.Data.List.Basic

/-!
One FIFO shared by several channels.

Items of type `α` are received on channels of type `κ`, kept in one queue, and
handed out again on a channel that whoever drains the queue chooses. A `Ledger`
is the account of such a queue: what came in, with its channel, and what went
out, with its channel. Its only law is the one a queue cannot break, `fifo`:
what went out is what came in, in order. Whether an item went back to the
channel it came from is a property of the use, `Own`; `Serves` says which uses
keep it, and `Own.isolated` what it gives to every single channel.
-/

namespace Rfsis.SharedFifo

universe u v

variable {κ : Type u} {α : Type v}

/-- The account of a shared queue. -/
structure Ledger (κ : Type u) (α : Type v) where
  received : List (κ × α)
  handed : List (κ × α)
  fifo : handed.map Prod.snd <+: received.map Prod.snd

namespace Ledger

/-- The items still in the queue, each with the channel it came from. -/
def pending (l : Ledger κ α) : List (κ × α) :=
  l.received.drop l.handed.length

/-- Nothing received yet. -/
def empty : Ledger κ α := ⟨[], [], List.prefix_refl _⟩

theorem handed_length_le (l : Ledger κ α) : l.handed.length ≤ l.received.length := by
  have le := l.fifo.length_le
  rwa [List.length_map, List.length_map] at le

/-- Nothing is lost, duplicated or reordered. -/
theorem conserved (l : Ledger κ α) :
    l.handed.map Prod.snd ++ l.pending.map Prod.snd = l.received.map Prod.snd := by
  obtain ⟨rest, whole⟩ := l.fifo
  have same : l.pending.map Prod.snd = rest := by
    rw [pending, List.map_drop, ← whole, ← List.length_map Prod.snd, List.drop_left]
  rw [same, whole]

/-- Items come in on a channel. -/
def receive (l : Ledger κ α) (k : κ) (xs : List α) : Ledger κ α where
  received := l.received ++ xs.map (Prod.mk k)
  handed := l.handed
  fifo := by
    rw [List.map_append]
    exact l.fifo.trans (List.prefix_append _ _)

/-- The first `n` items of the queue go out on a channel. -/
def hand (l : Ledger κ α) (k : κ) (n : Nat) : Ledger κ α where
  received := l.received
  handed := l.handed ++ (l.pending.take n).map fun x => (k, x.2)
  fifo := by
    rw [← l.conserved, List.map_append, List.map_map, List.prefix_append_right_inj, List.map_take]
    exact List.take_prefix _ _

theorem pending_receive (l : Ledger κ α) (k : κ) (xs : List α) :
    (l.receive k xs).pending = l.pending ++ xs.map (Prod.mk k) :=
  List.drop_append_of_le_length l.handed_length_le

theorem pending_hand (l : Ledger κ α) (k : κ) (n : Nat) :
    (l.hand k n).pending = l.pending.drop n := by
  show l.received.drop (l.handed ++ (l.pending.take n).map _).length = _
  rw [List.length_append, List.length_map, List.length_take, ← List.drop_drop]
  show l.pending.drop (min n l.pending.length) = l.pending.drop n
  by_cases short : n ≤ l.pending.length
  · rw [Nat.min_eq_left short]
  · have le := Nat.le_of_not_le short
    rw [Nat.min_eq_right le, List.drop_length, List.drop_of_length_le le]

/-- Every item that went out went to the channel it came from. -/
def Own (l : Ledger κ α) : Prop :=
  l.handed <+: l.received

theorem own_empty : (empty : Ledger κ α).Own := List.prefix_refl _

theorem Own.receive {l : Ledger κ α} (own : l.Own) (k : κ) (xs : List α) :
    (l.receive k xs).Own :=
  own.trans (List.prefix_append _ _)

theorem Own.split {l : Ledger κ α} (own : l.Own) : l.handed ++ l.pending = l.received := by
  obtain ⟨rest, whole⟩ := own
  rw [pending, ← whole, List.drop_left]

theorem Own.hand {l : Ledger κ α} (own : l.Own) {k : κ} {n : Nat}
    (mine : ∀ x ∈ l.pending, x.1 = k) : (l.hand k n).Own := by
  have same : (l.pending.take n).map (fun x => (k, x.2)) = l.pending.take n := by
    conv_rhs => rw [← List.map_id (l.pending.take n)]
    apply List.map_congr_left
    intro x mem
    exact Prod.ext (mine x (List.mem_of_mem_take mem)).symm rfl
  show l.handed ++ _ <+: l.received
  rw [same, ← own.split, List.prefix_append_right_inj]
  exact List.take_prefix _ _

/-- **Isolation**: each channel gets a prefix of what it put in. -/
theorem Own.isolated [DecidableEq κ] {l : Ledger κ α} (own : l.Own) (k : κ) :
    (l.handed.filter fun x => x.1 = k).map Prod.snd <+:
      (l.received.filter fun x => x.1 = k).map Prod.snd :=
  (own.filter _).map _

/-! ### Uses of the queue -/

/-- `l'` comes from `l` by receiving on the channel `k`. -/
inductive Receives (k : κ) (l : Ledger κ α) : Ledger κ α → Prop
  | refl : Receives k l l
  | receive {l' : Ledger κ α} (before : Receives k l l') (xs : List α) :
      Receives k l (l'.receive k xs)

/-- `l'` comes from `l` by receiving and handing out on the channel `k`. -/
inductive Serves (k : κ) (l : Ledger κ α) : Ledger κ α → Prop
  | refl : Serves k l l
  | receive {l' : Ledger κ α} (before : Serves k l l') (xs : List α) :
      Serves k l (l'.receive k xs)
  | hand {l' : Ledger κ α} (before : Serves k l l') (n : Nat) : Serves k l (l'.hand k n)

theorem Receives.serves {k : κ} {l l' : Ledger κ α} (receives : Receives k l l') :
    Serves k l l' := by
  induction receives with
  | refl => exact .refl
  | receive _ xs ih => exact ih.receive xs

theorem Receives.trans {k : κ} {l l' l'' : Ledger κ α} (first : Receives k l l')
    (second : Receives k l' l'') : Receives k l l'' := by
  induction second with
  | refl => exact first
  | receive _ xs ih => exact ih.receive xs

theorem Receives.own {k : κ} {l l' : Ledger κ α} (receives : Receives k l l') (own : l.Own) :
    l'.Own := by
  induction receives with
  | refl => exact own
  | receive _ xs ih => exact ih.receive k xs

theorem Serves.trans {k : κ} {l l' l'' : Ledger κ α} (first : Serves k l l')
    (second : Serves k l' l'') : Serves k l l'' := by
  induction second with
  | refl => exact first
  | receive _ xs ih => exact ih.receive xs
  | hand _ n ih => exact ih.hand n

/-- Serving one channel keeps the queue owned when nothing of another channel waits in it. -/
theorem Serves.own {k : κ} {l l' : Ledger κ α} (serves : Serves k l l') (own : l.Own)
    (mine : ∀ x ∈ l.pending, x.1 = k) : l'.Own ∧ ∀ x ∈ l'.pending, x.1 = k := by
  induction serves with
  | refl => exact ⟨own, mine⟩
  | receive _ xs ih =>
      refine ⟨ih.1.receive k xs, fun x mem => ?_⟩
      rw [pending_receive] at mem
      rcases List.mem_append.mp mem with old | new
      · exact ih.2 x old
      · obtain ⟨a, -, rfl⟩ := List.mem_map.mp new
        rfl
  | hand _ n ih =>
      refine ⟨ih.1.hand ih.2, fun x mem => ?_⟩
      rw [pending_hand] at mem
      exact ih.2 x (List.mem_of_mem_drop mem)

end Ledger

end Rfsis.SharedFifo
