import Mathlib.Data.List.Basic

/-!
Offers answered in parts.

A caller that has `n` things to move offers all that is left, over and over,
until the answer is not positive or nothing is left. The other side answers from
a list of numbers, each cut down to what was offered, and takes all it is
offered once the list has ended. `taken` is what such a loop moves in total and
`rest` is what is left of the list; `taken_of_pos` and `taken_of_nonpos` unfold
them by one turn of the loop.
-/

namespace Rfsis.Offers

/-- The answer to an offer of `n` things. -/
def answer (answers : List Int) (n : Nat) : Int :=
  min (answers.head?.getD n) n

/-- What the loop moves in total when it starts with `n` things. -/
def taken : List Int → Nat → Nat
  | [], n => n
  | a :: answers, n =>
      if a ≤ 0 then 0 else if n ≤ a then n else a.toNat + taken answers (n - a.toNat)

/-- The answers that the loop has not asked for. -/
def rest : List Int → Nat → List Int
  | [], _ => []
  | a :: answers, n => if a ≤ 0 ∨ n ≤ a then answers else rest answers (n - a.toNat)

variable {answers : List Int} {n : Nat}

theorem answer_le (answers : List Int) (n : Nat) : answer answers n ≤ n :=
  Int.min_le_right _ _

theorem taken_le (answers : List Int) (n : Nat) : taken answers n ≤ n := by
  induction answers generalizing n with
  | nil => exact Nat.le_refl n
  | cons a answers ih =>
      rw [taken]
      split
      · exact Nat.zero_le n
      · split
        · exact Nat.le_refl n
        · have later := ih (n - a.toNat)
          omega

theorem taken_zero (answers : List Int) : taken answers 0 = 0 :=
  Nat.le_zero.mp (taken_le answers 0)

/-- The last turn of a loop that is refused. -/
theorem taken_of_nonpos (refused : answer answers n ≤ 0) :
    taken answers n = 0 ∧ rest answers n = answers.tail := by
  cases answers with
  | nil =>
      have none : (n : Int) ≤ 0 := by simpa [answer] using refused
      exact ⟨show n = 0 by omega, rfl⟩
  | cons a answers =>
      have part : answer (a :: answers) n = min a n := rfl
      rw [part] at refused
      rw [taken, rest]
      constructor
      · split
        · rfl
        · rw [if_pos (by omega)]
          omega
      · rw [if_pos (by omega)]
        rfl

/-- One turn of a loop that is not refused. -/
theorem taken_of_pos (moves : 0 < answer answers n) :
    taken answers n =
      (answer answers n).toNat + taken answers.tail (n - (answer answers n).toNat) := by
  cases answers with
  | nil =>
      have all : answer [] n = n := by simp [answer]
      rw [all, Int.toNat_natCast, Nat.sub_self]
      rfl
  | cons a answers =>
      have part : answer (a :: answers) n = min a n := rfl
      rw [part] at moves ⊢
      rw [taken, if_neg (by omega), List.tail_cons]
      split
      · have all : (min a (n : Int)).toNat = n := by omega
        rw [all, Nat.sub_self, taken_zero, Nat.add_zero]
      · have all : (min a (n : Int)).toNat = a.toNat := by omega
        rw [all]

theorem rest_of_pos (moves : 0 < answer answers n) :
    rest answers n = if (answer answers n).toNat = n then answers.tail
      else rest answers.tail (n - (answer answers n).toNat) := by
  cases answers with
  | nil => simp [rest]
  | cons a answers =>
      have part : answer (a :: answers) n = min a n := rfl
      rw [part] at moves ⊢
      rw [rest, List.tail_cons]
      by_cases all : (n : Int) ≤ a
      · rw [if_pos (Or.inr all), if_pos (by omega)]
      · have part : (min a (n : Int)).toNat = a.toNat := by omega
        rw [if_neg (by omega), part, if_neg (by omega)]

/-- If the first answer is not a refusal, something is moved. -/
theorem taken_pos (offers : 0 < n) (accepts : ∀ a ∈ answers.head?, 0 < a) :
    0 < taken answers n := by
  cases answers with
  | nil => exact offers
  | cons a answers =>
      have first : 0 < a := accepts a rfl
      rw [taken, if_neg (by omega)]
      split
      · exact offers
      · omega

/-- If no answer is a refusal, everything is moved. -/
theorem taken_all (accepts : ∀ a ∈ answers, 0 < a) : taken answers n = n := by
  induction answers generalizing n with
  | nil => rfl
  | cons a answers ih =>
      have first := accepts a List.mem_cons_self
      rw [taken, if_neg (by omega)]
      split
      · rfl
      · rw [ih fun b mem => accepts b (List.mem_cons_of_mem a mem)]
        omega

end Rfsis.Offers
