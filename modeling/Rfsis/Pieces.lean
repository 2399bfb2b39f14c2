import Mathlib.Data.List.Induction

/-!
Lists that are handed out in pieces, and a buffer that every piece overwrites.

`pieces n` cuts a list as a reader does that asks for at most `n` elements at a
time. `overwrite` stores a piece at the start of a buffer and keeps what is
behind it, so after several pieces a place holds what the last long enough piece
has there (`overwrites_eq`). `hits` counts how often a test succeeds that is made
after every step of a fold.
-/

namespace Rfsis.Pieces

universe u v

variable {α : Type u} {β : Type v}

/-- The list in pieces of `n`, the last one as long as what is left. -/
def pieces (n : Nat) (l : List α) : List (List α) :=
  (List.range ((l.length + n - 1) / n)).map fun k => (l.drop (n * k)).take n

/-- The buffer after a piece has been stored at its start. -/
def overwrite (buf : Nat → α) (piece : List α) : Nat → α :=
  fun i => (piece[i]?).getD (buf i)

/-- The element at place `j` of the last piece that is long enough. -/
def lastAt (ps : List (List α)) (j : Nat) : Option α :=
  (ps.filterMap fun p => p[j]?).getLast?

/-- How often the test succeeds on the states that a fold goes through. -/
def hits (test : β → Prop) [DecidablePred test] (f : β → α → β) : β → List α → Nat
  | _, [] => 0
  | b, a :: as => (if test (f b a) then 1 else 0) + hits test f (f b a) as

/-- What fits is handed out as it is. -/
theorem pieces_of_le {n : Nat} {l : List α} (some : l ≠ []) (fits : l.length ≤ n) :
    pieces n l = [l] := by
  have pos := List.length_pos_iff.mpr some
  have one : (l.length + n - 1) / n = 1 :=
    Nat.div_eq_of_lt_le (by omega) (by omega)
  rw [pieces, one]
  simp [List.take_of_length_le fits]

/-- What does not fit gives a full piece, and is cut on. -/
theorem pieces_of_lt {n : Nat} {l : List α} (pos : 0 < n) (long : n < l.length) :
    pieces n l = l.take n :: pieces n (l.drop n) := by
  have more : (l.length + n - 1) / n = (l.length - n + n - 1) / n + 1 := by
    rw [← Nat.add_div_right _ pos]
    congr 1
    omega
  rw [pieces, pieces, List.length_drop, more, List.range_succ_eq_map, List.map_cons, List.map_map]
  congr 1
  refine List.map_congr_left fun k _ => ?_
  rw [Function.comp_apply, List.drop_drop, Nat.mul_succ, Nat.add_comm]

/-- The first piece is as much of the list as fits. -/
theorem pieces_cons {n : Nat} {l : List α} (pos : 0 < n) (some : l ≠ []) :
    ∃ ps, pieces n l = l.take n :: ps := by
  by_cases long : n < l.length
  · exact ⟨_, pieces_of_lt pos long⟩
  · have fits := Nat.not_lt.mp long
    exact ⟨[], by rw [pieces_of_le some fits, List.take_of_length_le fits]⟩

theorem lastAt_concat (ps : List (List α)) (p : List α) (j : Nat) :
    lastAt (ps ++ [p]) j = p[j]?.or (lastAt ps j) := by
  rw [lastAt, lastAt, List.filterMap_append, List.getLast?_append]
  cases here : p[j]? <;> simp [here]

/-- Every place of the buffer holds what the last long enough piece has there. -/
theorem overwrites_eq (buf : Nat → α) (ps : List (List α)) (j : Nat) :
    ps.foldl overwrite buf j = (lastAt ps j).getD (buf j) := by
  induction ps using List.reverseRecOn with
  | nil => rfl
  | append_singleton ps p ih =>
      rw [List.foldl_append, List.foldl_cons, List.foldl_nil, lastAt_concat, overwrite, ih]
      cases p[j]? <;> rfl

theorem hits_pos_iff {test : β → Prop} [DecidablePred test] {f : β → α → β} {b : β}
    {as : List α} :
    0 < hits test f b as ↔ ∃ bs, bs ≠ [] ∧ bs <+: as ∧ test (bs.foldl f b) := by
  induction as generalizing b with
  | nil =>
      constructor
      · intro none
        cases none
      · rintro ⟨bs, some, part, -⟩
        exact absurd (List.prefix_nil.mp part) some
  | cons a as ih =>
      rw [hits]
      constructor
      · intro some
        by_cases now : test (f b a)
        · exact ⟨[a], List.cons_ne_nil a [], ⟨as, rfl⟩, now⟩
        · rw [if_neg now, Nat.zero_add] at some
          obtain ⟨bs, -, part, later⟩ := ih.mp some
          exact ⟨a :: bs, List.cons_ne_nil a bs, (List.prefix_cons_inj a).mpr part, later⟩
      · rintro ⟨bs, some, part, holds⟩
        obtain ⟨first, bs, rfl⟩ := List.exists_cons_of_ne_nil some
        obtain ⟨rfl, rest⟩ := List.cons_prefix_cons.mp part
        by_cases last : bs = []
        · subst last
          have now : test (f b first) := holds
          rw [if_pos now]
          omega
        · have later := ih.mpr ⟨bs, last, rest, holds⟩
          omega

end Rfsis.Pieces
