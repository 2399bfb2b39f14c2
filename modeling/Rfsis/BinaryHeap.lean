import Mathlib.Data.Multiset.AddSub
import Mathlib.Logic.Function.Basic
import Mathlib.Order.Lattice

/-!
A binary heap in an array, counted from 1: the least key is on top.

The cells are a function; only `1, .., n` are in use. An element goes in at a
hole behind the last cell that moves up (`siftUp`), and the top comes out by a
hole at the top that moves down (`siftDown`). Both loops move cells into the
hole and write the element once, at the end. `insert_spec` and `removeFirst_spec`
say what the two do: the order is kept, and the contents are those before with
the element added, or with the top, a least element, taken out.
-/

namespace Rfsis.BinaryHeap

universe u v

variable {α : Type u} {κ : Type v} [LinearOrder κ] {key : α → κ} {n i : Nat} {a : Nat → α} {x : α}

/-- The loop of an insertion, at the hole `i`. -/
def siftUp (key : α → κ) : Nat → (Nat → α) → Nat → α → Nat → α
  | 0, a, i, x => Function.update a i x
  | fuel + 1, a, i, x =>
      if 1 < i ∧ key x < key (a (i / 2)) then
        siftUp key fuel (Function.update a i (a (i / 2))) (i / 2) x
      else Function.update a i x

/-- The child of `i` that goes up: the right one only if it is there and less. -/
def lesserChild (key : α → κ) (n : Nat) (a : Nat → α) (i : Nat) : Nat :=
  if 2 * i ≠ n ∧ key (a (2 * i + 1)) < key (a (2 * i)) then 2 * i + 1 else 2 * i

/-- The loop of a removal, at the hole `i`, with the element `x` to be placed. -/
def siftDown (key : α → κ) (n : Nat) : Nat → (Nat → α) → Nat → α → Nat → α
  | 0, a, i, x => Function.update a i x
  | fuel + 1, a, i, x =>
      if 2 * i ≤ n then
        let child := lesserChild key n a i
        if key (a child) < key x then
          siftDown key n fuel (Function.update a i (a child)) child x
        else Function.update a i x
      else Function.update a i x

/-- The cells with `x` put in behind the last one. -/
def insert (key : α → κ) (n : Nat) (a : Nat → α) (x : α) : Nat → α :=
  siftUp key (n + 1) a (n + 1) x

/-- The `n` cells that are left of `n + 1` when the top is taken out. -/
def removeFirst (key : α → κ) (n : Nat) (a : Nat → α) : Nat → α :=
  siftDown key n n a 1 (a (n + 1))

/-- No cell has a lesser key than the one above it. -/
def Ordered (key : α → κ) (n : Nat) (a : Nat → α) : Prop :=
  ∀ i, 1 < i → i ≤ n → key (a (i / 2)) ≤ key (a i)

/-- What the first `n` cells hold. -/
def contents : Nat → (Nat → α) → Multiset α
  | 0, _ => 0
  | n + 1, a => a (n + 1) ::ₘ contents n a

/-! ### Contents -/

theorem mem_contents : x ∈ contents n a ↔ ∃ i, 1 ≤ i ∧ i ≤ n ∧ a i = x := by
  induction n with
  | zero =>
      constructor
      · intro none
        cases Multiset.notMem_zero x none
      · rintro ⟨i, pos, none, -⟩
        omega
  | succ n ih =>
      rw [contents, Multiset.mem_cons, ih]
      constructor
      · rintro (rfl | ⟨i, pos, le, at_⟩)
        · exact ⟨n + 1, by omega, by omega, rfl⟩
        · exact ⟨i, pos, by omega, at_⟩
      · rintro ⟨i, pos, le, at_⟩
        rcases Nat.lt_or_ge n i with last | before
        · have same : i = n + 1 := by omega
          exact Or.inl (same ▸ at_.symm)
        · exact Or.inr ⟨i, pos, before, at_⟩

/-- Cells out of use do not matter. -/
theorem contents_congr {b : Nat → α} (same : ∀ i, 1 ≤ i → i ≤ n → a i = b i) :
    contents n a = contents n b := by
  induction n with
  | zero => rfl
  | succ n ih =>
      have before : contents n a = contents n b := ih fun i pos le => same i pos (by omega)
      rw [contents, contents, before, same (n + 1) (by omega) (by omega)]

/-- Writing a cell exchanges its element. -/
theorem contents_update (pos : 1 ≤ i) (le : i ≤ n) (x : α) :
    a i ::ₘ contents n (Function.update a i x) = x ::ₘ contents n a := by
  induction n with
  | zero => omega
  | succ n ih =>
      rw [contents, contents]
      rcases Nat.lt_or_ge n i with last | before
      · have same : i = n + 1 := by omega
        have rest : contents n (Function.update a i x) = contents n a :=
          contents_congr fun j _ le => Function.update_of_ne (by omega) x a
        rw [rest, same, Function.update_self]
        exact Multiset.cons_swap _ _ _
      · rw [Function.update_of_ne (by omega), Multiset.cons_swap, ih before, Multiset.cons_swap]

/-- A hole that moves from `i` to `j` leaves the same contents around `x`. -/
theorem contents_move {j : Nat} (posi : 1 ≤ i) (lei : i ≤ n) (posj : 1 ≤ j) (lej : j ≤ n)
    (apart : j ≠ i) (x : α) :
    contents n (Function.update (Function.update a i (a j)) j x) =
      contents n (Function.update a i x) := by
  have moved := contents_update (a := Function.update a i (a j)) posj lej x
  rw [Function.update_of_ne apart] at moved
  have filled := contents_update (a := a) posi lei (a j)
  have direct := contents_update (a := a) posi lei x
  apply (Multiset.cons_inj_right (a i)).mp
  apply (Multiset.cons_inj_right (a j)).mp
  calc a j ::ₘ a i ::ₘ contents n (Function.update (Function.update a i (a j)) j x)
      = a i ::ₘ x ::ₘ contents n (Function.update a i (a j)) := by
        rw [Multiset.cons_swap, moved]
    _ = x ::ₘ a j ::ₘ contents n a := by rw [Multiset.cons_swap, filled]
    _ = a j ::ₘ a i ::ₘ contents n (Function.update a i x) := by
        rw [Multiset.cons_swap, ← direct]

/-! ### Order -/

/-- The top of an ordered heap is least. -/
theorem Ordered.first_le (ordered : Ordered key n a) (pos : 1 ≤ i) (le : i ≤ n) :
    key (a 1) ≤ key (a i) := by
  induction i using Nat.strongRecOn with
  | ind i ih =>
      rcases Nat.lt_or_ge 1 i with below | top
      · have above := ih (i / 2) (by omega) (by omega) (by omega)
        exact le_trans above (ordered i below le)
      · have same : i = 1 := by omega
        rw [same]

theorem Ordered.first_le_of_mem (ordered : Ordered key n a) (mem : x ∈ contents n a) :
    key (a 1) ≤ key x := by
  obtain ⟨i, pos, le, rfl⟩ := mem_contents.mp mem
  exact ordered.first_le pos le

/-- The pairs that do not touch the hole are in order, and so are the neighbours
of the hole on both sides. -/
structure HoleOrdered (key : α → κ) (n : Nat) (a : Nat → α) (i : Nat) : Prop where
  except : ∀ j, 1 < j → j ≤ n → j ≠ i → j / 2 ≠ i → key (a (j / 2)) ≤ key (a j)
  grand : 1 < i → ∀ c, 1 < c → c ≤ n → c / 2 = i → key (a (i / 2)) ≤ key (a c)

theorem Ordered.hole (ordered : Ordered key n a) (i : Nat) : HoleOrdered key n a i := by
  constructor
  · intro j low high _ _
    exact ordered j low high
  · intro low c lowc highc child
    have up : key (a (c / 2)) ≤ key (a c) := ordered c lowc highc
    have upup : key (a (i / 2)) ≤ key (a i) := ordered i low (by omega)
    rw [child] at up
    exact le_trans upup up

/-- Filling the hole with an element that fits between its neighbours. -/
theorem HoleOrdered.fill (hole : HoleOrdered key n a i)
    (above : 1 < i → key (a (i / 2)) ≤ key x)
    (below : ∀ c, 1 < c → c ≤ n → c / 2 = i → key x ≤ key (a c)) :
    Ordered key n (Function.update a i x) := by
  intro j low high
  by_cases at_ : j = i
  · have other : j / 2 ≠ i := by omega
    rw [at_, Function.update_self, Function.update_of_ne (by omega)]
    exact above (at_ ▸ low)
  · rw [Function.update_of_ne at_]
    by_cases child : j / 2 = i
    · rw [child, Function.update_self]
      exact below j low high child
    · rw [Function.update_of_ne child]
      exact hole.except j low high at_ child

/-- The hole moves to the cell above it. -/
theorem HoleOrdered.up (hole : HoleOrdered key n a i) (low : 1 < i) (high : i ≤ n) :
    HoleOrdered key n (Function.update a i (a (i / 2))) (i / 2) := by
  constructor
  · intro j lowj highj off offc
    have at_ : j ≠ i := fun same => offc (same ▸ rfl)
    rw [Function.update_of_ne at_]
    by_cases child : j / 2 = i
    · rw [child, Function.update_self]
      exact hole.grand low j lowj highj child
    · rw [Function.update_of_ne child]
      exact hole.except j lowj highj at_ child
  · intro lowp c lowc highc child
    have upup : key (a (i / 2 / 2)) ≤ key (a (i / 2)) :=
      hole.except (i / 2) lowp (by omega) (by omega) (by omega)
    rw [Function.update_of_ne (by omega)]
    by_cases at_ : c = i
    · rw [at_, Function.update_self]
      exact upup
    · rw [Function.update_of_ne at_]
      have up : key (a (c / 2)) ≤ key (a c) := hole.except c lowc highc at_ (by omega)
      rw [child] at up
      exact le_trans upup up

theorem siftUp_ordered {fuel : Nat} (enough : i ≤ fuel) (pos : 1 ≤ i) (high : i ≤ n)
    (hole : HoleOrdered key n a i)
    (below : ∀ c, 1 < c → c ≤ n → c / 2 = i → key x ≤ key (a c)) :
    Ordered key n (siftUp key fuel a i x) := by
  induction fuel generalizing a i with
  | zero => omega
  | succ fuel ih =>
      rw [siftUp]
      split
      · rename_i goes
        obtain ⟨low, less⟩ := goes
        apply ih (by omega) (by omega) (by omega) (hole.up low high)
        intro c lowc highc child
        by_cases at_ : c = i
        · rw [at_, Function.update_self]
          exact le_of_lt less
        · rw [Function.update_of_ne at_]
          have up : key (a (c / 2)) ≤ key (a c) := hole.except c lowc highc at_ (by omega)
          rw [child] at up
          exact le_trans (le_of_lt less) up
      · rename_i stays
        refine hole.fill (fun low => ?_) below
        exact not_lt.mp fun less => stays ⟨low, less⟩

theorem siftUp_contents {fuel : Nat} (enough : i ≤ fuel) (pos : 1 ≤ i) (high : i ≤ n) :
    contents n (siftUp key fuel a i x) = contents n (Function.update a i x) := by
  induction fuel generalizing a i with
  | zero => omega
  | succ fuel ih =>
      rw [siftUp]
      split
      · rename_i goes
        rw [ih (by omega) (by omega) (by omega)]
        exact contents_move pos high (by omega) (by omega) (by omega) x
      · rfl

/-- The hole never reaches the top when the element is not less than the top. -/
theorem siftUp_first {fuel : Nat} (low : 1 < i) (notLess : key (a 1) ≤ key x) :
    siftUp key fuel a i x 1 = a 1 := by
  induction fuel generalizing a i with
  | zero => exact Function.update_of_ne (Nat.ne_of_lt low) x a
  | succ fuel ih =>
      rw [siftUp]
      split
      · rename_i goes
        have above : 1 < i / 2 := by
          by_contra top
          have at_ : i / 2 = 1 := by omega
          rw [at_] at goes
          exact absurd goes.2 (not_lt.mpr notLess)
        have kept : Function.update a i (a (i / 2)) 1 = a 1 :=
          Function.update_of_ne (Nat.ne_of_lt low) _ a
        rw [ih above (kept.symm ▸ notLess), kept]
      · exact Function.update_of_ne (Nat.ne_of_lt low) x a

/-- An insertion keeps the order and adds the element. -/
theorem insert_spec (ordered : Ordered key n a) (x : α) :
    Ordered key (n + 1) (insert key n a x) ∧
      contents (n + 1) (insert key n a x) = x ::ₘ contents n a := by
  constructor
  · apply siftUp_ordered (Nat.le_refl _) (by omega) (Nat.le_refl _)
    · constructor
      · intro j low high at_ _
        exact ordered j low (by omega)
      · intro low c lowc highc child
        omega
    · intro c lowc highc child
      omega
  · rw [insert, siftUp_contents (Nat.le_refl _) (by omega) (Nat.le_refl _), contents,
      Function.update_self]
    congr 1
    exact contents_congr fun j _ le => Function.update_of_ne (by omega) x a

theorem lesserChild_mem (key : α → κ) (a : Nat → α) (inside : 2 * i ≤ n) :
    lesserChild key n a i ≤ n ∧ lesserChild key n a i / 2 = i := by
  unfold lesserChild
  split
  · rename_i right
    omega
  · omega

theorem lesserChild_le {c : Nat} (child : c / 2 = i) (inside : c ≤ n) :
    key (a (lesserChild key n a i)) ≤ key (a c) := by
  have two : c = 2 * i ∨ c = 2 * i + 1 := by omega
  unfold lesserChild
  split
  · rename_i right
    rcases two with rfl | rfl
    · exact le_of_lt right.2
    · exact le_refl _
  · rename_i left
    rcases two with rfl | rfl
    · exact le_refl _
    · exact not_lt.mp fun less => left ⟨by omega, less⟩

/-- The hole moves to the child that goes up. -/
theorem HoleOrdered.down (hole : HoleOrdered key n a i) (pos : 1 ≤ i) (inside : 2 * i ≤ n) :
    HoleOrdered key n (Function.update a i (a (lesserChild key n a i)))
      (lesserChild key n a i) := by
  have least : ∀ c, c / 2 = i → c ≤ n → key (a (lesserChild key n a i)) ≤ key (a c) :=
    fun c => lesserChild_le
  obtain ⟨high, under⟩ := lesserChild_mem key a inside
  generalize lesserChild key n a i = child at least high under
  constructor
  · intro j lowj highj off offc
    by_cases at_ : j = i
    · rw [at_, Function.update_self, Function.update_of_ne (by omega)]
      exact hole.grand (by omega) child (by omega) high under
    · rw [Function.update_of_ne at_]
      by_cases sibling : j / 2 = i
      · rw [sibling, Function.update_self]
        exact least j sibling highj
      · rw [Function.update_of_ne sibling]
        exact hole.except j lowj highj at_ sibling
  · intro low c lowc highc grand
    have up : key (a (c / 2)) ≤ key (a c) :=
      hole.except c lowc highc (by omega) (by omega)
    rw [under, Function.update_self, Function.update_of_ne (by omega), ← grand]
    exact up

theorem siftDown_ordered {fuel : Nat} (enough : n < fuel + i) (pos : 1 ≤ i)
    (hole : HoleOrdered key n a i) (above : 1 < i → key (a (i / 2)) ≤ key x) :
    Ordered key n (siftDown key n fuel a i x) := by
  induction fuel generalizing a i with
  | zero =>
      apply hole.fill above
      intro c _ _ _
      omega
  | succ fuel ih =>
      rw [siftDown]
      split
      · rename_i inside
        obtain ⟨high, under⟩ := lesserChild_mem key a inside
        dsimp only
        split
        · rename_i less
          apply ih (by omega) (by omega) (hole.down pos inside)
          intro _
          rw [under, Function.update_self]
          exact le_of_lt less
        · rename_i stays
          apply hole.fill above
          intro c _ highc child
          exact le_trans (not_lt.mp stays) (lesserChild_le child highc)
      · apply hole.fill above
        intro c _ _ _
        omega

theorem siftDown_contents {fuel : Nat} (pos : 1 ≤ i) (high : i ≤ n) :
    contents n (siftDown key n fuel a i x) = contents n (Function.update a i x) := by
  induction fuel generalizing a i with
  | zero => rfl
  | succ fuel ih =>
      rw [siftDown]
      split
      · rename_i inside
        obtain ⟨below, under⟩ := lesserChild_mem key a inside
        dsimp only
        split
        · rw [ih (by omega) below]
          exact contents_move pos high (by omega) below (by omega) x
        · rfl
      · rfl

/-- A removal keeps the order and takes out the top. -/
theorem removeFirst_spec (ordered : Ordered key (n + 1) a) :
    Ordered key n (removeFirst key n a) ∧
      contents (n + 1) a = a 1 ::ₘ contents n (removeFirst key n a) := by
  have before : Ordered key n a := fun i low high => ordered i low (by omega)
  constructor
  · apply siftDown_ordered (by omega) (Nat.le_refl _) (before.hole 1)
    intro low
    omega
  · rcases Nat.eq_zero_or_pos n with rfl | pos
    · rfl
    · rw [removeFirst, siftDown_contents (Nat.le_refl _) pos, contents,
        contents_update (Nat.le_refl _) pos]

end Rfsis.BinaryHeap
