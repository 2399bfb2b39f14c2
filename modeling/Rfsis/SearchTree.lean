import Mathlib.Algebra.Group.Nat.Defs
import Mathlib.Data.List.Sort
import Mathlib.Data.Nat.Log

/-!
Coloured binary trees with a cursor.

A place in a tree is the subtree there and the path of frames above it, the
nearest first; `plug` puts them together again. What a node pointer with parent
pointers can reach is exactly this. Keys in order (`CTree.toList`) are read off a
place as those before it, those of the subtree and those after it, so an
operation at a place is an operation on a list (`toList_plug`), and rotations and
colours do not show (`toList_rotate`, `toList_paint`).

Searching needs no order on the keys, only that the keys of the tree fall into
those before, at and after the target (`Cut`); `exists_cut` gives that for a
sorted list. `RedBlack` is the red-black invariant with its black height, and
`Fits` is the same for the path above a place.
-/

namespace Rfsis.SearchTree

universe u

inductive Color where
  | red | black
deriving DecidableEq, Repr

inductive Side where
  | left | right
deriving DecidableEq, Repr

/-- The other side. -/
def Side.flip : Side → Side
  | .left => .right
  | .right => .left

inductive CTree (α : Type u) where
  | leaf
  | node (color : Color) (l : CTree α) (key : α) (r : CTree α)
deriving DecidableEq, Repr

/-- The node above a place: the side the place is on, its colour and key, and the
child on the other side. -/
structure Frame (α : Type u) where
  side : Side
  color : Color
  key : α
  sibling : CTree α
deriving DecidableEq, Repr

/-- What is above a place, the nearest node first. -/
abbrev Trail (α : Type u) := List (Frame α)

variable {α : Type u} {t l r : CTree α} {p : Trail α} {f : Frame α} {c : Color} {n : Nat}

/-- A node with `near` on the given side and `far` on the other. -/
def CTree.join (side : Side) (color : Color) (near : CTree α) (key : α) (far : CTree α) : CTree α :=
  match side with
  | .left => .node color near key far
  | .right => .node color far key near

/-- The node of a frame with a subtree in its place. -/
def Frame.fill (f : Frame α) (t : CTree α) : CTree α :=
  CTree.join f.side f.color t f.key f.sibling

/-- The whole tree around a place. -/
def plug : CTree α → Trail α → CTree α
  | t, [] => t
  | t, f :: p => plug (f.fill t) p

/-- The child on a side; a leaf has only leaves. -/
def CTree.child (side : Side) : CTree α → CTree α
  | .leaf => .leaf
  | .node _ l _ r =>
      match side with
      | .left => l
      | .right => r

/-- The subtree with its root in the given colour. -/
def CTree.paint (color : Color) : CTree α → CTree α
  | .leaf => .leaf
  | .node _ l key r => .node color l key r

/-- The rotation to a side: the child on the other side goes up, if there is one. -/
def rotate : Side → CTree α → CTree α
  | .left, .node c l key (.node c' l' key' r') => .node c' (.node c l key l') key' r'
  | .right, .node c (.node c' l' key' r') key r => .node c' l' key' (.node c r' key r)
  | _, t => t

/-- The keys in order. -/
def CTree.toList : CTree α → List α
  | .leaf => []
  | .node _ l key r => l.toList ++ key :: r.toList

/-- The keys of a frame that come before its place. -/
def Frame.before (f : Frame α) : List α :=
  match f.side with
  | .left => []
  | .right => f.sibling.toList ++ [f.key]

/-- The keys of a frame that come after its place. -/
def Frame.after (f : Frame α) : List α :=
  match f.side with
  | .left => f.key :: f.sibling.toList
  | .right => []

/-- The keys before a place. -/
def before : Trail α → List α
  | [] => []
  | f :: p => before p ++ f.before

/-- The keys after a place. -/
def after : Trail α → List α
  | [] => []
  | f :: p => f.after ++ after p

/-! ### Keys in order -/

@[simp] theorem toList_leaf : (CTree.leaf : CTree α).toList = [] := rfl

@[simp] theorem toList_node (c : Color) (l : CTree α) (key : α) (r : CTree α) :
    (CTree.node c l key r).toList = l.toList ++ key :: r.toList := rfl

@[simp] theorem toList_fill (f : Frame α) (t : CTree α) :
    (f.fill t).toList = f.before ++ t.toList ++ f.after := by
  obtain ⟨side, color, key, sibling⟩ := f
  cases side <;> simp [Frame.fill, CTree.join, Frame.before, Frame.after]

theorem toList_plug (t : CTree α) (p : Trail α) :
    (plug t p).toList = before p ++ t.toList ++ after p := by
  induction p generalizing t with
  | nil => simp [plug, before, after]
  | cons f p ih => simp [plug, before, after, ih]

@[simp] theorem toList_paint (color : Color) (t : CTree α) : (t.paint color).toList = t.toList := by
  cases t <;> rfl

@[simp] theorem toList_rotate (side : Side) (t : CTree α) : (rotate side t).toList = t.toList := by
  unfold rotate
  split <;> simp

theorem before_append (p q : Trail α) : before (p ++ q) = before q ++ before p := by
  induction p with
  | nil => simp [before]
  | cons f p ih => simp [before, ih]

theorem after_append (p q : Trail α) : after (p ++ q) = after p ++ after q := by
  induction p with
  | nil => simp [after]
  | cons f p ih => simp [after, ih]

theorem plug_append (t : CTree α) (p q : Trail α) : plug t (p ++ q) = plug (plug t p) q := by
  induction p generalizing t with
  | nil => rfl
  | cons f p ih => exact ih (f.fill t)

/-! ### Searching -/

/-- The keys fall into those before the target, one at it, and those after it. -/
structure Cut (dir : α → Ordering) (xs lo : List α) (mid : Option α) (hi : List α) : Prop where
  eq : xs = lo ++ mid.toList ++ hi
  lt : ∀ a ∈ lo, dir a = .lt
  at_ : ∀ a ∈ mid, dir a = .eq
  gt : ∀ a ∈ hi, dir a = .gt

/-- The way down: to the right of keys before the target, to the left of keys after it. -/
def search (dir : α → Ordering) : CTree α → Trail α → CTree α × Trail α
  | .leaf, p => (.leaf, p)
  | .node c l key r, p =>
      match dir key with
      | .eq => (.node c l key r, p)
      | .lt => search dir r (⟨.right, c, key, l⟩ :: p)
      | .gt => search dir l (⟨.left, c, key, r⟩ :: p)

/-- The way down stays in the tree. -/
theorem plug_search (dir : α → Ordering) (t : CTree α) (p : Trail α) :
    plug (search dir t p).1 (search dir t p).2 = plug t p := by
  induction t generalizing p with
  | leaf => rfl
  | node c l key r ihl ihr =>
      unfold search
      split
      · rfl
      · exact ihr _
      · exact ihl _

/-- A way down that stops at no key ends at a leaf. -/
theorem search_leaf {dir : α → Ordering} (on : ∀ k, dir k ≠ .eq) (t : CTree α) (p : Trail α) :
    (search dir t p).1 = .leaf := by
  induction t generalizing p with
  | leaf => rfl
  | node c l key r ihl ihr =>
      unfold search
      split
      · rename_i stop
        exact absurd stop (on key)
      · exact ihr _
      · exact ihl _

/-- A cut of the keys of a node lies in one of its children, or at its own key. -/
theorem Cut.node {dir : α → Ordering} {key : α} {lo hi : List α} {mid : Option α}
    (cut : Cut dir (l.toList ++ key :: r.toList) lo mid hi) :
    (dir key = .eq ∧ lo = l.toList ∧ mid = some key ∧ hi = r.toList) ∨
      (dir key = .lt ∧ ∃ lo', lo = l.toList ++ key :: lo' ∧ Cut dir r.toList lo' mid hi) ∨
        (dir key = .gt ∧ ∃ hi', hi = hi' ++ key :: r.toList ∧ Cut dir l.toList lo mid hi') := by
  obtain ⟨eq, lt, at_, gt⟩ := cut
  rw [List.append_assoc] at eq
  rcases List.append_eq_append_iff.mp eq with ⟨lo', rfl, rest⟩ | ⟨hi', left, rest⟩
  · -- the cut is not left of the left child
    cases lo' with
    | nil =>
        cases mid with
        | none =>
            rw [Option.toList_none, List.nil_append, List.nil_append] at rest
            refine Or.inr (Or.inr ⟨gt key (rest ▸ List.mem_cons_self), [], rest.symm, ?_⟩)
            exact ⟨by simp, by simpa using lt, at_, by simp⟩
        | some k =>
            rw [Option.toList_some, List.nil_append, List.singleton_append] at rest
            obtain ⟨rfl, rfl⟩ := List.cons.inj rest
            exact Or.inl ⟨at_ key rfl, List.append_nil _, rfl, rfl⟩
    | cons k lo' =>
        rw [List.cons_append] at rest
        obtain ⟨rfl, tail⟩ := List.cons.inj rest
        refine Or.inr (Or.inl ⟨lt key (by simp), lo', rfl, ?_⟩)
        exact ⟨by rw [tail, List.append_assoc], fun a mem => lt a (by simp [mem]), at_, gt⟩
  · cases mid with
    | none =>
        rw [Option.toList_none, List.nil_append] at rest
        refine Or.inr (Or.inr ⟨gt key (by simp [rest]), hi', rest, ?_⟩)
        exact ⟨by simp [left], lt, at_, fun a mem => gt a (by simp [rest, mem])⟩
    | some k =>
        cases hi' with
        | nil =>
            rw [Option.toList_some, List.nil_append, List.singleton_append] at rest
            obtain ⟨rfl, rfl⟩ := List.cons.inj rest
            exact Or.inl ⟨at_ k rfl, by simpa using left.symm, rfl, rfl⟩
        | cons m hi' =>
            rw [Option.toList_some, List.singleton_append, List.cons_append] at rest
            obtain ⟨rfl, tail⟩ := List.cons.inj rest
            refine Or.inr (Or.inr ⟨gt key (by simp [tail]), hi', tail, ?_⟩)
            exact ⟨by simp [left], lt, at_, fun a mem => gt a (by simp [tail, mem])⟩

/-- A search that finds nothing ends at the leaf where the target belongs. -/
theorem search_none {dir : α → Ordering} {lo hi : List α} (cut : Cut dir t.toList lo none hi) :
    (search dir t p).1 = .leaf ∧ before (search dir t p).2 = before p ++ lo ∧
      after (search dir t p).2 = hi ++ after p := by
  induction t generalizing p lo hi with
  | leaf =>
      have none_ := cut.eq
      simp only [toList_leaf, Option.toList_none, List.append_nil] at none_
      obtain ⟨rfl, rfl⟩ := List.append_eq_nil_iff.mp none_.symm
      simp [search]
  | node c l key r ihl ihr =>
      rcases cut.node with ⟨-, -, no, -⟩ | ⟨dir_, lo', rfl, rest⟩ | ⟨dir_, hi', rfl, rest⟩
      · cases no
      · simp only [search, dir_]
        obtain ⟨place, bef, aft⟩ := ihr (p := ⟨.right, c, key, l⟩ :: p) rest
        exact ⟨place, by simp [bef, before, Frame.before], by simp [aft, after, Frame.after]⟩
      · simp only [search, dir_]
        obtain ⟨place, bef, aft⟩ := ihl (p := ⟨.left, c, key, r⟩ :: p) rest
        exact ⟨place, by simp [bef, before, Frame.before], by simp [aft, after, Frame.after]⟩

/-- A search that finds its target ends at its node. -/
theorem search_some {dir : α → Ordering} {k : α} {lo hi : List α}
    (cut : Cut dir t.toList lo (some k) hi) :
    ∃ c' l' r', (search dir t p).1 = .node c' l' k r' ∧
      before (search dir t p).2 ++ l'.toList = before p ++ lo ∧
        r'.toList ++ after (search dir t p).2 = hi ++ after p := by
  induction t generalizing p lo hi with
  | leaf =>
      have none_ := cut.eq
      simp at none_
  | node c l key r ihl ihr =>
      rcases cut.node with ⟨dir_, rfl, same, rfl⟩ | ⟨dir_, lo', rfl, rest⟩ | ⟨dir_, hi', rfl, rest⟩
      · obtain rfl := Option.some.inj same
        simp only [search, dir_]
        exact ⟨c, l, r, rfl, rfl, rfl⟩
      · simp only [search, dir_]
        obtain ⟨c', l', r', place, bef, aft⟩ := ihr (p := ⟨.right, c, key, l⟩ :: p) rest
        exact ⟨c', l', r', place, by simp [bef, before, Frame.before],
          by simp [aft, after, Frame.after]⟩
      · simp only [search, dir_]
        obtain ⟨c', l', r', place, bef, aft⟩ := ihl (p := ⟨.left, c, key, r⟩ :: p) rest
        exact ⟨c', l', r', place, by simp [bef, before, Frame.before],
          by simp [aft, after, Frame.after]⟩

/-! ### Sorted lists -/

section Sorted

variable {cmp : α → α → Ordering} {xs lo hi : List α} {mid : Option α} {key : α}

/-- Strictly increasing keys. -/
def Sorted (cmp : α → α → Ordering) (xs : List α) : Prop :=
  xs.Pairwise fun a b => cmp a b = .lt

/-- A sorted list is cut by every key. -/
theorem exists_cut [Std.TransCmp cmp] (sorted : Sorted cmp xs) (key : α) :
    ∃ lo mid hi, Cut (cmp · key) xs lo mid hi := by
  induction xs with
  | nil => exact ⟨[], none, [], rfl, by simp, by simp, by simp⟩
  | cons x xs ih =>
      obtain ⟨above, rest⟩ := List.pairwise_cons.mp sorted
      have later : ∀ o, cmp x key = o → o ≠ .lt → ∀ a ∈ xs, cmp a key = .gt := by
        intro o dir notLt a mem
        have back : cmp a x = .gt := Std.OrientedCmp.gt_of_lt (above a mem)
        cases o with
        | lt => exact absurd rfl notLt
        | eq => exact Std.TransCmp.gt_of_gt_of_eq back dir
        | gt => exact Std.TransCmp.gt_trans back dir
      cases dir : cmp x key with
      | lt =>
          obtain ⟨lo, mid, hi, eq, lt, at_, gt⟩ := ih rest
          refine ⟨x :: lo, mid, hi, by rw [eq]; rfl, ?_, at_, gt⟩
          intro a mem
          rcases List.mem_cons.mp mem with rfl | old
          · exact dir
          · exact lt a old
      | eq =>
          refine ⟨[], some x, xs, rfl, by simp, ?_, later _ dir (by decide)⟩
          intro a mem
          exact Option.some.inj mem ▸ dir
      | gt =>
          refine ⟨[], none, x :: xs, rfl, by simp, by simp, ?_⟩
          intro a mem
          rcases List.mem_cons.mp mem with rfl | old
          · exact dir
          · exact later _ dir (by decide) a old

theorem Cut.find? {dir : α → Ordering} (cut : Cut dir xs lo mid hi) :
    xs.find? (fun k => dir k = .eq) = mid := by
  obtain ⟨rfl, lt, at_, gt⟩ := cut
  have noLo : lo.find? (fun k => dir k = .eq) = none := by
    rw [List.find?_eq_none]
    intro a mem
    simp [lt a mem]
  have noHi : hi.find? (fun k => dir k = .eq) = none := by
    rw [List.find?_eq_none]
    intro a mem
    simp [gt a mem]
  cases mid with
  | none => simp [List.find?_append, noLo, noHi]
  | some k =>
      have here : dir k = .eq := at_ k rfl
      simp [List.find?_append, noLo, here]

theorem Cut.eraseP {dir : α → Ordering} (cut : Cut dir xs lo mid hi) :
    xs.eraseP (fun k => dir k = .eq) = lo ++ hi := by
  obtain ⟨rfl, lt, at_, gt⟩ := cut
  have noLo : ∀ a ∈ lo, ¬ (decide (dir a = .eq)) = true := by
    intro a mem
    simp [lt a mem]
  rw [List.append_assoc, List.eraseP_append_right _ noLo]
  congr 1
  cases mid with
  | none =>
      apply List.eraseP_of_forall_not
      intro a mem
      simp [gt a mem]
  | some k =>
      have here : dir k = .eq := at_ k rfl
      simp [here]

/-- The new key goes between those before and those after it. -/
theorem Cut.orderedInsert [Std.OrientedCmp cmp] (cut : Cut (cmp · key) xs lo none hi) :
    xs.orderedInsert (fun a b => cmp a b = .lt) key = lo ++ key :: hi := by
  obtain ⟨rfl, lt, -, gt⟩ := cut
  rw [Option.toList_none, List.append_nil]
  induction lo with
  | nil =>
      cases hi with
      | nil => rfl
      | cons b hi =>
          have here : cmp key b = .lt := Std.OrientedCmp.lt_of_gt (gt b List.mem_cons_self)
          simp [here]
  | cons a lo ih =>
      have here : cmp key a = .gt := Std.OrientedCmp.gt_of_lt (lt a List.mem_cons_self)
      have rest := ih fun b mem => lt b (List.mem_cons_of_mem a mem)
      simp [here, rest]

/-- Putting a key where it belongs keeps the list sorted. -/
theorem Cut.sorted_insert [Std.TransCmp cmp] (cut : Cut (cmp · key) xs lo none hi)
    (sorted : Sorted cmp xs) : Sorted cmp (lo ++ key :: hi) := by
  obtain ⟨rfl, lt, -, gt⟩ := cut
  rw [Option.toList_none, List.append_nil] at sorted
  obtain ⟨sortedLo, sortedHi, across⟩ := List.pairwise_append.mp sorted
  refine List.pairwise_append.mpr ⟨sortedLo, List.pairwise_cons.mpr ⟨?_, sortedHi⟩, ?_⟩
  · intro b mem
    exact Std.OrientedCmp.lt_of_gt (gt b mem)
  · intro a memA b memB
    rcases List.mem_cons.mp memB with rfl | old
    · exact lt a memA
    · exact across a memA b old

theorem Cut.sorted_erase {dir : α → Ordering} (cut : Cut dir xs lo mid hi)
    (sorted : Sorted cmp xs) : Sorted cmp (lo ++ hi) := by
  refine List.Pairwise.sublist ?_ sorted
  rw [cut.eq, List.append_assoc]
  exact List.Sublist.append_left (List.sublist_append_right _ _) lo

/-- The numbers below, at and above a number in a sorted list. -/
theorem sorted_split {ι : Type u} [LinearOrder ι] {numbers : List ι}
    (sorted : numbers.Pairwise (· < ·)) (k : ι) :
    numbers = numbers.filter (· < k) ++ (if k ∈ numbers then [k] else []) ++
      numbers.filter (k < ·) := by
  induction numbers with
  | nil => rfl
  | cons i numbers ih =>
      obtain ⟨above, rest⟩ := List.pairwise_cons.mp sorted
      have tail := ih rest
      rcases lt_trichotomy i k with less | rfl | more
      · have apart : k ≠ i := ne_of_gt less
        simpa [less, apart, not_lt.mpr (le_of_lt less)] using tail
      · have none_ : numbers.filter (· < i) = [] := by
          simpa [List.filter_eq_nil_iff] using fun j mem => le_of_lt (above j mem)
        have all : numbers.filter (i < ·) = numbers := by
          simpa [List.filter_eq_self] using above
        simp [none_, all]
      · have none_ : numbers.filter (· < k) = [] := by
          simpa [List.filter_eq_nil_iff] using fun j mem => le_of_lt (more.trans (above j mem))
        have all : numbers.filter (k < ·) = numbers := by
          simpa [List.filter_eq_self] using fun j mem => more.trans (above j mem)
        have out : k ∉ numbers := fun mem => absurd (above k mem) (not_lt.mpr (le_of_lt more))
        simp [none_, all, out, more, ne_of_lt more, not_lt.mpr (le_of_lt more)]

/-- Keys that are numbered in order are cut by the numbers. -/
theorem cut_of_numbers {ι : Type u} [LinearOrder ι] {g : ι → α} {dir : α → Ordering}
    {numbers : List ι} (sorted : numbers.Pairwise (· < ·)) (k : ι)
    (dir_ : ∀ i ∈ numbers, dir (g i) = compare i k) :
    Cut dir (numbers.map g) ((numbers.filter (· < k)).map g)
      (if k ∈ numbers then some (g k) else none) ((numbers.filter (k < ·)).map g) := by
  constructor
  · have parts := congrArg (List.map g) (sorted_split sorted k)
    rw [List.map_append, List.map_append] at parts
    rw [parts]
    split <;> simp
  · intro a mem
    obtain ⟨i, here, rfl⟩ := List.mem_map.mp mem
    obtain ⟨old, less⟩ := List.mem_filter.mp here
    rw [dir_ i old, compare_lt_iff_lt]
    exact of_decide_eq_true less
  · intro a mem
    split at mem
    · rename_i old
      obtain rfl := Option.some.inj mem
      rw [dir_ k old, compare_eq_iff_eq]
    · cases mem
  · intro a mem
    obtain ⟨i, here, rfl⟩ := List.mem_map.mp mem
    obtain ⟨old, more⟩ := List.mem_filter.mp here
    rw [dir_ i old, compare_gt_iff_gt]
    exact of_decide_eq_true more

end Sorted

/-! ### Red-black trees -/

/-- The red-black invariant: no red node has a red child, and all paths down have the
same number of black nodes, the black height. -/
inductive RedBlack : CTree α → Color → Nat → Prop where
  | leaf : RedBlack .leaf .black 0
  | red {l r : CTree α} {key : α} {n : Nat} :
      RedBlack l .black n → RedBlack r .black n → RedBlack (.node .red l key r) .red n
  | black {l r : CTree α} {key : α} {c c' : Color} {n : Nat} :
      RedBlack l c n → RedBlack r c' n → RedBlack (.node .black l key r) .black (n + 1)

/-- The red-black invariant of what is above a place, by the colour of the node above
it and the black height it needs there. -/
inductive Fits : Trail α → Color → Nat → Prop where
  | nil {n : Nat} : Fits [] .black n
  | red {p : Trail α} {side : Side} {key : α} {sibling : CTree α} {n : Nat} :
      RedBlack sibling .black n → Fits p .black n → Fits (⟨side, .red, key, sibling⟩ :: p) .red n
  | black {p : Trail α} {side : Side} {key : α} {sibling : CTree α} {c c' : Color} {n : Nat} :
      RedBlack sibling c n → Fits p c' (n + 1) → Fits (⟨side, .black, key, sibling⟩ :: p) .black n

theorem RedBlack.join_red {side : Side} {key : α} {near far : CTree α}
    (hn : RedBlack near .black n) (hf : RedBlack far .black n) :
    RedBlack (CTree.join side .red near key far) .red n := by
  cases side with
  | left => exact .red hn hf
  | right => exact .red hf hn

theorem RedBlack.join_black {side : Side} {key : α} {near far : CTree α} {c' : Color}
    (hn : RedBlack near c n) (hf : RedBlack far c' n) :
    RedBlack (CTree.join side .black near key far) .black (n + 1) := by
  cases side with
  | left => exact .black hn hf
  | right => exact .black hf hn

/-- Painting the root black. -/
theorem RedBlack.paint (bal : RedBlack t c n) : ∃ m, RedBlack (t.paint .black) .black m := by
  cases bal with
  | leaf => exact ⟨0, .leaf⟩
  | red hl hr => exact ⟨n + 1, .black hl hr⟩
  | black hl hr => exact ⟨_, .black hl hr⟩

/-- A balanced subtree in a place that fits. -/
theorem Fits.plug {c' : Color} (fits : Fits p c' n) (bal : RedBlack t c n)
    (apart : c' = .red → c = .black) : ∃ c m, RedBlack (plug t p) c m := by
  induction p generalizing t c c' n with
  | nil => exact ⟨c, n, bal⟩
  | cons f p ih =>
      cases fits with
      | red sib above =>
          obtain rfl := apart rfl
          exact ih above (bal.join_red sib) fun no => nomatch no
      | black sib above => exact ih above (bal.join_black sib) fun _ => rfl

/-- A place with a black root always fits. -/
theorem Fits.plug_black {c' : Color} (fits : Fits p c' n) (bal : RedBlack t .black n) :
    ∃ c m, RedBlack (SearchTree.plug t p) c m :=
  fits.plug bal fun _ => rfl

/-- The colour and the black height of a balanced tree are determined. -/
theorem RedBlack.unique {c' : Color} {m : Nat} (bal : RedBlack t c n) (other : RedBlack t c' m) :
    c = c' ∧ n = m := by
  induction bal generalizing c' m with
  | leaf =>
      cases other
      exact ⟨rfl, rfl⟩
  | red _ _ ih _ =>
      cases other with
      | red hl _ => exact ⟨rfl, (ih hl).2⟩
  | black _ _ ih _ =>
      cases other with
      | black hl _ => exact ⟨rfl, congrArg _ (ih hl).2⟩

/-- What a balanced node says about the place in it and its sibling. -/
theorem RedBlack.of_fill {m : Nat} (bal : RedBlack (f.fill t) c m) :
    (f.color = .red ∧ c = .red ∧ RedBlack t .black m ∧ RedBlack f.sibling .black m) ∨
      (f.color = .black ∧ c = .black ∧
        ∃ n c₁ c₂, m = n + 1 ∧ RedBlack t c₁ n ∧ RedBlack f.sibling c₂ n) := by
  obtain ⟨side, color, key, sibling⟩ := f
  cases side with
  | left =>
      cases bal with
      | red hl hr => exact Or.inl ⟨rfl, rfl, hl, hr⟩
      | black hl hr => exact Or.inr ⟨rfl, rfl, _, _, _, rfl, hl, hr⟩
  | right =>
      cases bal with
      | red hl hr => exact Or.inl ⟨rfl, rfl, hr, hl⟩
      | black hl hr => exact Or.inr ⟨rfl, rfl, _, _, _, rfl, hr, hl⟩

/-- Every place of a balanced tree is balanced, and what is above it fits. -/
theorem RedBlack.place (bal : RedBlack (plug t p) .black n) :
    ∃ c c' m, RedBlack t c m ∧ Fits p c' m ∧ (c' = .red → c = .black) := by
  induction p generalizing t with
  | nil => exact ⟨.black, .black, n, bal, .nil, fun no => nomatch no⟩
  | cons f p ih =>
      obtain ⟨c, c', m, balFill, fits, apart⟩ := ih bal
      obtain ⟨side, color, key, sibling⟩ := f
      rcases balFill.of_fill with ⟨rfl, rfl, here, sib⟩ | ⟨rfl, rfl, k, c₁, c₂, rfl, here, sib⟩
      · cases c' with
        | red => exact nomatch apart rfl
        | black => exact ⟨.black, .red, m, here, .red sib fits, fun _ => rfl⟩
      · exact ⟨c₁, .black, k, here, .black sib fits, fun no => nomatch no⟩

/-- A subtree that is balanced wherever the one in its place is. -/
theorem RedBlack.replace {t' : CTree α} (same : ∀ c n, RedBlack t c n → RedBlack t' c n)
    (bal : RedBlack (SearchTree.plug t p) c n) : RedBlack (SearchTree.plug t' p) c n := by
  induction p generalizing t t' with
  | nil => exact same c n bal
  | cons f p ih =>
      refine ih ?_ bal
      intro c n balFill
      obtain ⟨side, color, key, sibling⟩ := f
      rcases balFill.of_fill with ⟨rfl, rfl, here, sib⟩ | ⟨rfl, rfl, k, c₁, c₂, rfl, here, sib⟩
      · exact (same _ _ here).join_red sib
      · exact (same _ _ here).join_black sib

/-- The black height that a place needs, if it is not the root. -/
theorem Fits.unique {c' : Color} {m : Nat} (fits : Fits (f :: p) c n)
    (other : Fits (f :: p) c' m) : n = m := by
  cases fits with
  | red sib _ =>
      cases other with
      | red sib' _ => exact (sib.unique sib').2
  | black sib _ =>
      cases other with
      | black sib' _ => exact (sib.unique sib').2

/-! ### Sizes -/

/-- The number of nodes on the longest way down. -/
def CTree.depth : CTree α → Nat
  | .leaf => 0
  | .node _ l _ r => max l.depth r.depth + 1

/-- A red root costs one more level than a black one. -/
def Color.extra : Color → Nat
  | .red => 1
  | .black => 0

@[simp] theorem extra_red : Color.red.extra = 1 := rfl

@[simp] theorem extra_black : Color.black.extra = 0 := rfl

/-- At least `2 ^ n - 1` keys for the black height. -/
theorem RedBlack.size (bal : RedBlack t c n) : 2 ^ n ≤ t.toList.length + 1 := by
  induction bal with
  | leaf => simp
  | red _ _ ihl ihr =>
      simp only [toList_node, List.length_append, List.length_cons]
      omega
  | black _ _ ihl ihr =>
      simp only [toList_node, List.length_append, List.length_cons, Nat.pow_succ]
      omega

/-- At most every other node on a way down is red. -/
theorem RedBlack.depth_le (bal : RedBlack t c n) : t.depth ≤ 2 * n + c.extra := by
  induction bal with
  | leaf => simp [CTree.depth]
  | red _ _ ihl ihr =>
      simp only [CTree.depth, extra_red, extra_black] at ihl ihr ⊢
      omega
  | @black l r key c c' n _ _ ihl ihr =>
      have costL : c.extra ≤ 1 := by cases c <;> decide
      have costR : c'.extra ≤ 1 := by cases c' <;> decide
      simp only [CTree.depth, extra_black] at ihl ihr ⊢
      omega

/-- The depth of a balanced tree with a black root is logarithmic in its number of keys. -/
theorem RedBlack.depth_log (bal : RedBlack t .black n) :
    t.depth ≤ 2 * Nat.log 2 (t.toList.length + 1) := by
  have height : n ≤ Nat.log 2 (t.toList.length + 1) :=
    Nat.le_log_of_pow_le (by decide) bal.size
  have depth := bal.depth_le
  rw [extra_black] at depth
  omega

end Rfsis.SearchTree
