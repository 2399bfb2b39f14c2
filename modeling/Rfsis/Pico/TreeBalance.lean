import Rfsis.Pico.Tree

/-!
How well `pico_tree.c` keeps its trees balanced.

Insertion is the usual one (`fixInsertCollisions_balanced`). Deletion is not: the
loop that makes up for a missing black node stops at once when the place it starts
from is `LEAF`, and that is where it has to start in a red-black tree, since a black
node that is taken out has a red child or none (`unlink_balanced_iff`).

* `tree_balanced_iff` — a run keeps the tree red-black exactly if no deletion takes
  out a black node without a child that is not the root.
* `tree_depth` — so a tree without deletions has logarithmic depth.
-/

namespace Rfsis.Pico

open Rfsis.SearchTree Rfsis.Transition

universe u

variable {α : Type u} {cmp : α → α → Ordering} {t l r : CTree α} {p : Trail α} {leaf c : Color}
  {key k : α} {n : Nat}

/-! ### Balance after insertions -/

theorem colorOf_balanced (bal : RedBlack t c n) : colorOf .black t = c := by
  cases bal <;> rfl

/-- Both loops end by painting the root. -/
theorem setColor_balanced (bal : RedBlack t c n) :
    (setColor .black .black t).2 = .black ∧
      ∃ m, RedBlack (setColor .black .black t).1 .black m := by
  obtain ⟨m, painted⟩ := bal.paint
  cases bal <;> exact ⟨rfl, m, painted⟩

/-- A red node below a red parent that is the root. -/
theorem setColor_join_balanced {side : Side} {near far : CTree α} (balNear : RedBlack near .red n)
    (balFar : RedBlack far .black n) :
    (setColor .black .black (CTree.join side .red near key far)).2 = .black ∧
      ∃ m, RedBlack (setColor .black .black (CTree.join side .red near key far)).1 .black m := by
  have joined : RedBlack (CTree.join side .black near key far) .black (n + 1) :=
    balNear.join_black balFar
  cases side <;> exact ⟨rfl, _, joined⟩

/-- The two rotations below a black uncle. -/
theorem rotated_balanced {node : CTree α} (parent granpa : Frame α) {c' : Color}
    (bal : RedBlack node .red n) (red : parent.color = .red)
    (sib : RedBlack parent.sibling .black n) (uncle : RedBlack granpa.sibling c' n)
    (black : c' = .black) :
    let child := if parent.side = granpa.side then parent.fill node
      else rotate granpa.side (parent.fill node)
    RedBlack (rotate granpa.side.flip ({ granpa with color := .red }.fill (child.paint .black)))
      .black (n + 1) := by
  obtain ⟨pside, pc, pk, ps⟩ := parent
  obtain ⟨gside, gc, gk, gs⟩ := granpa
  obtain rfl := red
  obtain rfl := black
  cases bal with
  | red hl hr =>
      cases pside <;> cases gside
      · exact .black (.red hl hr) (.red sib uncle)
      · exact .black (.red uncle hl) (.red hr sib)
      · exact .black (.red sib hl) (.red hr uncle)
      · exact .black (.red uncle sib) (.red hl hr)

/-- From a red node that may have a red parent. -/
theorem fixInsertCollisions_balanced {node : CTree α} (bal : RedBlack node .red n)
    (fits : Fits p c n) (black : leaf = .black) :
    (fixInsertCollisions leaf node p).2 = .black ∧
      ∃ m, RedBlack (fixInsertCollisions leaf node p).1 .black m := by
  fun_induction fixInsertCollisions leaf node p generalizing c n with
  | case1 leaf node parent granpa above red uncle =>
      rename_i ih
      obtain ⟨pside, pc, pk, ps⟩ := parent
      obtain ⟨gside, gc, gk, gs⟩ := granpa
      obtain rfl := red
      obtain rfl := black
      cases fits with
      | red sib fits =>
          cases fits with
          | black uncleBal fits =>
              cases uncleBal with
              | leaf => cases uncle
              | black => cases uncle
              | red hl hr => exact ih ((bal.join_black sib).join_red (.black hl hr)) fits rfl
  | case2 leaf node parent granpa above red uncle =>
      obtain ⟨pside, pc, pk, ps⟩ := parent
      obtain ⟨gside, gc, gk, gs⟩ := granpa
      obtain rfl := red
      obtain rfl := black
      cases fits with
      | red sib fits =>
          cases fits with
          | @black _ _ _ _ c' _ _ uncleBal fits =>
              have dark : c' = .black := by
                cases c' with
                | black => rfl
                | red => exact absurd (colorOf_balanced uncleBal) uncle
              have rotated := rotated_balanced ⟨pside, .red, pk, ps⟩ ⟨gside, .black, gk, gs⟩
                bal rfl sib uncleBal dark
              obtain ⟨c, m, whole⟩ := fits.plug_black rotated
              exact setColor_balanced whole
  | case3 leaf node parent granpa above notRed =>
      obtain rfl := black
      cases fits with
      | red => exact absurd rfl notRed
      | black sib fits =>
          obtain ⟨c, m, whole⟩ := fits.plug_black (bal.join_black sib)
          exact setColor_balanced whole
  | case4 leaf node path short =>
      obtain rfl := black
      cases fits with
      | nil => exact setColor_balanced bal
      | @red above side key sibling _ sib fits =>
          cases above with
          | nil => exact setColor_join_balanced bal sib
          | cons granpa above => exact absurd rfl (short _ granpa above)
      | black sib fits =>
          obtain ⟨c, m, whole⟩ := fits.plug_black (bal.join_black sib)
          exact setColor_balanced whole

/-! ### Balance after deletions -/

/-- The place of a root is not seen from below. -/
theorem plug_color {leaf : Color} {t t' : CTree α} {f : Frame α} :
    colorOf leaf (plug t (f :: p)) = colorOf leaf (plug t' (f :: p)) := by
  induction p generalizing t t' f with
  | nil =>
      obtain ⟨side, c, key, sibling⟩ := f
      cases side <;> rfl
  | cons g p ih => exact ih

/-- A balanced tree in the place of another one, in a tree with a black root. -/
theorem replace_balanced {t' : CTree α} {f : Frame α} {c' : Color} {m : Nat}
    (bal : RedBlack (plug t (f :: p)) .black n) (fits : Fits (f :: p) c' m)
    (bal' : RedBlack t' .black m) : ∃ m, RedBlack (plug t' (f :: p)) .black m := by
  obtain ⟨c, k, whole⟩ := fits.plug_black bal'
  have root : c = .black :=
    calc
      c = colorOf .black (plug t' (f :: p)) := (colorOf_balanced whole).symm
      _ = colorOf .black (plug t (f :: p)) := plug_color
      _ = .black := colorOf_balanced bal
  exact ⟨k, root ▸ whole⟩

/-- The node that is taken out is red, or has a child, or is alone. -/
def TakenOut.Safe (out : TakenOut α) : Prop :=
  out.nodeColor = .red ∨ out.temp ≠ .leaf ∨ out.path = []

/-- A deletion takes a node with a leaf below it out of a red-black tree: that of its
key, or the next one after the two have changed places. -/
theorem takenOut_place (bal : RedBlack (plug (.node c l k r) p) .black n) :
    let out := picoTreeDeleteCheckSwitch c l r p
    ∃ side key,
      RedBlack (plug (CTree.join side out.nodeColor out.temp key .leaf) out.path) .black n := by
  intro out
  simp only [out]
  unfold picoTreeDeleteCheckSwitch
  split
  · exact ⟨.right, k, bal⟩
  · exact ⟨.left, k, bal⟩
  · rename_i l' r' some_l some_r
    cases r with
    | leaf => exact absurd rfl some_r
    | node cr lr kr rr =>
        obtain ⟨c', min, r', down, first, whole, -⟩ := picoTreeFirstNode_spec cr lr rr kr []
        rw [List.append_nil] at first
        have swapped : RedBlack (plug (.node c l min (.node cr lr kr rr)) p) .black n := by
          refine bal.replace fun _ _ here => ?_
          cases here with
          | red hl hr => exact .red hl hr
          | black hl hr => exact .black hl hr
        refine ⟨.right, min, ?_⟩
        rw [← whole] at swapped
        simpa [picoTreeDeleteNode, first, plug_append, plug, Frame.fill, CTree.join] using swapped

/-- Taking a node out of a red-black tree. -/
theorem unlink_balanced_iff {side : Side} {temp : CTree α}
    (bal : RedBlack (plug (CTree.join side c temp key .leaf) p) .black n) :
    let left := if c = .black then fixDeleteCollisions .black temp p else (plug temp p, .black)
    left.2 = .black ∧
      ((∃ m, RedBlack left.1 .black m) ↔ c = .red ∨ temp ≠ .leaf ∨ p = []) := by
  obtain ⟨c', c'', m, here, fits, -⟩ := bal.place
  have node := RedBlack.of_fill (f := ⟨side, c, key, .leaf⟩) here
  rcases node with ⟨rfl, -, balTemp, -⟩ | ⟨rfl, -, h, c₁, c₂, rfl, balTemp, balLeaf⟩
  · -- a red node is not the root, and both its children are leaves
    refine ⟨rfl, iff_of_true ?_ (Or.inl rfl)⟩
    cases p with
    | nil => cases side <;> cases bal
    | cons f p => exact replace_balanced bal fits balTemp
  · cases balLeaf
    simp only [if_true]
    cases balTemp with
    | leaf =>
        have stop : fixDeleteCollisions .black .leaf p = (plug .leaf p, .black) := by
          simp [fixDeleteCollisions]
        rw [stop]
        refine ⟨rfl, ?_⟩
        cases p with
        | nil => exact iff_of_true ⟨0, .leaf⟩ (by simp)
        | cons f p =>
            refine iff_of_false ?_ (by simp)
            rintro ⟨m, whole⟩
            obtain ⟨c₃, c₄, h, balLeaf, fits', -⟩ := whole.place
            cases balLeaf
            exact absurd (fits.unique fits') (by simp)
    | red hl hr =>
        -- the child is red, and painting it black is all that is needed
        cases p with
        | nil => exact ⟨rfl, iff_of_true ⟨1, .black hl hr⟩ (by simp)⟩
        | cons f p => exact ⟨rfl, iff_of_true (replace_balanced bal fits (.black hl hr)) (by simp)⟩

/-! ### Runs that keep the balance -/

/-- A red-black tree, with a black `LEAF`. -/
def TreeState.InShape (s : TreeState α) : Prop :=
  s.leafColor = .black ∧ ∃ n, RedBlack s.root .black n

/-- What a call must not do: take out a black leaf that is not the root. -/
def KeepsBalance (cmp : α → α → Ordering) (s : TreeState α) : TreeCall α → Prop
  | .delete key =>
      match picoTreeFindNode cmp key s.root with
      | (.leaf, _) => True
      | (.node c l _ r, p) => (picoTreeDeleteCheckSwitch c l r p).Safe
  | .others leafColor => leafColor = .black
  | _ => True

theorem picoTreeInsert_balanced (bal : RedBlack t .black n) :
    (picoTreeInsert cmp key t .black).2.2 = .black ∧
      ∃ m, RedBlack (picoTreeInsert cmp key t .black).2.1 .black m := by
  unfold picoTreeInsert
  split
  · exact ⟨rfl, n, bal⟩
  · have place : plug .leaf (picoTreeInsertNode cmp key t) = t := by
      have down := plug_search (fun k => if cmp key k = .lt then .gt else .lt) t []
      rwa [search_leaf (fun k => by split <;> simp) t []] at down
    obtain ⟨c, c', m, balLeaf, fits, -⟩ := RedBlack.place (place ▸ bal)
    cases balLeaf
    exact fixInsertCollisions_balanced (.red .leaf .leaf) fits rfl

theorem picoTreeDelete_balanced_iff (cmp : α → α → Ordering) (key : α) (bal : RedBlack t .black n) :
    (picoTreeDelete cmp key t .black).2.2 = .black ∧
      ((∃ m, RedBlack (picoTreeDelete cmp key t .black).2.1 .black m) ↔
        match picoTreeFindNode cmp key t with
        | (.leaf, _) => True
        | (.node c l _ r, p) => (picoTreeDeleteCheckSwitch c l r p).Safe) := by
  have whole : plug (picoTreeFindNode cmp key t).1 (picoTreeFindNode cmp key t).2 = t :=
    plug_search _ t []
  unfold picoTreeDelete
  generalize picoTreeFindNode cmp key t = found at whole ⊢
  obtain ⟨node, p⟩ := found
  cases node with
  | leaf => exact ⟨rfl, iff_of_true ⟨n, bal⟩ trivial⟩
  | node c l k r =>
      obtain ⟨side, key, place⟩ := takenOut_place (whole ▸ bal)
      have taken := unlink_balanced_iff place
      dsimp only at taken ⊢
      split
      · rename_i dark
        rwa [if_pos dark] at taken
      · rename_i red
        rwa [if_neg red] at taken

theorem TreeState.InShape.step_iff {s s' : TreeState α} {call : TreeCall α} (start : s.InShape)
    (taken : treeStep cmp s call = some s') : s'.InShape ↔ KeepsBalance cmp s call := by
  obtain ⟨black, n, bal⟩ := start
  cases call with
  | insert key =>
      obtain rfl := Option.some.inj taken
      exact iff_of_true (black ▸ picoTreeInsert_balanced bal) trivial
  | delete key =>
      obtain rfl := Option.some.inj taken
      obtain ⟨dark, iff_⟩ := picoTreeDelete_balanced_iff cmp key bal
      rw [TreeState.InShape, black]
      exact (and_iff_right dark).trans iff_
  | find key =>
      cases taken
      exact iff_of_true ⟨black, n, bal⟩ trivial
  | others leafColor =>
      cases taken
      exact ⟨fun after => after.1, fun dark => ⟨dark, n, bal⟩⟩

/-- A run keeps the tree red-black exactly if no deletion takes out a black node without
a child that is not the root, and no other tree leaves `LEAF` red. -/
theorem tree_balanced_iff {calls : List (TreeCall α)} {s : TreeState α}
    (run : TreeRun cmp calls s) :
    Throughout (treeStep cmp) TreeState.InShape {} calls ↔
      Meets (treeStep cmp) (KeepsBalance cmp) {} calls := by
  have any : Meets (treeStep cmp) (fun _ _ => True) {} calls :=
    Meets.of_forall (fun _ _ => trivial) _ calls
  refine Throughout.iff_meets ⟨rfl, 0, .leaf⟩ ?_ any run
  intro es u call v _ _ start _ taken
  exact start.step_iff taken

instance [DecidableEq α] (out : TakenOut α) : Decidable out.Safe :=
  inferInstanceAs (Decidable (_ ∨ _))

instance [DecidableEq α] (cmp : α → α → Ordering) (s : TreeState α) :
    (call : TreeCall α) → Decidable (KeepsBalance cmp s call)
  | .delete key =>
      match found : picoTreeFindNode cmp key s.root with
      | (.leaf, _) => .isTrue (by simp [KeepsBalance, found])
      | (.node c l _ r, p) =>
          decidable_of_iff (picoTreeDeleteCheckSwitch c l r p).Safe (by simp [KeepsBalance, found])
  | .insert _ => .isTrue trivial
  | .find _ => .isTrue trivial
  | .others leafColor => inferInstanceAs (Decidable (leafColor = .black))

/-- After four insertions the least key has a black node without a child. -/
theorem tree_balanced_iff_lost : ¬ Throughout (treeStep compare) TreeState.InShape {}
    [.insert 1, .insert 2, .insert 3, .insert 4, .delete 1] := by
  obtain ⟨s, run⟩ := Run.total (treeStep_total (compare : Nat → Nat → Ordering)) {}
    [.insert 1, .insert 2, .insert 3, .insert 4, .delete 1]
  rw [tree_balanced_iff run]
  decide

/-- Without deletions the depth of a tree is logarithmic in the number of its keys. -/
theorem tree_depth {calls : List (TreeCall α)} {s : TreeState α} (run : TreeRun cmp calls s)
    (noDelete : ∀ key, .delete key ∉ calls) (noRed : .others .red ∉ calls) :
    s.root.depth ≤ 2 * Nat.log 2 (s.root.toList.length + 1) := by
  have start : TreeState.InShape ({} : TreeState α) := ⟨rfl, 0, .leaf⟩
  have redBlack : s.InShape := by
    refine Run.history (P := fun es u => (∀ call ∈ es, call ∈ calls) → u.InShape)
      (fun _ => start) ?_ run fun _ mem => mem
    intro es u call v _ ih taken part
    have before := ih fun call mem => part call (List.mem_append_left _ mem)
    have here := part call (List.mem_append_right _ (List.mem_singleton_self _))
    rw [before.step_iff taken]
    cases call with
    | insert key => trivial
    | delete key => exact absurd here (noDelete key)
    | find key => trivial
    | others leafColor =>
        cases leafColor with
        | red => exact absurd here noRed
        | black => rfl
  obtain ⟨-, n, bal⟩ := redBlack
  exact bal.depth_log

theorem tree_depth_seven : ∃ s, TreeRun compare ((List.range 7).map .insert) s ∧
    s.root.depth ≤ 2 * Nat.log 2 (s.root.toList.length + 1) := by
  obtain ⟨s, run⟩ := Run.total (treeStep_total (compare : Nat → Nat → Ordering)) {}
    ((List.range 7).map .insert)
  exact ⟨s, run, tree_depth run (by simp) (by simp)⟩

end Rfsis.Pico
