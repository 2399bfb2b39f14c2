import Rfsis.SearchTree
import Rfsis.Transition

/-!
`pico_tree.c`: the red-black tree under every table of the stack.

A node pointer is a place of a tree, its subtree and the path above it, and NULL
links are the one node `LEAF`. Its colour is a field like any other: the fixing
loops read it and write it, and all trees share it, so it is a part of the state
here (`leafColor`) that a call on another tree may change.

* `tree_refines` — in every run, whatever the colour of `LEAF`, a tree answers as a
  sorted list does, and its keys in order are that list.
* `tree_foreach` — the loops over a tree visit the keys in order, and in the reverse
  order.
-/

namespace Rfsis.Pico

open Rfsis.SearchTree Rfsis.Transition

universe u

variable {α : Type u} {cmp : α → α → Ordering} {t l r : CTree α} {p : Trail α} {leaf c : Color}
  {key k : α} {n : Nat}

/-! ### Nodes -/

/-- `x->color`, also of `LEAF`. -/
def colorOf (leaf : Color) : CTree α → Color
  | .leaf => leaf
  | .node c _ _ _ => c

/-- `x->color = c`, and the colour of `LEAF` after it. -/
def setColor (c leaf : Color) : CTree α → CTree α × Color
  | .leaf => (.leaf, c)
  | .node _ l key r => (.node c l key r, leaf)

/-- Down on one side as far as it goes. -/
def endNode (side : Side) : CTree α → Trail α → CTree α × Trail α
  | .leaf, p => (.leaf, p)
  | .node c l key r, p =>
      match side with
      | .left =>
          match l with
          | .leaf => (.node c l key r, p)
          | .node .. => endNode side l (⟨side, c, key, r⟩ :: p)
      | .right =>
          match r with
          | .leaf => (.node c l key r, p)
          | .node .. => endNode side r (⟨side, c, key, l⟩ :: p)

/-- Up to the nearest node that the place is not on the given side of; `none` is `LEAF`,
above the root. -/
def climb (side : Side) : CTree α → Trail α → Option (CTree α × Trail α)
  | _, [] => none
  | t, f :: p => if f.side = side then climb side (f.fill t) p else some (f.fill t, p)

/-- The neighbour on one side, in the order of the keys; `none` is `LEAF`. -/
def neighbour (side : Side) : CTree α → Trail α → Option (CTree α × Trail α)
  | .leaf, _ => none
  | .node c l key r, p =>
      let node := CTree.node c l key r
      match node.child side with
      | .leaf => climb side node p
      | child => some (endNode side.flip child (⟨side, c, key, node.child side.flip⟩ :: p))

/-- `pico_tree_firstNode`. -/
def picoTreeFirstNode : CTree α → Trail α → CTree α × Trail α := endNode .left

/-- `pico_tree_lastNode`. -/
def picoTreeLastNode : CTree α → Trail α → CTree α × Trail α := endNode .right

/-- `pico_tree_next`. -/
def picoTreeNext : CTree α → Trail α → Option (CTree α × Trail α) := neighbour .right

/-- `pico_tree_prev`. -/
def picoTreePrev : CTree α → Trail α → Option (CTree α × Trail α) := neighbour .left

/-- The keys that a loop visits from a node on, in at most `fuel` turns. -/
def visit (next : CTree α → Trail α → Option (CTree α × Trail α)) :
    Nat → Option (CTree α × Trail α) → List α
  | fuel + 1, some (.node c l key r, p) => key :: visit next fuel (next (.node c l key r) p)
  | _, _ => []

/-- `pico_tree_first`; the key of `LEAF` is NULL. -/
def picoTreeFirst (root : CTree α) : Option α :=
  match (picoTreeFirstNode root []).1 with
  | .leaf => none
  | .node _ _ key _ => some key

/-- `pico_tree_foreach`. -/
def picoTreeForeach (fuel : Nat) (root : CTree α) : List α :=
  visit picoTreeNext fuel (some (picoTreeFirstNode root []))

/-- `pico_tree_foreach_reverse`. -/
def picoTreeForeachReverse (fuel : Nat) (root : CTree α) : List α :=
  visit picoTreePrev fuel (some (picoTreeLastNode root []))

/-- `pico_tree_findNode`, from the root. -/
def picoTreeFindNode (cmp : α → α → Ordering) (key : α) (root : CTree α) : CTree α × Trail α :=
  search (fun k => cmp k key) root []

/-- `pico_tree_findKey`. -/
def picoTreeFindKey (cmp : α → α → Ordering) (key : α) (root : CTree α) : Option α :=
  match (picoTreeFindNode cmp key root).1 with
  | .leaf => none
  | .node _ _ k _ => some k

/-! ### Insertion -/

/-- `fix_insert_collisions`, from a red node. The source has each case twice, for a
parent on either side. -/
def fixInsertCollisions (leaf : Color) (node : CTree α) : Trail α → CTree α × Color
  | parent :: granpa :: above =>
      if parent.color = .red then
        if colorOf leaf granpa.sibling = .red then
          let temp := setColor .black leaf granpa.sibling
          let parent := { parent with color := .black }
          let granpa := { granpa with color := .red, sibling := temp.1 }
          fixInsertCollisions temp.2 (granpa.fill (parent.fill node)) above
        else
          -- after this the parent is black, and the loop ends
          let child :=
            if parent.side = granpa.side then parent.fill node
            else rotate granpa.side (parent.fill node)
          let granpa := { granpa with color := .red }
          let top := rotate granpa.side.flip (granpa.fill (child.paint .black))
          setColor .black leaf (plug top above)
      else setColor .black leaf (plug node (parent :: granpa :: above))
  | path => setColor .black leaf (plug node path)

/-- `pico_tree_insert_node`: the leaf where the new node goes. -/
def picoTreeInsertNode (cmp : α → α → Ordering) (key : α) (root : CTree α) : Trail α :=
  (search (fun k => if cmp key k = .lt then .gt else .lt) root []).2

/-- `pico_tree_insert`: the key that is there already, or none, and the tree. -/
def picoTreeInsert (cmp : α → α → Ordering) (key : α) (root : CTree α) (leaf : Color) :
    Option α × CTree α × Color :=
  match picoTreeFindKey cmp key root with
  | some localKey => (some localKey, root, leaf)
  | none =>
      let insert := CTree.node .red .leaf key .leaf
      (none, fixInsertCollisions leaf insert (picoTreeInsertNode cmp key root))

/-! ### Deletion -/

/-- What a deletion has taken out: the colour of the node that is gone from its place,
and what is in that place now. -/
structure TakenOut (α : Type u) where
  nodeColor : Color
  temp : CTree α
  path : Trail α

/-- `pico_tree_delete_node`: the least node of the right subtree takes the place and
the colour of the deleted one. -/
def picoTreeDeleteNode (c : Color) (l r : CTree α) (p : Trail α) : TakenOut α :=
  match picoTreeFirstNode r [] with
  | (.leaf, down) => ⟨.black, .leaf, down⟩
  | (.node nodeColor _ min temp, down) => ⟨nodeColor, temp, down ++ ⟨.right, c, min, l⟩ :: p⟩

/-- `pico_tree_delete_check_switch`. -/
def picoTreeDeleteCheckSwitch (c : Color) (l r : CTree α) (p : Trail α) : TakenOut α :=
  match l, r with
  | .leaf, r => ⟨c, r, p⟩
  | l, .leaf => ⟨c, l, p⟩
  | l, r => picoTreeDeleteNode c l r p

/-- The first part of the loop of `fix_delete_collisions`, for a red sibling: the parent
and what is above it afterwards. There is no rotation around `LEAF`. -/
def redSibling (leaf : Color) (parent : Frame α) : Frame α × Trail α × Color :=
  if colorOf leaf parent.sibling = .red then
    match parent.sibling with
    | .leaf => ({ parent with color := .red }, [], .black)
    | .node _ l key r =>
        let temp := CTree.node .black l key r
        ({ parent with color := .red, sibling := temp.child parent.side },
          [⟨parent.side, .black, key, temp.child parent.side.flip⟩], leaf)
  else (parent, [], leaf)

/-- What one turn of the loop leaves: it goes on from the parent, or it is done. -/
inductive Fixed (α : Type u) where
  | up (parent : CTree α) (leaf : Color)
  | done (top : CTree α) (leaf : Color)

/-- The subtree that the turn leaves. -/
def Fixed.tree : Fixed α → CTree α
  | .up parent _ => parent
  | .done top _ => top

/-- The rest of the loop, for a black sibling. After the inner rotation the source
has `temp = temp->parent->rightChild`, which is `temp` itself: it is the old sibling
that takes the colour of the parent, below the node that went up. The children of
`LEAF` are `LEAF`, which a rotation around a red sibling may have put in its place
while it is red. -/
def blackSibling (leaf : Color) (node : CTree α) (parent : Frame α) : Fixed α :=
  let side := parent.side
  match parent.sibling with
  | .leaf =>
      if leaf = .black then .up ({ parent with sibling := .leaf }.fill node) .red
      else .done ({ parent with color := .black, sibling := .leaf }.fill node) .black
  | .node _ l key r =>
      let temp := CTree.node .black l key r
      let near := temp.child side
      let far := temp.child side.flip
      if colorOf leaf near = .black ∧ colorOf leaf far = .black then
        .up ({ parent with sibling := .node .red l key r }.fill node) leaf
      else
        let dark := setColor .black leaf far
        let sibling :=
          if colorOf leaf far = .black then
            match near with
            | .leaf => (CTree.join side parent.color .leaf key dark.1, Color.black)
            | .node _ nl nkey nr =>
                let up := CTree.node .black nl nkey nr
                (CTree.join side .black (up.child side) nkey
                  (CTree.join side parent.color (up.child side.flip) key dark.1), dark.2)
          else (CTree.join side parent.color near key dark.1, dark.2)
        .done (rotate side ({ parent with color := .black, sibling := sibling.1 }.fill node))
          sibling.2

/-- `fix_delete_collisions`: from `LEAF`, a red node or the root it only sets a colour. -/
def fixDeleteCollisions (leaf : Color) : CTree α → Trail α → CTree α × Color
  | .leaf, p => (plug .leaf p, .black)
  | .node _ l key r, [] => (.node .black l key r, leaf)
  | .node .red l key r, p => (plug (.node .black l key r) p, leaf)
  | .node .black l key r, parent :: above =>
      let (parent, between, leaf) := redSibling leaf parent
      match blackSibling leaf (.node .black l key r) parent, between with
      | .up node leaf, [] => fixDeleteCollisions leaf node above
      | .up node leaf, between =>
          -- the parent is red here, and the loop ends
          (plug (node.paint .black) (between ++ above), leaf)
      | .done top leaf, between => setColor .black leaf (plug top (between ++ above))

/-- `pico_tree_delete`: the key that was there, if any, and the tree. -/
def picoTreeDelete (cmp : α → α → Ordering) (key : α) (root : CTree α) (leaf : Color) :
    Option α × CTree α × Color :=
  match picoTreeFindNode cmp key root with
  | (.leaf, _) => (none, root, leaf)
  | (.node c l lkey r, p) =>
      let out := picoTreeDeleteCheckSwitch c l r p
      if out.nodeColor = .black then (some lkey, fixDeleteCollisions leaf out.temp out.path)
      else (some lkey, plug out.temp out.path, leaf)

/-! ### Keys in order -/

@[simp] theorem setColor_toList (c leaf : Color) (t : CTree α) :
    (setColor c leaf t).1.toList = t.toList := by
  cases t <;> rfl

@[simp] theorem toList_join (side : Side) (c : Color) (near : CTree α) (key : α) (far : CTree α) :
    (CTree.join side c near key far).toList =
      (⟨side, c, key, far⟩ : Frame α).before ++ near.toList ++
        (⟨side, c, key, far⟩ : Frame α).after :=
  toList_fill ⟨side, c, key, far⟩ near

theorem fixInsertCollisions_toList (leaf : Color) (node : CTree α) (p : Trail α) :
    (fixInsertCollisions leaf node p).1.toList = before p ++ node.toList ++ after p := by
  fun_induction fixInsertCollisions leaf node p with
  | case1 leaf node parent granpa above red uncle temp parent' granpa' ih =>
      simp [ih, before, after, Frame.before, Frame.after, parent', granpa', temp]
  | case2 leaf node parent granpa above red uncle child granpa' top =>
      have child_ : child.toList = parent.before ++ node.toList ++ parent.after := by
        simp only [child]
        split <;> simp
      simp [toList_plug, before, after, Frame.before, Frame.after, top, granpa', child_]
  | case3 => simp [toList_plug]
  | case4 => simp [toList_plug]

theorem redSibling_keys (leaf : Color) (parent : Frame α) :
    before ((redSibling leaf parent).1 :: (redSibling leaf parent).2.1) = parent.before ∧
      after ((redSibling leaf parent).1 :: (redSibling leaf parent).2.1) = parent.after := by
  obtain ⟨side, c, key, sibling⟩ := parent
  unfold redSibling
  split
  · cases sibling with
    | leaf => cases side <;> simp [before, after, Frame.before, Frame.after]
    | node sc sl sk sr =>
        cases side <;> simp [before, after, Frame.before, Frame.after, CTree.child, Side.flip]
  · simp [before, after]

theorem blackSibling_toList (leaf : Color) (node : CTree α) (parent : Frame α) :
    (blackSibling leaf node parent).tree.toList =
      parent.before ++ node.toList ++ parent.after := by
  obtain ⟨side, c, key, sibling⟩ := parent
  cases sibling with
  | leaf =>
      simp only [blackSibling]
      split
      · cases side <;> simp [Fixed.tree, Frame.before, Frame.after]
      · cases side <;> simp [Fixed.tree, Frame.before, Frame.after]
  | node sc sl sk sr =>
      simp only [blackSibling]
      split
      · cases side <;> simp [Fixed.tree, Frame.before, Frame.after]
      · split
        · split
          · rename_i near
            cases side <;> simp [CTree.child] at near <;>
              simp [Fixed.tree, Frame.before, Frame.after, CTree.child, Side.flip, near]
          · rename_i nc nl nk nr near
            cases side <;> simp [CTree.child] at near <;>
              simp [Fixed.tree, Frame.before, Frame.after, CTree.child, Side.flip, near]
        · cases side <;> simp [Fixed.tree, Frame.before, Frame.after, CTree.child, Side.flip]

/-- One turn of the loop. -/
theorem turn_toList {leaf' : Color} {node : CTree α} {parent parent' : Frame α} {between : Trail α}
    {fixed : Fixed α} (red : redSibling leaf parent = (parent', between, leaf'))
    (black : blackSibling leaf' node parent' = fixed) :
    before between ++ fixed.tree.toList ++ after between =
      parent.before ++ node.toList ++ parent.after := by
  obtain ⟨bef, aft⟩ := redSibling_keys leaf parent
  rw [red] at bef aft
  simp only [before, after] at bef aft
  rw [← black, blackSibling_toList, ← bef, ← aft]
  simp

theorem fixDeleteCollisions_toList (leaf : Color) (node : CTree α) (p : Trail α) :
    (fixDeleteCollisions leaf node p).1.toList = before p ++ node.toList ++ after p := by
  fun_induction fixDeleteCollisions leaf node p with
  | case1 => simp [toList_plug]
  | case2 => simp [before, after]
  | case3 => simp [toList_plug]
  | case4 leaf l key r parent above parent' leaf' node leaf'' fixed red ih =>
      have turn := congrArg (before above ++ · ++ after above) (turn_toList red fixed)
      simpa [ih, Fixed.tree, before, after] using turn
  | case5 leaf l key r parent above parent' leaf' node leaf'' between some_ fixed red =>
      have turn := congrArg (before above ++ · ++ after above) (turn_toList red fixed)
      simpa [Fixed.tree, toList_plug, before_append, after_append, before, after] using turn
  | case6 leaf l key r parent above parent' leaf' top leaf'' between fixed red =>
      have turn := congrArg (before above ++ · ++ after above) (turn_toList red fixed)
      simpa [Fixed.tree, toList_plug, before_append, after_append, before, after] using turn

/-! ### Where a call ends -/

theorem picoTreeFindKey_eq {lo hi : List α} {mid : Option α}
    (cut : Cut (cmp · key) t.toList lo mid hi) : picoTreeFindKey cmp key t = mid := by
  cases mid with
  | none => simp [picoTreeFindKey, picoTreeFindNode, (search_none cut).1]
  | some k =>
      obtain ⟨c, l, r, place, -⟩ := search_some (p := []) cut
      simp [picoTreeFindKey, picoTreeFindNode, place]

/-- Insertion goes down to where the key belongs. It compares the other way round. -/
theorem picoTreeInsertNode_keys {lo hi : List α} (cut : Cut (cmp · key) t.toList lo none hi)
    (swap : ∀ a ∈ t.toList, cmp key a = (cmp a key).swap) :
    before (picoTreeInsertNode cmp key t) = lo ∧ after (picoTreeInsertNode cmp key t) = hi := by
  have turned : Cut (fun k => if cmp key k = .lt then .gt else .lt) t.toList lo none hi := by
    refine ⟨cut.eq, ?_, by simp, ?_⟩
    · intro a mem
      have here : a ∈ t.toList := by simp [cut.eq, mem]
      simp [swap a here, cut.lt a mem]
    · intro a mem
      have here : a ∈ t.toList := by simp [cut.eq, mem]
      simp [swap a here, cut.gt a mem]
  obtain ⟨-, bef, aft⟩ := search_none (p := []) turned
  simp only [before, after, List.nil_append, List.append_nil] at bef aft
  exact ⟨bef, aft⟩

theorem picoTreeInsert_spec (leaf : Color) {lo hi : List α} {mid : Option α}
    (cut : Cut (cmp · key) t.toList lo mid hi)
    (swap : ∀ a ∈ t.toList, cmp key a = (cmp a key).swap) :
    (picoTreeInsert cmp key t leaf).1 = mid ∧
      (picoTreeInsert cmp key t leaf).2.1.toList = lo ++ (mid.getD key) :: hi := by
  simp only [picoTreeInsert, picoTreeFindKey_eq cut]
  cases mid with
  | some k => simp [cut.eq]
  | none =>
      obtain ⟨bef, aft⟩ := picoTreeInsertNode_keys cut swap
      simp [fixInsertCollisions_toList, bef, aft]

theorem picoTreeFirstNode_spec (c : Color) (l r : CTree α) (key : α) (p : Trail α) :
    ∃ c' min r' down, picoTreeFirstNode (.node c l key r) p = (.node c' .leaf min r', down ++ p) ∧
      plug (.node c' .leaf min r') down = .node c l key r ∧ before down = [] := by
  induction l generalizing c key r p with
  | leaf => exact ⟨c, key, r, [], by simp [picoTreeFirstNode, endNode], rfl, rfl⟩
  | node cl ll kl rl ihl ihr =>
      obtain ⟨c', min, r', down, first, whole, bef⟩ := ihl cl rl kl (⟨.left, c, key, r⟩ :: p)
      refine ⟨c', min, r', down ++ [⟨.left, c, key, r⟩], ?_, ?_, ?_⟩
      · simpa [picoTreeFirstNode, endNode] using first
      · rw [plug_append, whole]
        rfl
      · simp [before_append, before, Frame.before, bef]

theorem picoTreeFirst_eq (t : CTree α) : picoTreeFirst t = t.toList.head? := by
  cases t with
  | leaf => simp [picoTreeFirst, picoTreeFirstNode, endNode]
  | node c l key r =>
      obtain ⟨c', min, r', down, first, whole, bef⟩ := picoTreeFirstNode_spec c l r key []
      rw [picoTreeFirst, first, ← whole, toList_plug, bef]
      simp

/-- Taking a node out takes its key out. -/
theorem takenOut_keys (c : Color) (l r : CTree α) (p : Trail α) :
    let out := picoTreeDeleteCheckSwitch c l r p
    before out.path ++ out.temp.toList ++ after out.path =
      before p ++ l.toList ++ r.toList ++ after p := by
  intro out
  simp only [out]
  unfold picoTreeDeleteCheckSwitch
  split
  · simp
  · simp
  · rename_i l' r' some_l some_r
    cases r with
    | leaf => exact absurd rfl some_r
    | node cr lr kr rr =>
        obtain ⟨c', min, r', down, first, whole, bef⟩ := picoTreeFirstNode_spec cr lr rr kr []
        have keys := congrArg CTree.toList whole
        simp only [toList_plug, bef, toList_node, toList_leaf, List.nil_append] at keys
        simp only [List.append_nil] at first
        simp [picoTreeDeleteNode, first, before_append, after_append, before, after, Frame.before,
          Frame.after, bef, ← keys]

theorem picoTreeDelete_spec (leaf : Color) {lo hi : List α} {mid : Option α}
    (cut : Cut (cmp · key) t.toList lo mid hi) :
    (picoTreeDelete cmp key t leaf).1 = mid ∧
      (picoTreeDelete cmp key t leaf).2.1.toList = lo ++ hi := by
  unfold picoTreeDelete picoTreeFindNode
  cases mid with
  | none =>
      obtain ⟨place, -⟩ := search_none (p := []) cut
      generalize search (cmp · key) t [] = found at place ⊢
      obtain ⟨node, p⟩ := found
      obtain rfl := place
      simp [cut.eq]
  | some k =>
      obtain ⟨c, l, r, place, bef, aft⟩ := search_some (p := []) cut
      generalize search (cmp · key) t [] = found at place bef aft ⊢
      obtain ⟨node, p⟩ := found
      obtain rfl := place
      have keys := takenOut_keys c l r p
      simp only [before, after, List.nil_append, List.append_nil] at bef aft keys
      rw [bef, List.append_assoc lo, aft] at keys
      dsimp only
      split
      · exact ⟨rfl, (fixDeleteCollisions_toList _ _ _).trans keys⟩
      · exact ⟨rfl, (toList_plug _ _).trans keys⟩

/-! ### Runs -/

/-- What is called on a tree. -/
inductive TreeCall (α : Type u) where
  | insert (key : α)
  | delete (key : α)
  | find (key : α)
  /-- Calls on other trees, and the colour that they leave in `LEAF`. -/
  | others (leafColor : Color)

/-- A tree, the colour of `LEAF`, and what the calls have returned. -/
structure TreeState (α : Type u) where
  root : CTree α := .leaf
  leafColor : Color := .black
  answers : List (Option α) := []

def treeStep (cmp : α → α → Ordering) (s : TreeState α) : TreeCall α → Option (TreeState α)
  | .insert key =>
      let out := picoTreeInsert cmp key s.root s.leafColor
      some ⟨out.2.1, out.2.2, s.answers ++ [out.1]⟩
  | .delete key =>
      let out := picoTreeDelete cmp key s.root s.leafColor
      some ⟨out.2.1, out.2.2, s.answers ++ [out.1]⟩
  | .find key => some { s with answers := s.answers ++ [picoTreeFindKey cmp key s.root] }
  | .others leafColor => some { s with leafColor }

/-- A run on a new tree. -/
abbrev TreeRun (cmp : α → α → Ordering) (calls : List (TreeCall α)) (s : TreeState α) : Prop :=
  Run (treeStep cmp) {} calls s

/-- What a tree is for: a sorted list of keys, one of each kind. -/
structure KeyTable (α : Type u) where
  keys : List α := []
  answers : List (Option α) := []

def keyStep (cmp : α → α → Ordering) (s : KeyTable α) : TreeCall α → Option (KeyTable α)
  | .insert key =>
      match s.keys.find? (fun k => cmp k key = .eq) with
      | some k => some { s with answers := s.answers ++ [some k] }
      | none =>
          some ⟨s.keys.orderedInsert (fun a b => cmp a b = .lt) key, s.answers ++ [none]⟩
  | .delete key =>
      some ⟨s.keys.eraseP (fun k => cmp k key = .eq),
        s.answers ++ [s.keys.find? (fun k => cmp k key = .eq)]⟩
  | .find key =>
      some { s with answers := s.answers ++ [s.keys.find? (fun k => cmp k key = .eq)] }
  | .others _ => some s

/-- The tree stands for the table. -/
structure StandsFor (cmp : α → α → Ordering) (s : TreeState α) (a : KeyTable α) : Prop where
  keys : s.root.toList = a.keys
  answers : s.answers = a.answers
  sorted : Sorted cmp a.keys

theorem StandsFor.step [Std.TransCmp cmp] {s s' : TreeState α} {a : KeyTable α}
    {call : TreeCall α} (stands : StandsFor cmp s a) (taken : treeStep cmp s call = some s') :
    ∃ a', keyStep cmp a call = some a' ∧ StandsFor cmp s' a' := by
  obtain ⟨keys, answers, sorted⟩ := stands
  cases call with
  | insert key =>
      obtain rfl := Option.some.inj taken
      obtain ⟨lo, mid, hi, cut⟩ := exists_cut sorted key
      obtain ⟨answer, left⟩ := picoTreeInsert_spec s.leafColor (keys ▸ cut)
        fun a _ => Std.OrientedCmp.eq_swap
      simp only [keyStep, cut.find?]
      cases mid with
      | some k => exact ⟨_, rfl, left.trans (by simp [cut.eq]), by simp [answer, answers], sorted⟩
      | none =>
          refine ⟨_, rfl, left.trans (by simp [cut.orderedInsert]), by simp [answer, answers], ?_⟩
          exact cut.orderedInsert ▸ cut.sorted_insert sorted
  | delete key =>
      obtain rfl := Option.some.inj taken
      obtain ⟨lo, mid, hi, cut⟩ := exists_cut sorted key
      obtain ⟨answer, left⟩ := picoTreeDelete_spec s.leafColor (keys ▸ cut)
      refine ⟨_, rfl, left.trans cut.eraseP.symm, by simp [answer, answers, cut.find?], ?_⟩
      exact cut.eraseP ▸ cut.sorted_erase sorted
  | find key =>
      cases taken
      obtain ⟨lo, mid, hi, cut⟩ := exists_cut sorted key
      have answer := picoTreeFindKey_eq (keys ▸ cut)
      exact ⟨_, rfl, keys, by simp [answer, answers, cut.find?], sorted⟩
  | others leafColor =>
      cases taken
      exact ⟨a, rfl, keys, answers, sorted⟩

/-- In every run, whatever colour `LEAF` gets, a tree answers every call as a sorted list
does, and its keys in order are that list. -/
theorem tree_refines [Std.TransCmp cmp] {calls : List (TreeCall α)} {s : TreeState α}
    (run : TreeRun cmp calls s) :
    ∃ a, Run (keyStep cmp) {} calls a ∧ s.root.toList = a.keys ∧ s.answers = a.answers ∧
      Sorted cmp a.keys := by
  have stands : ∃ a, Run (keyStep cmp) {} calls a ∧ StandsFor cmp s a := by
    refine Run.history (P := fun es u => ∃ a, Run (keyStep cmp) {} es a ∧ StandsFor cmp u a)
      ?_ ?_ run
    · exact ⟨{}, Run.nil_iff.mpr rfl, rfl, rfl, .nil⟩
    · rintro es u call v - ⟨a, part, stands⟩ taken
      obtain ⟨a', step, stands'⟩ := stands.step taken
      exact ⟨a', Run.snoc_iff.mpr ⟨a, part, step⟩, stands'⟩
  obtain ⟨a, part, keys, answers, sorted⟩ := stands
  exact ⟨a, part, keys, answers, sorted⟩

theorem treeStep_total (cmp : α → α → Ordering) (s : TreeState α) (call : TreeCall α) :
    ∃ s', treeStep cmp s call = some s' := by
  cases call <;> exact ⟨_, rfl⟩

/-- A tree of numbers, with a red `LEAF` after the deletion. -/
theorem tree_refines_numbers : ∃ s a,
    TreeRun compare [.insert 5, .insert 3, .delete 5, .others .red, .insert 4] s ∧
      Run (keyStep compare) {} [.insert 5, .insert 3, .delete 5, .others .red, .insert 4] a ∧
        s.root.toList = a.keys ∧ s.answers = a.answers := by
  obtain ⟨s, run⟩ := Run.total (treeStep_total (compare : Nat → Nat → Ordering)) {}
    [.insert 5, .insert 3, .delete 5, .others .red, .insert 4]
  obtain ⟨a, part, keys, answers, -⟩ := tree_refines run
  exact ⟨s, a, run, part, keys, answers⟩

/-! ### Walking over a tree -/

section Walk

variable {side : Side}

/-- The keys of a subtree in the order of a walk to the given side. -/
def walk (side : Side) (t : CTree α) : List α :=
  match side with
  | .left => t.toList.reverse
  | .right => t.toList

/-- The keys that a walk to the given side meets above a place. -/
def onward (side : Side) (p : Trail α) : List α :=
  match side with
  | .left => (before p).reverse
  | .right => after p

@[simp] theorem walk_leaf : walk side (.leaf : CTree α) = [] := by
  cases side <;> rfl

theorem walk_node (c : Color) (l r : CTree α) (key : α) :
    walk side (.node c l key r) = walk side ((CTree.node c l key r).child side.flip) ++
      key :: walk side ((CTree.node c l key r).child side) := by
  cases side <;> simp [walk, CTree.child, Side.flip]

theorem onward_same (c : Color) (key : α) (sibling : CTree α) (p : Trail α) :
    onward side (⟨side, c, key, sibling⟩ :: p) = onward side p := by
  cases side <;> simp [onward, before, after, Frame.before, Frame.after]

theorem onward_flip (c : Color) (key : α) (sibling : CTree α) (p : Trail α) :
    onward side (⟨side.flip, c, key, sibling⟩ :: p) =
      key :: walk side sibling ++ onward side p := by
  cases side <;> simp [onward, walk, Side.flip, before, after, Frame.before, Frame.after]

/-- The node at a place and the keys that a walk still has to visit from there. -/
def Visits (side : Side) (keys : List α) : Option (CTree α × Trail α) → Prop
  | none => keys = []
  | some (.leaf, _) => keys = []
  | some (.node c l key r, p) =>
      keys = key :: walk side ((CTree.node c l key r).child side) ++ onward side p

theorem climb_visits (t : CTree α) (p : Trail α) :
    Visits side (onward side p) (climb side t p) := by
  induction p generalizing t with
  | nil => cases side <;> rfl
  | cons f p ih =>
      obtain ⟨side', c, key, sibling⟩ := f
      by_cases same : side' = side
      · subst same
        simpa [climb, onward_same] using ih _
      · have other : side' = side.flip := by
          cases side <;> cases side' <;> simp_all [Side.flip]
        subst other
        rw [onward_flip]
        cases side <;> simp [climb, Visits, Frame.fill, CTree.join, CTree.child, Side.flip]

theorem endNode_visits (c : Color) (l r : CTree α) (key : α) (p : Trail α) :
    Visits side (walk side (.node c l key r) ++ onward side p)
      (some (endNode side.flip (.node c l key r) p)) := by
  cases side with
  | left =>
      induction r generalizing c l key p with
      | leaf => simp [endNode, Visits, walk_node, CTree.child, Side.flip]
      | node cr lr kr rr _ ih =>
          have below := ih cr lr kr (⟨.right, c, key, l⟩ :: p)
          have flip : onward .left (⟨.right, c, key, l⟩ :: p) = _ := onward_flip c key l p
          rw [flip] at below
          rw [walk_node c l (.node cr lr kr rr) key, List.append_assoc]
          exact below
  | right =>
      induction l generalizing c r key p with
      | leaf => simp [endNode, Visits, walk_node, CTree.child, Side.flip]
      | node cl ll kl rl ih _ =>
          have below := ih cl rl kl (⟨.left, c, key, r⟩ :: p)
          have flip : onward .right (⟨.left, c, key, r⟩ :: p) = _ := onward_flip c key r p
          rw [flip] at below
          rw [walk_node c (.node cl ll kl rl) r key, List.append_assoc]
          exact below

theorem neighbour_visits (c : Color) (l r : CTree α) (key : α) (p : Trail α) :
    Visits side (walk side ((CTree.node c l key r).child side) ++ onward side p)
      (neighbour side (.node c l key r) p) := by
  unfold neighbour
  dsimp only
  generalize CTree.child side.flip (.node c l key r) = sibling
  split
  · rename_i leaf
    rw [leaf, walk_leaf]
    exact climb_visits _ p
  · rename_i child some_
    generalize (CTree.node c l key r).child side = child at some_ ⊢
    cases child with
    | leaf => exact absurd rfl some_
    | node c' l' k' r' =>
        have down := @endNode_visits _ side c' l' r' k' (⟨side, c, key, sibling⟩ :: p)
        rwa [onward_same] at down

theorem visit_eq {keys : List α} {at_ : Option (CTree α × Trail α)} (visits : Visits side keys at_)
    (more : Nat) : visit (neighbour side) (keys.length + more) at_ = keys := by
  induction keys generalizing at_ with
  | nil =>
      match at_ with
      | none => simp [visit]
      | some (.leaf, p) => simp [visit]
      | some (.node c l key r, p) => simp [Visits] at visits
  | cons key keys ih =>
      match at_ with
      | none => simp [Visits] at visits
      | some (.leaf, p) => simp [Visits] at visits
      | some (.node c l k r, p) =>
          simp only [Visits, List.cons_append, List.cons.injEq] at visits
          obtain ⟨rfl, rfl⟩ := visits
          have rest := ih (neighbour_visits c l r key p)
          rw [List.length_cons, Nat.add_right_comm, visit, rest]

/-- The loops over a tree visit its keys in order, and in the reverse order, and end. -/
theorem tree_foreach (root : CTree α) (more : Nat) :
    picoTreeForeach (root.toList.length + more) root = root.toList ∧
      picoTreeForeachReverse (root.toList.length + more) root = root.toList.reverse := by
  cases root with
  | leaf => simp [picoTreeForeach, picoTreeForeachReverse, picoTreeFirstNode, picoTreeLastNode,
      endNode, visit]
  | node c l key r =>
      have first : Visits .right _ (some (picoTreeFirstNode (.node c l key r) [])) :=
        endNode_visits c l r key []
      have last : Visits .left _ (some (picoTreeLastNode (.node c l key r) [])) :=
        endNode_visits c l r key []
      simp only [walk, onward, before, after, List.reverse_nil, List.append_nil] at first last
      have backward := visit_eq last more
      rw [List.length_reverse] at backward
      exact ⟨visit_eq first more, backward⟩

end Walk

end Rfsis.Pico
