import Mathlib.Algebra.Group.Nat.Defs
import Mathlib.Data.List.Sort

/-! Red-black trees seen through their nodes: which node comes first, and where
the next one is found by local navigation. The rebalancing itself is left to the
operations that are given. -/

set_option autoImplicit false

namespace RedBlack

inductive Color where
  | black
  | red
deriving DecidableEq

inductive Tree (Node : Type) where
  | leaf
  | node (color : Color) (left : Tree Node) (name : Node) (right : Tree Node)
deriving DecidableEq

variable {Node : Type}

namespace Tree

/-- The nodes from left to right. -/
def toList : Tree Node → List Node
  | leaf => []
  | node _ left name right => left.toList ++ name :: right.toList

def root : Tree Node → Option Node
  | leaf => none
  | node _ _ name _ => some name

/-- No red node has a red child and every path down passes the same number of
black nodes. -/
inductive Balanced : Tree Node → Color → Nat → Prop where
  | leaf : Balanced leaf .black 0
  | red {left right : Tree Node} {name : Node} {height : Nat} :
      Balanced left .black height → Balanced right .black height →
        Balanced (node .red left name right) .red height
  | black {left right : Tree Node} {name : Node} {leftColor rightColor : Color} {height : Nat} :
      Balanced left leftColor height → Balanced right rightColor height →
        Balanced (node .black left name right) .black (height + 1)

/-- A red-black tree: the root is black. -/
def Valid (tree : Tree Node) : Prop := ∃ height, tree.Balanced .black height

/-- A red node takes the place of a leaf. -/
inductive AddsLeaf (added : Node) : Tree Node → Tree Node → Prop where
  | here : AddsLeaf added leaf (node .red leaf added leaf)
  | left {color : Color} {left grown right : Tree Node} {name : Node} :
      AddsLeaf added left grown →
        AddsLeaf added (node color left name right) (node color grown name right)
  | right {color : Color} {left right grown : Tree Node} {name : Node} :
      AddsLeaf added right grown →
        AddsLeaf added (node color left name right) (node color left name grown)

def insertLeaf (goesLeft : Node → Bool) (added : Node) : Tree Node → Tree Node
  | leaf => node .red leaf added leaf
  | node color left name right =>
    if goesLeft name then node color (left.insertLeaf goesLeft added) name right
    else node color left name (right.insertLeaf goesLeft added)

theorem insertLeaf_addsLeaf (goesLeft : Node → Bool) (added : Node) (tree : Tree Node) :
    AddsLeaf added tree (tree.insertLeaf goesLeft added) := by
  induction tree with
  | leaf => exact .here
  | node color left name right leftIH rightIH =>
    unfold insertLeaf
    split
    next => exact .left leftIH
    next => exact .right rightIH

/-- When all nodes behind one that passes the test pass it too, the added node stands in front of
the first that does. -/
theorem insertLeaf_toList {goesLeft : Node → Bool} {added : Node} {tree : Tree Node}
    (monotone : tree.toList.Pairwise fun earlier later => goesLeft earlier → goesLeft later) :
    ∃ before after, tree.toList = before ++ after ∧
      (tree.insertLeaf goesLeft added).toList = before ++ added :: after ∧
      (∀ name ∈ before, ¬ goesLeft name) ∧ ∀ name ∈ after, goesLeft name := by
  induction tree with
  | leaf => exact ⟨[], [], rfl, rfl, nofun, nofun⟩
  | node color left name right leftIH rightIH =>
    obtain ⟨leftMonotone, restMonotone, across⟩ := List.pairwise_append.mp monotone
    obtain ⟨behind, rightMonotone⟩ := List.pairwise_cons.mp restMonotone
    unfold insertLeaf
    split
    next passes =>
      obtain ⟨before, after, nodes, grown, fails, passing⟩ := leftIH leftMonotone
      refine ⟨before, after ++ name :: right.toList, ?_, ?_, fails, ?_⟩
      · rw [toList, nodes, List.append_assoc]
      · rw [toList, grown, List.append_assoc, List.cons_append]
      · intro other inside
        rcases List.mem_append.mp inside with inLeft | inRest
        · exact passing other inLeft
        · rcases List.mem_cons.mp inRest with rfl | inRight
          · exact passes
          · exact behind other inRight passes
    next stops =>
      obtain ⟨before, after, nodes, grown, fails, passing⟩ := rightIH rightMonotone
      refine ⟨left.toList ++ name :: before, after, ?_, ?_, ?_, passing⟩
      · rw [toList, nodes, List.append_assoc, List.cons_append]
      · rw [toList, grown, List.append_assoc, List.cons_append]
      · intro other inside
        rcases List.mem_append.mp inside with inLeft | inRest
        · exact fun passed => stops (across other inLeft name List.mem_cons_self passed)
        · rcases List.mem_cons.mp inRest with rfl | inBefore
          · exact stops
          · exact fails other inBefore

/-- Whether the way down to the added leaf never goes right. -/
def newMinimum (goesLeft : Node → Bool) : Tree Node → Bool
  | leaf => true
  | node _ left name _ => goesLeft name && left.newMinimum goesLeft

variable {tree : Tree Node} {color : Color}

theorem newMinimum_iff {goesLeft : Node → Bool}
    (monotone : tree.toList.Pairwise fun earlier later => goesLeft earlier → goesLeft later) :
    tree.newMinimum goesLeft ↔ ∀ first ∈ tree.toList.head?, goesLeft first := by
  induction tree with
  | leaf => exact iff_of_true rfl nofun
  | node color left name right leftIH _ =>
    obtain ⟨leftMonotone, -, across⟩ := List.pairwise_append.mp monotone
    rw [newMinimum, Bool.and_eq_true, leftIH leftMonotone, toList]
    cases leftNodes : left.toList with
    | nil => exact ⟨fun both first isFirst => Option.some.inj isFirst ▸ both.1,
        fun all => ⟨all name rfl, nofun⟩⟩
    | cons first rest =>
      have inLeft : first ∈ left.toList := leftNodes ▸ List.mem_cons_self
      exact ⟨fun both => both.2, fun all =>
        ⟨across first inLeft name List.mem_cons_self (all first rfl), all⟩⟩

/-- The node that is reached by going left only. -/
def minimum : Tree Node → Option Node
  | leaf => none
  | node _ left name _ => left.minimum.or (some name)

theorem minimum_eq (tree : Tree Node) : tree.minimum = tree.toList.head? := by
  induction tree with
  | leaf => rfl
  | node color left name right leftIH _ =>
    rw [minimum, leftIH, toList]
    cases left.toList <;> rfl

section Navigation

variable [DecidableEq Node]

def rightOf : Tree Node → Node → Option Node
  | leaf, _ => none
  | node _ left name right, wanted =>
    if name = wanted then right.root
    else (left.rightOf wanted).or (right.rightOf wanted)

def parentOf : Tree Node → Node → Option Node
  | leaf, _ => none
  | node _ left name right, wanted =>
    if left.root = some wanted ∨ right.root = some wanted then some name
    else (left.parentOf wanted).or (right.parentOf wanted)

variable {tree : Tree Node} {name : Node}

omit [DecidableEq Node] in
theorem root_mem (isRoot : tree.root = some name) : name ∈ tree.toList := by
  cases tree with
  | leaf => contradiction
  | node color left other right =>
    obtain rfl : other = name := Option.some.inj isRoot
    simp [toList]

private theorem rightOf_eq_none (absent : name ∉ tree.toList) : tree.rightOf name = none := by
  induction tree with
  | leaf => rfl
  | node color left other right leftIH rightIH =>
    simp only [toList, List.mem_append, List.mem_cons, not_or] at absent
    simp [rightOf, Ne.symm absent.2.1, leftIH absent.1, rightIH absent.2.2]

theorem parentOf_eq_none (absent : name ∉ tree.toList) : tree.parentOf name = none := by
  induction tree with
  | leaf => rfl
  | node color left other right leftIH rightIH =>
    simp only [toList, List.mem_append, List.mem_cons, not_or] at absent
    have leftRoot : left.root ≠ some name := fun isRoot => absent.1 (root_mem isRoot)
    have rightRoot : right.root ≠ some name := fun isRoot => absent.2.2 (root_mem isRoot)
    simp [parentOf, leftRoot, rightRoot, leftIH absent.1, rightIH absent.2.2]

theorem parentOf_root_eq_none {color : Color} {left right : Tree Node}
    (notLeft : name ∉ left.toList) (notRight : name ∉ right.toList) :
    (node color left name right).parentOf name = none := by
  have leftRoot : left.root ≠ some name := fun isRoot => notLeft (root_mem isRoot)
  have rightRoot : right.root ≠ some name := fun isRoot => notRight (root_mem isRoot)
  simp [parentOf, leftRoot, rightRoot, parentOf_eq_none notLeft, parentOf_eq_none notRight]

theorem parentOf_isSome (member : name ∈ tree.toList) (notRoot : tree.root ≠ some name) :
    (tree.parentOf name).isSome := by
  induction tree with
  | leaf => contradiction
  | node color left other right leftIH rightIH =>
    simp only [toList, List.mem_append, List.mem_cons] at member
    by_cases child : left.root = some name ∨ right.root = some name
    · simp [parentOf, child]
    · have children := not_or.mp child
      rcases member with inLeft | isRoot | inRight
      · simp [parentOf, child, leftIH inLeft children.1]
      · exact absurd (congrArg some isRoot.symm) notRoot
      · simp [parentOf, child, rightIH inRight children.2]

end Navigation

theorem Balanced.toList_eq_of_height_zero (balanced : tree.Balanced color 0) :
    tree = Tree.leaf ∨ ∃ name, tree = node .red Tree.leaf name Tree.leaf := by
  cases balanced with
  | leaf => exact .inl rfl
  | red left right =>
    cases left with
    | leaf =>
      cases right with
      | leaf => exact .inr ⟨_, rfl⟩

theorem Balanced.next_of_first [DecidableEq Node] {height : Nat} {first : Node} {rest : List Node}
    (balanced : tree.Balanced color height) (distinct : tree.toList.Nodup)
    (nodes : tree.toList = first :: rest) :
    (tree.rightOf first).or (tree.parentOf first) = rest.head? := by
  induction tree generalizing color height rest with
  | leaf => contradiction
  | node rootColor left name right leftIH _ =>
    obtain ⟨leftColor, rightColor, below, leftBalanced, rightBalanced⟩ :
        ∃ leftColor rightColor below, left.Balanced leftColor below ∧
          right.Balanced rightColor below := by
      cases balanced with
      | red left right | black left right => exact ⟨_, _, _, left, right⟩
    simp only [toList] at nodes distinct
    cases leftNodes : left.toList with
    | nil =>
      -- Without a left child there is no room for black nodes on the right.
      have leftLeaf : left = .leaf := by
        cases left with
        | leaf => rfl
        | node => simp [toList] at leftNodes
      subst left
      obtain rfl : below = 0 := by cases leftBalanced; rfl
      simp only [toList, List.nil_append, List.cons.injEq] at nodes
      obtain ⟨rfl, rfl⟩ := nodes
      rcases rightBalanced.toList_eq_of_height_zero with rfl | ⟨child, rfl⟩
      · simp [rightOf, parentOf, root, toList]
      · simp [rightOf, root, toList]
    | cons head leftRest =>
      rw [leftNodes] at nodes
      obtain ⟨rfl, rfl⟩ := List.cons.inj nodes
      have member : head ∈ left.toList := by rw [leftNodes]; exact List.mem_cons_self
      have leftDistinct : left.toList.Nodup := (List.nodup_append.mp distinct).1
      have apart : ∀ other ∈ name :: right.toList, head ≠ other :=
        (List.nodup_append.mp distinct).2.2 head member
      have notName : name ≠ head := (apart name List.mem_cons_self).symm
      have notRight : head ∉ right.toList := fun inRight => apart head (.tail _ inRight) rfl
      have rightRoot : right.root ≠ some head := fun isRoot => notRight (root_mem isRoot)
      have next := leftIH leftBalanced leftDistinct leftNodes
      have inLeft : (node rootColor left name right).rightOf head = left.rightOf head := by
        simp [rightOf, notName, rightOf_eq_none notRight]
      rw [inLeft]
      by_cases isRoot : left.root = some head
      · have noParent : left.parentOf head = none := by
          cases left with
          | leaf => contradiction
          | node leftColor leftLeft leftName leftRight =>
            obtain rfl : leftName = head := Option.some.inj isRoot
            have inner := List.nodup_append.mp leftDistinct
            refine parentOf_root_eq_none ?_ ?_
            · exact fun again => inner.2.2 leftName again leftName List.mem_cons_self rfl
            · exact (List.nodup_cons.mp inner.2.1).1
        rw [noParent, Option.or_none] at next
        have above : (node rootColor left name right).parentOf head = some name := by
          simp [parentOf, isRoot]
        rw [above, next]
        cases leftRest <;> simp
      · obtain ⟨parent, isParent⟩ := Option.isSome_iff_exists.mp (parentOf_isSome member isRoot)
        have above : (node rootColor left name right).parentOf head = some parent := by
          simp [parentOf, isRoot, rightRoot, isParent]
        rw [isParent] at next
        rw [above, next]
        cases leftRest with
        | nil =>
          cases rightNode : left.rightOf head <;> simp [rightNode] at next
        | cons => rfl

end Tree

/-- Rebalancing after a node has been added as a red leaf, and the extraction of
a node: both keep a red-black tree and the order of its nodes. -/
structure Rebalancing (Node : Type) [DecidableEq Node] where
  insertColor : Tree Node → Node → Tree Node
  extract : Tree Node → Node → Tree Node
  insertColor_valid : ∀ tree grown added, tree.Valid → Tree.AddsLeaf added tree grown →
    (insertColor grown added).Valid
  insertColor_toList : ∀ tree grown added, tree.Valid → Tree.AddsLeaf added tree grown →
    (insertColor grown added).toList = grown.toList
  extract_valid : ∀ tree name, tree.Valid → name ∈ tree.toList → (extract tree name).Valid
  extract_toList : ∀ tree name, tree.Valid → name ∈ tree.toList →
    (extract tree name).toList = tree.toList.erase name

namespace Tree

variable {Node : Type}

/-- A tree of the given black height whose red nodes are all at the bottom. -/
def build : Nat → List Node → Tree Node
  | 0, [] => leaf
  | 0, name :: _ => node .red leaf name leaf
  | height + 1, names =>
    match names.drop (names.length / 2) with
    | [] => leaf
    | name :: right =>
      node .black (build height (names.take (names.length / 2))) name (build height right)

/-- A perfect tree of the names is balanced. -/
theorem build_balanced {height : Nat} {names : List Node} (least : 2 ^ height ≤ names.length + 1)
    (most : names.length + 1 ≤ 2 ^ (height + 1)) :
    (build height names).toList = names ∧ ∃ color, (build height names).Balanced color height := by
  induction height generalizing names with
  | zero =>
    match names, most with
    | [], _ => exact ⟨rfl, _, .leaf⟩
    | [name], _ => exact ⟨rfl, _, .red .leaf .leaf⟩
    | _ :: _ :: _, most =>
      simp only [List.length_cons] at most
      omega
  | succ height ih =>
    rw [Nat.pow_succ] at least
    rw [Nat.pow_succ] at most
    have inside : names.length / 2 < names.length := by
      have := Nat.one_le_two_pow (n := height)
      omega
    have split := List.drop_eq_getElem_cons inside
    have leftBounds : 2 ^ height ≤ (names.take (names.length / 2)).length + 1 ∧
        (names.take (names.length / 2)).length + 1 ≤ 2 ^ height * 2 := by
      rw [List.length_take]
      omega
    have rightBounds : 2 ^ height ≤ (names.drop (names.length / 2 + 1)).length + 1 ∧
        (names.drop (names.length / 2 + 1)).length + 1 ≤ 2 ^ height * 2 := by
      rw [List.length_drop]
      omega
    obtain ⟨leftNodes, leftColor, leftBalanced⟩ := ih leftBounds.1 leftBounds.2
    obtain ⟨rightNodes, rightColor, rightBalanced⟩ := ih rightBounds.1 rightBounds.2
    simp only [build, split]
    refine ⟨?_, _, .black leftBalanced rightBalanced⟩
    rw [toList, leftNodes, rightNodes, ← split, List.take_append_drop]

def rebuild (names : List Node) : Tree Node := build (names.length + 1).log2 names

theorem rebuild_valid (names : List Node) : (rebuild names).Valid := by
  have least : 2 ^ (names.length + 1).log2 ≤ names.length + 1 :=
    Nat.log2_self_le (Nat.succ_ne_zero _)
  have most : names.length + 1 < 2 ^ ((names.length + 1).log2 + 1) := Nat.lt_log2_self
  obtain ⟨-, color, balanced⟩ := build_balanced least (Nat.le_of_lt most)
  unfold rebuild
  generalize (names.length + 1).log2 = height at most balanced
  cases height with
  | zero =>
    have empty : names = [] := List.eq_nil_of_length_eq_zero (by omega)
    rw [empty]
    exact ⟨0, .leaf⟩
  | succ height =>
    refine ⟨height + 1, ?_⟩
    simp only [build] at balanced ⊢
    split at balanced
    next => cases balanced
    next =>
      cases balanced with
      | black left right => exact .black left right

theorem rebuild_toList (names : List Node) : (rebuild names).toList = names :=
  (build_balanced (Nat.log2_self_le (Nat.succ_ne_zero _)) (Nat.le_of_lt Nat.lt_log2_self)).1

end Tree

end RedBlack
