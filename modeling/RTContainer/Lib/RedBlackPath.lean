import RTContainer.Lib.RedBlack

/-! A place in a red-black tree seen from below: the steps up to the root, the
tree around the place, and what must stand there for the whole to be valid. -/

set_option autoImplicit false

namespace RedBlack

variable {Node : Type}

/-- A parent as one of its children sees it: the side on which the child is and
the other child. -/
structure Step (Node : Type) where
  color : Color
  isLeft : Bool
  name : Node
  other : Tree Node

def Step.join (parent : Step Node) (child : Tree Node) : Tree Node :=
  if parent.isLeft then .node parent.color child parent.name parent.other
  else .node parent.color parent.other parent.name child

namespace Tree

def descend (isLeft : Bool) : Tree Node → Option (Step Node × Tree Node)
  | leaf => none
  | node color left name right =>
    some (if isLeft then (⟨color, true, name, right⟩, left) else (⟨color, false, name, left⟩, right))

def paint (color : Color) : Tree Node → Tree Node
  | leaf => leaf
  | node _ left name right => node color left name right

def isRed : Tree Node → Bool
  | node .red _ _ _ => true
  | _ => false

/-- The tree with another one at a place, given the steps up from there. -/
def plug : List (Step Node) → Tree Node → Tree Node
  | [], tree => tree
  | parent :: path, tree => plug path (parent.join tree)

/-! ### The order of the nodes -/

@[simp] theorem join_toList (parent : Step Node) (child : Tree Node) :
    (parent.join child).toList =
      if parent.isLeft then child.toList ++ parent.name :: parent.other.toList
      else parent.other.toList ++ parent.name :: child.toList := by
  unfold Step.join
  split <;> rfl

@[simp] theorem paint_toList (color : Color) (tree : Tree Node) :
    (tree.paint color).toList = tree.toList := by
  cases tree <;> rfl

theorem paint_join (parent : Step Node) (child : Tree Node) (color : Color) :
    (parent.join child).paint color = Step.join { parent with color } child := by
  unfold Step.join
  split <;> rfl

variable {tree child : Tree Node} {parent : Step Node} {path : List (Step Node)}
variable {color : Color} {height : Nat}

/-- The nodes before a place. -/
def nodesBefore : List (Step Node) → List Node
  | [] => []
  | parent :: path =>
    nodesBefore path ++ if parent.isLeft then [] else parent.other.toList ++ [parent.name]

def nodesAfter : List (Step Node) → List Node
  | [] => []
  | parent :: path =>
    (if parent.isLeft then parent.name :: parent.other.toList else []) ++ nodesAfter path

theorem plug_toList (path : List (Step Node)) (tree : Tree Node) :
    (plug path tree).toList = nodesBefore path ++ (tree.toList ++ nodesAfter path) := by
  induction path generalizing tree with
  | nil => exact (List.append_nil _).symm
  | cons parent path ih =>
    rw [plug, ih, join_toList, nodesBefore, nodesAfter]
    split <;> simp

theorem plug_append (inner outer : List (Step Node)) (tree : Tree Node) :
    plug (inner ++ outer) tree = plug outer (plug inner tree) := by
  induction inner generalizing tree with
  | nil => rfl
  | cons parent inner ih => exact ih (parent.join tree)

theorem plug_congr (path : List (Step Node)) {other : Tree Node}
    (same : tree.toList = other.toList) : (plug path tree).toList = (plug path other).toList := by
  rw [plug_toList, plug_toList, same]

/-! ### Balance -/

/-- How much a node adds to the black height. -/
def weight : Color → Nat
  | .black => 1
  | .red => 0

/-- What may stand below a node of the given color: no red node below a red one. -/
def Below (above : Color) (height : Nat) (tree : Tree Node) : Prop :=
  ∃ color, tree.Balanced color height ∧ (above = .red → color = .black)

theorem Balanced.under_black (balanced : tree.Balanced color height) : Below .black height tree :=
  ⟨color, balanced, fun isRed => by cases isRed⟩

theorem Balanced.under (balanced : tree.Balanced .black height) (above : Color) :
    Below above height tree := ⟨.black, balanced, fun _ => rfl⟩

theorem Below.balanced (below : Below .red height tree) : tree.Balanced .black height := by
  obtain ⟨color, balanced, fits⟩ := below
  exact fits rfl ▸ balanced

theorem Below.join (below : Below parent.color height child)
    (other : Below parent.color height parent.other) :
    (parent.join child).Balanced parent.color (height + weight parent.color) := by
  obtain ⟨parentColor, isLeft, name, sibling⟩ := parent
  cases parentColor with
  | red =>
    cases isLeft
    · exact .red other.balanced below.balanced
    · exact .red below.balanced other.balanced
  | black =>
    obtain ⟨_, balanced, -⟩ := below
    obtain ⟨_, otherBalanced, -⟩ := other
    cases isLeft
    · exact .black otherBalanced balanced
    · exact .black balanced otherBalanced

theorem Balanced.of_join (balanced : (parent.join child).Balanced color height) :
    color = parent.color ∧ ∃ below, height = below + weight color ∧ Below color below child ∧
      Below color below parent.other := by
  obtain ⟨parentColor, isLeft, name, other⟩ := parent
  cases isLeft <;> cases balanced with
  | red left right =>
    exact ⟨rfl, _, rfl, Balanced.under (by assumption) _, Balanced.under (by assumption) _⟩
  | black left right =>
    exact ⟨rfl, _, rfl, Balanced.under_black (by assumption), Balanced.under_black (by assumption)⟩

/-- A step down from the root of a balanced tree. -/
theorem Balanced.exists_join (balanced : tree.Balanced color height)
    (inside : color = .red ∨ 0 < height) (isLeft : Bool) :
    ∃ parent child below, tree.descend isLeft = some (parent, child) ∧
      tree = Step.join parent child ∧ parent.isLeft = isLeft ∧ parent.color = color ∧
      height = below + weight color ∧ Below color below child ∧ Below color below parent.other := by
  have isJoin : ∃ parent child, tree.descend isLeft = some (parent, child) ∧
      tree = Step.join parent child ∧ parent.isLeft = isLeft := by
    cases tree with
    | leaf => cases balanced; simp at inside
    | node color left name right =>
      cases isLeft
      · exact ⟨⟨color, false, name, left⟩, right, rfl, rfl, rfl⟩
      · exact ⟨⟨color, true, name, right⟩, left, rfl, rfl, rfl⟩
  obtain ⟨parent, child, found, rfl, side⟩ := isJoin
  obtain ⟨same, below, isHeight, child, other⟩ := balanced.of_join
  exact ⟨parent, _, below, found, rfl, side, same.symm, isHeight, child, other⟩

theorem Balanced.isRed (balanced : tree.Balanced color height) : tree.isRed ↔ color = .red := by
  cases balanced <;> simp [Tree.isRed]

theorem Balanced.paint_red (balanced : tree.Balanced .red height) :
    (tree.paint .black).Balanced .black (height + 1) := by
  cases balanced with
  | red left right => exact .black left right

theorem Valid.paint_black (valid : tree.Valid) : (tree.paint .black).Valid := by
  obtain ⟨height, balanced⟩ := valid
  have painted : tree.paint .black = tree := by cases balanced <;> rfl
  exact ⟨height, painted.symm ▸ balanced⟩

/-- The steps up from a place whose parent has the given color and below which that many
black nodes are needed. Above the root the color is red: the root itself is black. -/
inductive Context : List (Step Node) → Color → Nat → Prop where
  | root {height : Nat} : Context [] .red height
  | step {parent : Step Node} {path : List (Step Node)} {above : Color} {height : Nat} :
      Below parent.color height parent.other → (above = .red → parent.color = .black) →
        Context path above (height + weight parent.color) →
          Context (parent :: path) parent.color height

theorem Context.plug_valid (context : Context path color height)
    (below : Below color height tree) : (plug path tree).Valid := by
  induction context generalizing tree with
  | root => exact ⟨_, below.balanced⟩
  | step other fits _ ih => exact ih ⟨_, below.join other, fits⟩

theorem context_of_valid (valid : (plug path tree).Valid) :
    ∃ color height, Context path color height ∧ Below color height tree := by
  induction path generalizing tree with
  | nil =>
    obtain ⟨height, balanced⟩ := valid
    exact ⟨.red, height, .root, balanced.under _⟩
  | cons parent path ih =>
    obtain ⟨above, height, context, color, balanced, fits⟩ := ih valid
    obtain ⟨rfl, below, rfl, child, other⟩ := balanced.of_join
    exact ⟨parent.color, below, .step other fits context, child⟩

/-! ### Depth -/

def depth : Tree Node → Nat
  | leaf => 0
  | node _ left _ right => max left.depth right.depth + 1

/-- No path is more than twice as long as the black height. -/
theorem Balanced.depth_le (balanced : tree.Balanced color height) :
    tree.depth ≤ 2 * height + if color = .red then 1 else 0 := by
  induction balanced with
  | leaf => exact Nat.zero_le _
  | red _ _ leftIH rightIH =>
    simp only [reduceCtorEq, ↓reduceIte] at leftIH rightIH ⊢
    rw [depth]
    omega
  | @black _ _ _ leftColor rightColor _ _ _ leftIH rightIH =>
    rw [depth]
    split at leftIH <;> split at rightIH <;> omega

/-- A tree has at least `2 ^ height - 1` nodes. -/
theorem Balanced.two_pow_le (balanced : tree.Balanced color height) :
    2 ^ height ≤ tree.toList.length + 1 := by
  induction balanced with
  | leaf => exact Nat.le_refl 1
  | red _ _ leftIH rightIH | black _ _ leftIH rightIH =>
    simp only [toList, List.length_append, List.length_cons, Nat.pow_succ]
    omega

theorem Valid.depth_le (valid : tree.Valid) : tree.depth ≤ 2 * (tree.toList.length + 1).log2 := by
  obtain ⟨height, balanced⟩ := valid
  have below : height ≤ (tree.toList.length + 1).log2 :=
    (Nat.le_log2 (Nat.succ_ne_zero _)).mpr balanced.two_pow_le
  exact balanced.depth_le.trans (Nat.mul_le_mul_left 2 below)

end Tree

end RedBlack
