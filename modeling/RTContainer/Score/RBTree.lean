import RTContainer.Lib.RedBlackPath
import RTContainer.Lib.Run

/-! The red-black tree: insertion and extraction with the loops that restore
the balance from the changed place up. A mirrored pair of branches of the source
is one branch with the side of the child. -/

set_option autoImplicit false

namespace RTContainer.Score.RBTree

open RedBlack RedBlack.Tree

variable {Node : Type}

/-- The rotations of `_RBTree_Insert_color` under a black uncle. -/
def rotateOver (gparent parent : Step Node) (elm : RedBlack.Tree Node) :
    Option (RedBlack.Tree Node) :=
  -- The red node that rises, with its child on the outer side.
  let risen :=
    if parent.isLeft = gparent.isLeft then some (parent, elm)
    else (elm.descend gparent.isLeft).map fun (risen, inner) => (risen, parent.join inner)
  risen.map fun (risen, outer) =>
    Step.join { risen with
      color := .black, other := Step.join { gparent with color := .red } risen.other } outer

/-- The loop of `_RBTree_Insert_color` at `elm`; none where a null pointer is dereferenced. -/
def insertColor : List (Step Node) → RedBlack.Tree Node → Option (RedBlack.Tree Node)
  | [], elm => some (elm.paint .black)
  | [parent], elm =>
    -- A red parent without a grandparent.
    if parent.color = .red then none else some ((parent.join elm).paint .black)
  | parent :: gparent :: path, elm =>
    if parent.color = .red then
      if gparent.other.isRed then
        insertColor path (Step.join { gparent with color := .red, other := gparent.other.paint .black }
          (Step.join { parent with color := .black } elm))
      -- The parent of `elm` is black after the rotations.
      else (rotateOver gparent parent elm).map fun top => (plug path top).paint .black
    else some ((plug (parent :: gparent :: path) elm).paint .black)

/-- The steps up from the link at which the loop of `_RBTree_Insert_inline` ends. -/
def linkPath (goesLeft : Node → Bool) :
    RedBlack.Tree Node → List (Step Node) → List (Step Node)
  | .leaf, path => path
  | .node color left name right, path =>
    if goesLeft name then linkPath goesLeft left (⟨color, true, name, right⟩ :: path)
    else linkPath goesLeft right (⟨color, false, name, left⟩ :: path)

def insertInline (goesLeft : Node → Bool) (added : Node) (tree : RedBlack.Tree Node) :
    Option (RedBlack.Tree Node × Bool) := do
  let balanced ← insertColor (linkPath goesLeft tree []) (.node .red .leaf added .leaf)
  some (balanced, tree.newMinimum goesLeft)

/-- One round at a parent whose other child `tmp` is black: either a child of `tmp` is red,
`tmp` or that child rises over the parent and the loop is left, or `tmp` becomes red. -/
def removeRound (parent : Step Node) (elm : RedBlack.Tree Node) :
    Option (RedBlack.Tree Node ⊕ RedBlack.Tree Node) :=
  (parent.other.descend parent.isLeft).bind fun (tmp, near) =>
    if tmp.other.isRed ∨ near.isRed then
      let risen :=
        if tmp.other.isRed then some ({ tmp with other := tmp.other.paint .black }, near)
        else (near.descend parent.isLeft).map fun (risen, inner) =>
          ({ risen with other := tmp.join risen.other }, inner)
      risen.map fun (risen, near) => .inl (Step.join { risen with color := parent.color }
        (Step.join { parent with color := .black, other := near } elm))
    else
      some (.inr (Step.join { parent with other := Step.join { tmp with color := .red } near } elm))

/-- The loop of `RTEMS_RB_REMOVE_COLOR`: every path through `elm` lacks one black node. -/
def removeColor : List (Step Node) → RedBlack.Tree Node → Option (RedBlack.Tree Node)
  | [], elm => some (elm.paint .black)
  | parent :: path, elm =>
    if parent.other.isRed then
      (parent.other.descend parent.isLeft).bind fun (tmp, near) =>
        let around := plug ({ tmp with color := .black } :: path)
        (removeRound { parent with color := .red, other := near } elm).map fun
          | .inl top => (around top).paint .black
          -- `elm` is the parent now, which is red.
          | .inr elm => around (elm.paint .black)
    else
      (removeRound parent elm).bind fun
        | .inl top => some ((plug path top).paint .black)
        | .inr elm =>
          if parent.color = .black then removeColor path elm
          else some (plug path (elm.paint .black))

/-- What `RTEMS_RB_REMOVE` does once `child` has taken the place of a node of the given
color. -/
def fillGap (path : List (Step Node)) (color : Color) (child : RedBlack.Tree Node) :
    Option (RedBlack.Tree Node) :=
  match child with
  | .leaf =>
    if color = .red ∨ path.isEmpty then some (plug path .leaf) else removeColor path .leaf
  | .node .. => some (plug path (child.paint .black))

/-- The first node of a right subtree: the steps down to it, its color, its name and its
right child. -/
def successor : RedBlack.Tree Node → List (Step Node) →
    Option (List (Step Node) × Color × Node × RedBlack.Tree Node)
  | .leaf, _ => none
  | .node color left name right, path =>
    (successor left (⟨color, true, name, right⟩ :: path)).or (some (path, color, name, right))

/-- `RTEMS_RB_REMOVE` of a node given by the steps up from it, its color and its children. -/
def extractAt (path : List (Step Node)) (color : Color) (left right : RedBlack.Tree Node) :
    Option (RedBlack.Tree Node) :=
  match left, right with
  | .leaf, child => fillGap path color child
  | child, .leaf => fillGap path color child
  | left, right =>
    (successor right []).bind fun (inner, innerColor, name, child) =>
      fillGap (inner ++ ⟨color, false, name, left⟩ :: path) innerColor child

/-- The steps up from a node that is given by its pointer, its color and its children. -/
def locate [DecidableEq Node] (wanted : Node) : RedBlack.Tree Node → List (Step Node) →
    Option (List (Step Node) × Color × RedBlack.Tree Node × RedBlack.Tree Node)
  | .leaf, _ => none
  | .node color left name right, path =>
    (locate wanted left (⟨color, true, name, right⟩ :: path)).or
      (if name = wanted then some (path, color, left, right)
      else locate wanted right (⟨color, false, name, left⟩ :: path))

def extract [DecidableEq Node] (tree : RedBlack.Tree Node) (name : Node) : Option (RedBlack.Tree Node) :=
  (locate name tree []).bind fun (path, color, left, right) => extractAt path color left right

variable {path : List (Step Node)} {elm child tree : RedBlack.Tree Node} {name : Node}
variable {parent : Step Node} {color : Color} {height : Nat}

/-! ### Insertion -/

variable {gparent : Step Node} {left right : RedBlack.Tree Node}

theorem rotateOver_balanced (red : elm.Balanced .red height) (isRed : parent.color = .red)
    (other : parent.other.Balanced .black height) (uncle : gparent.other.Balanced .black height) :
    ∃ top, rotateOver gparent parent elm = some top ∧ top.Balanced .black (height + 1) ∧
      top.toList = (gparent.join (parent.join elm)).toList := by
  have rises : ∀ (risen : Step Node) (outer : RedBlack.Tree Node),
      outer.Balanced .red height → risen.other.Balanced .black height →
      (Step.join { risen with
        color := .black, other := Step.join { gparent with color := .red } risen.other }
          outer).Balanced .black (height + 1) := by
    intro risen outer outerRed inner
    have lower : (Step.join { gparent with color := .red } risen.other).Balanced .red height :=
      (inner.under _).join (uncle.under _)
    exact outerRed.under_black.join lower.under_black
  unfold rotateOver
  by_cases sameSide : parent.isLeft = gparent.isLeft
  · rw [if_pos sameSide]
    refine ⟨_, rfl, rises parent elm red other, ?_⟩
    simp only [join_toList, sameSide]
    split <;> simp
  · obtain ⟨risen, inner, _, found, rfl, side, -, rfl, below, outer⟩ :=
      red.exists_join (.inl rfl) gparent.isLeft
    have lower := (isRed.symm ▸ below).join (isRed.symm ▸ other.under .red)
    rw [isRed] at lower
    rw [if_neg sameSide, found]
    refine ⟨_, rfl, rises risen _ lower outer.balanced, ?_⟩
    have across : parent.isLeft = !gparent.isLeft := Bool.eq_not_of_ne sameSide
    cases isLeft : gparent.isLeft <;> simp [side, across, isLeft]

theorem red_context (context : Context (parent :: gparent :: path) color height)
    (isRed : parent.color = .red) :
    parent.other.Balanced .black height ∧ (∃ uncle, gparent.other.Balanced uncle height) ∧
      ∃ above, Context path above (height + 1) := by
  cases context with
  | step other fits context =>
    cases context with
    | step uncle _ rest =>
      obtain ⟨uncleColor, uncle, -⟩ := uncle
      rw [isRed] at other uncle rest
      cases isBlack : gparent.color with
      | red => cases isRed.symm.trans (fits isBlack)
      | black => exact ⟨other.balanced, ⟨uncleColor, uncle⟩, _, isBlack ▸ rest⟩

theorem insertColor_ends (context : Context (parent :: path) color height)
    (red : elm.Balanced .red height) (notRed : parent.color ≠ .red) :
    ((plug (parent :: path) elm).paint .black).Valid := by
  cases context with
  | step other fits context =>
    have below : Below parent.color height elm := ⟨_, red, fun isRed => absurd isRed notRed⟩
    exact ((Context.step other fits context).plug_valid below).paint_black

theorem insertColor_valid (context : Context path color height)
    (red : elm.Balanced .red height) :
    ∃ balanced, insertColor path elm = some balanced ∧ balanced.Valid ∧
      balanced.toList = (plug path elm).toList := by
  fun_induction insertColor path elm generalizing color height with
  | case1 => exact ⟨_, rfl, ⟨_, red.paint_red⟩, paint_toList _ _⟩
  | case2 parent elm isRed =>
    cases context with
    | step _ fits above =>
      cases above
      cases isRed.symm.trans (fits rfl)
  | case3 parent elm notRed =>
    exact ⟨_, rfl, insertColor_ends context red notRed, paint_toList _ _⟩
  | case4 parent gparent path elm isRed redUncle ih =>
    obtain ⟨other, ⟨uncle, balanced⟩, above, context⟩ := red_context context isRed
    obtain rfl := balanced.isRed.mp redUncle
    have lower : (Step.join { parent with color := .black } elm).Balanced .black (height + 1) :=
      red.under_black.join other.under_black
    obtain ⟨whole, restores, valid, nodes⟩ :=
      ih context ((lower.under .red).join (balanced.paint_red.under .red))
    refine ⟨whole, restores, valid, nodes.trans (plug_congr path ?_)⟩
    simp only [join_toList, paint_toList]
  | case5 parent gparent path elm isRed notRed =>
    obtain ⟨other, ⟨uncle, balanced⟩, above, context⟩ := red_context context isRed
    obtain rfl : uncle = .black := by
      cases uncle with
      | red => exact absurd (balanced.isRed.mpr rfl) notRed
      | black => rfl
    obtain ⟨top, rotates, topBlack, nodes⟩ := rotateOver_balanced red isRed other balanced
    exact ⟨_, congrArg (Option.map _) rotates, (context.plug_valid (topBlack.under _)).paint_black,
      (paint_toList _ _).trans (plug_congr path nodes)⟩
  | case6 parent gparent path elm notRed =>
    exact ⟨_, rfl, insertColor_ends context red notRed, paint_toList _ _⟩

/-! ### Extraction -/

theorem removeRound_balanced (parent : Step Node) (lacking : elm.Balanced .black height)
    (sibling : parent.other.Balanced .black (height + 1)) :
    (∃ top, removeRound parent elm = some (.inl top) ∧
      top.Balanced parent.color (height + 1 + weight parent.color) ∧
        top.toList = (parent.join elm).toList) ∨
    ∃ changed, removeRound parent elm = some (.inr changed) ∧
      (changed.paint .black).Balanced .black (height + 1) ∧
        (parent.color = .black → changed.Balanced .black (height + 1)) ∧
          changed.toList = (parent.join elm).toList := by
  obtain ⟨tmp, near, below, found, isSibling, side, isBlack, isHeight, ⟨nearColor, isNear, -⟩,
    farColor, far, -⟩ := sibling.exists_join (.inr (Nat.succ_pos _)) parent.isLeft
  obtain rfl : height = below := Nat.succ.inj isHeight
  have rises : ∀ (risen : Step Node) {near : RedBlack.Tree Node} {nearColor : Color},
      near.Balanced nearColor height → risen.other.Balanced .black (height + 1) →
      (Step.join { risen with color := parent.color }
        (Step.join { parent with color := .black, other := near } elm)).Balanced parent.color
          (height + 1 + weight parent.color) := by
    intro risen near nearColor isNear far
    have lower : (Step.join { parent with color := .black, other := near } elm).Balanced .black
        (height + 1) := lacking.under_black.join isNear.under_black
    have whole : (Step.join { risen with color := parent.color } _).Balanced parent.color _ :=
      (lower.under _).join (far.under _)
    exact whole
  rw [removeRound, found, Option.bind_some]
  dsimp only
  cases farColor with
  | red =>
    have isRed := far.isRed.mpr rfl
    rw [if_pos (.inl isRed), if_pos isRed]
    refine .inl ⟨_, rfl, rises { tmp with other := _ } isNear far.paint_red, ?_⟩
    simp only [join_toList, isSibling, side]
    split <;> simp
  | black =>
    have notRed : ¬ tmp.other.isRed := fun isRed => by cases far.isRed.mp isRed
    cases nearColor with
    | red =>
      obtain ⟨risen, inner, _, foundNear, rfl, nearSide, -, rfl, innerBelow, outer⟩ :=
        isNear.exists_join (.inl rfl) parent.isLeft
      have farther : (Step.join tmp risen.other).Balanced tmp.color _ :=
        (isBlack ▸ outer.balanced.under_black).join (isBlack ▸ far.under_black)
      rw [isBlack] at farther
      rw [if_pos (.inr (isNear.isRed.mpr rfl)), if_neg notRed, foundNear]
      refine .inl ⟨_, rfl, rises { risen with other := _ } innerBelow.balanced farther, ?_⟩
      simp only [join_toList, isSibling, side, nearSide]
      split <;> simp
    | black =>
      have redder : (Step.join { tmp with color := .red } near).Balanced .red height :=
        (isNear.under .red).join (far.under .red)
      have blackened : (Step.join ⟨.black, parent.isLeft, parent.name, _⟩ elm).Balanced .black
          (height + 1) := lacking.under_black.join redder.under_black
      rw [if_neg (not_or.mpr ⟨notRed, fun isRed => by cases isNear.isRed.mp isRed⟩)]
      refine .inr ⟨_, rfl, paint_join _ elm .black ▸ blackened, fun black => black ▸ blackened, ?_⟩
      simp only [join_toList, isSibling]

theorem removeColor_valid (context : Context path color (height + 1))
    (lacking : elm.Balanced .black height) :
    ∃ balanced, removeColor path elm = some balanced ∧ balanced.Valid ∧
      balanced.toList = (plug path elm).toList := by
  fun_induction removeColor path elm generalizing color height with
  | case1 => exact ⟨_, rfl, Valid.paint_black ⟨_, lacking⟩, paint_toList _ _⟩
  | case2 parent path elm redSibling =>
    cases context with
    | step other fits context =>
      obtain ⟨siblingColor, sibling, siblingFits⟩ := other
      obtain rfl := sibling.isRed.mp redSibling
      have isBlack : parent.color = .black := by
        cases isColor : parent.color with
        | red => cases siblingFits isColor
        | black => rfl
      obtain ⟨tmp, near, _, found, isSibling, side, -, rfl, nearBelow, far⟩ :=
        sibling.exists_join (.inl rfl) parent.isLeft
      rw [isBlack] at context
      have around : Context ({ tmp with color := .black } :: path) .black (height + 1) :=
        .step (far.balanced.under _) (fun _ => rfl) context
      have same : ∀ top : RedBlack.Tree Node, top.toList =
          (Step.join { parent with color := .red, other := near } elm).toList →
          (plug ({ tmp with color := .black } :: path) top).toList =
            (plug (parent :: path) elm).toList := by
        intro top nodes
        refine plug_congr path ?_
        simp only [join_toList, nodes, isSibling, side]
        split <;> simp
      rw [found, Option.bind_some]
      rcases removeRound_balanced { parent with color := .red, other := near } lacking
        nearBelow.balanced with ⟨top, isRound, balanced, nodes⟩ | ⟨changed, isRound, balanced, -, nodes⟩
      · exact ⟨_, congrArg (Option.map _) isRound,
          (around.plug_valid balanced.under_black).paint_black,
          (paint_toList _ _).trans (same top nodes)⟩
      · exact ⟨_, congrArg (Option.map _) isRound, around.plug_valid balanced.under_black,
          same _ ((paint_toList _ _).trans nodes)⟩
  | case3 parent path elm notRed ih =>
    cases context with
    | step other fits context =>
      obtain ⟨siblingColor, sibling, -⟩ := other
      cases siblingColor with
      | red => exact absurd (sibling.isRed.mpr rfl) notRed
      | black =>
        rcases removeRound_balanced parent lacking sibling with
          ⟨top, isRound, balanced, nodes⟩ | ⟨changed, isRound, painted, balanced, nodes⟩
        · rw [isRound]
          exact ⟨_, rfl, (context.plug_valid ⟨_, balanced, fits⟩).paint_black,
            (paint_toList _ _).trans (plug_congr path nodes)⟩
        · rw [isRound, Option.bind_some]
          dsimp only
          cases isColor : parent.color with
          | red =>
            rw [isColor] at context
            exact ⟨_, rfl, context.plug_valid (painted.under _),
              plug_congr path ((paint_toList _ _).trans nodes)⟩
          | black =>
            rw [isColor] at context
            obtain ⟨whole, restores, valid, wholeNodes⟩ := ih changed context (balanced isColor)
            exact ⟨whole, restores, valid, wholeNodes.trans (plug_congr path nodes)⟩

theorem fillGap_valid (isLeft : Bool) (name : Node)
    (valid : (plug path (Step.join ⟨color, isLeft, name, .leaf⟩ child)).Valid) :
    ∃ balanced, fillGap path color child = some balanced ∧ balanced.Valid ∧
      balanced.toList = nodesBefore path ++ (child.toList ++ nodesAfter path) := by
  rw [← plug_toList]
  obtain ⟨above, height, context, nodeColor, balanced, fits⟩ := context_of_valid valid
  obtain ⟨rfl, below, rfl, ⟨childColor, child, childFits⟩, _, empty, -⟩ := balanced.of_join
  cases empty
  cases child with
  | red left right =>
    cases nodeColor with
    | red => cases childFits rfl
    | black =>
      exact ⟨_, rfl, context.plug_valid ((Balanced.red left right).paint_red.under _),
        plug_congr path (paint_toList _ _)⟩
  | leaf =>
    unfold fillGap
    cases nodeColor with
    | red => exact ⟨_, if_pos (.inl rfl), context.plug_valid (Balanced.leaf.under _), rfl⟩
    | black =>
      cases path with
      | nil => exact ⟨_, if_pos (.inr rfl), ⟨0, .leaf⟩, rfl⟩
      | cons parent path =>
        rw [if_neg (by simp)]
        exact removeColor_valid context .leaf

theorem successor_some {inner : List (Step Node)}
    (first : successor tree path = some (inner, color, name, child)) :
    plug inner (.node color .leaf name child) = plug path tree ∧
      nodesBefore inner = nodesBefore path := by
  induction tree generalizing path with
  | leaf => cases first
  | node nodeColor left nodeName right leftIH _ =>
    rcases Option.or_eq_some_iff.mp first with deeper | ⟨ends, here⟩
    · obtain ⟨same, before⟩ := leftIH deeper
      exact ⟨same, before.trans (List.append_nil _)⟩
    · cases here
      cases left with
      | leaf => exact ⟨rfl, rfl⟩
      | node => simp [successor] at ends

theorem extractAt_valid (valid : (plug path (.node color left name right)).Valid) :
    ∃ balanced, extractAt path color left right = some balanced ∧ balanced.Valid ∧
      balanced.toList = nodesBefore path ++ (left.toList ++ right.toList ++ nodesAfter path) := by
  unfold extractAt
  split
  next => exact fillGap_valid false name valid
  next =>
    obtain ⟨balanced, fills, isValid, nodes⟩ := fillGap_valid true name valid
    exact ⟨balanced, fills, isValid, by simp [nodes, toList]⟩
  next _ _ _ isNode =>
    obtain ⟨⟨inner, innerColor, first, child⟩, found⟩ : ∃ place, successor right [] = some place := by
      cases right with
      | leaf => exact absurd rfl isNode
      | node color left name right => exact Option.isSome_iff_exists.mp (by simp [successor])
    obtain ⟨same, before⟩ := successor_some found
    -- The successor takes the place of the node before its own is filled.
    have replaced : (plug path (.node color left first right)).Valid := by
      obtain ⟨above, height, context, nodeColor, balanced, fits⟩ := context_of_valid valid
      refine context.plug_valid ⟨nodeColor, ?_, fits⟩
      cases balanced with
      | red below other => exact .red below other
      | black below other => exact .black below other
    have whole : plug path (.node color left first right) =
        plug (inner ++ ⟨color, false, first, left⟩ :: path) (.node innerColor .leaf first child) := by
      rw [plug_append, same]
      rfl
    obtain ⟨balanced, fills, isValid, filled⟩ := fillGap_valid false first (whole ▸ replaced)
    refine ⟨balanced, (congrArg (Option.bind · _) found).trans fills, isValid, ?_⟩
    have nodes : right.toList = first :: (plug inner child).toList := by
      rw [← show plug [] right = right from rfl, ← same, plug_toList, plug_toList, before]
      rfl
    rw [filled, ← plug_toList, plug_append, plug_toList, nodesBefore, nodesAfter, nodes]
    simp

theorem plug_linkPath (goesLeft : Node → Bool) (added : Node) (tree : RedBlack.Tree Node)
    (path : List (Step Node)) :
    plug (linkPath goesLeft tree path) .leaf = plug path tree ∧
      plug (linkPath goesLeft tree path) (.node .red .leaf added .leaf) =
        plug path (tree.insertLeaf goesLeft added) := by
  induction tree generalizing path with
  | leaf => exact ⟨rfl, rfl⟩
  | node color left name right leftIH rightIH =>
    unfold linkPath insertLeaf
    split
    · exact leftIH _
    · exact rightIH _

theorem linkPath_length_le (goesLeft : Node → Bool) (tree : RedBlack.Tree Node)
    (path : List (Step Node)) :
    (linkPath goesLeft tree path).length ≤ tree.depth + path.length := by
  induction tree generalizing path with
  | leaf => exact Nat.le_add_left _ _
  | node color left name right leftIH rightIH =>
    rw [RedBlack.Tree.depth]
    unfold linkPath
    split
    · have := leftIH (⟨color, true, name, right⟩ :: path)
      rw [List.length_cons] at this
      omega
    · have := rightIH (⟨color, false, name, left⟩ :: path)
      rw [List.length_cons] at this
      omega

theorem insertColor_added (added : Node) (valid : (plug path .leaf).Valid) :
    ∃ balanced, insertColor path (.node .red .leaf added .leaf) = some balanced ∧
      balanced.Valid ∧ balanced.toList = (plug path (.node .red .leaf added .leaf)).toList := by
  obtain ⟨color, height, context, _, empty, -⟩ := context_of_valid valid
  cases empty
  exact insertColor_valid context (.red .leaf .leaf)

theorem insertInline_valid (goesLeft : Node → Bool) (added : Node) (valid : tree.Valid) :
    ∃ balanced, insertInline goesLeft added tree = some (balanced, tree.newMinimum goesLeft) ∧
      balanced.Valid ∧ balanced.toList = (tree.insertLeaf goesLeft added).toList := by
  obtain ⟨link, grown⟩ := plug_linkPath goesLeft added tree []
  obtain ⟨balanced, restores, isValid, nodes⟩ :=
    insertColor_added added (link ▸ valid : (plug (linkPath goesLeft tree []) .leaf).Valid)
  refine ⟨balanced, ?_, isValid, nodes.trans (congrArg toList grown)⟩
  rw [insertInline, restores]
  rfl

theorem AddsLeaf.exists_plug {added : Node} {grown : RedBlack.Tree Node}
    (adds : AddsLeaf added tree grown) :
    ∃ path, plug path .leaf = tree ∧ plug path (.node .red .leaf added .leaf) = grown := by
  induction adds with
  | here => exact ⟨[], rfl, rfl⟩
  | @left color _ _ right name _ ih =>
    obtain ⟨path, rfl, rfl⟩ := ih
    exact ⟨path ++ [⟨color, true, name, right⟩], plug_append .., plug_append ..⟩
  | @right color left _ _ name _ ih =>
    obtain ⟨path, rfl, rfl⟩ := ih
    exact ⟨path ++ [⟨color, false, name, left⟩], plug_append .., plug_append ..⟩

variable {added : Node} {grown : RedBlack.Tree Node}

variable [DecidableEq Node]

theorem locate_isSome (member : name ∈ tree.toList) (path : List (Step Node)) :
    (locate name tree path).isSome := by
  induction tree generalizing path with
  | leaf => cases member
  | node color left other right leftIH rightIH =>
    rw [locate, Option.isSome_or, Bool.or_eq_true]
    rcases List.mem_append.mp member with inLeft | rest
    · exact .inl (leftIH inLeft _)
    · rcases List.mem_cons.mp rest with rfl | inRight
      · exact .inr (by rw [if_pos rfl]; rfl)
      · split
        · exact .inr rfl
        · exact .inr (rightIH inRight _)

theorem locate_some {place : List (Step Node)}
    (found : locate name tree path = some (place, color, left, right))
    (before : name ∉ nodesBefore path) :
    plug place (.node color left name right) = plug path tree ∧
      name ∉ nodesBefore place ++ left.toList := by
  induction tree generalizing path with
  | leaf => cases found
  | node treeColor treeLeft other treeRight leftIH rightIH =>
    rcases Option.or_eq_some_iff.mp found with inLeft | ⟨notLeft, found⟩
    · exact leftIH inLeft (by simpa [nodesBefore] using before)
    · have absent : name ∉ treeLeft.toList := fun member => by
        have isSome := locate_isSome member (⟨treeColor, true, other, treeRight⟩ :: path)
        rw [notLeft] at isSome
        cases isSome
      split at found
      next isHere =>
        cases found
        exact ⟨isHere ▸ rfl, by simp [before, absent]⟩
      next notHere =>
        exact rightIH found (by simp [nodesBefore, before, absent, Ne.symm notHere])

theorem extract_valid (valid : tree.Valid) (member : name ∈ tree.toList) :
    ∃ balanced, extract tree name = some balanced ∧ balanced.Valid ∧
      balanced.toList = tree.toList.erase name := by
  obtain ⟨⟨path, color, left, right⟩, found⟩ :=
    Option.isSome_iff_exists.mp (locate_isSome member [])
  obtain ⟨same, absent⟩ := locate_some found List.not_mem_nil
  obtain ⟨balanced, extracts, isValid, nodes⟩ :=
    extractAt_valid (same.symm ▸ valid : (plug path (.node color left name right)).Valid)
  refine ⟨balanced, (congrArg (Option.bind · _) found).trans extracts, isValid, ?_⟩
  have whole : tree.toList =
      (nodesBefore path ++ left.toList) ++ name :: (right.toList ++ nodesAfter path) := by
    rw [show tree = plug [] tree from rfl, ← same, plug_toList]
    simp [toList]
  rw [nodes, whole, List.erase_append_right _ absent, List.erase_cons_head]
  simp

/-- `_RBTree_Insert_color` at a node that is in the tree once. -/
def restore (grown : RedBlack.Tree Node) (added : Node) : RedBlack.Tree Node :=
  if grown.toList.count added = 1 then
    ((locate added grown []).bind fun (path, _) =>
      insertColor path (.node .red .leaf added .leaf)).getD grown
  else rebuild grown.toList

theorem locate_eq_none (absent : name ∉ tree.toList) (path : List (Step Node)) :
    locate name tree path = none := by
  induction tree generalizing path with
  | leaf => rfl
  | node color left other right leftIH rightIH =>
    simp only [toList, List.mem_append, List.mem_cons, not_or] at absent
    simp [locate, leftIH absent.1, rightIH absent.2.2, Ne.symm absent.2.1]

theorem locate_plug {base : List (Step Node)}
    {found : List (Step Node) × Color × RedBlack.Tree Node × RedBlack.Tree Node}
    (absent : name ∉ nodesBefore path) (isFound : locate name tree (path ++ base) = some found) :
    locate name (plug path tree) base = some found := by
  induction path generalizing tree with
  | nil => exact isFound
  | cons parent path ih =>
    obtain ⟨parentColor, isLeft, parentName, other⟩ := parent
    rw [List.cons_append] at isFound
    cases isLeft with
    | true =>
      refine ih (by simpa [nodesBefore] using absent) ?_
      simp [Step.join, locate, isFound]
    | false =>
      simp only [nodesBefore, List.mem_append, not_or] at absent
      refine ih absent.1 ?_
      simp_all [Step.join, locate, locate_eq_none, Ne.symm]

theorem restore_plug (fresh : added ∉ (plug path .leaf).toList)
    (valid : (plug path .leaf).Valid) :
    insertColor path (.node .red .leaf added .leaf) =
      some (restore (plug path (.node .red .leaf added .leaf)) added) := by
  obtain ⟨balanced, restores, -, -⟩ := insertColor_added added valid
  simp only [plug_toList, toList, List.nil_append, List.mem_append, not_or] at fresh
  have once : (plug path (.node .red .leaf added .leaf)).toList.count added = 1 := by
    simp [plug_toList, toList, List.count_eq_zero_of_not_mem, fresh]
  have found : locate added (plug path (.node .red .leaf added .leaf)) [] =
      some (path, .red, .leaf, .leaf) := locate_plug fresh.1 (by simp [locate])
  simp [restore, once, found, restores]

theorem restore_valid (valid : tree.Valid) (adds : AddsLeaf added tree grown) :
    (restore grown added).Valid ∧ (restore grown added).toList = grown.toList := by
  obtain ⟨path, rfl, rfl⟩ := AddsLeaf.exists_plug adds
  by_cases fresh : added ∈ (plug path .leaf).toList
  · have twice : (plug path (.node .red .leaf added .leaf)).toList.count added ≠ 1 := by
      have := List.count_pos_iff.mpr fresh
      simp only [plug_toList, toList, List.count_append, List.nil_append,
        List.count_cons_self] at this ⊢
      omega
    rw [restore, if_neg twice]
    exact ⟨rebuild_valid _, rebuild_toList _⟩
  · obtain ⟨balanced, restores, isValid, nodes⟩ := insertColor_added added valid
    cases restores.symm.trans (restore_plug fresh valid)
    exact ⟨isValid, nodes⟩

/-- The balance that the priority aggregations, the watchdogs and the EDF scheduler rely on. -/
def rebalancing (Node : Type) [DecidableEq Node] : Rebalancing Node where
  insertColor := restore
  extract := fun tree name => (extract tree name).getD tree
  insertColor_valid := fun _ _ _ valid adds => (restore_valid valid adds).1
  insertColor_toList := fun _ _ _ valid adds => (restore_valid valid adds).2
  extract_valid := fun tree name valid member => by
    obtain ⟨balanced, extracts, isValid, -⟩ := extract_valid valid member
    rwa [extracts]
  extract_toList := fun tree name valid member => by
    obtain ⟨balanced, extracts, -, nodes⟩ := extract_valid valid member
    rwa [extracts]

theorem insertInline_eq (goesLeft : Node → Bool) (valid : tree.Valid)
    (fresh : added ∉ tree.toList) :
    insertInline goesLeft added tree =
      some ((rebalancing Node).insertColor (tree.insertLeaf goesLeft added) added,
        tree.newMinimum goesLeft) := by
  obtain ⟨link, grown⟩ := plug_linkPath goesLeft added tree []
  rw [plug] at link grown
  rw [insertInline, restore_plug (link.symm ▸ fresh) (link.symm ▸ valid), grown]
  rfl

/-! ### Runs -/

inductive RBTreeCall (Node : Type) where
  | insert (added : Node)
  | extract (name : Node)

section Keys

variable {Key : Type} [LinearOrder Key] (key : Node → Key)

def rbtreeStep (tree : Option (RedBlack.Tree Node)) :
    RBTreeCall Node → Option (RedBlack.Tree Node)
  | .insert added =>
    (tree.bind (insertInline (fun other => decide (key added < key other)) added)).map Prod.fst
  | .extract name => tree.bind fun tree => extract tree name

/-- The nodes in the order of their keys, those of one key as they came. -/
def nodesStep (nodes : List Node) : RBTreeCall Node → List Node
  | .insert added =>
    nodes.takeWhile (fun other => decide (key other ≤ key added)) ++
      added :: nodes.dropWhile fun other => decide (key other ≤ key added)
  | .extract name => nodes.erase name

/-- What is inserted is off the tree, and what is extracted is in it. -/
def RBTreeCall.Possible (nodes : List Node) : RBTreeCall Node → Prop
  | .insert added => added ∉ nodes
  | .extract name => name ∈ nodes

def Represents (tree : Option (RedBlack.Tree Node)) (nodes : List Node) : Prop :=
  ∃ whole, tree = some whole ∧ whole.Valid ∧ whole.toList = nodes ∧
    nodes.Pairwise fun earlier later => key earlier ≤ key later

variable {tree : Option (RedBlack.Tree Node)} {nodes : List Node}

theorem Represents.step (represents : Represents key tree nodes) (call : RBTreeCall Node)
    (possible : call.Possible nodes) :
    Represents key (rbtreeStep key tree call) (nodesStep key nodes call) := by
  obtain ⟨whole, rfl, valid, rfl, sorted⟩ := represents
  cases call with
  | insert added =>
    obtain ⟨balanced, inserts, isValid, inserted⟩ :=
      insertInline_valid (fun other => decide (key added < key other)) added valid
    have monotone := sorted.imp fun {earlier later} (below : key earlier ≤ key later)
      (passes : decide (key added < key earlier) = true) =>
        decide_eq_true ((of_decide_eq_true passes).trans_le below)
    obtain ⟨before, after, nodes, grown, stays, passes⟩ := @insertLeaf_toList _ _ added _ monotone
    have first : ∀ other ∈ before, decide (key other ≤ key added) = true := fun other inside =>
      decide_eq_true (not_lt.mp fun less => stays other inside (decide_eq_true less))
    have behind : ∀ other ∈ after, key added < key other := fun other inside =>
      of_decide_eq_true (passes other inside)
    have isNext : nodesStep key whole.toList (.insert added) = before ++ added :: after := by
      rw [nodesStep, nodes, List.takeWhile_append_of_pos first, List.dropWhile_append_of_pos first]
      cases after with
      | nil => simp
      | cons other rest => simp [behind other List.mem_cons_self]
    rw [isNext]
    refine ⟨balanced, by rw [rbtreeStep, Option.bind_some, inserts]; rfl, isValid,
      inserted.trans grown, ?_⟩
    rw [nodes] at sorted
    obtain ⟨inBefore, inAfter, across⟩ := List.pairwise_append.mp sorted
    refine List.pairwise_append.mpr ⟨inBefore, inAfter.cons fun other inside =>
      (behind other inside).le, fun other inside later isLater => ?_⟩
    rcases List.mem_cons.mp isLater with rfl | isAfter
    · exact of_decide_eq_true (first other inside)
    · exact across other inside later isAfter
  | extract name =>
    obtain ⟨balanced, extracts, isValid, nodes⟩ := extract_valid valid possible
    exact ⟨balanced, extracts, isValid, nodes, sorted.sublist List.erase_sublist⟩

theorem Represents.run (represents : Represents key tree nodes) {calls : List (RBTreeCall Node)}
    (possible : Machine.Meets (nodesStep key) (fun nodes call => call.Possible nodes) nodes calls) :
    Represents key (Machine.run (rbtreeStep key) tree calls)
      (Machine.run (nodesStep key) nodes calls) := by
  induction calls generalizing tree nodes with
  | nil => exact represents
  | cons call rest ih => exact ih (represents.step key call possible.1) possible.2

omit [DecidableEq Node] in
theorem represents_empty : Represents key (some (.leaf : RedBlack.Tree Node)) [] :=
  ⟨.leaf, rfl, ⟨0, .leaf⟩, rfl, .nil⟩

/-- Over every run the tree stays a red-black tree of the nodes in the order of their keys, and
no null pointer is dereferenced. -/
theorem rbtreeRun_represents (calls : List (RBTreeCall Node))
    (possible : Machine.Meets (nodesStep key) (fun nodes call => call.Possible nodes) [] calls) :
    Represents key (Machine.run (rbtreeStep key) (some .leaf) calls)
      (Machine.run (nodesStep key) [] calls) :=
  (represents_empty key).run key possible

theorem rbtreeRun_represents_four :
    Represents id (Machine.run (rbtreeStep id) (some .leaf)
        [.insert 3, .insert 1, .insert 2, .extract 1])
      (Machine.run (nodesStep id) [] [.insert 3, .insert 1, .insert 2, .extract 1]) :=
  rbtreeRun_represents id [.insert 3, .insert 1, .insert 2, .extract 1]
    (by simp [RBTreeCall.Possible, nodesStep])

/-- After every run an insertion visits no more than twice as many nodes as there are levels in
a tree that is full, and reports a new minimum exactly if the node comes before all others. -/
theorem rbtreeRun_insertInline (calls : List (RBTreeCall Node))
    (possible : Machine.Meets (nodesStep key) (fun nodes call => call.Possible nodes) [] calls)
    (added : Node) :
    ∃ tree balanced isNewMinimum, Machine.run (rbtreeStep key) (some .leaf) calls = some tree ∧
      insertInline (fun other => decide (key added < key other)) added tree =
        some (balanced, isNewMinimum) ∧
      (isNewMinimum = true ↔
        ∀ other ∈ Machine.run (nodesStep key) [] calls, key added < key other) ∧
      (linkPath (fun other => decide (key added < key other)) tree []).length ≤
        2 * ((Machine.run (nodesStep key) [] calls).length + 1).log2 := by
  obtain ⟨tree, isTree, valid, isNodes, sorted⟩ := (represents_empty key).run key possible
  rw [← isNodes] at sorted ⊢
  obtain ⟨balanced, inserts, -, -⟩ :=
    insertInline_valid (fun other => decide (key added < key other)) added valid
  refine ⟨tree, balanced, _, isTree, inserts, ?_,
    (linkPath_length_le _ tree []).trans valid.depth_le⟩
  rw [newMinimum_iff (sorted.imp fun below passes =>
    decide_eq_true ((of_decide_eq_true passes).trans_le below))]
  constructor
  · intro first other member
    cases nodes : tree.toList with
    | nil => cases nodes ▸ member
    | cons head rest =>
      rw [nodes] at first sorted member
      have least : key added < key head := of_decide_eq_true (first head rfl)
      rcases List.mem_cons.mp member with rfl | isLater
      · exact least
      · exact least.trans_le (List.rel_of_pairwise_cons sorted isLater)
  · intro all head isHead
    exact decide_eq_true (all head (List.mem_of_mem_head? isHead))

theorem rbtreeRun_insertInline_two :
    ∃ tree balanced isNewMinimum, Machine.run (rbtreeStep id) (some .leaf)
        [.insert 3, .insert 1] = some tree ∧
      insertInline (fun other => decide (0 < other)) 0 tree = some (balanced, isNewMinimum) ∧
      (isNewMinimum = true ↔
        ∀ other ∈ Machine.run (nodesStep id) [] [.insert 3, .insert 1], 0 < other) ∧
      (linkPath (fun other => decide (0 < other)) tree []).length ≤
        2 * ((Machine.run (nodesStep id) [] [.insert 3, .insert 1]).length + 1).log2 :=
  rbtreeRun_insertInline id [.insert 3, .insert 1] (by simp [RBTreeCall.Possible, nodesStep]) 0

end Keys

end RTContainer.Score.RBTree
