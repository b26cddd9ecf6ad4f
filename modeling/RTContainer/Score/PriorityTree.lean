import RTContainer.Score.PriorityAggregation
import RTContainer.Score.RBTree

/-! Priority aggregations with the tree of their contributors, and the handlers that their
operations call. The rebalancing of the tree is left to the operations that are given. -/

set_option autoImplicit false

namespace RTContainer.Score

open RedBlack Function

/-- `Priority_Aggregation`, with the priorities of all nodes. -/
structure PriorityTree (Contributor : Type) where
  priority : Nat
  contributors : RedBlack.Tree Contributor
  nodePriority : Contributor → Nat

/-- The handlers that are passed to an operation. -/
inductive PriorityHandler where
  | add
  | remove
  | change (groupOrder : PriorityGroupOrder)
  deriving DecidableEq

/-- An operation, with the new priority of its node. -/
inductive PriorityCall (Contributor : Type) where
  | insert (node : Contributor) (priority : Nat)
  | nonEmptyInsert (node : Contributor) (priority : Nat)
  | extract (node : Contributor)
  | extractNonEmpty (node : Contributor)
  | changed (node : Contributor) (priority : Nat) (groupOrder : PriorityGroupOrder)

namespace PriorityTree

variable {Contributor : Type}

def isEmpty (tree : PriorityTree Contributor) : Bool := tree.contributors.root.isNone

def less (tree : PriorityTree Contributor) (node other : Contributor) : Bool :=
  tree.nodePriority node < tree.nodePriority other

def initializeOne (tree : PriorityTree Contributor) (node : Contributor) :
    PriorityTree Contributor :=
  { tree with
    priority := tree.nodePriority node
    contributors := .node .black .leaf node .leaf }

variable [DecidableEq Contributor]

def setPriority (tree : PriorityTree Contributor) (node : Contributor) (priority : Nat) :
    PriorityTree Contributor :=
  { tree with nodePriority := update tree.nodePriority node priority }

variable (rebalancing : Rebalancing Contributor) (tree : PriorityTree Contributor)
  (node : Contributor)

def plainInsert : PriorityTree Contributor × Bool :=
  let grown := tree.contributors.insertLeaf (tree.less node) node
  ({ tree with contributors := rebalancing.insertColor grown node },
    tree.contributors.newMinimum (tree.less node))

def plainExtract : PriorityTree Contributor :=
  { tree with contributors := rebalancing.extract tree.contributors node }

def plainChanged : PriorityTree Contributor :=
  ((tree.plainExtract rebalancing node).plainInsert rebalancing node).1

def nonEmptyInsert : PriorityTree Contributor × Option PriorityHandler :=
  let inserted := tree.plainInsert rebalancing node
  if inserted.2 then
    ({ inserted.1 with priority := inserted.1.nodePriority node }, some (.change .last))
  else (inserted.1, none)

def insert : PriorityTree Contributor × Option PriorityHandler :=
  if tree.isEmpty then (tree.initializeOne node, some .add)
  else tree.nonEmptyInsert rebalancing node

def replaceMinimum (min : Contributor) (differs : Bool)
    (groupOrder : PriorityGroupOrder) : PriorityTree Contributor × Option PriorityHandler :=
  if differs then
    ({ tree with priority := tree.nodePriority min }, some (.change groupOrder))
  else (tree, none)

def extract : PriorityTree Contributor × Option PriorityHandler :=
  let extracted := tree.plainExtract rebalancing node
  match extracted.contributors.minimum with
  | none => (extracted, some .remove)
  | some min => extracted.replaceMinimum min (extracted.less node min) .first

/-- `_Priority_Extract_non_empty`; without a minimum it reads through a null pointer. -/
def extractNonEmpty : Option (PriorityTree Contributor × Option PriorityHandler) :=
  let extracted := tree.plainExtract rebalancing node
  extracted.contributors.minimum.map fun min =>
    extracted.replaceMinimum min (extracted.less node min) .first

def changed (groupOrder : PriorityGroupOrder) :
    Option (PriorityTree Contributor × Option PriorityHandler) :=
  let moved := tree.plainChanged rebalancing node
  moved.contributors.minimum.map fun min =>
    moved.replaceMinimum min (moved.nodePriority min ≠ moved.priority) groupOrder

/-- An operation and the handler that it calls. -/
def perform : PriorityCall Contributor → Option (PriorityTree Contributor × Option PriorityHandler)
  | .insert node priority => some ((tree.setPriority node priority).insert rebalancing node)
  | .nonEmptyInsert node priority =>
    some ((tree.setPriority node priority).nonEmptyInsert rebalancing node)
  | .extract node => some (tree.extract rebalancing node)
  | .extractNonEmpty node => tree.extractNonEmpty rebalancing node
  | .changed node priority groupOrder =>
    (tree.setPriority node priority).changed rebalancing node groupOrder

def step (call : PriorityCall Contributor) : PriorityTree Contributor :=
  ((tree.perform rebalancing call).map Prod.fst).getD tree

/-- `_Priority_Initialize_empty`; the priority of an empty aggregation is any. -/
def initializeEmpty (priority : Nat) (nodePriority : Contributor → Nat) :
    PriorityTree Contributor := ⟨priority, .leaf, nodePriority⟩

/-- What an operation asserts: only a node that is off the tree is inserted and one that is on
it extracted or changed, and what has to be non-empty is. -/
def Allowed : PriorityCall Contributor → Prop
  | .insert node _ => node ∉ tree.contributors.toList
  | .nonEmptyInsert node _ =>
    node ∉ tree.contributors.toList ∧ tree.contributors.toList ≠ []
  | .extract node => node ∈ tree.contributors.toList
  | .extractNonEmpty node =>
    node ∈ tree.contributors.toList ∧ tree.contributors.toList.erase node ≠ []
  | .changed node _ _ => node ∈ tree.contributors.toList

instance (tree : PriorityTree Contributor) (call : PriorityCall Contributor) :
    Decidable (tree.Allowed call) := by
  cases call <;> unfold Allowed <;> infer_instance

end PriorityTree

namespace PriorityAggregation

variable {Contributor : Type} {key : Contributor → Nat}
variable {aggregation : PriorityAggregation Contributor} {node : Contributor}

def minimum (aggregation : PriorityAggregation Contributor) (key : Contributor → Nat) :
    Option Nat := (aggregation.contributors.map key).min?

theorem minimum_eq_none_iff : aggregation.minimum key = none ↔ aggregation.contributors = [] := by
  rw [minimum, List.min?_eq_none_iff, List.map_eq_nil_iff]

theorem Exact.minimum_eq (exact : aggregation.Exact key)
    (occupied : aggregation.contributors ≠ []) :
    aggregation.minimum key = some aggregation.priority := by
  obtain ⟨⟨node, inside, equal⟩, least⟩ := exact.isLeast occupied
  rw [PriorityAggregation.minimum, List.min?_eq_some_iff]
  refine ⟨List.mem_map.mpr ⟨node, inside, equal.symm⟩, fun other listed => ?_⟩
  obtain ⟨contributor, present, rfl⟩ := List.mem_map.mp listed
  exact least ⟨contributor, present, rfl⟩

theorem orderedInsert_append {before after : List Contributor}
    (fails : ∀ other ∈ before, ¬ key node < key other)
    (passes : ∀ other ∈ after, key node < key other) :
    (before ++ after).orderedInsert (fun left right => key left < key right) node =
      before ++ node :: after := by
  induction before with
  | nil =>
    cases after with
    | nil => rfl
    | cons first rest => exact if_pos (passes first List.mem_cons_self)
  | cons first rest ih =>
    rw [List.cons_append, List.orderedInsert_cons, if_neg (fails first List.mem_cons_self),
      ih fun other inside => fails other (List.mem_cons_of_mem first inside), List.cons_append]

theorem Exact.nonEmptyInsert_eq_none (exact : aggregation.Exact key)
    (occupied : aggregation.contributors ≠ [])
    (same : (aggregation.nonEmptyInsert key node).1.priority = aggregation.priority) :
    (aggregation.nonEmptyInsert key node).2 = none := by
  obtain ⟨priority, contributors⟩ := aggregation
  cases contributors with
  | nil => exact absurd rfl occupied
  | cons first rest =>
    have equal : priority = key first := exact.minimum first rfl
    unfold PriorityAggregation.nonEmptyInsert plainInsert at same ⊢
    dsimp only at same ⊢
    split at same
    next before =>
      have lower := of_decide_eq_true before
      dsimp only at same
      omega
    next behind => rw [if_neg behind]

section Operations

variable [DecidableEq Contributor]

theorem Exact.extract_ne_change (exact : aggregation.Exact key)
    (inside : node ∈ aggregation.contributors)
    (same : (aggregation.extract key node).1.priority = aggregation.priority)
    (groupOrder : PriorityGroupOrder) : (aggregation.extract key node).2 ≠ .change groupOrder := by
  have least := exact.le inside
  unfold PriorityAggregation.extract at same ⊢
  dsimp only at same ⊢
  split at same
  next => exact nofun
  next =>
    split at same
    next before =>
      dsimp only at same
      omega
    next behind =>
      rw [if_neg behind]
      exact nofun

theorem changed_eq_none {groupOrder : PriorityGroupOrder}
    (same : (aggregation.changed key node groupOrder).1.priority = aggregation.priority) :
    (aggregation.changed key node groupOrder).2 = none := by
  unfold PriorityAggregation.changed at same ⊢
  dsimp only at same ⊢
  split at same
  next => rfl
  next =>
    split at same
    next differs => exact absurd same differs
    next equal => rw [if_neg equal]

end Operations

end PriorityAggregation

namespace PriorityTree

variable {Contributor : Type}

def aggregation (tree : PriorityTree Contributor) : PriorityAggregation Contributor :=
  ⟨tree.priority, tree.contributors.toList⟩

def Sorted (tree : PriorityTree Contributor) : Prop :=
  tree.contributors.toList.Pairwise fun left right =>
    tree.nodePriority left ≤ tree.nodePriority right

structure Sound (tree : PriorityTree Contributor) : Prop where
  valid : tree.contributors.Valid
  exact : tree.aggregation.Exact tree.nodePriority

structure Simulates (tree : PriorityTree Contributor)
    (result : PriorityTree Contributor × Option PriorityHandler)
    (aggregation : PriorityAggregation Contributor) (handler : Option PriorityHandler) :
    Prop where
  valid : result.1.contributors.Valid
  nodePriority : result.1.nodePriority = tree.nodePriority
  aggregation : result.1.aggregation = aggregation
  handler : result.2 = handler

variable {tree : PriorityTree Contributor} {node : Contributor}

theorem less_monotone (sorted : tree.Sorted) (node : Contributor) :
    tree.contributors.toList.Pairwise fun earlier later =>
      tree.less node earlier → tree.less node later :=
  sorted.imp fun ordered before =>
    decide_eq_true (Nat.lt_of_lt_of_le (of_decide_eq_true before) ordered)

private theorem minimum_eq_getMinimumNode (tree : PriorityTree Contributor) :
    tree.contributors.minimum = tree.aggregation.getMinimumNode := tree.contributors.minimum_eq

theorem isEmpty_iff : tree.isEmpty = true ↔ tree.contributors.toList = [] := by
  unfold isEmpty
  cases tree.contributors with
  | leaf => exact iff_of_true rfl rfl
  | node color left name right => exact iff_of_false nofun (by simp [RedBlack.Tree.toList])

/-- The handlers are called exactly when the minimum appears, disappears or changes. -/
structure HandlerExact (before after : Option Nat) (handler : Option PriorityHandler) :
    Prop where
  add : handler = some .add ↔ before = none ∧ after ≠ none
  remove : handler = some .remove ↔ before ≠ none ∧ after = none
  change : (∃ groupOrder, handler = some (.change groupOrder)) ↔
    before ≠ none ∧ after ≠ none ∧ before ≠ after

theorem HandlerExact.of_change {old new : Nat} {changes : Option PriorityGroupOrder}
    (exactly : changes = none ↔ new = old) :
    HandlerExact (some old) (some new) (changes.map .change) := by
  cases changes with
  | none =>
    rw [exactly.mp rfl]
    exact ⟨by simp, by simp, by simp⟩
  | some groupOrder =>
    have differs : old ≠ new := fun same => nomatch exactly.mpr same.symm
    exact ⟨by simp, by simp, by simp [differs]⟩

/-- The least priority of a contributor. -/
def minimum (tree : PriorityTree Contributor) : Option Nat :=
  tree.aggregation.minimum tree.nodePriority

def Right (before : Option Nat)
    (performed : Option (PriorityTree Contributor × Option PriorityHandler)) : Prop :=
  ∃ after handler, performed = some (after, handler) ∧ after.Sound ∧
    HandlerExact before after.minimum handler

theorem Sound.minimum_eq (sound : tree.Sound) (occupied : tree.contributors.toList ≠ []) :
    tree.minimum = some tree.priority := sound.exact.minimum_eq occupied

theorem minimum_eq_none (empty : tree.contributors.toList = []) : tree.minimum = none :=
  PriorityAggregation.minimum_eq_none_iff.mpr empty

theorem initializeOne_right (tree : PriorityTree Contributor) (node : Contributor) :
    Right none (some (tree.initializeOne node, some .add)) := by
  have sound : (tree.initializeOne node).Sound :=
    ⟨⟨1, .black .leaf .leaf⟩, PriorityAggregation.initializeOne_exact node⟩
  refine ⟨_, _, rfl, sound, ?_⟩
  rw [sound.minimum_eq (List.cons_ne_nil node [])]
  exact ⟨by simp, by simp, by simp⟩

theorem initializeEmpty_sound (priority : Nat) (nodePriority : Contributor → Nat) :
    (initializeEmpty priority nodePriority).Sound :=
  ⟨⟨0, .leaf⟩, List.nodup_nil, List.Pairwise.nil, nofun⟩

section Simulation

variable {result : PriorityTree Contributor × Option PriorityHandler}
variable {list : PriorityAggregation Contributor} {handler : Option PriorityHandler}

theorem Simulates.sound (simulates : tree.Simulates result list handler)
    (exact : list.Exact tree.nodePriority) : result.1.Sound := by
  refine ⟨simulates.valid, ?_⟩
  rw [simulates.nodePriority, simulates.aggregation]
  exact exact

theorem Simulates.right {old : Nat} {changes : Option PriorityGroupOrder}
    (simulates : tree.Simulates result list (changes.map .change))
    (exact : list.Exact tree.nodePriority) (occupied : list.contributors ≠ [])
    (exactly : changes = none ↔ list.priority = old) : Right (some old) (some result) := by
  have sound := simulates.sound exact
  refine ⟨result.1, result.2, rfl, sound, ?_⟩
  have nodes := simulates.aggregation ▸ occupied
  rw [sound.minimum_eq nodes, simulates.handler,
    show result.1.priority = list.priority from
      congrArg PriorityAggregation.priority simulates.aggregation]
  exact HandlerExact.of_change exactly

end Simulation

variable [DecidableEq Contributor] (rebalancing : Rebalancing Contributor)

/-- An insertion into the tree is one into the sorted list. -/
theorem plainInsert_simulates (valid : tree.contributors.Valid) (sorted : tree.Sorted)
    (node : Contributor) :
    (tree.plainInsert rebalancing node).1.contributors.Valid ∧
      (tree.plainInsert rebalancing node).1.aggregation =
        (tree.aggregation.plainInsert tree.nodePriority node).1 ∧
      (tree.plainInsert rebalancing node).2 =
        (tree.aggregation.plainInsert tree.nodePriority node).2 := by
  have monotone := less_monotone sorted node
  have added := RedBlack.Tree.insertLeaf_addsLeaf (tree.less node) node tree.contributors
  refine ⟨rebalancing.insertColor_valid _ _ _ valid added, ?_, ?_⟩
  · obtain ⟨before, after, nodes, grown, fails, passes⟩ := RedBlack.Tree.insertLeaf_toList monotone
    have placed := PriorityAggregation.orderedInsert_append
      (fun other inside less => fails other inside (decide_eq_true less))
      (fun other inside => of_decide_eq_true (passes other inside))
    have kept := rebalancing.insertColor_toList _ _ _ valid added
    unfold PriorityAggregation.plainInsert aggregation plainInsert
    rw [kept, grown, nodes, placed]
  · rw [Bool.eq_iff_iff]
    refine (RedBlack.Tree.newMinimum_iff monotone).trans ?_
    unfold PriorityAggregation.plainInsert aggregation
    dsimp only
    cases tree.contributors.toList with
    | nil => exact iff_of_true nofun rfl
    | cons first rest =>
      exact ⟨fun all => all first rfl, fun less other isFirst => Option.some.inj isFirst ▸ less⟩

theorem nonEmptyInsert_simulates (sound : tree.contributors.Valid) (sorted : tree.Sorted)
    (node : Contributor) :
    tree.Simulates (tree.nonEmptyInsert rebalancing node)
      (tree.aggregation.nonEmptyInsert tree.nodePriority node).1
      ((tree.aggregation.nonEmptyInsert tree.nodePriority node).2.map .change) := by
  obtain ⟨valid, list, flag⟩ := plainInsert_simulates rebalancing sound sorted node
  unfold nonEmptyInsert PriorityAggregation.nonEmptyInsert
  dsimp only
  rw [← flag, ← list]
  split
  · exact ⟨valid, rfl, rfl, rfl⟩
  · exact ⟨valid, rfl, rfl, rfl⟩

theorem plainExtract_simulates (valid : tree.contributors.Valid)
    (inside : node ∈ tree.contributors.toList) :
    (tree.plainExtract rebalancing node).contributors.Valid ∧
      (tree.plainExtract rebalancing node).aggregation = tree.aggregation.plainExtract node := by
  refine ⟨rebalancing.extract_valid _ _ valid inside, ?_⟩
  unfold PriorityAggregation.plainExtract aggregation plainExtract
  rw [rebalancing.extract_toList _ _ valid inside]

def extractHandler : PriorityExtracted → Option PriorityHandler
  | .nothing => none
  | .remove => some .remove
  | .change groupOrder => some (.change groupOrder)

section

variable (valid : tree.contributors.Valid)
include valid

theorem extract_simulates (inside : node ∈ tree.contributors.toList) :
    tree.Simulates (tree.extract rebalancing node)
      (tree.aggregation.extract tree.nodePriority node).1
      (extractHandler (tree.aggregation.extract tree.nodePriority node).2) := by
  obtain ⟨valid, list⟩ := plainExtract_simulates rebalancing valid inside
  unfold extract PriorityAggregation.extract
  dsimp only
  rw [← list, minimum_eq_getMinimumNode]
  cases (tree.plainExtract rebalancing node).aggregation.getMinimumNode with
  | none => exact ⟨valid, rfl, rfl, rfl⟩
  | some min =>
    dsimp only
    by_cases before : tree.nodePriority node < tree.nodePriority min
    · have differs : (tree.plainExtract rebalancing node).less node min = true :=
        decide_eq_true before
      rw [replaceMinimum, if_pos differs, if_pos before]
      exact ⟨valid, rfl, rfl, rfl⟩
    · have same : ¬ (tree.plainExtract rebalancing node).less node min = true :=
        fun less => before (of_decide_eq_true less)
      rw [replaceMinimum, if_neg same, if_neg before]
      exact ⟨valid, rfl, rfl, rfl⟩

theorem extractNonEmpty_eq (inside : node ∈ tree.contributors.toList)
    (others : tree.contributors.toList.erase node ≠ []) :
    tree.extractNonEmpty rebalancing node = some (tree.extract rebalancing node) := by
  unfold extractNonEmpty extract
  dsimp only
  cases found : (tree.plainExtract rebalancing node).contributors.minimum with
  | some min => rfl
  | none =>
    rw [RedBlack.Tree.minimum_eq, plainExtract, rebalancing.extract_toList _ _ valid inside,
      List.head?_eq_none_iff] at found
    exact absurd found others

theorem plainChanged_simulates (exact : tree.aggregation.ExactExcept tree.nodePriority node) :
    (tree.plainChanged rebalancing node).contributors.Valid ∧
      (tree.plainChanged rebalancing node).aggregation =
        tree.aggregation.plainChanged tree.nodePriority node := by
  obtain ⟨extracted, list⟩ := plainExtract_simulates rebalancing valid exact.inside
  have sorted : (tree.plainExtract rebalancing node).Sorted := by
    rw [Sorted, plainExtract, rebalancing.extract_toList _ _ valid exact.inside]
    exact exact.sorted
  obtain ⟨moved, movedList, -⟩ := plainInsert_simulates rebalancing extracted sorted node
  rw [list] at movedList
  exact ⟨moved, movedList⟩

/-- The tree moves a changed node as the sorted list does. -/
theorem changed_simulates (exact : tree.aggregation.ExactExcept tree.nodePriority node)
    (groupOrder : PriorityGroupOrder) :
    ∃ result, tree.changed rebalancing node groupOrder = some result ∧ tree.Simulates result
      (tree.aggregation.changed tree.nodePriority node groupOrder).1
      ((tree.aggregation.changed tree.nodePriority node groupOrder).2.map .change) := by
  obtain ⟨moved, list⟩ := plainChanged_simulates rebalancing valid exact
  have perm : (tree.aggregation.plainChanged tree.nodePriority node).contributors.Perm _ :=
    PriorityAggregation.plainChanged_perm exact.inside
  have present := perm.mem_iff.mpr exact.inside
  unfold changed PriorityAggregation.changed
  dsimp only
  rw [← list] at present ⊢
  rw [minimum_eq_getMinimumNode]
  cases found : (tree.plainChanged rebalancing node).aggregation.getMinimumNode with
  | none =>
    rw [List.head?_eq_none_iff.mp found] at present
    cases present
  | some min =>
    refine ⟨(tree.plainChanged rebalancing node).replaceMinimum min
      (tree.nodePriority min ≠ tree.priority) groupOrder, rfl, ?_⟩
    dsimp only
    rw [show (tree.plainChanged rebalancing node).aggregation.priority = tree.priority from rfl]
    by_cases differs : tree.nodePriority min ≠ tree.priority
    · rw [replaceMinimum, if_pos (decide_eq_true differs), if_pos differs]
      exact ⟨moved, rfl, rfl, rfl⟩
    · rw [replaceMinimum, if_neg fun same => differs (of_decide_eq_true same), if_neg differs]
      exact ⟨moved, rfl, rfl, rfl⟩

end

section

variable (sound : tree.Sound)
include sound

theorem Sound.setPriority (absent : node ∉ tree.contributors.toList) (priority : Nat) :
    (tree.setPriority node priority).Sound := by
  refine ⟨sound.valid, sound.exact.congr fun other inside => ?_⟩
  exact update_of_ne (fun equal : other = node => absent (equal ▸ inside)) ..

theorem nonEmptyInsert_right (absent : node ∉ tree.contributors.toList)
    (occupied : tree.contributors.toList ≠ []) :
    Right (some tree.priority) (some (tree.nonEmptyInsert rebalancing node)) := by
  obtain ⟨exact, perm, unchanged⟩ := sound.exact.nonEmptyInsert occupied absent
  refine (nonEmptyInsert_simulates rebalancing sound.valid sound.exact.sorted node).right exact
    (fun empty => ?_) ⟨unchanged, sound.exact.nonEmptyInsert_eq_none occupied⟩
  rw [empty] at perm
  exact absurd perm.symm.eq_nil (List.cons_ne_nil _ _)

theorem extract_right (inside : node ∈ tree.contributors.toList) :
    Right (some tree.priority) (some (tree.extract rebalancing node)) := by
  obtain ⟨exact, nodes, unchanged, removes⟩ := sound.exact.extract inside
  have simulates := extract_simulates rebalancing sound.valid inside
  have changes := sound.exact.extract_ne_change inside
  cases found : (tree.aggregation.extract tree.nodePriority node).2 with
  | nothing =>
    rw [found] at simulates unchanged removes
    refine @Simulates.right _ tree _ _ _ none simulates exact (fun empty => ?_)
      (iff_of_true rfl (unchanged nofun))
    exact nomatch removes.mpr (nodes ▸ empty)
  | change groupOrder =>
    rw [found] at simulates removes
    refine @Simulates.right _ tree _ _ _ (some groupOrder) simulates exact (fun empty => ?_)
      (iff_of_false nofun fun same => changes same groupOrder found)
    exact nomatch removes.mpr (nodes ▸ empty)
  | remove =>
    rw [found] at simulates removes
    have empty : (tree.extract rebalancing node).1.contributors.toList = [] :=
      (congrArg PriorityAggregation.contributors simulates.aggregation).trans
        (nodes.trans (removes.mp rfl))
    refine ⟨(tree.extract rebalancing node).1, (tree.extract rebalancing node).2, rfl,
      simulates.sound exact, ?_⟩
    rw [minimum_eq_none empty, simulates.handler, extractHandler]
    exact ⟨by simp, by simp, by simp⟩

theorem changed_right (inside : node ∈ tree.contributors.toList) (priority : Nat)
    (groupOrder : PriorityGroupOrder) :
    Right (some tree.priority)
      ((tree.setPriority node priority).changed rebalancing node groupOrder) := by
  have except : (tree.setPriority node priority).aggregation.ExactExcept
      (tree.setPriority node priority).nodePriority node := by
    have rest := sound.exact.sorted.sublist (List.erase_sublist (a := node))
    refine ⟨inside, sound.exact.nodup, ?_⟩
    refine rest.imp_of_mem fun {left right} leftIn rightIn ordered => ?_
    have keeps : ∀ other ∈ tree.contributors.toList.erase node,
        (tree.setPriority node priority).nodePriority other = tree.nodePriority other :=
      fun other present => update_of_ne
        ((List.Nodup.mem_erase_iff sound.exact.nodup).mp present).1 ..
    rw [keeps left leftIn, keeps right rightIn]
    exact ordered
  obtain ⟨exact, perm, unchanged⟩ := except.changed groupOrder
  have valid : (tree.setPriority node priority).contributors.Valid := sound.valid
  obtain ⟨result, performs, simulates⟩ := changed_simulates rebalancing valid except groupOrder
  rw [performs]
  refine simulates.right exact (fun empty => ?_) ⟨unchanged, PriorityAggregation.changed_eq_none⟩
  have present := perm.mem_iff.mpr inside
  rw [empty] at present
  cases present

/-- Every operation calls the handlers for exactly what it changes. -/
theorem perform_right {call : PriorityCall Contributor} (allowed : tree.Allowed call) :
    Right tree.minimum (tree.perform rebalancing call) := by
  cases call with
  | insert node priority =>
    have set := sound.setPriority allowed priority
    have sameNodes : (tree.setPriority node priority).isEmpty = true ↔
        tree.contributors.toList = [] := isEmpty_iff
    rw [perform, insert]
    by_cases empty : tree.contributors.toList = []
    · rw [minimum_eq_none empty, if_pos (sameNodes.mpr empty)]
      exact initializeOne_right _ node
    · rw [sound.minimum_eq empty, if_neg fun none => empty (sameNodes.mp none)]
      exact nonEmptyInsert_right rebalancing set allowed empty
  | nonEmptyInsert node priority =>
    rw [sound.minimum_eq allowed.2]
    have set := sound.setPriority allowed.1 priority
    exact nonEmptyInsert_right rebalancing set allowed.1 allowed.2
  | extract node =>
    rw [sound.minimum_eq (List.ne_nil_of_mem allowed)]
    exact extract_right rebalancing sound allowed
  | extractNonEmpty node =>
    rw [sound.minimum_eq (List.ne_nil_of_mem allowed.1), perform,
      extractNonEmpty_eq rebalancing sound.valid allowed.1 allowed.2]
    exact extract_right rebalancing sound allowed.1
  | changed node priority groupOrder =>
    rw [sound.minimum_eq (List.ne_nil_of_mem allowed)]
    exact changed_right rebalancing sound allowed priority groupOrder

theorem step_sound {call : PriorityCall Contributor} (allowed : tree.Allowed call) :
    (tree.step rebalancing call).Sound := by
  obtain ⟨after, handler, performs, afterSound, -⟩ := perform_right rebalancing sound allowed
  rw [step, performs]
  exact afterSound

end

/-- The cached priority is the least of the contributors. -/
def Aggregates (tree : PriorityTree Contributor) : Prop :=
  tree.contributors.toList ≠ [] → tree.minimum = some tree.priority

/-- In every run the priority of an aggregation is the least of its contributors while there
are any, and every operation calls the right handler. -/
theorem priorityTreeRun_exact (priority : Nat) (nodePriority : Contributor → Nat)
    {calls : List (PriorityCall Contributor)}
    (allowed : Machine.Meets (step rebalancing) Allowed (initializeEmpty priority nodePriority)
      calls) :
    Machine.Throughout (step rebalancing) Aggregates (initializeEmpty priority nodePriority) calls ∧
    Machine.Meets (step rebalancing) (fun tree call => ∃ after handler,
      tree.perform rebalancing call = some (after, handler) ∧
        HandlerExact tree.minimum after.minimum handler)
      (initializeEmpty priority nodePriority) calls := by
  have start := initializeEmpty_sound priority nodePriority
  constructor
  · refine (Machine.throughout_of_preserved start ?_ allowed).imp fun tree sound => ?_
    · exact fun tree call sound allowed => step_sound rebalancing sound allowed
    · exact sound.minimum_eq
  · refine Machine.meets_of_preserved Sound start ?_ ?_ allowed
    · exact fun tree call sound allowed => step_sound rebalancing sound allowed
    · intro tree call sound allowed
      obtain ⟨after, handler, performs, -, exactly⟩ := perform_right rebalancing sound allowed
      exact ⟨after, handler, performs, exactly⟩

/-- Two nodes of one priority, and a third that becomes the minimum and is no more. -/
def threeNodes : List (PriorityCall Nat) :=
  [.insert 0 5, .insert 1 5, .nonEmptyInsert 2 3, .changed 2 7 .first, .extract 0,
    .extractNonEmpty 1, .extract 2]

theorem threeNodes_exact :
    Machine.Throughout (step (RBTree.rebalancing Nat)) Aggregates
      (initializeEmpty 0 fun _ => 0) threeNodes :=
  (priorityTreeRun_exact _ 0 _ (by decide +kernel)).1

end PriorityTree

end RTContainer.Score
