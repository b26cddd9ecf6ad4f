import RTContainer.Score.SchedulerPriority
import Mathlib.Data.List.Sort
import Mathlib.Order.Bounds.Basic

/-! The priority aggregations of `priorityimpl.h`. The red-black tree of the contributors
is the list of its nodes in order; the priority of a node is read through `key`. In place
of the handlers an operation returns the one that it calls. -/

set_option autoImplicit false

namespace RTContainer.Score

/-- `Priority_Aggregation`; `priority` is `Node.priority`. -/
structure PriorityAggregation (Contributor : Type) where
  priority : Nat
  contributors : List Contributor
  deriving DecidableEq

/-- The handler that `_Priority_Extract` calls. -/
inductive PriorityExtracted where
  | nothing
  | remove
  | change (groupOrder : PriorityGroupOrder)
  deriving DecidableEq

namespace PriorityAggregation

variable {Contributor : Type} (key : Contributor → Nat)

def initializeOne (node : Contributor) : PriorityAggregation Contributor := ⟨key node, [node]⟩

def isEmpty (aggregation : PriorityAggregation Contributor) : Bool :=
  aggregation.contributors.isEmpty

variable (aggregation : PriorityAggregation Contributor)

def getMinimumNode : Option Contributor :=
  aggregation.contributors.head?

/-- `_Priority_Plain_insert` with whether the node is the new minimum. A node goes behind
those of the same priority. -/
def plainInsert (node : Contributor) : PriorityAggregation Contributor × Bool :=
  ({ aggregation with
      contributors := aggregation.contributors.orderedInsert
        (fun left right => key left < key right) node },
    match aggregation.contributors with
    | [] => true
    | first :: _ => key node < key first)

def nonEmptyInsert (node : Contributor) :
    PriorityAggregation Contributor × Option PriorityGroupOrder :=
  let inserted := aggregation.plainInsert key node
  if inserted.2 then ({ inserted.1 with priority := key node }, some .last)
  else (inserted.1, none)

section Operations

variable [DecidableEq Contributor]

def plainExtract (aggregation : PriorityAggregation Contributor) (node : Contributor) :
    PriorityAggregation Contributor :=
  { aggregation with contributors := aggregation.contributors.erase node }

def plainChanged (aggregation : PriorityAggregation Contributor) (node : Contributor) :
    PriorityAggregation Contributor :=
  ((aggregation.plainExtract node).plainInsert key node).1

def extract (aggregation : PriorityAggregation Contributor) (node : Contributor) :
    PriorityAggregation Contributor × PriorityExtracted :=
  let extracted := aggregation.plainExtract node
  match extracted.getMinimumNode with
  | none => (extracted, .remove)
  | some min =>
    if key node < key min then ({ extracted with priority := key min }, .change .first)
    else (extracted, .nothing)

/-- `_Priority_Extract_non_empty`; without another node there is no minimum to read. -/
def extractNonEmpty (aggregation : PriorityAggregation Contributor) (node : Contributor) :
    Option (PriorityAggregation Contributor × Option PriorityGroupOrder) :=
  let extracted := aggregation.plainExtract node
  extracted.getMinimumNode.map fun min =>
    if key node < key min then ({ extracted with priority := key min }, some .first)
    else (extracted, none)

/-- `_Priority_Changed`; the changed node itself is in the aggregation. -/
def changed (aggregation : PriorityAggregation Contributor) (node : Contributor)
    (groupOrder : PriorityGroupOrder) :
    PriorityAggregation Contributor × Option PriorityGroupOrder :=
  let moved := aggregation.plainChanged key node
  match moved.getMinimumNode with
  | none => (moved, none)
  | some min =>
    if key min ≠ moved.priority then ({ moved with priority := key min }, some groupOrder)
    else (moved, none)

end Operations

structure Exact (aggregation : PriorityAggregation Contributor) : Prop where
  nodup : aggregation.contributors.Nodup
  sorted : aggregation.contributors.Pairwise fun left right => key left ≤ key right
  minimum : ∀ first ∈ aggregation.contributors.head?, aggregation.priority = key first

variable {key} {aggregation} {node : Contributor}

theorem Exact.le (exact : aggregation.Exact key) (inside : node ∈ aggregation.contributors) :
    aggregation.priority ≤ key node := by
  obtain ⟨priority, contributors⟩ := aggregation
  cases contributors with
  | nil => cases inside
  | cons first rest =>
    have equal : priority = key first := exact.minimum first rfl
    rcases List.mem_cons.mp inside with rfl | behind
    · exact equal.le
    · exact equal.le.trans ((List.pairwise_cons.mp exact.sorted).1 node behind)

/-- An aggregation has the least priority of its contributors. -/
theorem Exact.isLeast (exact : aggregation.Exact key)
    (occupied : aggregation.contributors ≠ []) :
    IsLeast {priority | ∃ node ∈ aggregation.contributors, priority = key node}
      aggregation.priority := by
  constructor
  · obtain ⟨first, rest, shape⟩ := List.exists_cons_of_ne_nil occupied
    exact ⟨first, by simp [shape], exact.minimum first (by simp [shape])⟩
  · rintro _ ⟨node, inside, rfl⟩
    exact exact.le inside

theorem Exact.congr {other : Contributor → Nat} (exact : aggregation.Exact key)
    (same : ∀ node ∈ aggregation.contributors, other node = key node) :
    aggregation.Exact other where
  nodup := exact.nodup
  sorted := exact.sorted.imp_of_mem fun {left right} insideLeft insideRight ordered => by
    rw [same left insideLeft, same right insideRight]
    exact ordered
  minimum first isFirst := by
    rw [same first (List.mem_of_mem_head? isFirst)]
    exact exact.minimum first isFirst

theorem initializeOne_exact (node : Contributor) : (initializeOne key node).Exact key where
  nodup := List.nodup_singleton node
  sorted := List.pairwise_singleton _ node
  minimum first isFirst := by
    cases isFirst
    rfl

theorem pairwise_orderedInsert {contributors : List Contributor}
    (sorted : contributors.Pairwise fun left right => key left ≤ key right) (node : Contributor) :
    (contributors.orderedInsert (fun left right => key left < key right) node).Pairwise
      fun left right => key left ≤ key right := by
  induction contributors with
  | nil => exact List.pairwise_singleton _ node
  | cons first rest ih =>
    obtain ⟨least, sortedRest⟩ := List.pairwise_cons.mp sorted
    rw [List.orderedInsert_cons]
    split
    next before =>
      refine List.pairwise_cons.mpr ⟨fun other inside => ?_, sorted⟩
      rcases List.mem_cons.mp inside with rfl | behind
      · exact before.le
      · exact before.le.trans (least other behind)
    next behind =>
      refine List.pairwise_cons.mpr ⟨fun other inside => ?_, ih sortedRest⟩
      rcases (List.perm_orderedInsert _ node rest).mem_iff.mp inside |> List.mem_cons.mp with
        rfl | inRest
      · exact Nat.le_of_not_lt behind
      · exact least other inRest

theorem plainInsert_perm (aggregation : PriorityAggregation Contributor) (node : Contributor) :
    (aggregation.plainInsert key node).1.contributors.Perm (node :: aggregation.contributors) :=
  List.perm_orderedInsert _ node aggregation.contributors

/-- An insertion reports a change if there is a new minimum. -/
theorem Exact.nonEmptyInsert (exact : aggregation.Exact key)
    (occupied : aggregation.contributors ≠ []) (fresh : node ∉ aggregation.contributors) :
    (aggregation.nonEmptyInsert key node).1.Exact key ∧
    (aggregation.nonEmptyInsert key node).1.contributors.Perm (node :: aggregation.contributors) ∧
    ((aggregation.nonEmptyInsert key node).2 = none →
      (aggregation.nonEmptyInsert key node).1.priority = aggregation.priority) := by
  obtain ⟨priority, contributors⟩ := aggregation
  have perm := List.perm_orderedInsert (fun left right => key left < key right) node contributors
  have nodup := perm.nodup_iff.mpr (List.nodup_cons.mpr ⟨fresh, exact.nodup⟩)
  have sorted := pairwise_orderedInsert exact.sorted node
  cases contributors with
  | nil => exact absurd rfl occupied
  | cons first rest =>
    unfold PriorityAggregation.nonEmptyInsert plainInsert
    dsimp only
    split
    next before =>
      refine ⟨⟨nodup, sorted, fun other isFirst => ?_⟩, perm, fun same => (nomatch same)⟩
      dsimp only at isFirst
      rw [List.orderedInsert_cons, if_pos (of_decide_eq_true before)] at isFirst
      cases isFirst
      rfl
    next behind =>
      refine ⟨⟨nodup, sorted, fun other isFirst => ?_⟩, perm, fun _ => rfl⟩
      dsimp only at isFirst
      rw [List.orderedInsert_cons, if_neg fun before => behind (decide_eq_true before)] at isFirst
      cases isFirst
      exact exact.minimum first rfl

theorem isEmpty_iff : aggregation.isEmpty = true ↔ aggregation.contributors = [] :=
  List.isEmpty_iff

section Operations

variable [DecidableEq Contributor]

theorem plainChanged_priority (aggregation : PriorityAggregation Contributor)
    (node : Contributor) : (aggregation.plainChanged key node).priority = aggregation.priority :=
  rfl

theorem plainChanged_perm (inside : node ∈ aggregation.contributors) :
    (aggregation.plainChanged key node).contributors.Perm aggregation.contributors :=
  (plainInsert_perm _ node).trans (List.perm_cons_erase inside).symm

section

variable (exact : aggregation.Exact key)
include exact

theorem Exact.priority_of_plainExtract (inside : node ∈ aggregation.contributors)
    {min : Contributor} (isFirst : min ∈ (aggregation.plainExtract node).getMinimumNode)
    (notBefore : ¬ key node < key min) : aggregation.priority = key min := by
  obtain ⟨priority, contributors⟩ := aggregation
  cases contributors with
  | nil => cases inside
  | cons first rest =>
    have equal : priority = key first := exact.minimum first rfl
    unfold plainExtract getMinimumNode at isFirst
    dsimp only at isFirst
    by_cases same : first = node
    · subst same
      rw [List.erase_cons_head] at isFirst
      have ordered := (List.pairwise_cons.mp exact.sorted).1 min (List.mem_of_mem_head? isFirst)
      exact equal.trans (ordered.antisymm (Nat.le_of_not_lt notBefore))
    · rw [List.erase_cons_tail (by simpa using same)] at isFirst
      cases isFirst
      exact equal

theorem Exact.plainExtract (node : Contributor) {priority : Nat}
    (minimum : ∀ min ∈ (aggregation.plainExtract node).getMinimumNode, priority = key min) :
    ({ aggregation.plainExtract node with priority := priority } :
      PriorityAggregation Contributor).Exact key where
  nodup := exact.nodup.erase node
  sorted := exact.sorted.sublist List.erase_sublist
  minimum := minimum

/-- An extraction reports a change, or that nothing is left. -/
theorem Exact.extract (inside : node ∈ aggregation.contributors) :
    (aggregation.extract key node).1.Exact key ∧
    (aggregation.extract key node).1.contributors = aggregation.contributors.erase node ∧
    ((∀ groupOrder, (aggregation.extract key node).2 ≠ .change groupOrder) →
      (aggregation.extract key node).1.priority = aggregation.priority) ∧
    ((aggregation.extract key node).2 = .remove ↔ aggregation.contributors.erase node = []) := by
  unfold PriorityAggregation.extract
  dsimp only
  cases found : (aggregation.plainExtract node).getMinimumNode with
  | none =>
    have empty := List.head?_eq_none_iff.mp found
    refine ⟨exact.plainExtract node ?_, rfl, fun _ => rfl, fun _ => empty, fun _ => rfl⟩
    rw [found]
    exact fun min isFirst => nomatch isFirst
  | some min =>
    have occupied : aggregation.contributors.erase node ≠ [] := by
      intro empty
      rw [getMinimumNode, PriorityAggregation.plainExtract, empty] at found
      cases found
    dsimp only
    split
    next before =>
      refine ⟨exact.plainExtract node ?_, rfl, fun unchanged => absurd rfl (unchanged .first),
        fun same => (nomatch same), fun empty => absurd empty occupied⟩
      rw [found]
      exact fun other isFirst => congrArg key (Option.some.inj isFirst)
    next behind =>
      have equal := exact.priority_of_plainExtract inside found behind
      refine ⟨exact.plainExtract node ?_, rfl, fun _ => rfl, fun same => (nomatch same),
        fun empty => absurd empty occupied⟩
      rw [found]
      exact fun other isFirst => equal.trans (congrArg key (Option.some.inj isFirst))

theorem Exact.extractNonEmpty (inside : node ∈ aggregation.contributors)
    (occupied : aggregation.contributors.erase node ≠ []) :
    ∃ extracted changes, aggregation.extractNonEmpty key node = some (extracted, changes) ∧
      extracted.Exact key ∧ extracted.contributors = aggregation.contributors.erase node ∧
      (changes = none → extracted.priority = aggregation.priority) := by
  obtain ⟨min, rest, shape⟩ := List.exists_cons_of_ne_nil occupied
  have found : (aggregation.plainExtract node).getMinimumNode = some min := by
    rw [getMinimumNode, PriorityAggregation.plainExtract, shape]
    rfl
  unfold PriorityAggregation.extractNonEmpty
  dsimp only
  rw [found, Option.map_some]
  split
  next before =>
    refine ⟨_, _, rfl, exact.plainExtract node ?_, rfl, fun same => (nomatch same)⟩
    rw [found]
    exact fun other isFirst => congrArg key (Option.some.inj isFirst)
  next behind =>
    have equal := exact.priority_of_plainExtract inside found behind
    refine ⟨_, _, rfl, exact.plainExtract node ?_, rfl, fun _ => rfl⟩
    rw [found]
    exact fun other isFirst => equal.trans (congrArg key (Option.some.inj isFirst))

end

structure ExactExcept (key : Contributor → Nat) (aggregation : PriorityAggregation Contributor)
    (node : Contributor) : Prop where
  inside : node ∈ aggregation.contributors
  nodup : aggregation.contributors.Nodup
  sorted : (aggregation.contributors.erase node).Pairwise fun left right => key left ≤ key right

theorem ExactExcept.plainChanged (exact : aggregation.ExactExcept key node) :
    (aggregation.plainChanged key node).contributors.Nodup ∧
    (aggregation.plainChanged key node).contributors.Pairwise
      fun left right => key left ≤ key right :=
  ⟨(plainChanged_perm exact.inside).nodup_iff.mpr exact.nodup,
    pairwise_orderedInsert exact.sorted node⟩

/-- After a change of its key the node is moved to its place. -/
theorem ExactExcept.changed (exact : aggregation.ExactExcept key node)
    (groupOrder : PriorityGroupOrder) :
    (aggregation.changed key node groupOrder).1.Exact key ∧
    (aggregation.changed key node groupOrder).1.contributors.Perm aggregation.contributors ∧
    ((aggregation.changed key node groupOrder).2 = none →
      (aggregation.changed key node groupOrder).1.priority = aggregation.priority) := by
  have perm := @plainChanged_perm _ key _ _ _ exact.inside
  obtain ⟨nodup, sorted⟩ := exact.plainChanged
  unfold PriorityAggregation.changed
  dsimp only
  cases found : (aggregation.plainChanged key node).getMinimumNode with
  | none =>
    have empty := List.head?_eq_none_iff.mp found
    have present := perm.mem_iff.mpr exact.inside
    rw [empty] at present
    cases present
  | some min =>
    have isMin : ∀ first ∈ (aggregation.plainChanged key node).contributors.head?,
        key min = key first := by
      intro first isFirst
      exact congrArg key (Option.some.inj (found.symm.trans isFirst))
    dsimp only
    split
    next => exact ⟨⟨nodup, sorted, isMin⟩, perm, fun same => (nomatch same)⟩
    next same =>
      have equal := (not_not.mp same).symm
      exact ⟨⟨nodup, sorted, fun first isFirst => equal.trans (isMin first isFirst)⟩, perm,
        fun _ => rfl⟩

end Operations

end PriorityAggregation

end RTContainer.Score
