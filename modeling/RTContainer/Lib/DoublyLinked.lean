import Mathlib.Data.List.Nodup

/-! Doubly linked lists in memory: a head pointer, and two pointers in every
node. The list begins at the head and ends at a null pointer in both
directions. -/

set_option autoImplicit false

namespace DoublyLinked

open Function

/-- The pointers of a list; a null pointer is `none`. -/
@[ext] structure Links (Node : Type) where
  head : Option Node
  next : Node → Option Node
  prev : Node → Option Node

variable {Node : Type}

/-- The nodes met from a pointer along the `next` pointers, `fuel` at most. -/
def walk (next : Node → Option Node) : Nat → Option Node → List Node
  | 0, _ => []
  | _ + 1, none => []
  | fuel + 1, some node => node :: walk next fuel (next node)

/-- From `first` the `next` pointers run through the nodes to the end, and the
`prev` pointers run back to `before`. -/
def Segment (next prev : Node → Option Node) : Option Node → Option Node → List Node → Prop
  | _, first, [] => first = none
  | before, first, node :: rest =>
    first = some node ∧ prev node = before ∧ Segment next prev (some node) (next node) rest

namespace Links

def Lists (links : Links Node) (nodes : List Node) : Prop :=
  Segment links.next links.prev none links.head nodes

variable [DecidableEq Node]

/-- Insertion before the head. -/
def pushFront (links : Links Node) (node : Node) : Links Node where
  head := some node
  next := update links.next node links.head
  prev := update
    (match links.head with
      | some first => update links.prev first (some node)
      | none => links.prev) node none

/-- Removal of a node: its neighbours, or the head, are made to skip it, and its
own pointers are cleared. -/
def remove (links : Links Node) (node : Node) : Links Node where
  head := if links.prev node = none then links.next node else links.head
  next := update
    (match links.prev node with
      | some before => update links.next before (links.next node)
      | none => links.next) node none
  prev := update
    (match links.next node with
      | some after => update links.prev after (links.prev node)
      | none => links.prev) node none

end Links

variable {next prev next' prev' : Node → Option Node} {before first : Option Node}
variable {nodes : List Node} {node : Node}

theorem Segment.congr (segment : Segment next prev before first nodes)
    (sameNext : ∀ node ∈ nodes, next' node = next node)
    (samePrev : ∀ node ∈ nodes, prev' node = prev node) :
    Segment next' prev' before first nodes := by
  induction nodes generalizing before first with
  | nil => exact segment
  | cons head rest ih =>
    obtain ⟨begins, back, tail⟩ := segment
    have headNext := sameNext head List.mem_cons_self
    have headPrev := samePrev head List.mem_cons_self
    apply And.intro begins
    apply And.intro (headPrev.trans back)
    rw [headNext]
    exact ih tail (fun node member => sameNext node (List.mem_cons_of_mem head member))
      (fun node member => samePrev node (List.mem_cons_of_mem head member))

/-- The pointers decide which nodes are linked. -/
theorem Segment.unique {others : List Node} {before' : Option Node}
    (segment : Segment next prev before first nodes)
    (other : Segment next prev' before' first others) : nodes = others := by
  induction nodes generalizing before before' first others with
  | nil =>
    cases others with
    | nil => rfl
    | cons head rest => exact absurd (segment.symm.trans other.1) (by simp)
  | cons head rest ih =>
    cases others with
    | nil => exact absurd (segment.1.symm.trans other) (by simp)
    | cons head' rest' =>
      have same : head = head' := Option.some.inj (segment.1.symm.trans other.1)
      subst head'
      rw [ih segment.2.2 other.2.2]

theorem Segment.of_append {front back : List Node}
    (segment : Segment next prev before first (front ++ node :: back)) :
    Segment next prev (prev node) (some node) (node :: back) := by
  induction front generalizing before first with
  | nil => exact ⟨rfl, rfl, segment.2.2⟩
  | cons head rest ih => exact ih segment.2.2

section

variable (segment : Segment next prev before first nodes)
include segment

theorem Segment.nodup : nodes.Nodup := by
  induction nodes generalizing before first with
  | nil => exact List.nodup_nil
  | cons head rest ih =>
    apply List.nodup_cons.mpr
    refine ⟨?_, ih segment.2.2⟩
    intro again
    obtain ⟨front, back, split⟩ := List.append_of_mem again
    have tail := segment.2.2
    rw [split] at tail
    -- the list that begins at `head` would be a proper part of itself
    have whole : Segment next prev (prev head) (some head) (head :: rest) :=
      ⟨rfl, rfl, segment.2.2⟩
    have same := whole.unique tail.of_append
    have lengths := congrArg List.length same
    simp [split] at lengths
    omega

private theorem walk_of_segment {fuel : Nat} (enough : nodes.length ≤ fuel) :
    walk next fuel first = nodes := by
  induction nodes generalizing before first fuel with
  | nil =>
    rw [show first = none from segment]
    cases fuel <;> rfl
  | cons head rest ih =>
    cases fuel with
    | zero => simp at enough
    | succ fuel =>
      rw [segment.1, walk, ih segment.2.2 (by simpa using enough)]

theorem Segment.prev_cases (member : node ∈ nodes) :
    (first = some node ∧ prev node = before) ∨
      ∃ other ∈ nodes, prev node = some other ∧ next other = some node := by
  induction nodes generalizing before first with
  | nil => cases member
  | cons head rest ih =>
    obtain ⟨begins, back, tail⟩ := segment
    cases member with
    | head => exact .inl ⟨begins, back⟩
    | tail _ member =>
      right
      cases ih tail member with
      | inl isFirst => exact ⟨head, List.mem_cons_self, isFirst.2, isFirst.1⟩
      | inr later =>
        obtain ⟨other, within, pointers⟩ := later
        exact ⟨other, List.mem_cons_of_mem head within, pointers⟩

theorem Segment.first_mem (begins : first = some node) : node ∈ nodes := by
  cases nodes with
  | nil => exact absurd (begins.symm.trans segment) (by simp)
  | cons head rest =>
    rw [Option.some.inj (begins.symm.trans segment.1)]
    exact List.mem_cons_self

theorem Segment.next_mem {after : Node} (member : node ∈ nodes) (points : next node = some after) :
    after ∈ nodes := by
  induction nodes generalizing before first with
  | nil => cases member
  | cons head rest ih =>
    apply List.mem_cons_of_mem head
    cases member with
    | head => exact segment.2.2.first_mem points
    | tail _ member => exact ih segment.2.2 member

end

namespace Links

variable {links : Links Node}

theorem Lists.nodup (lists : links.Lists nodes) : nodes.Nodup := Segment.nodup lists

theorem Lists.unique {others : List Node} (lists : links.Lists nodes)
    (other : links.Lists others) : nodes = others := Segment.unique lists other

theorem Lists.walk_eq {fuel : Nat} (lists : links.Lists nodes) (enough : nodes.length ≤ fuel) :
    walk links.next fuel links.head = nodes := walk_of_segment lists enough

variable [DecidableEq Node]

@[simp] theorem remove_next (node other : Node) :
    (links.remove node).next other =
      if other = node then none
      else if links.prev node = some other then links.next node else links.next other := by
  by_cases same : other = node
  · subst other
    simp [remove]
  · cases points : links.prev node with
    | none => simp [remove, same, points]
    | some before =>
      by_cases neighbour : other = before
      · subst other
        simp [remove, same, points]
      · simp [remove, same, points, neighbour, Ne.symm neighbour]

@[simp] theorem remove_prev (node other : Node) :
    (links.remove node).prev other =
      if other = node then none
      else if links.next node = some other then links.prev node else links.prev other := by
  by_cases same : other = node
  · subst other
    simp [remove]
  · cases points : links.next node with
    | none => simp [remove, same, points]
    | some after =>
      by_cases neighbour : other = after
      · subst other
        simp [remove, same, points]
      · simp [remove, same, points, neighbour, Ne.symm neighbour]

theorem Lists.pushFront (lists : links.Lists nodes) (fresh : node ∉ nodes) :
    (links.pushFront node).Lists (node :: nodes) := by
  apply And.intro rfl
  apply And.intro (update_self ..)
  cases nodes with
  | nil =>
    have empty : links.head = none := lists
    simpa [Segment, Links.pushFront] using empty
  | cons head rest =>
    obtain ⟨begins, _, tail⟩ := lists
    have different : head ≠ node := by
      intro same
      exact fresh (same ▸ List.mem_cons_self)
    have notLater : head ∉ rest := (List.nodup_cons.mp (Segment.nodup ⟨begins, ‹_›, tail⟩)).1
    simp only [Segment, Links.pushFront, update_self, begins]
    refine ⟨trivial, by simp [different], ?_⟩
    rw [update_of_ne different]
    apply tail.congr
    · intro other member
      have notNode : other ≠ node :=
        ne_of_mem_of_not_mem (List.mem_cons_of_mem head member) fresh
      exact update_of_ne notNode _ _
    · intro other member
      have notNode : other ≠ node :=
        ne_of_mem_of_not_mem (List.mem_cons_of_mem head member) fresh
      have notHead : other ≠ head := ne_of_mem_of_not_mem member notLater
      rw [update_of_ne notNode, update_of_ne notHead]

theorem segment_remove (segment : Segment links.next links.prev before first nodes)
    (distinct : nodes.Nodup) (outside : ∀ other, before = some other → other ∉ nodes)
    (member : node ∈ nodes) :
    Segment (links.remove node).next (links.remove node).prev before
      (if first = some node then links.next node else first) (nodes.erase node) := by
  induction nodes generalizing before first with
  | nil => cases member
  | cons head rest ih =>
    obtain ⟨begins, back, tail⟩ := segment
    obtain ⟨headOnce, restDistinct⟩ := List.nodup_cons.mp distinct
    by_cases same : head = node
    · subst head
      rw [List.erase_cons_head, if_pos begins]
      cases rest with
      | nil => exact tail
      | cons second rest =>
        obtain ⟨points, _, later⟩ := tail
        obtain ⟨secondOnce, _⟩ := List.nodup_cons.mp restDistinct
        have notNode : ∀ other ∈ second :: rest, other ≠ node := by
          intro other within isNode
          exact headOnce (isNode ▸ within)
        have notBefore : ∀ other ∈ second :: rest, links.prev node ≠ some other := by
          intro other within isBefore
          exact outside other (back.symm.trans isBefore) (List.mem_cons_of_mem node within)
        have secondNext : (links.remove node).next second = links.next second := by
          rw [remove_next, if_neg (notNode second List.mem_cons_self),
            if_neg (notBefore second List.mem_cons_self)]
        refine ⟨points, ?_, ?_⟩
        · rw [remove_prev, if_neg (notNode second List.mem_cons_self), if_pos points, back]
        · rw [secondNext]
          apply later.congr
          · intro other within
            have within' := List.mem_cons_of_mem second within
            rw [remove_next, if_neg (notNode other within'), if_neg (notBefore other within')]
          · intro other within
            have notSecond : links.next node ≠ some other := by
              intro isSecond
              have same : second = other := Option.some.inj (points.symm.trans isSecond)
              exact secondOnce (same ▸ within)
            rw [remove_prev, if_neg (notNode other (List.mem_cons_of_mem second within)),
              if_neg notSecond]
    · have within : node ∈ rest := (List.mem_cons.mp member).resolve_left (Ne.symm same)
      have notFirst : first ≠ some node := by
        intro isFirst
        exact same (Option.some.inj (begins.symm.trans isFirst))
      have headNext : (links.remove node).next head =
          if links.next head = some node then links.next node else links.next head := by
        rw [remove_next, if_neg same]
        congr 1
        apply propext
        constructor
        · intro isPrev
          cases tail.prev_cases within with
          | inl isFirst => exact isFirst.1
          | inr later =>
            obtain ⟨other, isLater, isPrev', _⟩ := later
            have same : other = head := Option.some.inj (isPrev'.symm.trans isPrev)
            exact absurd (same ▸ isLater) headOnce
        · intro points
          cases tail.prev_cases within with
          | inl isFirst => exact isFirst.2
          | inr later =>
            obtain ⟨other, isLater, isPrev', points'⟩ := later
            -- `head` and `other` would both point to the node
            cases rest with
            | nil => cases within
            | cons second rest =>
              have isSecond : second = node :=
                Option.some.inj (tail.1.symm.trans points)
              exact isSecond ▸ tail.2.1
      have headPrev : links.next node ≠ some head := by
        intro points
        exact headOnce (tail.next_mem within points)
      have inner := ih tail restDistinct
        (fun other isHead => Option.some.inj isHead ▸ headOnce) within
      rw [List.erase_cons_tail (by simpa using same), if_neg notFirst]
      refine ⟨begins, ?_, ?_⟩
      · rw [remove_prev, if_neg same, if_neg headPrev, back]
      · rw [headNext]
        exact inner

/-- A removal takes one node out of the list. -/
theorem Lists.remove (lists : links.Lists nodes) (member : node ∈ nodes) :
    (links.remove node).Lists (nodes.erase node) := by
  have first : (links.remove node).head =
      if links.head = some node then links.next node else links.head := by
    simp only [Links.remove]
    congr 1
    apply propext
    cases Segment.prev_cases lists member with
    | inl isFirst => simp [isFirst.1, isFirst.2]
    | inr later =>
      obtain ⟨other, within, isPrev, points⟩ := later
      simp only [isPrev, reduceCtorEq, false_iff]
      intro isFirst
      cases nodes with
      | nil => cases member
      | cons head rest =>
        have same : head = node := Option.some.inj (lists.1.symm.trans isFirst)
        exact absurd (isPrev.symm.trans (same ▸ lists.2.1)) (by simp)
  rw [Lists, first]
  exact segment_remove lists lists.nodup (by simp) member

end Links

end DoublyLinked
