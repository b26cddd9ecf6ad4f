import RTContainer.Lib.DeadlineQueue
import RTContainer.Lib.RedBlack

/-! The watchdog headers of `watchdogimpl.h`: a red-black tree of the scheduled
watchdogs and a separate pointer to the first one. Insertion and removal keep the
pointer by looking at the neighbours of the node in the tree. -/

set_option autoImplicit false

namespace RTContainer.Score

open RedBlack Deadlines Function

/-- `Watchdog_Header`, with the `expire` member of every watchdog. A watchdog is
scheduled while it is in the tree, where its state is the color of its node. -/
structure WatchdogHeader (Watchdog : Type) where
  watchdogs : RedBlack.Tree Watchdog
  first : Option Watchdog
  expire : Watchdog → Nat

variable {Watchdog : Type}

namespace WatchdogHeader

def headerInitialize (expire : Watchdog → Nat) : WatchdogHeader Watchdog where
  watchdogs := .leaf
  first := none
  expire := expire

/-- The descent of `_Watchdog_Insert` to the leaf where the watchdog is added.
The new first one is the watchdog itself, until the descent turns right once. -/
def descend (expire : Watchdog → Nat) (watchdog : Watchdog) (oldFirst : Option Watchdog) :
    RedBlack.Tree Watchdog → Option Watchdog → RedBlack.Tree Watchdog × Option Watchdog
  | .leaf, newFirst => (.node .red .leaf watchdog .leaf, newFirst)
  | .node color left parent right, newFirst =>
    if expire watchdog < expire parent then
      let (grown, newFirst) := descend expire watchdog oldFirst left newFirst
      (.node color grown parent right, newFirst)
    else
      let (grown, newFirst) := descend expire watchdog oldFirst right oldFirst
      (.node color left parent grown, newFirst)

variable [DecidableEq Watchdog] (tree : Rebalancing Watchdog) (header : WatchdogHeader Watchdog)

def insert (watchdog : Watchdog) (expire : Nat) : WatchdogHeader Watchdog :=
  let expires := update header.expire watchdog expire
  let (grown, newFirst) := descend expires watchdog header.first header.watchdogs (some watchdog)
  { watchdogs := tree.insertColor grown watchdog, first := newFirst, expire := expires }

def isScheduled (watchdog : Watchdog) : Bool :=
  decide (watchdog ∈ header.watchdogs.toList)

def nextFirst (first : Watchdog) : WatchdogHeader Watchdog :=
  match header.watchdogs.rightOf first with
  | some right => { header with first := some right }
  | none => { header with first := header.watchdogs.parentOf first }

/-- `_RBTree_Extract`; the extracted watchdog is inactive. -/
def extract (header : WatchdogHeader Watchdog) (watchdog : Watchdog) : WatchdogHeader Watchdog :=
  { header with watchdogs := tree.extract header.watchdogs watchdog }

def remove (watchdog : Watchdog) : WatchdogHeader Watchdog :=
  if header.isScheduled watchdog then
    let advanced :=
      if header.first = some watchdog then header.nextFirst watchdog else header
    advanced.extract tree watchdog
  else header

/-- A turn of the loop of `_Watchdog_Do_tickle` up to the call of the service
routine of `first`; `none` when the loop is left because `first` is not due. -/
def turn (first : Watchdog) (now : Nat) : Option (WatchdogHeader Watchdog) :=
  if header.expire first ≤ now then some ((header.nextFirst first).extract tree first) else none

structure Represents (header : WatchdogHeader Watchdog) (queue : Queue Watchdog) : Prop where
  valid : header.watchdogs.Valid
  entries : header.watchdogs.toList.map (fun watchdog => (watchdog, header.expire watchdog)) =
    queue.entries
  first : header.first = queue.first.map Prod.fst

section Descend

variable {expire : Watchdog → Nat} {watchdog : Watchdog} {oldFirst newFirst : Option Watchdog}

section

omit [DecidableEq Watchdog]

private theorem descend_addsLeaf (nodes : RedBlack.Tree Watchdog) :
    RedBlack.Tree.AddsLeaf watchdog nodes (descend expire watchdog oldFirst nodes newFirst).1 := by
  induction nodes generalizing newFirst with
  | leaf => exact .here
  | node color left parent right leftIH rightIH =>
    simp only [descend]
    split
    next => exact .left leftIH
    next => exact .right rightIH

/-- A watchdog goes behind those that expire no later. -/
theorem descend_entries {nodes : RedBlack.Tree Watchdog}
    (ordered : nodes.toList.Pairwise fun left right => expire left ≤ expire right) :
    (descend expire watchdog oldFirst nodes newFirst).1.toList.map
        (fun name => (name, expire name)) =
      place (watchdog, expire watchdog) (nodes.toList.map fun name => (name, expire name)) := by
  induction nodes generalizing newFirst with
  | leaf => rfl
  | node color left parent right leftIH rightIH =>
    simp only [RedBlack.Tree.toList] at ordered
    obtain ⟨leftOrdered, restOrdered, across⟩ := List.pairwise_append.mp ordered
    obtain ⟨-, rightOrdered⟩ := List.pairwise_cons.mp restOrdered
    simp only [descend]
    split
    next earlier =>
      simp only [RedBlack.Tree.toList, List.map_append, List.map_cons, leftIH leftOrdered]
      exact (place_append_of_lt earlier).symm
    next later =>
      simp only [RedBlack.Tree.toList, List.map_append, List.map_cons, rightIH rightOrdered]
      refine (place_append_of_le ?_).symm
      intro entry member
      rcases List.mem_append.mp member with inLeft | isParent
      · obtain ⟨name, nameIn, rfl⟩ := List.mem_map.mp inLeft
        exact (across name nameIn parent List.mem_cons_self).trans (Nat.not_lt.mp later)
      · obtain rfl := List.mem_singleton.mp isParent
        exact Nat.not_lt.mp later

/-- The new watchdog comes first if it expires before all others. -/
theorem descend_first {nodes : RedBlack.Tree Watchdog}
    (ordered : nodes.toList.Pairwise fun left right => expire left ≤ expire right) :
    (descend expire watchdog oldFirst nodes newFirst).2 =
      if ∀ name ∈ nodes.toList, expire watchdog < expire name then newFirst else oldFirst := by
  induction nodes generalizing newFirst with
  | leaf => simp [descend, RedBlack.Tree.toList]
  | node color left parent right leftIH rightIH =>
    simp only [RedBlack.Tree.toList] at ordered
    obtain ⟨leftOrdered, restOrdered, -⟩ := List.pairwise_append.mp ordered
    obtain ⟨behind, rightOrdered⟩ := List.pairwise_cons.mp restOrdered
    simp only [descend]
    split
    next earlier =>
      have whole : (∀ name ∈ (RedBlack.Tree.node color left parent right).toList,
          expire watchdog < expire name) ↔ ∀ name ∈ left.toList, expire watchdog < expire name := by
        simp only [RedBlack.Tree.toList, List.forall_mem_append, List.forall_mem_cons]
        exact ⟨And.left, fun inLeft => ⟨inLeft, earlier, fun name inRight =>
          earlier.trans_le (behind name inRight)⟩⟩
      simp only [leftIH leftOrdered, whole]
    next later =>
      have never : ¬ ∀ name ∈ (RedBlack.Tree.node color left parent right).toList,
          expire watchdog < expire name :=
        fun all => later (all parent (by simp [RedBlack.Tree.toList]))
      simp only [rightIH rightOrdered, if_neg never, ite_self]

end

end Descend

section Represents

variable {header} {queue : Queue Watchdog} {tree : Rebalancing Watchdog}
  {watchdog : Watchdog}

section

omit [DecidableEq Watchdog]

section

variable (represents : header.Represents queue)
include represents

theorem Represents.names : header.watchdogs.toList = queue.entries.map Prod.fst := by
  rw [← represents.entries, List.map_map]
  exact (List.map_id _).symm

theorem Represents.distinct : header.watchdogs.toList.Nodup := by
  rw [represents.names]
  exact queue.distinct

theorem Represents.ordered :
    header.watchdogs.toList.Pairwise fun left right => header.expire left ≤ header.expire right := by
  have ordered := queue.ordered
  rw [← represents.entries, List.pairwise_map] at ordered
  exact ordered

theorem Represents.mem_entries {expire : Nat} :
    (watchdog, expire) ∈ queue.entries ↔
      watchdog ∈ header.watchdogs.toList ∧ header.expire watchdog = expire := by
  rw [← represents.entries, List.mem_map]
  constructor
  · rintro ⟨name, member, same⟩
    obtain ⟨rfl, rfl⟩ := Prod.mk.inj same
    exact ⟨member, rfl⟩
  · rintro ⟨member, rfl⟩
    exact ⟨watchdog, member, rfl⟩

end

end

theorem Represents.isScheduled_iff (represents : header.Represents queue) :
    header.isScheduled watchdog = true ↔ ∃ expire, (watchdog, expire) ∈ queue.entries := by
  simp only [isScheduled, decide_eq_true_eq, represents.mem_entries]
  exact ⟨fun member => ⟨_, member, rfl⟩, fun ⟨_, member, _⟩ => member⟩

omit [DecidableEq Watchdog] in
theorem headerInitialize_represents (expire : Watchdog → Nat) :
    (headerInitialize expire).Represents ⟨[], .nil, .nil⟩ :=
  ⟨⟨0, .leaf⟩, rfl, rfl⟩

section

variable (represents : header.Represents queue)
include represents

/-- An insertion is that of the abstract queue. -/
theorem Represents.insert {expire : Nat} (inactive : ¬ header.isScheduled watchdog = true) :
    (header.insert tree watchdog expire).Represents (queue.insert watchdog expire) := by
  have absent : watchdog ∉ header.watchdogs.toList := by simpa [isScheduled] using inactive
  have others : ∀ name ∈ header.watchdogs.toList,
      update header.expire watchdog expire name = header.expire name := by
    intro name member
    have different : name ≠ watchdog := fun same => absent (same ▸ member)
    exact update_of_ne different ..
  have entries : header.watchdogs.toList.map
      (fun name => (name, update header.expire watchdog expire name)) = queue.entries := by
    rw [← represents.entries]
    exact List.map_congr_left fun name member => by rw [others name member]
  have ordered : header.watchdogs.toList.Pairwise fun left right =>
      update header.expire watchdog expire left ≤ update header.expire watchdog expire right := by
    refine represents.ordered.imp_of_mem fun leftIn rightIn le => ?_
    rwa [others _ leftIn, others _ rightIn]
  have removed : queue.remove watchdog = queue :=
    Queue.remove_of_absent (represents.names ▸ absent)
  have inserted : (queue.insert watchdog expire).entries =
      place (watchdog, expire) queue.entries := by
    simp only [Queue.insert, removed]
  obtain ⟨expires, isExpires⟩ : ∃ expires, expires =
      update header.expire watchdog expire := ⟨_, rfl⟩
  have own : expires watchdog = expire := by rw [isExpires, update_self]
  rw [← isExpires] at entries ordered
  have grown : RedBlack.Tree.AddsLeaf watchdog header.watchdogs
      (descend expires watchdog header.first header.watchdogs (some watchdog)).1 :=
    descend_addsLeaf header.watchdogs
  constructor
  · simp only [WatchdogHeader.insert, ← isExpires]
    exact tree.insertColor_valid _ _ _ represents.valid grown
  · simp only [WatchdogHeader.insert, ← isExpires]
    rw [tree.insertColor_toList _ _ _ represents.valid grown, descend_entries ordered, entries,
      own, inserted]
  · simp only [WatchdogHeader.insert, ← isExpires]
    rw [descend_first ordered, Queue.first, inserted, head?_place queue.ordered, own,
      represents.first]
    have later : (∀ name ∈ header.watchdogs.toList, expire < expires name) ↔
        ∀ entry ∈ queue.entries, expire < entry.2 := by
      rw [← entries]
      simp
    by_cases all : ∀ entry ∈ queue.entries, expire < entry.2
    · rw [if_pos all, if_pos (later.mpr all)]
      rfl
    · rw [if_neg all, if_neg (mt later.mp all)]
      rfl

theorem Represents.nextFirst {rest : List Watchdog}
    (nodes : header.watchdogs.toList = watchdog :: rest) :
    header.nextFirst watchdog = { header with first := rest.head? } := by
  obtain ⟨height, balanced⟩ := represents.valid
  have next := balanced.next_of_first represents.distinct nodes
  unfold WatchdogHeader.nextFirst
  split
  next right isRight =>
    rw [isRight, Option.some_or] at next
    rw [next]
  next isRight =>
    rw [isRight, Option.none_or] at next
    rw [next]

theorem Represents.erase_entries :
    (header.watchdogs.toList.erase watchdog).map (fun name => (name, header.expire name)) =
      (queue.remove watchdog).entries := by
  change _ = queue.entries.filter fun entry => entry.1 ≠ watchdog
  rw [represents.distinct.erase_eq_filter, ← represents.entries, List.filter_map]
  congr 1
  exact List.filter_congr fun name _ => by simp [bne, beq_eq_decide]

theorem Represents.extract {first : Option Watchdog}
    (scheduled : watchdog ∈ header.watchdogs.toList)
    (advanced : first = (header.watchdogs.toList.erase watchdog).head?) :
    ({ header with first := first }.extract tree watchdog).Represents (queue.remove watchdog) := by
  constructor
  · exact tree.extract_valid _ _ represents.valid scheduled
  · simp only [WatchdogHeader.extract]
    rw [tree.extract_toList _ _ represents.valid scheduled, represents.erase_entries]
  · simp only [WatchdogHeader.extract]
    rw [Queue.first, ← represents.erase_entries, List.head?_map, Option.map_map, advanced]
    exact Option.map_id'.symm ▸ rfl

omit [DecidableEq Watchdog] in
theorem Represents.first_eq : header.first = header.watchdogs.toList.head? := by
  rw [represents.first, represents.names, List.head?_map]
  rfl

theorem Represents.removeFirst (isFirst : header.first = some watchdog) :
    ((header.nextFirst watchdog).extract tree watchdog).Represents (queue.remove watchdog) := by
  have isHead : header.watchdogs.toList.head? = some watchdog :=
    represents.first_eq.symm.trans isFirst
  obtain ⟨rest, nodes⟩ := List.head?_eq_some_iff.mp isHead
  have scheduled : watchdog ∈ header.watchdogs.toList := by
    rw [nodes]
    exact List.mem_cons_self
  rw [represents.nextFirst nodes]
  exact represents.extract scheduled (by rw [nodes, List.erase_cons_head])

theorem Represents.remove : (header.remove tree watchdog).Represents (queue.remove watchdog) := by
  unfold WatchdogHeader.remove
  split
  next isScheduled =>
    have scheduled : watchdog ∈ header.watchdogs.toList := of_decide_eq_true isScheduled
    dsimp only
    split
    next isFirst => exact represents.removeFirst isFirst
    next notFirst =>
      refine represents.extract scheduled ?_
      rw [represents.first_eq]
      cases nodes : header.watchdogs.toList with
      | nil => rfl
      | cons head rest =>
        have different : head ≠ watchdog := by
          rintro rfl
          exact notFirst (represents.first_eq.trans (by rw [nodes]; rfl))
        rw [List.erase_cons_tail (by simpa using different)]
        rfl
  next inactive =>
    have absent : watchdog ∉ header.watchdogs.toList := by simpa [isScheduled] using inactive
    rw [Queue.remove_of_absent (represents.names ▸ absent)]
    exact represents

end

end Represents

end WatchdogHeader

end RTContainer.Score
