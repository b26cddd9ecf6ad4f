import Mathlib.Algebra.BigOperators.Group.Finset.Piecewise
import Mathlib.Algebra.Order.BigOperators.Group.Finset

/-! Trees of names. A directory has entries that name nodes, an entry for itself and one
for the directory that it is in. A node counts its links: the entries that name it, or,
when it is a directory, itself and the directories in it. -/

set_option autoImplicit false

/-- The nodes in use, and what the entries of each name. All nodes are in a finite space. -/
@[ext]
structure NameTree (Node : Type) where
  space : Finset Node
  used : Node → Prop
  dir : Node → Bool
  links : Node → Nat
  children : Node → Multiset Node
  parents : Node → Multiset Node
  selves : Node → Multiset Node

namespace NameTree

open Function

variable {Node : Type} [DecidableEq Node]

/-- The number of entries that name a node as a child. -/
def naming (tree : NameTree Node) (node : Node) : Nat :=
  ∑ parent ∈ tree.space, (tree.children parent).count node

def mentions (tree : NameTree Node) (node : Node) : Nat :=
  ∑ parent ∈ tree.space,
    (tree.children parent + tree.parents parent + tree.selves parent).count node

/-- The number of entries of a directory that name directories as children. -/
def subdirs (tree : NameTree Node) (parent : Node) : Nat :=
  ((tree.children parent).map tree.dir).count true

/-- The links are counted, parents are named, and a node is in use as long as it has an
entry. -/
structure Counted (tree : NameTree Node) (root : Node) : Prop where
  file : ∀ node, tree.used node → tree.dir node = false → tree.links node = tree.mentions node
  dir : ∀ node, tree.used node → tree.dir node = true → node ≠ root →
    tree.links node = 1 + tree.subdirs node
  parent : ∀ node, tree.used node → tree.dir node = true → node ≠ root →
    tree.naming node = 1 ∧ ∃ parent, tree.parents node = {parent} ∧ node ∈ tree.children parent
  freed : ∀ node, node ≠ root → (tree.used node ↔ 0 < tree.naming node)

/-- What keeps the links counted. -/
structure Sound (tree : NameTree Node) (root : Node) : Prop where
  root_dir : tree.dir root = true
  root_free : tree.naming root = 0
  root_parents : tree.parents root = 0
  dir_used : ∀ node, tree.dir node = true → tree.used node
  used_space : ∀ node, tree.used node → node ∈ tree.space
  leaf : ∀ node, tree.dir node = false →
    tree.children node = 0 ∧ tree.parents node = 0 ∧ tree.selves node = 0
  selves : ∀ node, tree.dir node = true → tree.selves node = {node}
  file : ∀ node, tree.used node → tree.dir node = false → tree.links node = tree.naming node
  dir : ∀ node, tree.dir node = true → node ≠ root → tree.links node = 1 + tree.subdirs node
  once : ∀ node, tree.dir node = true → node ≠ root → tree.naming node = 1
  parent : ∀ node, tree.dir node = true → node ≠ root →
    ∃ parent, tree.parents node = {parent} ∧ node ∈ tree.children parent
  freed : ∀ node, node ≠ root → (tree.used node ↔ 0 < tree.naming node)

variable {tree : NameTree Node} {root parent node other : Node}

omit [DecidableEq Node] in
theorem ne_of_dir (isDir : tree.dir other = true) (isFile : tree.dir node = false) :
    other ≠ node := by
  rintro rfl
  rw [isFile] at isDir
  exact nomatch isDir

theorem sum_count_update (space : Finset Node) (children : Node → Multiset Node)
    (inside : parent ∈ space) (list : Multiset Node) (node : Node) :
    ∑ dir ∈ space, (update children parent list dir).count node +
        (children parent).count node =
      ∑ dir ∈ space, (children dir).count node + list.count node := by
  rw [← Finset.add_sum_erase space (fun dir => (children dir).count node) inside,
    ← Finset.add_sum_erase space _ inside, update_self]
  have others : ∑ dir ∈ space.erase parent, (update children parent list dir).count node =
      ∑ dir ∈ space.erase parent, (children dir).count node :=
    Finset.sum_congr rfl fun dir member => by
      rw [update_of_ne (Finset.ne_of_mem_erase member)]
  rw [others]
  omega

private theorem count_le_naming (inside : parent ∈ tree.space) (node : Node) :
    (tree.children parent).count node ≤ tree.naming node :=
  Finset.single_le_sum (f := fun dir => (tree.children dir).count node)
    (fun _ _ => Nat.zero_le _) inside

section

variable (sound : tree.Sound root)
include sound

section

variable (child : node ∈ tree.children parent)
include child

theorem Sound.child_dir : tree.dir parent = true := by
  cases isDir : tree.dir parent with
  | true => rfl
  | false =>
    rw [(sound.leaf parent isDir).1] at child
    exact absurd child (Multiset.notMem_zero node)

theorem Sound.naming_pos : 0 < tree.naming node := by
  have inside := sound.used_space parent (sound.dir_used parent (sound.child_dir child))
  exact Nat.lt_of_lt_of_le (Multiset.count_pos.mpr child) (count_le_naming inside node)

theorem Sound.child_ne_root : node ≠ root := by
  rintro rfl
  exact Nat.ne_of_gt (sound.naming_pos child) sound.root_free

theorem Sound.child_used : tree.used node :=
  (sound.freed node (sound.child_ne_root child)).mpr (sound.naming_pos child)

end

theorem Sound.unused_naming (unused : ¬ tree.used node) : tree.naming node = 0 := by
  rcases eq_or_ne node root with rfl | notRoot
  · exact sound.root_free
  · exact Nat.eq_zero_of_not_pos fun positive => unused ((sound.freed node notRoot).mpr positive)

theorem Sound.not_child (unnamed : tree.naming node = 0) : node ∉ tree.children parent :=
  fun child => Nat.ne_of_gt (sound.naming_pos child) unnamed

/-- The entries for a directory itself and for its parent name directories. -/
theorem Sound.mentions_eq (isFile : tree.dir node = false) :
    tree.mentions node = tree.naming node := by
  refine Finset.sum_congr rfl fun dir _ => ?_
  have absent : node ∉ tree.parents dir + tree.selves dir := by
    intro member
    cases isDir : tree.dir dir with
    | false =>
      obtain ⟨-, parents, selves⟩ := sound.leaf dir isDir
      rw [parents, selves] at member
      exact absurd member (Multiset.notMem_zero node)
    | true =>
      rcases Multiset.mem_add.mp member with isParent | isSelf
      · rcases eq_or_ne dir root with rfl | notRoot
        · rw [sound.root_parents] at isParent
          exact absurd isParent (Multiset.notMem_zero node)
        · obtain ⟨parent, named, child⟩ := sound.parent dir isDir notRoot
          rw [named, Multiset.mem_singleton] at isParent
          rw [isParent, sound.child_dir child] at isFile
          exact nomatch isFile
      · rw [sound.selves dir isDir, Multiset.mem_singleton] at isSelf
        rw [isSelf, isDir] at isFile
        exact nomatch isFile
  rw [Multiset.add_assoc, Multiset.count_add, Multiset.count_eq_zero_of_notMem absent, Nat.add_zero]

theorem Sound.counted : tree.Counted root where
  file node used isFile := by rw [sound.file node used isFile, sound.mentions_eq isFile]
  dir node _ := sound.dir node
  parent node _ isDir notRoot := ⟨sound.once node isDir notRoot, sound.parent node isDir notRoot⟩
  freed := sound.freed

end

theorem sound_of_root (inside : root ∈ tree.space) (used : ∀ node, tree.used node ↔ node = root)
    (dir : ∀ node, tree.dir node = true ↔ node = root) (children : ∀ node, tree.children node = 0)
    (parents : ∀ node, tree.parents node = 0)
    (selves : ∀ node, tree.selves node = if node = root then {root} else 0) :
    tree.Sound root := by
  have naming : ∀ node, tree.naming node = 0 := by
    intro node
    rw [naming]
    refine Finset.sum_eq_zero fun parent _ => ?_
    rw [children, Multiset.count_zero]
  constructor
  · exact (dir root).mpr rfl
  · exact naming root
  · exact parents root
  · exact fun node isDir => (used node).mpr ((dir node).mp isDir)
  · exact fun node isUsed => (used node).mp isUsed ▸ inside
  · intro node isFile
    have notRoot : node ≠ root := by
      rintro rfl
      rw [(dir node).mpr rfl] at isFile
      exact nomatch isFile
    exact ⟨children node, parents node, by rw [selves, if_neg notRoot]⟩
  · intro node isDir
    rw [selves, if_pos ((dir node).mp isDir), (dir node).mp isDir]
  · intro node isUsed isFile
    rw [(dir node).mpr ((used node).mp isUsed)] at isFile
    exact nomatch isFile
  · exact fun node isDir notRoot => absurd ((dir node).mp isDir) notRoot
  · exact fun node isDir notRoot => absurd ((dir node).mp isDir) notRoot
  · exact fun node isDir notRoot => absurd ((dir node).mp isDir) notRoot
  · intro node notRoot
    rw [used, naming]
    exact iff_of_false notRoot (Nat.lt_irrefl 0)

/-- An entry is added. -/
def link (tree : NameTree Node) (parent node : Node) : NameTree Node :=
  { tree with
    children := update tree.children parent (node ::ₘ tree.children parent)
    links := update tree.links node (tree.links node + 1) }

theorem naming_cons (inside : parent ∈ tree.space) (node other : Node) :
    ({ tree with
        children := update tree.children parent (node ::ₘ tree.children parent) } :
      NameTree Node).naming other = tree.naming other + if other = node then 1 else 0 := by
  have counted := sum_count_update tree.space tree.children inside
    (node ::ₘ tree.children parent) other
  rw [Multiset.count_cons] at counted
  simp only [naming]
  omega

theorem naming_erase (inside : parent ∈ tree.space) (child : node ∈ tree.children parent)
    (other : Node) :
    ({ tree with
        children := update tree.children parent ((tree.children parent).erase node) } :
      NameTree Node).naming other + (if other = node then 1 else 0) = tree.naming other := by
  have counted := sum_count_update tree.space tree.children inside
    ((tree.children parent).erase node) other
  have positive := Multiset.count_pos.mpr child
  simp only [naming]
  split
  next same =>
    rw [same] at counted ⊢
    rw [Multiset.count_erase_self] at counted
    omega
  next different =>
    rw [Multiset.count_erase_of_ne different] at counted
    omega

/-- An entry is deleted. -/
def unlink (tree : NameTree Node) (parent node : Node) : NameTree Node :=
  { tree with
    children := update tree.children parent ((tree.children parent).erase node)
    links := update tree.links node (tree.links node - 1) }

/-- The same entries but for those of files, and the links of a file. -/
def refile (tree : NameTree Node) (parent node : Node) (list : Multiset Node) (links : Nat) :
    NameTree Node :=
  { tree with
    children := update tree.children parent list
    links := update tree.links node links }

section

variable (sound : tree.Sound root)
include sound

theorem Sound.refile (isDir : tree.dir parent = true) (isFile : tree.dir node = false)
    {list : Multiset Node} {links : Nat}
    (same : ∀ other, tree.dir other = true → list.count other = (tree.children parent).count other)
    (file : ∀ other, tree.used other → tree.dir other = false →
      (tree.refile parent node list links).links other =
        (tree.refile parent node list links).naming other ∧
      0 < (tree.refile parent node list links).naming other) (unused : ∀ other, ¬ tree.used other →
      (tree.refile parent node list links).naming other = 0) :
    (tree.refile parent node list links).Sound root := by
  have count : ∀ dir other, tree.dir other = true →
      ((tree.refile parent node list links).children dir).count other =
        (tree.children dir).count other := by
    intro dir other otherDir
    change (update tree.children parent list dir).count other = _
    rcases eq_or_ne dir parent with rfl | different
    · rw [update_self, same other otherDir]
    · rw [update_of_ne different]
  have subdirs : ∀ dir, (tree.refile parent node list links).subdirs dir = tree.subdirs dir := by
    intro dir
    rw [NameTree.subdirs, NameTree.subdirs, Multiset.count_map, Multiset.count_map]
    congr 1
    ext other
    rw [Multiset.count_filter, Multiset.count_filter]
    exact ite_congr rfl (fun otherDir => count dir other otherDir.symm) fun _ => rfl
  have naming : ∀ other, tree.dir other = true →
      (tree.refile parent node list links).naming other = tree.naming other :=
    fun other otherDir => Finset.sum_congr rfl fun dir _ => count dir other otherDir
  refine {
    sound with
    root_free := (naming root sound.root_dir).trans sound.root_free
    leaf := fun dir notDir => ⟨?_, (sound.leaf dir notDir).2⟩
    file := fun other isUsed otherFile => (file other isUsed otherFile).1
    dir := fun other otherDir notRoot => ?_
    once := fun other otherDir notRoot =>
      (naming other otherDir).trans (sound.once other otherDir notRoot)
    parent := fun other otherDir notRoot => ?_
    freed := fun other notRoot => ?_ }
  · exact (update_of_ne (ne_of_dir isDir notDir).symm ..).trans (sound.leaf dir notDir).1
  · rw [subdirs, ← sound.dir other otherDir notRoot]
    exact update_of_ne (ne_of_dir otherDir isFile) ..
  · obtain ⟨dir, named, child⟩ := sound.parent other otherDir notRoot
    refine ⟨dir, named, Multiset.count_pos.mp ?_⟩
    rw [count dir other otherDir]
    exact Multiset.count_pos.mpr child
  · by_cases isUsed : tree.used other
    · refine iff_of_true isUsed ?_
      cases otherDir : tree.dir other with
      | true =>
        rw [naming other otherDir, sound.once other otherDir notRoot]
        exact Nat.one_pos
      | false => exact (file other isUsed otherDir).2
    · exact iff_of_false isUsed (Nat.not_lt.mpr (Nat.le_of_eq (unused other isUsed)))

theorem Sound.link (isDir : tree.dir parent = true) (used : tree.used node)
    (isFile : tree.dir node = false) : (tree.link parent node).Sound root := by
  have inside := sound.used_space parent (sound.dir_used parent isDir)
  have naming : ∀ other, (tree.link parent node).naming other =
      tree.naming other + if other = node then 1 else 0 := naming_cons inside node
  refine sound.refile isDir isFile (fun other otherDir =>
    Multiset.count_cons_of_ne (ne_of_dir otherDir isFile) _) ?_ ?_
  · intro other otherUsed otherFile
    have known := sound.file other otherUsed otherFile
    rw [show (tree.refile parent node _ _).naming other = _ from naming other]
    split
    next same =>
      subst same
      refine ⟨(update_self ..).trans ?_, Nat.succ_pos _⟩
      rw [known]
    next different =>
      refine ⟨(update_of_ne different ..).trans known, ?_⟩
      exact (sound.freed other (ne_of_dir sound.root_dir otherFile).symm).mp otherUsed
  · intro other notUsed
    refine (naming other).trans ?_
    rw [sound.unused_naming notUsed, if_neg]
    rintro rfl
    exact notUsed used

theorem Sound.unlink (child : node ∈ tree.children parent) (isFile : tree.dir node = false)
    (many : 1 < tree.links node) : (tree.unlink parent node).Sound root := by
  have inside := sound.used_space parent (sound.dir_used parent (sound.child_dir child))
  have naming : ∀ other, (tree.unlink parent node).naming other +
      (if other = node then 1 else 0) = tree.naming other := naming_erase inside child
  refine sound.refile (sound.child_dir child) isFile (fun other otherDir =>
    Multiset.count_erase_of_ne (ne_of_dir otherDir isFile) _) ?_ ?_
  · intro other otherUsed otherFile
    have counted := naming other
    have known := sound.file other otherUsed otherFile
    have named := (sound.freed other (ne_of_dir sound.root_dir otherFile).symm).mp otherUsed
    change update tree.links node (tree.links node - 1) other =
      (tree.unlink parent node).naming other ∧ 0 < (tree.unlink parent node).naming other
    split at counted
    next same =>
      subst same
      rw [update_self]
      omega
    next different =>
      rw [update_of_ne different]
      omega
  · intro other notUsed
    have counted := naming other
    rw [sound.unused_naming notUsed] at counted
    exact Nat.eq_zero_of_add_eq_zero_right counted

end

/-- An entry that is added and deleted leaves a tree as it was. -/
theorem link_unlink (tree : NameTree Node) (parent node : Node) :
    (tree.link parent node).unlink parent node = tree := by
  refine NameTree.ext rfl rfl rfl ?_ ?_ rfl rfl
  · simp only [NameTree.unlink, NameTree.link, update_self, Nat.add_sub_cancel,
      update_idem, update_eq_self]
  · simp only [NameTree.unlink, NameTree.link, update_self, Multiset.erase_cons_head,
      update_idem, update_eq_self]

/-- A node that is not in use is added, with an entry. -/
def create (tree : NameTree Node) (parent node : Node) (isDir : Bool) : NameTree Node :=
  { tree with
    used := update tree.used node True
    dir := update tree.dir node isDir
    links := update (update tree.links node 1) parent (tree.links parent + isDir.toNat)
    children := update tree.children parent (node ::ₘ tree.children parent)
    parents := update tree.parents node (if isDir then {parent} else 0)
    selves := update tree.selves node (if isDir then {node} else 0) }

/-- A node is no longer in use, and has no entries. -/
def forget (tree : NameTree Node) (node : Node) : NameTree Node :=
  { tree with
    used := update tree.used node False
    dir := update tree.dir node false
    links := update tree.links node 0
    children := update tree.children node 0
    parents := update tree.parents node 0
    selves := update tree.selves node 0 }

/-- A node goes with its last entry. -/
def remove (tree : NameTree Node) (parent node : Node) : NameTree Node :=
  { tree with
    used := update tree.used node False
    dir := update tree.dir node false
    links := update (update tree.links node 0) parent
      (if tree.dir node ∧ 1 < tree.links parent then tree.links parent - 1
        else tree.links parent)
    children := update tree.children parent ((tree.children parent).erase node)
    parents := update tree.parents node 0
    selves := update tree.selves node 0 }

theorem of_remove_dir (otherDir : (tree.remove parent node).dir other = true) :
    other ≠ node ∧ tree.dir other = true := by
  change update tree.dir node false other = true at otherDir
  rcases eq_or_ne other node with rfl | different
  · rw [update_self] at otherDir
    exact nomatch otherDir
  · rw [update_of_ne different] at otherDir
    exact ⟨different, otherDir⟩

theorem of_remove_used (otherUsed : (tree.remove parent node).used other) :
    other ≠ node ∧ tree.used other := by
  change update tree.used node False other at otherUsed
  rcases eq_or_ne other node with rfl | different
  · rw [update_self] at otherUsed
    exact otherUsed.elim
  · rw [update_of_ne different] at otherUsed
    exact ⟨different, otherUsed⟩

section

variable {dir : Node}

theorem create_mono (isDir : Bool) (member : other ∈ tree.children dir) :
    other ∈ (tree.create parent node isDir).children dir := by
  change other ∈ update tree.children parent (node ::ₘ tree.children parent) dir
  rcases eq_or_ne dir parent with rfl | different
  · rw [update_self]
    exact Multiset.mem_cons_of_mem member
  · rwa [update_of_ne different]

variable (sound : tree.Sound root) (parentDir : tree.dir parent = true)
  (unused : ¬ tree.used node) (isDir : Bool)
include sound unused

theorem Sound.unused_file : tree.dir node = false :=
  Bool.eq_false_iff.mpr fun wasDir => unused (sound.dir_used node wasDir)

/-- The new node was in no directory, so a directory gains at most its entry. -/
theorem Sound.create_subdirs (dir : Node) : (tree.create parent node isDir).subdirs dir =
    tree.subdirs dir + if dir = parent then isDir.toNat else 0 := by
  have kept : ∀ dir, (tree.children dir).map (update tree.dir node isDir) =
      (tree.children dir).map tree.dir := by
    refine fun dir => Multiset.map_congr rfl fun other member => ?_
    refine update_of_ne ?_ _ _
    rintro rfl
    exact sound.not_child (sound.unused_naming unused) member
  change ((update tree.children parent (node ::ₘ tree.children parent) dir).map
    (update tree.dir node isDir)).count true = _
  rcases eq_or_ne dir parent with rfl | different
  · rw [update_self, Multiset.map_cons, update_self, kept,
      Multiset.count_cons, if_pos rfl, NameTree.subdirs]
    cases isDir <;> rfl
  · rw [update_of_ne different, kept, if_neg different]
    rfl

include parentDir

omit unused in
theorem Sound.create_naming (other : Node) : (tree.create parent node isDir).naming other =
    tree.naming other + if other = node then 1 else 0 :=
  naming_cons (sound.used_space parent (sound.dir_used parent parentDir)) node other

theorem Sound.create_dir (otherDir : (tree.create parent node isDir).dir other = true)
    (otherNotRoot : other ≠ root) : (tree.create parent node isDir).links other =
      1 + (tree.create parent node isDir).subdirs other := by
  have notDir := sound.unused_file unused
  have notParent : node ≠ parent := (ne_of_dir parentDir notDir).symm
  change update tree.dir node isDir other = true at otherDir
  rw [sound.create_subdirs unused]
  change update (update tree.links node 1) parent (tree.links parent + isDir.toNat) other = _
  rcases eq_or_ne other node with rfl | different
  · rw [update_of_ne notParent, update_self, if_neg notParent,
      NameTree.subdirs, (sound.leaf other notDir).1]
    rfl
  · rw [update_of_ne different] at otherDir
    have known := sound.dir other otherDir otherNotRoot
    split
    next same =>
      subst same
      rw [update_self, known, Nat.add_assoc]
    next notSame =>
      rw [update_of_ne notSame, update_of_ne different, known, Nat.add_zero]

/-- A node that is created gets its names and its link counts. -/
theorem Sound.create (inside : node ∈ tree.space) : (tree.create parent node isDir).Sound root := by
  have notDir := sound.unused_file unused
  have unnamed := sound.unused_naming unused
  have notParent : node ≠ parent := (ne_of_dir parentDir notDir).symm
  have notRoot : node ≠ root := (ne_of_dir sound.root_dir notDir).symm
  have naming : ∀ other, (tree.create parent node isDir).naming other = _ :=
    sound.create_naming parentDir isDir
  have children : (tree.create parent node isDir).children =
      update tree.children parent (node ::ₘ tree.children parent) := rfl
  have used : (tree.create parent node isDir).used = update tree.used node True := rfl
  have dirs : (tree.create parent node isDir).dir = update tree.dir node isDir := rfl
  have links : (tree.create parent node isDir).links =
      update (update tree.links node 1) parent (tree.links parent + isDir.toNat) := rfl
  have parents : (tree.create parent node isDir).parents =
      update tree.parents node (if isDir then {parent} else 0) := rfl
  have selves : (tree.create parent node isDir).selves =
      update tree.selves node (if isDir then {node} else 0) := rfl
  have child : node ∈ (tree.create parent node isDir).children parent := by
    rw [children, update_self]
    exact Multiset.mem_cons_self node _
  constructor
  · rw [dirs, update_of_ne notRoot.symm, sound.root_dir]
  · rw [naming, if_neg notRoot.symm, sound.root_free]
  · rw [parents, update_of_ne notRoot.symm, sound.root_parents]
  · intro other otherDir
    rw [used]
    rw [dirs] at otherDir
    rcases eq_or_ne other node with rfl | different
    · rw [update_self]
      trivial
    · rw [update_of_ne different] at otherDir ⊢
      exact sound.dir_used other otherDir
  · intro other otherUsed
    rw [used] at otherUsed
    rcases eq_or_ne other node with rfl | different
    · exact inside
    · rw [update_of_ne different] at otherUsed
      exact sound.used_space other otherUsed
  · intro other otherFile
    rw [dirs] at otherFile
    rw [children, parents, selves]
    rcases eq_or_ne other node with rfl | different
    · rw [update_self] at otherFile
      rw [update_of_ne notParent, update_self, update_self, otherFile]
      exact ⟨(sound.leaf other notDir).1, rfl, rfl⟩
    · rw [update_of_ne different] at otherFile
      rw [update_of_ne (ne_of_dir parentDir otherFile).symm,
        update_of_ne different, update_of_ne different]
      exact sound.leaf other otherFile
  · intro other otherDir
    rw [dirs] at otherDir
    rw [selves]
    rcases eq_or_ne other node with rfl | different
    · rw [update_self] at otherDir ⊢
      rw [if_pos otherDir]
    · rw [update_of_ne different] at otherDir ⊢
      exact sound.selves other otherDir
  · intro other otherUsed otherFile
    rw [used] at otherUsed
    rw [dirs] at otherFile
    rw [naming, links]
    rcases eq_or_ne other node with rfl | different
    · rw [update_of_ne notParent, update_self, if_pos rfl, unnamed]
    · rw [update_of_ne different] at otherUsed otherFile
      rw [update_of_ne (ne_of_dir parentDir otherFile).symm,
        update_of_ne different, if_neg different, Nat.add_zero]
      exact sound.file other otherUsed otherFile
  · exact fun other => sound.create_dir parentDir unused isDir
  · intro other otherDir otherNotRoot
    rw [dirs] at otherDir
    rw [naming]
    split
    next same => rw [same, unnamed]
    next different =>
      rw [update_of_ne different] at otherDir
      exact sound.once other otherDir otherNotRoot
  · intro other otherDir otherNotRoot
    rw [dirs] at otherDir
    rw [parents]
    rcases eq_or_ne other node with rfl | different
    · rw [update_self] at otherDir ⊢
      exact ⟨parent, if_pos otherDir, child⟩
    · rw [update_of_ne different] at otherDir ⊢
      obtain ⟨dir, named, member⟩ := sound.parent other otherDir otherNotRoot
      exact ⟨dir, named, create_mono isDir member⟩
  · intro other otherNotRoot
    rw [used, naming]
    rcases eq_or_ne other node with rfl | different
    · rw [update_self, if_pos rfl]
      exact iff_of_true trivial (Nat.succ_pos _)
    · rw [update_of_ne different, if_neg different]
      exact sound.freed other otherNotRoot

end

section

variable {dir : Node} (sound : tree.Sound root) (child : node ∈ tree.children parent)
include sound child

theorem Sound.remove_naming (other : Node) : (tree.remove parent node).naming other +
    (if other = node then 1 else 0) = tree.naming other :=
  naming_erase (sound.used_space parent (sound.dir_used parent (sound.child_dir child))) child other

theorem Sound.remove_leaf (isFile : tree.dir dir = false) :
    (tree.remove parent node).children dir = 0 :=
  (update_of_ne (ne_of_dir (sound.child_dir child) isFile).symm ..).trans (sound.leaf dir isFile).1

omit sound child in
theorem remove_keeps (different : other ≠ node) (member : other ∈ tree.children dir) :
    other ∈ (tree.remove parent node).children dir := by
  change other ∈ update tree.children parent ((tree.children parent).erase node) dir
  rcases eq_or_ne dir parent with rfl | notSame
  · rw [update_self]
    exact (Multiset.mem_erase_of_ne different).mpr member
  · rwa [update_of_ne notSame]

variable (last : tree.links node ≤ 1)
include last

theorem Sound.links_one : tree.naming node = 1 := by
  cases isDir : tree.dir node with
  | true => exact sound.once node isDir (sound.child_ne_root child)
  | false =>
    have := sound.naming_pos child
    have := sound.file node (sound.child_used child) isDir
    omega

theorem Sound.remove_unnamed : (tree.remove parent node).naming node = 0 := by
  have counted := sound.remove_naming child node
  rw [if_pos rfl, sound.links_one child last] at counted
  omega

/-- The node is in no directory any more. -/
theorem Sound.remove_gone (dir : Node) : node ∉ (tree.remove parent node).children dir := by
  intro member
  cases isDir : tree.dir dir with
  | false =>
    rw [sound.remove_leaf child isDir] at member
    exact Multiset.notMem_zero node member
  | true =>
    have inside : dir ∈ (tree.remove parent node).space :=
      sound.used_space dir (sound.dir_used dir isDir)
    have bound := count_le_naming inside node
    rw [sound.remove_unnamed child last] at bound
    exact Nat.not_lt.mpr bound (Multiset.count_pos.mpr member)

theorem Sound.remove_subdirs (dir : Node) : (tree.remove parent node).subdirs dir +
    (if dir = parent then (tree.dir node).toNat else 0) = tree.subdirs dir := by
  have kept : ((tree.remove parent node).children dir).map (update tree.dir node false) =
      ((tree.remove parent node).children dir).map tree.dir := by
    refine Multiset.map_congr rfl fun other member => update_of_ne ?_ _ _
    rintro rfl
    exact sound.remove_gone child last dir member
  change (((tree.remove parent node).children dir).map
    (update tree.dir node false)).count true + _ = _
  rw [kept]
  change ((update tree.children parent ((tree.children parent).erase node) dir).map
    tree.dir).count true + _ = _
  rcases eq_or_ne dir parent with rfl | different
  · have split := congrArg (fun list => (list.map tree.dir).count true) (Multiset.cons_erase child)
    simp only [Multiset.map_cons, Multiset.count_cons] at split
    rw [update_self, if_pos rfl, NameTree.subdirs, ← split]
    cases tree.dir node <;> rfl
  · rw [update_of_ne different, if_neg different]
    rfl

theorem Sound.remove_dir (otherDir : (tree.remove parent node).dir other = true)
    (otherNotRoot : other ≠ root) : (tree.remove parent node).links other =
      1 + (tree.remove parent node).subdirs other := by
  have counted := sound.remove_subdirs child last other
  obtain ⟨different, otherDir⟩ := of_remove_dir otherDir
  change update (update tree.links node 0) parent
    (if tree.dir node ∧ 1 < tree.links parent then tree.links parent - 1
      else tree.links parent) other = _
  have known := sound.dir other otherDir otherNotRoot
  split at counted
  next same =>
    subst same
    rw [update_self]
    cases isDir : tree.dir node with
    | true =>
      rw [isDir, Bool.toNat_true] at counted
      rw [if_pos ⟨rfl, by omega⟩]
      omega
    | false =>
      rw [isDir, Bool.toNat_false] at counted
      rw [if_neg fun absurd => Bool.false_ne_true absurd.1]
      omega
  next notSame =>
    rw [update_of_ne notSame, update_of_ne different]
    omega

/-- A node that is removed is empty and loses its last name. -/
theorem Sound.remove (empty : tree.children node = 0) : (tree.remove parent node).Sound root := by
  have parentDir := sound.child_dir child
  have nodeNotRoot := sound.child_ne_root child
  have notParent : node ≠ parent := by
    rintro rfl
    rw [empty] at child
    exact Multiset.notMem_zero node child
  have naming := sound.remove_naming child
  have children : (tree.remove parent node).children =
      update tree.children parent ((tree.children parent).erase node) := rfl
  have used : (tree.remove parent node).used = update tree.used node False := rfl
  have dirs : (tree.remove parent node).dir = update tree.dir node false := rfl
  have links : (tree.remove parent node).links =
      update (update tree.links node 0) parent
        (if tree.dir node ∧ 1 < tree.links parent then tree.links parent - 1
          else tree.links parent) := rfl
  have parents : (tree.remove parent node).parents = update tree.parents node 0 := rfl
  have selves : (tree.remove parent node).selves = update tree.selves node 0 := rfl
  constructor
  · rw [dirs, update_of_ne nodeNotRoot.symm, sound.root_dir]
  · have := naming root
    rw [if_neg nodeNotRoot.symm, sound.root_free] at this
    exact this
  · rw [parents, update_of_ne nodeNotRoot.symm, sound.root_parents]
  · intro other otherDir
    obtain ⟨different, otherDir⟩ := of_remove_dir otherDir
    rw [used, update_of_ne different]
    exact sound.dir_used other otherDir
  · intro other otherUsed
    exact sound.used_space other (of_remove_used otherUsed).2
  · intro other otherFile
    rw [dirs] at otherFile
    rw [parents, selves]
    rcases eq_or_ne other node with rfl | different
    · rw [update_self, update_self, children, update_of_ne notParent, empty]
      exact ⟨rfl, rfl, rfl⟩
    · rw [update_of_ne different] at otherFile
      rw [sound.remove_leaf child otherFile, update_of_ne different, update_of_ne different]
      exact ⟨rfl, (sound.leaf other otherFile).2⟩
  · intro other otherDir
    obtain ⟨different, otherDir⟩ := of_remove_dir otherDir
    rw [selves, update_of_ne different]
    exact sound.selves other otherDir
  · intro other otherUsed otherFile
    obtain ⟨different, otherUsed⟩ := of_remove_used otherUsed
    rw [dirs, update_of_ne different] at otherFile
    have counted := naming other
    rw [if_neg different, Nat.add_zero] at counted
    rw [links, update_of_ne (ne_of_dir parentDir otherFile).symm, update_of_ne different, counted]
    exact sound.file other otherUsed otherFile
  · exact fun other => sound.remove_dir child last
  · intro other otherDir otherNotRoot
    obtain ⟨different, otherDir⟩ := of_remove_dir otherDir
    have counted := naming other
    rw [if_neg different, Nat.add_zero] at counted
    exact counted.trans (sound.once other otherDir otherNotRoot)
  · intro other otherDir otherNotRoot
    obtain ⟨different, otherDir⟩ := of_remove_dir otherDir
    obtain ⟨dir, dotdot, member⟩ := sound.parent other otherDir otherNotRoot
    rw [parents, update_of_ne different]
    exact ⟨dir, dotdot, remove_keeps different member⟩
  · intro other otherNotRoot
    rw [used]
    rcases eq_or_ne other node with rfl | different
    · rw [update_self, sound.remove_unnamed child last]
      exact iff_of_false id (Nat.lt_irrefl 0)
    · have counted := naming other
      rw [if_neg different, Nat.add_zero] at counted
      rw [update_of_ne different, counted]
      exact sound.freed other otherNotRoot

end

end NameTree
