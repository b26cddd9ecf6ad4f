import RTContainer.Lib.NameTree
import RTContainer.Rfs.DirListing
import RTContainer.Rfs.Link

/-! The inodes and the entries of the directories are a tree of names, and the operations
on links are those on such a tree. -/

set_option autoImplicit false

namespace RTContainer.Rfs

open Function

def named (isName : List UInt8 → Bool) (entries : List DirEntry) : Multiset Nat :=
  (entries.filter fun entry => isName entry.name).map DirEntry.ino

def isProper (name : List UInt8) : Bool := name ≠ dotName ∧ name ≠ dotdotName

namespace Tree

def entries (tree : Tree) (ino : Nat) : List DirEntry :=
  dirEntries tree.limits (tree.inodes ino).blocks

def entryAt (tree : Tree) (dir doff : Nat) : Option DirEntry :=
  dirEntryAt tree.limits (tree.inodes dir).blocks doff

/-- The tree that the entries make. -/
def names (tree : Tree) : NameTree Nat where
  space := Finset.range (tree.limits.inodes + 1)
  used ino := tree.fs.Marked true ino
  dir ino := (tree.inodes ino).dir
  links ino := (tree.inodes ino).getLinks
  children ino := named isProper (tree.entries ino)
  parents ino := named (fun name => name = dotdotName) (tree.entries ino)
  selves ino := named (fun name => name = dotName) (tree.entries ino)

/-- The directories have entries that are read as they were written, and an inode that is
not in use is erased. -/
structure Formed (tree : Tree) : Prop where
  laid : tree.fs.Laid true
  dots : dirEntrySize + 2 < tree.maxName
  inodes : tree.limits.inodes < 256 ^ 4
  listed : ∀ ino, ∃ contents, Listed tree.limits (tree.inodes ino).blocks contents
  file : ∀ ino, (tree.inodes ino).dir = false → (tree.inodes ino).blocks = []
  erased : ∀ ino, ¬ tree.fs.Marked true ino → tree.inodes ino = .erased
  bits : ∀ ino, (tree.inodes ino).links < 2 ^ 16

end Tree

theorem named_perm {isName : List UInt8 → Bool} {entries others : List DirEntry}
    (perm : entries.Perm others) : named isName entries = named isName others :=
  Multiset.coe_eq_coe.mpr ((perm.filter _).map _)

theorem named_cons (isName : List UInt8 → Bool) (entry : DirEntry) (rest : List DirEntry) :
    named isName (entry :: rest) =
      if isName entry.name then entry.ino ::ₘ named isName rest else named isName rest := by
  rw [named, List.filter_cons]
  split <;> rfl

namespace Inode

variable {inode : Inode} {links : Nat}

theorem getLinks_lt (bits : inode.links < 2 ^ 16) : inode.getLinks < 0xffff := by
  rw [getLinks]
  split <;> omega

theorem getLinks_setLinks (fits : links < 0xffff) : (inode.setLinks links).getLinks = links := by
  have small : links % 2 ^ 16 = links := Nat.mod_eq_of_lt (by omega)
  rw [getLinks, setLinks, small, if_neg (Nat.ne_of_lt fits)]

end Inode

namespace FileSystem

variable {fs after : FileSystem} {inode : Bool} {no : Nat}

theorem scanGroups_sizes {start seed offset : Nat} {updown up : Bool}
    (allocated : fs.scanGroups inode start seed offset updown up = some (after, no)) :
    after.groupCount = fs.groupCount ∧ after.groupInodes = fs.groupInodes := by
  fun_induction scanGroups fs inode start seed offset updown up with
  | case1 offset up outside ih | case4 offset updown up group found bit absent down ih
  | case5 offset updown up group found bit absent notDown ih => exact ih allocated
  | case2 => cases allocated
  | case3 offset updown up group found bit bitmap index isFound =>
    obtain ⟨rfl, rfl⟩ : _ ∧ _ := by simpa using allocated
    exact ⟨rfl, rfl⟩

theorem groupBitmapAlloc_sizes {goal : Nat}
    (allocated : fs.groupBitmapAlloc goal inode = some (after, no)) :
    after.groupCount = fs.groupCount ∧ after.groupInodes = fs.groupInodes :=
  scanGroups_sizes allocated

theorem groupBitmapFree_sizes {rc : Nat} (freed : fs.groupBitmapFree inode no = (after, rc)) :
    after.groupCount = fs.groupCount ∧ after.groupInodes = fs.groupInodes := by
  obtain ⟨rfl, -⟩ := Prod.mk.inj freed
  exact ⟨rfl, rfl⟩

theorem Known.le_inodes (laid : fs.Laid true) (known : fs.Known true no) :
    no ≤ fs.groupCount * fs.groupInodes := by
  obtain ⟨positive, inside, bit⟩ := known
  have bound := Nat.lt_of_lt_of_le bit (laid.bounded _ inside)
  have split := Nat.div_add_mod (no - 1) fs.groupInodes
  have groups : fs.groupInodes * ((no - 1) / fs.groupInodes + 1) ≤ fs.groupInodes * fs.groupCount :=
    Nat.mul_le_mul_left _ inside
  simp only [groupSize, if_true] at bound
  rw [Nat.mul_add, Nat.mul_one] at groups
  rw [Nat.mul_comm fs.groupCount]
  omega

end FileSystem

namespace Tree

variable {tree after : Tree} {ino dir doff : Nat} {inode : Inode} {entry : DirEntry}

theorem names_setInode (tree : Tree) (ino : Nat) (inode : Inode) :
    (tree.setInode ino inode).names =
      { tree.names with
        dir := update tree.names.dir ino inode.dir
        links := update tree.names.links ino inode.getLinks
        children := update tree.names.children ino
          (named isProper (dirEntries tree.limits inode.blocks))
        parents := update tree.names.parents ino
          (named (fun name => name = dotdotName) (dirEntries tree.limits inode.blocks))
        selves := update tree.names.selves ino
          (named (fun name => name = dotName) (dirEntries tree.limits inode.blocks)) } := by
  have pointwise : ∀ {Value : Type} (value : Inode → Value),
      (fun other => value (update tree.inodes ino inode other)) =
        update (fun other => value (tree.inodes other)) ino (value inode) :=
    fun value => comp_update value tree.inodes ino inode
  apply NameTree.ext
  · rfl
  · rfl
  · exact pointwise Inode.dir
  · exact pointwise Inode.getLinks
  · exact pointwise fun inode => named isProper (dirEntries tree.limits inode.blocks)
  · exact pointwise fun inode =>
      named (fun name => name = dotdotName) (dirEntries tree.limits inode.blocks)
  · exact pointwise fun inode =>
      named (fun name => name = dotName) (dirEntries tree.limits inode.blocks)

theorem entryAt_setInode (tree : Tree) (dir : Nat) (inode : Inode) (other doff : Nat) :
    (tree.setInode dir inode).entryAt other doff =
      dirEntryAt tree.limits (update tree.inodes dir inode other).blocks doff := rfl

theorem Formed.setInode (formed : tree.Formed)
    (listed : ∃ contents, Listed tree.limits inode.blocks contents)
    (file : inode.dir = false → inode.blocks = []) (marked : tree.fs.Marked true ino)
    (bits : inode.links < 2 ^ 16) : (tree.setInode ino inode).Formed where
  __ := formed
  listed := (forall_update_iff tree.inodes fun _ inode =>
    ∃ contents, Listed tree.limits inode.blocks contents).mpr
      ⟨listed, fun other _ => formed.listed other⟩
  file := (forall_update_iff tree.inodes fun _ inode =>
    inode.dir = false → inode.blocks = []).mpr ⟨file, fun other _ => formed.file other⟩
  erased := (forall_update_iff tree.inodes fun other inode =>
    ¬ tree.fs.Marked true other → inode = .erased).mpr
      ⟨absurd marked, fun other _ => formed.erased other⟩
  bits := (forall_update_iff tree.inodes fun _ inode => inode.links < 2 ^ 16).mpr
    ⟨bits, fun other _ => formed.bits other⟩

theorem Formed.dir_marked (formed : tree.Formed) (isDir : (tree.inodes dir).dir = true) :
    tree.fs.Marked true dir := by
  by_contra notMarked
  rw [formed.erased dir notMarked] at isDir
  exact nomatch isDir

theorem Formed.setLinks (formed : tree.Formed) (marked : tree.fs.Marked true ino) (links : Nat) :
    (tree.setLinks ino links).Formed :=
  formed.setInode (formed.listed ino) (formed.file ino) marked (Nat.mod_lt _ (by decide))

theorem names_setLinks {links : Nat} (fits : links < 0xffff) :
    (tree.setLinks ino links).names =
      { tree.names with links := update tree.names.links ino links } := by
  rw [Tree.setLinks, names_setInode, Inode.getLinks_setLinks fits]
  apply NameTree.ext
  · rfl
  · rfl
  · exact update_eq_self ino tree.names.dir
  · rfl
  · exact update_eq_self ino tree.names.children
  · exact update_eq_self ino tree.names.parents
  · exact update_eq_self ino tree.names.selves

variable (names : NameTree Nat)

def withEntry (dir : Nat) (entry : DirEntry) : NameTree Nat :=
  { names with
    children := update names.children dir <|
      if isProper entry.name then entry.ino ::ₘ names.children dir else names.children dir
    parents := update names.parents dir <|
      if entry.name = dotdotName then entry.ino ::ₘ names.parents dir else names.parents dir
    selves := update names.selves dir <|
      if entry.name = dotName then entry.ino ::ₘ names.selves dir else names.selves dir }

theorem withEntry_proper (dir : Nat) {name : List UInt8} (ino : Nat)
    (proper : isProper name = true) : withEntry names dir ⟨name, ino⟩ =
      { names with
        children := update names.children dir (ino ::ₘ names.children dir) } := by
  have others : name ≠ dotName ∧ name ≠ dotdotName := of_decide_eq_true proper
  rw [withEntry, if_pos proper, if_neg others.1, if_neg others.2, update_eq_self, update_eq_self]

theorem withEntry_dot (dir ino : Nat) : withEntry names dir ⟨dotName, ino⟩ =
      { names with selves := update names.selves dir (ino ::ₘ names.selves dir) } := by
  have notProper : ¬ isProper dotName = true := by decide
  have notDotdot : ¬ dotName = dotdotName := by decide
  rw [withEntry, if_neg notProper, if_neg notDotdot, if_pos rfl, update_eq_self, update_eq_self]

theorem withEntry_dotdot (dir ino : Nat) : withEntry names dir ⟨dotdotName, ino⟩ =
      { names with parents := update names.parents dir (ino ::ₘ names.parents dir) } := by
  have notProper : ¬ isProper dotdotName = true := by decide
  have notDot : ¬ dotdotName = dotName := by decide
  rw [withEntry, if_neg notProper, if_pos rfl, if_neg notDot, update_eq_self, update_eq_self]

theorem names_setBlocks (tree : Tree) (dir : Nat) (blocks : List (List UInt8)) :
    (tree.setInode dir { tree.inodes dir with blocks }).names =
      { tree.names with
        children := update tree.names.children dir (named isProper (dirEntries tree.limits blocks))
        parents := update tree.names.parents dir
          (named (fun name => name = dotdotName) (dirEntries tree.limits blocks))
        selves := update tree.names.selves dir
          (named (fun name => name = dotName) (dirEntries tree.limits blocks)) } := by
  rw [names_setInode]
  apply NameTree.ext
  · rfl
  · rfl
  · exact update_eq_self dir tree.names.dir
  · exact update_eq_self dir tree.names.links
  · rfl
  · rfl
  · rfl

variable {blocks : List (List UInt8)} {fs : FileSystem} {value : Bool}

theorem names_setBlocks_same (same : dirEntries tree.limits blocks = tree.entries dir) :
    (tree.setInode dir { tree.inodes dir with blocks }).names = tree.names := by
  rw [names_setBlocks, same]
  apply NameTree.ext
  · rfl
  · rfl
  · rfl
  · rfl
  · exact update_eq_self dir tree.names.children
  · exact update_eq_self dir tree.names.parents
  · exact update_eq_self dir tree.names.selves

private theorem names_setBlocks_perm
    (perm : (dirEntries tree.limits blocks).Perm (entry :: tree.entries dir)) :
    (tree.setInode dir { tree.inodes dir with blocks }).names = withEntry tree.names dir entry := by
  rw [names_setBlocks, named_perm perm, named_perm perm, named_perm perm, named_cons, named_cons,
    named_cons, withEntry]
  simp only [decide_eq_true_eq]
  rfl

/-- Where entries are when other blocks have been written. -/
structure Keeps (tree after : Tree) : Prop where
  fs : after.fs = tree.fs
  limits : after.limits = tree.limits
  entryAt : ∀ dir doff entry, tree.entryAt dir doff = some entry →
    after.entryAt dir doff = some entry

/-- An added entry is one of the tree of names. -/
theorem Formed.addEntry (formed : tree.Formed) (isDir : (tree.inodes dir).dir = true)
    (fits : entry.Fits tree.limits) (free : Nat) :
    ∃ rc after, tree.addEntry dir entry.name entry.ino free = (rc, after) ∧ after.Formed ∧
      Keeps tree after ∧
      (rc = 0 ∧ after.names = withEntry tree.names dir entry ∨
        rc = enospc ∧ after.names = tree.names) := by
  obtain ⟨contents, listed⟩ := formed.listed dir
  obtain ⟨rc, blocks, next, added, isListed, extended, outcome⟩ := listed.dirAddEntry fits free
  have isFormed : (tree.setInode dir { tree.inodes dir with blocks }).Formed :=
    formed.setInode ⟨next, isListed⟩ (fun isFile => absurd isDir (by rw [isFile]; decide))
      (formed.dir_marked isDir) (formed.bits dir)
  refine ⟨rc, _, by rw [Tree.addEntry, added], isFormed, ⟨rfl, rfl, ?_⟩, ?_⟩
  · intro other doff found isFound
    rw [entryAt_setInode]
    rcases eq_or_ne other dir with rfl | different
    · rw [update_self]
      exact isListed.entryAt_iff.mpr ((listed.entryAt_iff.mp isFound).extends extended isListed)
    · rw [update_of_ne different]
      exact isFound
  · have was : tree.entries dir = contents.flatten := listed.dirEntries
    have isNow : dirEntries tree.limits blocks = next.flatten := isListed.dirEntries
    refine outcome.imp (fun done => ⟨done.1, names_setBlocks_perm ?_⟩)
      (fun full => ⟨full.1, names_setBlocks_same ?_⟩)
    · rw [isNow, was]
      exact done.2
    · rw [isNow, was]
      exact full.2

/-- A deleted entry takes one name of its inode away. -/
theorem Formed.delEntry (formed : tree.Formed) (isDir : (tree.inodes dir).dir = true)
    (found : tree.entryAt dir doff = some entry) (proper : isProper entry.name = true) :
    ∃ after, tree.delEntry dir entry.ino doff = (0, after) ∧ after.Formed ∧ after.fs = tree.fs ∧
      entry.ino ∈ tree.names.children dir ∧
      after.names =
        { tree.names with
          children := update tree.names.children dir
            ((tree.names.children dir).erase entry.ino) } := by
  obtain ⟨contents, listed⟩ := formed.listed dir
  obtain ⟨blocks, next, left, right, deleted, isListed, isSplit, isNow⟩ :=
    (listed.entryAt_iff.mp found).dirDelEntry
  rw [Nat.div_add_mod'] at deleted
  have isFormed : (tree.setInode dir { tree.inodes dir with blocks }).Formed :=
    formed.setInode ⟨next, isListed⟩ (fun isFile => absurd isDir (by rw [isFile]; decide))
      (formed.dir_marked isDir) (formed.bits dir)
  have was : tree.entries dir = left ++ entry :: right := listed.dirEntries.trans isSplit
  have isLeft : dirEntries tree.limits blocks = left ++ right := isListed.dirEntries.trans isNow
  have split : ∀ isName, named isName (tree.entries dir) =
      if isName entry.name then entry.ino ::ₘ named isName (left ++ right)
      else named isName (left ++ right) := by
    intro isName
    rw [was, named_perm List.perm_middle, named_cons]
  have others : entry.name ≠ dotName ∧ entry.name ≠ dotdotName := of_decide_eq_true proper
  have children := split isProper
  have parents := split fun name => name = dotdotName
  have selves := split fun name => name = dotName
  rw [if_pos proper] at children
  rw [if_neg (by simpa using others.2)] at parents
  rw [if_neg (by simpa using others.1)] at selves
  refine ⟨_, by rw [Tree.delEntry, deleted], isFormed, rfl, ?_, ?_⟩
  · have member : entry.ino ∈ named isProper (tree.entries dir) := by
      rw [children]
      exact Multiset.mem_cons_self entry.ino _
    exact member
  · rw [names_setBlocks, isLeft, ← parents, ← selves]
    apply NameTree.ext
    · rfl
    · rfl
    · rfl
    · rfl
    · refine congrArg (update tree.names.children dir) ?_
      exact (Multiset.erase_cons_head entry.ino _).symm.trans
        (congrArg (fun list => Multiset.erase list entry.ino) children.symm)
    · exact update_eq_self dir tree.names.parents
    · exact update_eq_self dir tree.names.selves

theorem names_setFs (marks : tree.fs.Marks true ino value fs)
    (sizes : fs.groupCount = tree.fs.groupCount ∧ fs.groupInodes = tree.fs.groupInodes) :
    ({ tree with fs } : Tree).limits = tree.limits ∧ ({ tree with fs } : Tree).names =
      { tree.names with used := update tree.names.used ino (value = true) } := by
  have limits : ({ tree with fs } : Tree).limits = tree.limits := by
    simp only [Tree.limits, sizes.1, sizes.2]
  have entries : ({ tree with fs } : Tree).entries = tree.entries := by
    funext other
    rw [Tree.entries, limits]
    rfl
  refine ⟨limits, ?_⟩
  apply NameTree.ext
  · simp only [names, limits]
  · funext other
    refine Eq.trans ?_ (update_apply tree.names.used ino (value = true) other).symm
    exact propext (marks.marked other)
  · rfl
  · rfl
  · simp only [names, entries]
  · simp only [names, entries]
  · simp only [names, entries]

theorem Formed.setFs (formed : tree.Formed) (marks : tree.fs.Marks true ino value fs)
    (limits : ({ tree with fs } : Tree).limits = tree.limits) (empty : inode.blocks = [])
    (erased : value = false → inode = .erased) (bits : inode.links < 2 ^ 16) :
    (({ tree with fs } : Tree).setInode ino inode).Formed where
  laid := marks.shape.laid true formed.laid
  dots := formed.dots
  inodes := limits.symm ▸ formed.inodes
  listed := (forall_update_iff tree.inodes fun _ inode => ∃ contents,
    Listed ({ tree with fs } : Tree).limits inode.blocks contents).mpr
      ⟨⟨[], empty ▸ .nil⟩, fun other _ => limits.symm ▸ formed.listed other⟩
  file := (forall_update_iff tree.inodes fun _ inode =>
    inode.dir = false → inode.blocks = []).mpr ⟨fun _ => empty, fun other _ => formed.file other⟩
  erased := by
    refine (forall_update_iff tree.inodes fun other inode =>
      ¬ fs.Marked true other → inode = .erased).mpr ⟨fun notMarked => erased ?_, ?_⟩
    · rw [marks.marked, if_pos rfl, Bool.not_eq_true] at notMarked
      exact notMarked
    · intro other different notMarked
      rw [marks.marked, if_neg different] at notMarked
      exact formed.erased other notMarked
  bits := (forall_update_iff tree.inodes fun _ inode => inode.links < 2 ^ 16).mpr
    ⟨bits, fun other _ => formed.bits other⟩

theorem Formed.inodeDelete (formed : tree.Formed) (marked : tree.fs.Marked true ino) :
    ∃ after, tree.inodeDelete ino = (0, after) ∧ after.Formed ∧
      after.names = tree.names.forget ino ∧
      ∀ other, other ≠ ino → tree.fs.Marked true other → after.fs.Marked true other := by
  obtain ⟨fs, freed, marks⟩ := FileSystem.groupBitmapFree_known marked.1
  obtain ⟨limits, names⟩ := names_setFs marks (FileSystem.groupBitmapFree_sizes freed)
  refine ⟨_, by rw [Tree.inodeDelete, freed]; rfl,
    formed.setFs marks limits rfl (fun _ => rfl) (by decide), ?_, ?_⟩
  · rw [names_setInode, names]
    apply NameTree.ext
    · rfl
    · exact congrArg (update tree.names.used ino) (eq_false Bool.false_ne_true)
    · rfl
    · rfl
    · rfl
    · rfl
    · rfl
  · intro other different isMarked
    exact (marks.marked other).mpr (by rwa [if_neg different])

/-- An inode that is not marked has no entries. -/
theorem Formed.names_unused (formed : tree.Formed) (notMarked : ¬ tree.fs.Marked true ino) :
    tree.names.forget ino = tree.names := by
  have erased := formed.erased ino notMarked
  have unused : tree.names.used ino = False := eq_false notMarked
  have dir : tree.names.dir ino = false := congrArg Inode.dir erased
  have links : tree.names.links ino = 0 := congrArg Inode.getLinks erased
  have empty : tree.entries ino = [] := by
    rw [Tree.entries, erased]
    rfl
  have none : ∀ isName, named isName (tree.entries ino) = 0 := by
    intro isName
    rw [empty]
    rfl
  have children : tree.names.children ino = 0 := none isProper
  have parents : tree.names.parents ino = 0 := none fun name => name = dotdotName
  have selves : tree.names.selves ino = 0 := none fun name => name = dotName
  rw [NameTree.forget]
  apply NameTree.ext
  · rfl
  · exact unused ▸ update_eq_self ino tree.names.used
  · exact dir ▸ update_eq_self ino tree.names.dir
  · exact links ▸ update_eq_self ino tree.names.links
  · exact children ▸ update_eq_self ino tree.names.children
  · exact parents ▸ update_eq_self ino tree.names.parents
  · exact selves ▸ update_eq_self ino tree.names.selves

end Tree

end RTContainer.Rfs
