import RTContainer.Rfs.LinkSteps

/-! Runs of operations on links. The links stay counted as long as no name is too long, no
count is at its end, and no directory is moved to another one. -/

set_option autoImplicit false

namespace RTContainer.Rfs

open Function

/-- What the evaluation of the paths of a call promises. A new name is not one of the
dots, and only the entry of another directory than the root is removed. -/
def TreeCall.Admitted (tree : Tree) : TreeCall → Prop
  | .mknod parent name _ _ => (tree.inodes parent).dir = true ∧ isProper name = true
  | .symlink parent name _ _ => (tree.inodes parent).dir = true ∧ isProper name = true
  | .link parent name target _ =>
    (tree.inodes parent).dir = true ∧ isProper name = true ∧ tree.fs.Marked true target
  | .rename oldParent ino _ newParent newName _ =>
    (tree.inodes oldParent).dir = true ∧ (tree.inodes newParent).dir = true ∧
      isProper newName = true ∧ tree.fs.Marked true ino
  | .rmnod parent ino doff =>
    (tree.inodes parent).dir = true ∧ ino ≠ rootIno ∧
      ∃ entry ∈ tree.entryAt parent doff, entry.ino = ino ∧ entry.name ≠ dotName

def TreeCall.Counts (tree : Tree) : TreeCall → Prop
  | .mknod parent name dir _ =>
    Short tree.limits name ∧ (dir = true → (tree.inodes parent).getLinks + 1 < 0xffff)
  | .symlink _ name _ _ => Short tree.limits name
  | .link _ name target _ =>
    Short tree.limits name ∧ (tree.inodes target).getLinks + 1 < 0xffff
  | .rename oldParent ino doff newParent newName _ =>
    Short tree.limits newName ∧ (tree.inodes ino).getLinks + 1 < 0xffff ∧
      (∃ entry ∈ tree.entryAt oldParent doff, entry.ino = ino ∧ isProper entry.name = true) ∧
      ((tree.inodes ino).dir = true → newParent = oldParent)
  | .rmnod _ _ _ => True

namespace Tree

variable {tree : Tree}

/-- The tree is formed, and its names are sound. -/
structure Holds (tree : Tree) : Prop where
  formed : tree.Formed
  sound : tree.names.Sound rootIno

theorem Holds.create (holds : tree.Holds) {parent : Nat} {name : List UInt8} {isDir : Bool}
    (parentDir : (tree.inodes parent).dir = true) (proper : isProper name = true)
    (short : Short tree.limits name)
    (room : isDir = true → (tree.inodes parent).getLinks + 1 < 0xffff) (free : Nat → Nat) :
    (tree.inodeCreate parent name isDir free).2.Holds := by
  obtain ⟨formed, outcome⟩ := holds.formed.inodeCreate parentDir short proper isDir room free
  rcases outcome with names | ⟨ino, unused, inside, names⟩
  · exact ⟨formed, names ▸ holds.sound⟩
  · exact ⟨formed, names ▸ holds.sound.create parentDir unused isDir inside⟩

variable {parent doff : Nat} {entry : DirEntry}

theorem Holds.link (holds : tree.Holds) {target : Nat} {name : List UInt8}
    (parentDir : (tree.inodes parent).dir = true) (proper : isProper name = true)
    (marked : tree.fs.Marked true target) (short : Short tree.limits name)
    (room : (tree.inodes target).getLinks + 1 < 0xffff) (free : Nat) :
    (tree.link name parent target false free).2.Holds := by
  cases isDir : (tree.inodes target).dir with
  | true =>
    rw [Tree.link, if_pos ⟨rfl, isDir⟩]
    exact holds
  | false =>
    obtain ⟨rc, after, linked, formed, -, outcome⟩ :=
      holds.formed.link parentDir marked short proper room false (.inr isDir) free
    rw [linked]
    rcases outcome with ⟨-, names⟩ | ⟨-, names⟩
    · exact ⟨formed, names ▸ holds.sound.link parentDir marked isDir⟩
    · exact ⟨formed, names ▸ holds.sound⟩

theorem Formed.mem_entries (formed : tree.Formed) {dir : Nat}
    (found : tree.entryAt dir doff = some entry) : entry ∈ tree.entries dir := by
  obtain ⟨contents, listed⟩ := formed.listed dir
  have was : tree.entries dir = contents.flatten := listed.dirEntries
  rw [was]
  exact (listed.entryAt_iff.mp found).mem

theorem mem_named {isName : List UInt8 → Bool} {entries : List DirEntry} (member : entry ∈ entries)
    (hasName : isName entry.name = true) : entry.ino ∈ named isName entries :=
  Multiset.mem_coe.mpr (List.mem_map_of_mem (List.mem_filter.mpr ⟨member, hasName⟩))

theorem Holds.rmnod (holds : tree.Holds) (parentDir : (tree.inodes parent).dir = true)
    (found : tree.entryAt parent doff = some entry) (notDot : entry.name ≠ dotName) :
    (tree.rmnod parent entry.ino doff).2.Holds := by
  have member := holds.formed.mem_entries found
  rw [Tree.rmnod]
  rcases holds.formed.unlink_ifEmpty with same | ⟨empty, isAllowed⟩
  · rw [same]
    exact holds
  · have notDotdot : entry.name ≠ dotdotName := by
      intro isDotdot
      -- the parent of a directory is not empty
      have isNamed : entry.ino ∈ named (fun name => name = dotdotName) (tree.entries parent) :=
        mem_named member (decide_eq_true isDotdot)
      have isParent : entry.ino ∈ tree.names.parents parent := isNamed
      rcases eq_or_ne parent rootIno with rfl | notRoot
      · rw [holds.sound.root_parents] at isParent
        exact Multiset.notMem_zero entry.ino isParent
      · obtain ⟨dir, isNamed, child⟩ := holds.sound.parent parent parentDir notRoot
        rw [isNamed, Multiset.mem_singleton] at isParent
        rw [← isParent, empty] at child
        exact Multiset.notMem_zero parent child
    have proper : isProper entry.name = true := decide_eq_true ⟨notDot, notDotdot⟩
    have isChild : entry.ino ∈ tree.names.children parent := mem_named member proper
    have marked := holds.sound.child_used isChild
    obtain ⟨child, formed, names⟩ :=
      holds.formed.unlink parentDir marked found proper fun _ => empty
    rw [isAllowed]
    refine ⟨formed, ?_⟩
    rw [names]
    split
    next many =>
      refine holds.sound.unlink child ?_ many
      cases isDir : tree.names.dir entry.ino with
      | false => rfl
      | true =>
        have links := holds.sound.dir entry.ino isDir (holds.sound.child_ne_root child)
        rw [NameTree.subdirs, empty, Multiset.map_zero, Multiset.count_zero] at links
        omega
    next few => exact holds.sound.remove child (Nat.le_of_not_lt few) empty

theorem Holds.rename (holds : tree.Holds) {oldParent newParent : Nat} {newName : List UInt8}
    (oldDir : (tree.inodes oldParent).dir = true) (newDir : (tree.inodes newParent).dir = true)
    (proper : isProper newName = true) (marked : tree.fs.Marked true entry.ino)
    (short : Short tree.limits newName) (room : (tree.inodes entry.ino).getLinks + 1 < 0xffff)
    (found : tree.entryAt oldParent doff = some entry) (oldProper : isProper entry.name = true)
    (stays : (tree.inodes entry.ino).dir = true → newParent = oldParent) (free : Nat) :
    (tree.rename oldParent entry.ino doff newParent newName free).2.Holds := by
  obtain ⟨rc, after, linked, formed, keeps, outcome⟩ :=
    holds.formed.link newDir marked short proper room true (.inl rfl) free
  rw [Tree.rename, linked]
  rcases outcome with ⟨rfl, names⟩ | ⟨rfl, names⟩
  · have child : entry.ino ∈ tree.names.children oldParent :=
      mem_named (holds.formed.mem_entries found) oldProper
    have some_link : 0 < tree.names.links entry.ino := by
      cases isDir : tree.names.dir entry.ino with
      | true =>
        have := holds.sound.dir entry.ino isDir (holds.sound.child_ne_root child)
        omega
      | false =>
        rw [holds.sound.file entry.ino marked isDir]
        exact holds.sound.naming_pos child
    have many : 1 < after.names.links entry.ino := by
      rw [names]
      simp only [NameTree.link, update_self]
      omega
    have isOldDir : (after.inodes oldParent).dir = true := by
      have same : after.names.dir oldParent = tree.names.dir oldParent := by
        rw [names]
        rfl
      exact same.trans oldDir
    obtain ⟨isChild, isFormed, lastNames⟩ := formed.unlink isOldDir (keeps.fs ▸ marked)
      (keeps.entryAt _ _ _ found) oldProper fun few => absurd many (Nat.not_lt.mpr few)
    simp only [Nat.lt_irrefl, if_false]
    refine ⟨isFormed, ?_⟩
    rw [lastNames, if_pos many, names]
    cases isDir : tree.names.dir entry.ino with
    | true =>
      rw [stays isDir, NameTree.link_unlink]
      exact holds.sound
    | false =>
      rw [names] at isChild many
      exact (holds.sound.link newDir marked isDir).unlink isChild isDir many
  · exact ⟨formed, names ▸ holds.sound⟩

theorem Holds.step (holds : tree.Holds) {call : TreeCall} (admitted : call.Admitted tree)
    (counts : call.Counts tree) : (tree.step call).Holds := by
  cases call with
  | mknod parent name dir free =>
    exact holds.create admitted.1 admitted.2 counts.1 counts.2 free
  | symlink parent name linkLength free =>
    rw [Tree.step, Tree.symlink]
    split
    next => exact holds
    next =>
      exact holds.create admitted.1 admitted.2 counts
        (fun isDir => absurd isDir Bool.false_ne_true) free
  | link parent name target free =>
    exact holds.link admitted.1 admitted.2.1 admitted.2.2 counts.1 counts.2 free
  | rename oldParent ino doff newParent newName free =>
    obtain ⟨oldDir, newDir, proper, marked⟩ := admitted
    obtain ⟨short, room, ⟨entry, found, rfl, oldProper⟩, stays⟩ := counts
    exact holds.rename oldDir newDir proper marked short room found oldProper stays free
  | rmnod parent ino doff =>
    obtain ⟨parentDir, -, entry, found, rfl, notDot⟩ := admitted
    exact holds.rmnod parentDir found notDot

/-- A file system that has no inodes yet. -/
structure Blank (tree : Tree) : Prop where
  laid : tree.fs.Laid true
  dots : dirEntrySize + 2 < tree.maxName
  inodes : tree.limits.inodes < 256 ^ 4
  free : ∀ ino, ¬ tree.fs.Marked true ino
  erased : ∀ ino, tree.inodes ino = .erased

theorem Blank.formed (blank : tree.Blank) : tree.Formed where
  __ := blank
  listed ino := ⟨[], by rw [blank.erased]; exact .nil⟩
  file ino _ := by rw [blank.erased]; rfl
  erased ino _ := blank.erased ino
  bits ino := by rw [blank.erased]; decide

theorem Blank.known_root (blank : tree.Blank) : tree.fs.Known true rootIno := by
  have first : (rootIno - 1) / tree.fs.groupSize true = 0 := Nat.zero_div _
  refine ⟨Nat.le_refl 1, ?_, ?_⟩
  · rw [first]
    exact blank.laid.some_group
  · rw [first]
    exact (Nat.zero_mod _).symm ▸ blank.laid.nonempty 0 blank.laid.some_group

theorem Blank.holds {start : Tree} {free : Nat} (blank : tree.Blank)
    (written : tree.writeRootDir free = (0, start)) : start.Holds := by
  rw [Tree.writeRootDir] at written
  cases allocated : tree.fs.groupBitmapAlloc rootIno true with
  | none =>
    rw [allocated] at written
    cases written
  | some result =>
    obtain ⟨fs, ino⟩ := result
    rw [allocated] at written
    dsimp only at written
    split at written
    next => cases written
    next isRoot =>
      rw [not_not] at isRoot
      subst isRoot
      obtain ⟨known, -, marks⟩ := FileSystem.groupBitmapAlloc_some blank.laid
        (.inr blank.known_root) allocated
      obtain ⟨limits, names⟩ :=
        names_setFs marks (FileSystem.groupBitmapAlloc_sizes allocated)
      have isFormed : (({ tree with fs } : Tree).setInode rootIno ⟨true, 0, []⟩).Formed :=
        blank.formed.setFs marks limits rfl (fun absurd => by cases absurd) (by decide)
      have marked : fs.Marked true rootIno := (marks.marked rootIno).mpr (by rw [if_pos rfl])
      have isDir : ((({ tree with fs } : Tree).setInode rootIno ⟨true, 0, []⟩).inodes
          rootIno).dir = true := by simp only [Tree.setInode, update_self]
      obtain ⟨rc, after, added, formed, -, outcome⟩ :=
        isFormed.addEntry isDir (isFormed.fits marked isFormed.short_dots.1) free
      obtain ⟨rfl, rfl⟩ := Prod.mk.inj (added.symm.trans written)
      have isNow := (outcome.resolve_right fun full => by cases full.1).2
      rw [withEntry_dot, names_setInode, names] at isNow
      have none : ∀ isName other, named isName (tree.entries other) = 0 := by
        intro isName other
        rw [Tree.entries, blank.erased]
        rfl
      have update_none : ∀ other, update tree.names.children rootIno 0 other = 0 ∧
          update tree.names.parents rootIno 0 other = 0 := by
        intro other
        rcases eq_or_ne other rootIno with rfl | different
        · exact ⟨update_self .., update_self ..⟩
        · rw [update_of_ne different, update_of_ne different]
          exact ⟨none isProper other, none (fun name => name = dotdotName) other⟩
      refine ⟨formed, NameTree.sound_of_root ?_ ?_ ?_ ?_ ?_ ?_⟩
      · rw [isNow]
        exact Finset.mem_range.mpr (Nat.lt_succ_of_le (known.le_inodes blank.laid))
      · intro other
        rw [isNow]
        dsimp only
        rw [update_apply]
        split
        next same => exact iff_of_true rfl same
        next different => exact iff_of_false (blank.free other) different
      · intro other
        rw [isNow]
        dsimp only
        rw [update_apply]
        split
        next same => exact iff_of_true rfl same
        next different =>
          refine iff_of_false (fun isDir => ?_) different
          have erased : tree.names.dir other = false := congrArg Inode.dir (blank.erased other)
          rw [erased] at isDir
          cases isDir
      · intro other
        rw [isNow]
        exact (update_none other).1
      · intro other
        rw [isNow]
        exact (update_none other).2
      · intro other
        rw [isNow]
        dsimp only
        rw [update_idem, update_self, update_apply]
        split
        next => rfl
        next => exact none (fun name => name = dotName) other

open Machine in
/-- In every run of such calls the links stay counted. -/
theorem run_counted {blank start : Tree} {free : Nat} (isBlank : blank.Blank)
    (formatted : blank.writeRootDir free = (0, start)) (calls : List TreeCall)
    (admitted : Meets step (fun tree call => call.Admitted tree) start calls)
    (counts : Meets step (fun tree call => call.Counts tree) start calls) :
    Throughout step (fun tree => tree.names.Counted rootIno) start calls := by
  have holds : Throughout step Holds start calls := by
    refine throughout_of_preserved (isBlank.holds formatted) ?_ (admitted.and counts)
    exact fun tree call holds met => holds.step met.1 met.2
  exact holds.imp fun tree holds => holds.sound.counted

/-- A group of eight inodes, and blocks of sixty-four bytes. -/
def smallBlank : Tree where
  fs :=
    { groupCount := 1
      groupBlocks := 16
      groupInodes := 8
      groups := fun _ =>
        ⟨⟨16, 16, fun _ => 0xffffffff, fun _ => 0xffffffff⟩,
          ⟨8, 8, fun _ => 0xffffffff, fun _ => 0xffffffff⟩⟩
      inodesPerBlock := 1
      blocksPerBlock := 16
      tables := fun _ _ => 0 }
  blockSize := 64
  maxName := 32
  inodes := fun _ => .erased

/-- The small file system as it is formatted. -/
def smallTree : Tree := (smallBlank.writeRootDir 1).2

theorem smallBlank_blank : smallBlank.Blank where
  laid :=
    { some_group := Nat.zero_lt_one
      nonempty := fun _ _ => Nat.succ_pos 7
      bounded := fun _ _ => Nat.le_refl 8
      full := fun group inside => absurd inside (by simp [smallBlank]) }
  dots := by decide
  inodes := by decide
  free ino := by
    rintro ⟨-, isMarked⟩
    have below : (ino - 1) % 8 < 8 := Nat.mod_lt _ (by decide)
    have bits : ∀ bit < 8, bitmapTest 0xffffffff (bit % 32) = false := by decide
    exact Bool.false_ne_true ((bits _ below).symm.trans isMarked)
  erased _ := rfl

/-- A file is moved from one of two directories to the other and removed, as is the first
directory. -/
def movedFile : List TreeCall :=
  [.mknod 1 [97] true fun _ => 1, .mknod 1 [98] true fun _ => 1,
    .mknod 2 [102] false fun _ => 1, .rename 2 4 23 3 [103] 1, .rmnod 3 4 23, .rmnod 1 2 11]

open Machine in
theorem movedFile_counted :
    Throughout step (fun tree => tree.names.Counted rootIno) smallTree movedFile := by
  refine run_counted smallBlank_blank (Prod.ext (by decide +kernel) rfl) movedFile ?_ ?_
  · refine ⟨?_, ?_, ?_, ?_, ?_, ?_, trivial⟩
    · exact ⟨by decide +kernel, by decide⟩
    · exact ⟨by decide +kernel, by decide⟩
    · exact ⟨by decide +kernel, by decide⟩
    · exact ⟨by decide +kernel, by decide +kernel, by decide, ⟨by decide +kernel, by decide +kernel⟩⟩
    · exact ⟨by decide +kernel, by decide, ⟨[103], 4⟩,
        Option.mem_def.mpr (by decide +kernel), rfl, by decide⟩
    · exact ⟨by decide +kernel, by decide, ⟨[97], 2⟩,
        Option.mem_def.mpr (by decide +kernel), rfl, by decide⟩
  · refine ⟨?_, ?_, ?_, ?_, trivial, trivial, trivial⟩
    · exact ⟨by decide +kernel, fun _ => by decide +kernel⟩
    · exact ⟨by decide +kernel, fun _ => by decide +kernel⟩
    · exact ⟨by decide +kernel, fun _ => by decide +kernel⟩
    · exact ⟨by decide +kernel, by decide +kernel, ⟨⟨[102], 4⟩,
        Option.mem_def.mpr (by decide +kernel), rfl, by decide⟩,
        fun isDir => absurd isDir (by decide +kernel)⟩

/-- A directory is moved from one of two directories to the other. -/
def movedDir : List TreeCall :=
  [.mknod 1 [97] true fun _ => 1, .mknod 1 [98] true fun _ => 1,
    .mknod 2 [100] true fun _ => 1, .rename 2 4 23 3 [100] 1]

open Machine in
/-- The old parent has no directory any more, and still counts two links. -/
theorem movedDir_miscounted :
    smallBlank.Blank ∧ smallBlank.writeRootDir 1 = (0, smallTree) ∧
      Meets step (fun tree call => call.Admitted tree) smallTree movedDir ∧
      ¬ Throughout step (fun tree => tree.names.Counted rootIno) smallTree movedDir := by
  refine ⟨smallBlank_blank, Prod.ext (by decide +kernel) rfl, ?_, fun counted => ?_⟩
  · refine ⟨?_, ?_, ?_, ?_, trivial⟩
    · exact ⟨by decide +kernel, by decide⟩
    · exact ⟨by decide +kernel, by decide⟩
    · exact ⟨by decide +kernel, by decide⟩
    · exact ⟨by decide +kernel, by decide +kernel, by decide, ⟨by decide +kernel, by decide +kernel⟩⟩
  · have moved := counted.final
    have used : (run step smallTree movedDir).fs.Marked true 2 := by decide +kernel
    have isDir : (run step smallTree movedDir).names.dir 2 = true := by decide +kernel
    have links : (run step smallTree movedDir).names.links 2 ≠
        1 + (run step smallTree movedDir).names.subdirs 2 := by decide +kernel
    exact links (moved.dir 2 used isDir (by decide))

end Tree

end RTContainer.Rfs
