import RTContainer.Rfs.LinkProperties

/-! What each operation on links makes of the tree of names. An operation that fails
leaves the names as they were. -/

set_option autoImplicit false

namespace RTContainer.Rfs

open Function

def Short (limits : DirLimits) (name : List UInt8) : Prop :=
  name ≠ [] ∧ dirEntrySize + name.length < limits.maxName ∧
    dirEntrySize + name.length < dirEntryEmpty

instance (limits : DirLimits) (name : List UInt8) : Decidable (Short limits name) :=
  inferInstanceAs (Decidable (_ ∧ _ ∧ _))

namespace Tree

variable {tree : Tree} {ino parent target doff : Nat} {name : List UInt8}

theorem Formed.fits (formed : tree.Formed) (marked : tree.fs.Marked true ino)
    (short : Short tree.limits name) : DirEntry.Fits tree.limits ⟨name, ino⟩ where
  named := short.1
  short := short.2.1
  encoded := short.2.2
  some_ino := marked.1.1
  inside := marked.1.le_inodes formed.laid
  ino_bits := Nat.lt_of_le_of_lt (marked.1.le_inodes formed.laid) formed.inodes

theorem Formed.short_dots (formed : tree.Formed) :
    Short tree.limits dotName ∧ Short tree.limits dotdotName := by
  have dots : dirEntrySize + 2 < tree.limits.maxName := formed.dots
  simp only [dirEntrySize] at dots
  refine ⟨⟨by decide, ?_, by decide⟩, ⟨by decide, ?_, by decide⟩⟩ <;>
    simp only [dirEntrySize, dotName, dotdotName, List.length_cons, List.length_nil] <;> omega

theorem Formed.addDots (formed : tree.Formed) (isDir : (tree.inodes ino).dir = true)
    (parentMarked : tree.fs.Marked true parent) (free : Nat → Nat) :
    ∃ rc after, tree.addDots ino parent free = (rc, after) ∧ after.Formed ∧ Keeps tree after ∧
      (rc = 0 ∧ after.names =
        { tree.names with
          parents := update tree.names.parents ino (parent ::ₘ tree.names.parents ino)
          selves := update tree.names.selves ino (ino ::ₘ tree.names.selves ino) } ∨
        rc = enospc ∧ ∃ selves, after.names =
          { tree.names with selves := update tree.names.selves ino selves }) := by
  have marked := formed.dir_marked isDir
  obtain ⟨shortDot, shortDotdot⟩ := formed.short_dots
  obtain ⟨rc, first, added, firstFormed, firstKeeps, outcome⟩ :=
    formed.addEntry isDir (formed.fits marked shortDot) (free 0)
  rw [Tree.addDots, added]
  rcases outcome with ⟨rfl, names⟩ | ⟨rfl, names⟩
  · rw [withEntry_dot] at names
    have firstDir : (first.inodes ino).dir = true := by
      have same : first.names.dir ino = tree.names.dir ino := by rw [names]
      exact same.trans isDir
    have fits : DirEntry.Fits first.limits ⟨dotdotName, parent⟩ := by
      rw [firstKeeps.limits]
      exact formed.fits parentMarked shortDotdot
    obtain ⟨rc, after, secondAdded, isFormed, keeps, secondOutcome⟩ :=
      firstFormed.addEntry firstDir fits (free 1)
    refine ⟨rc, after, by simpa using secondAdded, isFormed, ?_, ?_⟩
    · exact ⟨keeps.fs.trans firstKeeps.fs, keeps.limits.trans firstKeeps.limits,
        fun dir doff entry found => keeps.entryAt _ _ _ (firstKeeps.entryAt _ _ _ found)⟩
    · rcases secondOutcome with ⟨isDone, secondNames⟩ | ⟨isFull, secondNames⟩
      · rw [withEntry_dotdot, names] at secondNames
        exact .inl ⟨isDone, secondNames⟩
      · rw [names] at secondNames
        exact .inr ⟨isFull, _, secondNames⟩
  · exact ⟨enospc, first, rfl, firstFormed, firstKeeps, .inr ⟨rfl, tree.names.selves ino, by
      rw [names, update_eq_self]⟩⟩

structure Begun (tree after : Tree) (ino : Nat) (isDir : Bool) (parents selves : Multiset Nat) :
    Prop where
  formed : after.Formed
  marked : after.fs.Marked true ino
  limits : after.limits = tree.limits
  names : after.names =
    { tree.names with
      used := update tree.names.used ino True
      dir := update tree.names.dir ino isDir
      links := update tree.names.links ino 1
      parents := update tree.names.parents ino parents
      selves := update tree.names.selves ino selves }

section Begun

variable {after : Tree} {isDir : Bool} {parents selves : Multiset Nat} {fs : FileSystem}

theorem Formed.begun (formed : tree.Formed) (marks : tree.fs.Marks true ino true fs)
    (sizes : fs.groupCount = tree.fs.groupCount ∧ fs.groupInodes = tree.fs.groupInodes)
    (notMarked : ¬ tree.fs.Marked true ino) (isDir : Bool) :
    Begun tree (({ tree with fs } : Tree).setInode ino ⟨isDir, 1, []⟩) ino isDir 0 0 := by
  obtain ⟨limits, names⟩ := names_setFs marks sizes
  have unused := formed.names_unused notMarked
  have children := congrArg NameTree.children unused
  refine ⟨formed.setFs marks limits rfl (fun absurd => nomatch absurd) ?_, ?_, limits, ?_⟩
  · exact Nat.one_lt_two_pow (by decide)
  · exact (marks.marked ino).mpr (by rw [if_pos rfl])
  · rw [names_setInode, names]
    apply NameTree.ext
    · rfl
    · exact congrArg (update tree.names.used ino) (eq_true rfl)
    · rfl
    · rfl
    · exact children
    · rfl
    · rfl

theorem Begun.of_names {next : Tree} (begun : Begun tree after ino isDir parents selves)
    (formed : next.Formed) (keeps : Keeps after next) (same : next.names = after.names) :
    Begun tree next ino isDir parents selves where
  formed := formed
  marked := keeps.fs ▸ begun.marked
  limits := keeps.limits.trans begun.limits
  names := same.trans begun.names

theorem Begun.abandon (begun : Begun tree after ino isDir parents selves) (formed : tree.Formed)
    (notMarked : ¬ tree.fs.Marked true ino) :
    ∃ next, after.inodeDelete ino = (0, next) ∧ next.Formed ∧ next.names = tree.names := by
  obtain ⟨next, deleted, isFormed, names, -⟩ := begun.formed.inodeDelete begun.marked
  refine ⟨next, deleted, isFormed, ?_⟩
  rw [names, begun.names, ← formed.names_unused notMarked]
  simp only [NameTree.forget, update_idem]

theorem Begun.addDots (begun : Begun tree after ino true 0 0)
    (parentMarked : after.fs.Marked true parent) (free : Nat → Nat) :
    ∃ rc next, after.addDots ino parent free = (rc, next) ∧
      (rc = 0 ∧ Begun tree next ino true {parent} {ino} ∨
        rc = enospc ∧ ∃ selves, Begun tree next ino true 0 selves) := by
  have isDir : (after.inodes ino).dir = true := by
    exact (congrFun (congrArg NameTree.dir begun.names) ino).trans (update_self ..)
  obtain ⟨rc, next, added, formed, keeps, outcome⟩ :=
    begun.formed.addDots isDir parentMarked free
  have marked : next.fs.Marked true ino := keeps.fs ▸ begun.marked
  have limits := keeps.limits.trans begun.limits
  refine ⟨rc, next, added, outcome.imp (fun done => ⟨done.1, formed, marked, limits, ?_⟩)
    fun full => ⟨full.1, ?_⟩⟩
  · rw [done.2, begun.names]
    simp only [update_idem, update_self]
    rfl
  · obtain ⟨-, selves, names⟩ := full
    refine ⟨selves, formed, marked, limits, ?_⟩
    rw [names, begun.names]
    simp only [update_idem]

end Begun

theorem Begun.addEntry {after : Tree} {isDir : Bool} {parents selves : Multiset Nat}
    (begun : Begun tree after ino isDir parents selves) (different : parent ≠ ino)
    (parentDir : (tree.inodes parent).dir = true) (short : Short tree.limits name)
    (proper : isProper name = true) (free : Nat) :
    ∃ rc next, after.addEntry parent name ino free = (rc, next) ∧
      (rc = 0 ∧ next.Formed ∧ next.fs.Marked true parent ∧ next.names =
        { after.names with
          children := update tree.names.children parent (ino ::ₘ tree.names.children parent) } ∨
        rc = enospc ∧ Begun tree next ino isDir parents selves) := by
  have isParent : (after.inodes parent).dir = true := by
    refine (congrFun (congrArg NameTree.dir begun.names) parent).trans ?_
    exact (update_of_ne different ..).trans parentDir
  have children : after.names.children = tree.names.children := by rw [begun.names]
  have fits : DirEntry.Fits after.limits ⟨name, ino⟩ :=
    begun.formed.fits begun.marked (begun.limits ▸ short)
  obtain ⟨rc, next, added, formed, keeps, outcome⟩ := begun.formed.addEntry isParent fits free
  refine ⟨rc, next, added, outcome.imp (fun done => ⟨done.1, formed, ?_, ?_⟩)
    fun full => ⟨full.1, begun.of_names formed keeps full.2⟩⟩
  · rw [keeps.fs]
    exact begun.formed.dir_marked isParent
  · rw [done.2, withEntry_proper _ _ _ proper, children]

section

variable (formed : tree.Formed) (parentDir : (tree.inodes parent).dir = true)
include formed parentDir

/-- A creation adds one unused node, or changes no name. -/
theorem Formed.inodeCreate (short : Short tree.limits name) (proper : isProper name = true)
    (isDir : Bool) (room : isDir = true → (tree.inodes parent).getLinks + 1 < 0xffff)
    (free : Nat → Nat) :
    (tree.inodeCreate parent name isDir free).2.Formed ∧
      ((tree.inodeCreate parent name isDir free).2.names = tree.names ∨
        ∃ ino, ¬ tree.names.used ino ∧ ino ∈ tree.names.space ∧
          (tree.inodeCreate parent name isDir free).2.names =
            tree.names.create parent ino isDir) := by
  have parentMarked := formed.dir_marked parentDir
  rw [Tree.inodeCreate]
  cases allocated : tree.fs.groupBitmapAlloc parent true with
  | none => exact ⟨formed, .inl rfl⟩
  | some result =>
    obtain ⟨fs, ino⟩ := result
    obtain ⟨known, notMarked, marks⟩ :=
      FileSystem.groupBitmapAlloc_some formed.laid (.inr parentMarked.1) allocated
    have different : parent ≠ ino := fun same => notMarked (same ▸ parentMarked)
    have begun := formed.begun marks (FileSystem.groupBitmapAlloc_sizes allocated) notMarked isDir
    have inside : ino ∈ tree.names.space :=
      Finset.mem_range.mpr (Nat.lt_succ_of_le (known.le_inodes formed.laid))
    have stillMarked : fs.Marked true parent :=
      (marks.marked parent).mpr (by rwa [if_neg different])
    -- the entries of a new directory
    have dotted : ∃ rc mid, (if isDir = true then
          (({ tree with fs } : Tree).setInode ino ⟨isDir, 1, []⟩).addDots ino parent free
        else (0, ({ tree with fs } : Tree).setInode ino ⟨isDir, 1, []⟩)) = (rc, mid) ∧
        (rc = 0 ∧ Begun tree mid ino isDir (if isDir then {parent} else 0)
            (if isDir then {ino} else 0) ∨
          rc = enospc ∧ ∃ selves, Begun tree mid ino isDir 0 selves) := by
      cases isDir with
      | false => exact ⟨0, _, rfl, .inl ⟨rfl, begun⟩⟩
      | true => exact begun.addDots stillMarked free
    obtain ⟨rc, mid, added, outcome⟩ := dotted
    dsimp only
    rw [added]
    rcases outcome with ⟨rfl, isBegun⟩ | ⟨rfl, selves, isBegun⟩
    · obtain ⟨rc, next, entered, outcome⟩ :=
        isBegun.addEntry different parentDir short proper (free 2)
      simp only [Nat.lt_irrefl, if_false]
      rw [entered]
      rcases outcome with ⟨rfl, isFormed, marked, names⟩ | ⟨rfl, isBegun⟩
      · rw [isBegun.names] at names
        have links : next.names.links parent = tree.names.links parent := by
          rw [names]
          exact update_of_ne different _ _
        cases isDir with
        | false =>
          refine ⟨isFormed, .inr ⟨ino, notMarked, inside, ?_⟩⟩
          refine names.trans (NameTree.ext rfl rfl rfl ?_ rfl rfl rfl)
          exact (update_eq_iff.mpr ⟨(update_of_ne different _ _).symm, fun _ _ => rfl⟩).symm
        | true =>
          have fits : (next.inodes parent).getLinks + 1 < 0xffff := by
            have same : (next.inodes parent).getLinks = (tree.inodes parent).getLinks := links
            rw [same]
            exact room rfl
          refine ⟨isFormed.setLinks marked _, .inr ⟨ino, notMarked, inside, ?_⟩⟩
          refine (names_setLinks fits).trans ?_
          rw [names]
          refine NameTree.ext rfl rfl rfl ?_ rfl rfl rfl
          have counted : (next.inodes parent).getLinks = tree.names.links parent := links
          dsimp only
          rw [counted]
          rfl
      · obtain ⟨last, deleted, isFormed, names⟩ := isBegun.abandon formed notMarked
        simp only [deleted]
        exact ⟨isFormed, .inl names⟩
    · obtain ⟨last, deleted, isFormed, names⟩ := isBegun.abandon formed notMarked
      simp only [deleted]
      exact ⟨isFormed, .inl names⟩

theorem Formed.link (marked : tree.fs.Marked true target) (short : Short tree.limits name)
    (proper : isProper name = true) (room : (tree.inodes target).getLinks + 1 < 0xffff)
    (linkDir : Bool) (allowed : linkDir = true ∨ (tree.inodes target).dir = false) (free : Nat) :
    ∃ rc after, tree.link name parent target linkDir free = (rc, after) ∧ after.Formed ∧
      Keeps tree after ∧
      (rc = 0 ∧ after.names = tree.names.link parent target ∨
        rc = enospc ∧ after.names = tree.names) := by
  obtain ⟨rc, next, added, isFormed, keeps, outcome⟩ :=
    formed.addEntry parentDir (formed.fits marked short) free
  have notRefused : ¬ ((!linkDir) = true ∧ (tree.inodes target).dir = true) := by
    rintro ⟨denied, isDir⟩
    rcases allowed with isAllowed | isFile
    · rw [isAllowed] at denied
      exact nomatch denied
    · rw [isFile] at isDir
      exact nomatch isDir
  rw [Tree.link, if_neg notRefused]
  dsimp only at added
  rw [added]
  rcases outcome with ⟨rfl, names⟩ | ⟨rfl, names⟩
  · rw [withEntry_proper _ _ _ proper] at names
    have links : (next.inodes target).getLinks = tree.names.links target := by
      have same : next.names.links target = tree.names.links target := by rw [names]
      exact same
    have fits : (next.inodes target).getLinks + 1 < 0xffff := by
      rw [links]
      exact room
    refine ⟨0, _, rfl, isFormed.setLinks (keeps.fs ▸ marked) _, ⟨keeps.fs, keeps.limits, ?_⟩,
      .inl ⟨rfl, ?_⟩⟩
    · intro dir doff entry found
      rw [Tree.setLinks, entryAt_setInode, update_apply]
      have isFound := keeps.entryAt dir doff entry found
      split
      next same => rwa [same] at isFound
      next => exact isFound
    · rw [names_setLinks fits, names, links]
      rfl
  · exact ⟨enospc, next, rfl, isFormed, keeps, .inr ⟨rfl, names⟩⟩

/-- An inode goes with the last of its names. -/
theorem Formed.dropLink {before : NameTree Nat} {isDir : Bool} (marked : tree.fs.Marked true target)
    (child : target ∈ before.children parent) (dir : before.dir target = isDir)
    (names : tree.names = { before with
      children := update before.children parent ((before.children parent).erase target) })
    (empty : before.links target ≤ 1 → before.children target = 0) :
    (tree.dropLink parent target isDir).2.Formed ∧
      (tree.dropLink parent target isDir).2.names =
        if 1 < before.links target then before.unlink parent target
        else before.remove parent target := by
  have links : ∀ other, (tree.inodes other).getLinks = before.links other := by
    intro other
    have same : tree.names.links other = before.links other := by rw [names]
    exact same
  have bound := Inode.getLinks_lt (formed.bits target)
  rw [Tree.dropLink, links] at *
  split
  next many =>
    refine ⟨formed.setLinks marked _, ?_⟩
    rw [names_setLinks (by omega), names]
    rfl
  next few =>
    have unnamed := empty (Nat.le_of_not_lt few)
    have different : parent ≠ target := by
      rintro rfl
      rw [unnamed] at child
      exact Multiset.notMem_zero parent child
    obtain ⟨next, deleted, isFormed, nextNames, others⟩ := formed.inodeDelete marked
    have parentMarked := others parent different (formed.dir_marked parentDir)
    have nextLinks : (next.inodes parent).getLinks = before.links parent := by
      have same : next.names.links parent = before.links parent := by
        rw [nextNames, names]
        exact update_of_ne different _ _
      exact same
    rw [names] at nextNames
    have cleared : update (update before.children parent
        ((before.children parent).erase target)) target 0 =
        update before.children parent ((before.children parent).erase target) := by
      rw [update_eq_self_iff, update_of_ne different.symm]
      exact unnamed.symm
    simp only [deleted, Nat.lt_irrefl, if_false]
    cases isDir with
    | false =>
      refine ⟨isFormed, nextNames.trans (NameTree.ext rfl rfl rfl ?_ cleared rfl rfl)⟩
      refine (update_eq_self_iff.mpr ?_).symm
      rw [if_neg fun absurd => Bool.false_ne_true (dir.symm.trans absurd.1)]
      exact (update_of_ne different _ _).symm
    | true =>
      have parentBound := Inode.getLinks_lt (isFormed.bits parent)
      have fits : (if 1 < before.links parent then before.links parent - 1
          else before.links parent) < 0xffff := by
        rw [← nextLinks]
        split <;> omega
      simp only [if_true, nextLinks]
      refine ⟨isFormed.setLinks parentMarked _, (names_setLinks fits).trans ?_⟩
      rw [nextNames]
      refine NameTree.ext rfl rfl rfl ?_ cleared rfl rfl
      simp only [NameTree.remove, dir, true_and]
      rfl

end

variable {entry : DirEntry}

theorem Formed.unlink (formed : tree.Formed) (parentDir : (tree.inodes parent).dir = true)
    (marked : tree.fs.Marked true entry.ino) (found : tree.entryAt parent doff = some entry)
    (proper : isProper entry.name = true)
    (empty : tree.names.links entry.ino ≤ 1 → tree.names.children entry.ino = 0) :
    entry.ino ∈ tree.names.children parent ∧
    (tree.unlink parent entry.ino doff .allowed).2.Formed ∧
      (tree.unlink parent entry.ino doff .allowed).2.names =
        if 1 < tree.names.links entry.ino then tree.names.unlink parent entry.ino
        else tree.names.remove parent entry.ino := by
  obtain ⟨mid, deleted, isFormed, fs, child, names⟩ := formed.delEntry parentDir found proper
  have isParent : (mid.inodes parent).dir = true := by
    have same : mid.names.dir parent = tree.names.dir parent := by rw [names]
    exact same.trans parentDir
  rw [Tree.unlink]
  simp only [deleted, Nat.lt_irrefl, if_false]
  exact ⟨child, isFormed.dropLink isParent (fs ▸ marked) child rfl names empty⟩

theorem Formed.unlink_ifEmpty (formed : tree.Formed) :
    (tree.unlink parent target doff .ifEmpty).2 = tree ∨
      tree.names.children target = 0 ∧
        tree.unlink parent target doff .ifEmpty = tree.unlink parent target doff .allowed := by
  obtain ⟨contents, listed⟩ := formed.listed target
  rw [Tree.unlink]
  cases isDir : (tree.inodes target).dir with
  | false =>
    refine .inr ⟨?_, by rw [Tree.unlink]; simp [isDir]⟩
    show named isProper (dirEntries tree.limits (tree.inodes target).blocks) = 0
    rw [formed.file target isDir]
    rfl
  | true =>
    dsimp only
    rw [if_pos rfl]
    rcases Nat.eq_zero_or_pos (dirEmpty tree.limits (tree.inodes target).blocks) with
      isEmpty | refused
    · refine .inr ⟨?_, by rw [isEmpty, Tree.unlink, isDir]⟩
      have dotted := listed.dirEmpty isEmpty
      have none : (tree.entries target).filter (fun entry => isProper entry.name) = [] := by
        rw [Tree.entries, listed.dirEntries, List.filter_eq_nil_iff]
        intro entry member proper
        have others : entry.name ≠ dotName ∧ entry.name ≠ dotdotName := of_decide_eq_true proper
        rcases dotted entry member with isDot | isDotdot
        · exact others.1 isDot
        · exact others.2 isDotdot
      show named isProper (tree.entries target) = 0
      rw [named, none]
      rfl
    · rw [if_pos refused]
      exact .inl rfl

end Tree

end RTContainer.Rfs
