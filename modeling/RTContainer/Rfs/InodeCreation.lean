import RTContainer.Rfs.BlockOwnership
import RTContainer.Rfs.DirRuns
import RTContainer.Rfs.Link

/-! Creation of an inode, `rtems_rfs_inode_create`, on a file system that may have no inode
or no block left. What has been allocated before a failure is given back by the deletion of
the new inode. -/

set_option autoImplicit false

namespace RTContainer.Rfs

/-- An inode and its block map. The blocks of a directory are the contents of the data
blocks of the map. -/
structure MappedInode extends Inode where
  map : BlockMap

def MappedInode.fresh (dir : Bool) : MappedInode := ⟨⟨dir, 1, []⟩, .empty⟩

/-- `rtems_rfs_dir_add_entry` behind the last block of a directory. A map does not get as
many blocks as there are rounds. -/
def growEntry (limits : DirLimits) (name : List UInt8) (ino : Nat) :
    Nat → FileSystem → MappedInode → Nat × FileSystem × MappedInode
  | 0, fs, dir => (efbig, fs, dir)
  | rounds + 1, fs, dir =>
    let (rc, fs, map) := blockMapGrow fs dir.map 1
    if 0 < rc then (rc, fs, { dir with map := map })
    else
      let block := List.replicate limits.blockSize 0xff
      match addToBlock limits block name ino with
      | .found written => (0, fs, { dir with map := map, blocks := dir.blocks ++ [written] })
      | .failed rc => (rc, fs, { dir with map := map, blocks := dir.blocks ++ [block] })
      | .passed =>
        growEntry limits name ino rounds fs
          { dir with map := map, blocks := dir.blocks ++ [block] }

def addMappedEntry (limits : DirLimits) (fs : FileSystem) (dir : MappedInode)
    (name : List UInt8) (ino : Nat) : Nat × FileSystem × MappedInode :=
  match addToBlocks limits name ino dir.blocks with
  | .found written => (0, fs, { dir with blocks := written })
  | .failed rc => (rc, fs, dir)
  | .passed => growEntry limits name ino fs.doublyBlocks fs dir

def addMappedDots (limits : DirLimits) (fs : FileSystem) (dir : MappedInode) (ino parent : Nat) :
    Nat × FileSystem × MappedInode :=
  let (rc, fs, dir) := addMappedEntry limits fs dir dotName ino
  if 0 < rc then (rc, fs, dir) else addMappedEntry limits fs dir dotdotName parent

/-- `rtems_rfs_inode_delete`, of an inode that no directory names. -/
def releaseInode (fs : FileSystem) (ino : Nat) (map : BlockMap) : FileSystem :=
  let (fs, rc) := fs.groupBitmapFree true ino
  if 0 < rc then fs else (blockMapFreeAll fs map).2.1

/-- `rtems_rfs_inode_create` with one link. The parent is an inode of its own, and the new
inode is the last part of the result. -/
def createInode (limits : DirLimits) (fs : FileSystem) (parentIno : Nat) (parent : MappedInode)
    (name : List UInt8) (dir : Bool) : Nat × FileSystem × MappedInode × MappedInode :=
  match fs.groupBitmapAlloc parentIno true with
  | none => (enospc, fs, parent, .fresh dir)
  | some (fs, ino) =>
    let (rc, fs, node) :=
      if dir then addMappedDots limits fs (.fresh dir) ino parentIno else (0, fs, .fresh dir)
    if 0 < rc then (rc, releaseInode fs ino node.map, parent, node)
    else
      let (rc, fs, parent) := addMappedEntry limits fs parent name ino
      if 0 < rc then (rc, releaseInode fs ino node.map, parent, node)
      else
        let inode := if dir then parent.setLinks (parent.getLinks + 1) else parent.toInode
        (0, fs, { parent with toInode := inode }, node)

variable {limits : DirLimits} {fs mid after : FileSystem} {map : BlockMap} {blocks : MapBlocks}
variable {dir parent node : MappedInode} {name : List UInt8} {ino parentIno : Nat}

/-- A map within its bounds. -/
structure Bounded (fs : FileSystem) (map : BlockMap) (blocks : MapBlocks) : Prop where
  held : Held fs map blocks
  count : map.count < fs.doublyBlocks

structure Lengthened (fs : FileSystem) (blocks : MapBlocks) (after : FileSystem)
    (next : BlockMap) (grown : MapBlocks) (added : List Nat) : Prop where
  grown : Grown fs blocks after next grown added
  count : next.count < after.doublyBlocks

theorem Bounded.empty (laid : fs.Laid false) (large : inodeBlocks < fs.blocksPerBlock) :
    Bounded fs .empty ⟨[], [], []⟩ := by
  have some_left : 0 < fs.blocksPerBlock := Nat.zero_lt_of_lt large
  exact ⟨.empty laid large, Nat.mul_pos (Nat.mul_pos some_left some_left) (by decide)⟩

theorem Bounded.stays (bounded : Bounded fs map blocks) : Lengthened fs blocks fs map blocks [] :=
  ⟨bounded.held.stays (.refl fs) (fun _ _ => rfl) bounded.held.mapGoal rfl rfl rfl, bounded.count⟩

variable {next : BlockMap} {grown : MapBlocks} {added : List Nat}

theorem Lengthened.bounded (lengthened : Lengthened fs blocks after next grown added)
    (held : Held fs map blocks) : Bounded after next grown :=
  ⟨lengthened.grown.held held, lengthened.count⟩

theorem blockMapGrow_one (bounded : Bounded fs map blocks) :
    ∃ grown added, Lengthened fs blocks (blockMapGrow fs map 1).2.1 (blockMapGrow fs map 1).2.2
      grown added ∧ (0 < (blockMapGrow fs map 1).1 → added = []) := by
  have held := bounded.held
  have inside := bounded.count
  rw [blockMapGrow]
  split
  next => exact ⟨blocks, [], bounded.stays, fun _ => rfl⟩
  next fits =>
    obtain ⟨grown, added, isGrown, data, refused⟩ := growOne_grown held
    have length : (growOne fs map).2.2.count < (growOne fs map).2.1.doublyBlocks := by
      have before := held.mapped.count
      have more : (if 0 < (growOne fs map).1 then []
          else [(growOne fs map).2.2.lastDataBlock]).length ≤ 1 := by
        split <;> simp
      rw [(isGrown.held held).mapped.count, data, List.length_append,
        isGrown.takes.shape.doublyBlocks]
      omega
    rw [growLoop]
    dsimp only
    split
    next => exact ⟨grown, added, ⟨isGrown, length⟩, refused⟩
    next => exact ⟨grown, added, ⟨isGrown, length⟩, fun failed => absurd failed (Nat.lt_irrefl 0)⟩

theorem growEntry_lengthened (bounded : Bounded fs dir.map blocks) (limits : DirLimits)
    (name : List UInt8) (ino rounds : Nat) :
    ∃ grown added, Lengthened fs blocks (growEntry limits name ino rounds fs dir).2.1
      (growEntry limits name ino rounds fs dir).2.2.map grown added := by
  induction rounds generalizing fs dir blocks with
  | zero => exact ⟨blocks, [], bounded.stays⟩
  | succ rounds ih =>
    obtain ⟨middle, first, isMiddle, -⟩ := blockMapGrow_one bounded
    rw [growEntry]
    dsimp only
    split
    next => exact ⟨middle, first, isMiddle⟩
    next =>
      split
      next => exact ⟨middle, first, isMiddle⟩
      next => exact ⟨middle, first, isMiddle⟩
      next =>
        let next : MappedInode := { dir with
          map := (blockMapGrow fs dir.map 1).2.2
          blocks := dir.blocks ++ [List.replicate limits.blockSize 0xff] }
        obtain ⟨grown, second, isGrown⟩ := @ih _ _ next (isMiddle.bounded bounded.held)
        exact ⟨grown, first ++ second, isMiddle.grown.trans isGrown.grown, isGrown.count⟩

theorem addMappedEntry_lengthened (bounded : Bounded fs dir.map blocks) (limits : DirLimits)
    (name : List UInt8) (ino : Nat) :
    ∃ grown added, Lengthened fs blocks (addMappedEntry limits fs dir name ino).2.1
      (addMappedEntry limits fs dir name ino).2.2.map grown added := by
  rw [addMappedEntry]
  split
  next => exact ⟨blocks, [], bounded.stays⟩
  next => exact ⟨blocks, [], bounded.stays⟩
  next => exact growEntry_lengthened bounded limits name ino fs.doublyBlocks

theorem addMappedDots_lengthened (bounded : Bounded fs dir.map blocks) (limits : DirLimits)
    (ino parentIno : Nat) :
    ∃ grown added, Lengthened fs blocks (addMappedDots limits fs dir ino parentIno).2.1
      (addMappedDots limits fs dir ino parentIno).2.2.map grown added := by
  obtain ⟨middle, first, isMiddle⟩ := addMappedEntry_lengthened bounded limits dotName ino
  rw [addMappedDots]
  dsimp only
  split
  next => exact ⟨middle, first, isMiddle⟩
  next =>
    obtain ⟨grown, second, isGrown⟩ := addMappedEntry_lengthened
      (isMiddle.bounded bounded.held) limits dotdotName parentIno
    exact ⟨grown, first ++ second, isMiddle.grown.trans isGrown.grown, isGrown.count⟩

theorem addToBlock_fresh (limits : DirLimits) (name : List UInt8) (ino : Nat) :
    addToBlock limits (List.replicate limits.blockSize 0xff) name ino =
      if dirEntrySize + name.length < limits.blockSize then
        .found (writeAt (List.replicate limits.blockSize 0xff) 0 (entryBytes name ino))
      else .passed := by
  rw [addToBlock]
  refine Eq.trans (Packed.empty limits).scan_end ?_
  rw [packedBytes_nil, List.length_nil, Nat.sub_zero, Nat.add_comm name.length]
  by_cases fits : dirEntrySize + name.length < limits.blockSize
  · rw [if_pos (by omega), if_pos fits]
  · rw [if_neg fits, ite_self]

theorem addMappedEntry_fails (bounded : Bounded fs dir.map blocks)
    (fits : dirEntrySize + name.length < limits.blockSize)
    (failed : 0 < (addMappedEntry limits fs dir name ino).1) :
    (∃ grown, Lengthened fs blocks (addMappedEntry limits fs dir name ino).2.1
      (addMappedEntry limits fs dir name ino).2.2.map grown []) ∧
    (addMappedEntry limits fs dir name ino).2.2.toInode = dir.toInode := by
  rw [addMappedEntry] at failed ⊢
  split at failed
  next => exact absurd failed (Nat.lt_irrefl 0)
  next => exact ⟨⟨blocks, bounded.stays⟩, rfl⟩
  next =>
    generalize fs.doublyBlocks = rounds at failed ⊢
    cases rounds with
    | zero => exact ⟨⟨blocks, bounded.stays⟩, rfl⟩
    | succ rounds =>
      obtain ⟨grown, added, isGrown, refused⟩ := blockMapGrow_one bounded
      simp only [growEntry, addToBlock_fresh, if_pos fits] at failed ⊢
      split at failed
      next full =>
        rw [if_pos full]
        exact ⟨⟨grown, refused full ▸ isGrown⟩, rfl⟩
      next => exact absurd failed (Nat.lt_irrefl 0)

theorem Bounded.of_marks {value : Bool} (bounded : Bounded fs map blocks)
    (marks : fs.Marks true ino value after) : Bounded after map blocks where
  held :=
    { laid := marks.shape.laid false bounded.held.laid
      large := marks.shape.perBlock ▸ bounded.held.large
      mapped := bounded.held.mapped.congr marks.shape.perBlock
        (fun table _ => congrFun marks.tables table) rfl rfl
      mapGoal := marks.shape.goal bounded.held.mapGoal
      dataGoal := marks.shape.goal bounded.held.dataGoal
      nodup := bounded.held.nodup
      marked := fun block member => (marks.others block).mpr (bounded.held.marked block member) }
  count := marks.shape.doublyBlocks ▸ bounded.count

theorem Bounded.other {other : BlockMap} {otherBlocks left : MapBlocks}
    (bounded : Bounded fs other otherBlocks) (handles : Handles fs blocks after next left)
    (apart : ∀ block ∈ otherBlocks.all, block ∉ blocks.all) : Bounded after other otherBlocks :=
  ⟨handles.other bounded.held apart, handles.shape.doublyBlocks ▸ bounded.count⟩

theorem Mapped.all_nil (mapped : Mapped fs map blocks) (noData : blocks.data = []) :
    blocks.all = [] := by
  cases mapped with
  | direct => simpa [MapBlocks.all] using noData
  | singly _ long | doubly _ long =>
    rw [List.length_eq_zero_iff.mpr noData] at long
    exact absurd long (Nat.not_lt_zero _)

theorem releaseInode_marked (bounded : Bounded fs map blocks) (known : fs.Known true ino) :
    (∀ no, (releaseInode fs ino map).Marked false no ↔ fs.Marked false no ∧ no ∉ blocks.all) ∧
      ∀ no, (releaseInode fs ino map).Marked true no ↔ fs.Marked true no ∧ no ≠ ino := by
  obtain ⟨mid, freed, marks⟩ := FileSystem.groupBitmapFree_known known
  have bounded := bounded.of_marks marks
  have held := bounded.held
  have inodes : ∀ no, mid.Marked true no ↔ fs.Marked true no ∧ no ≠ ino := by
    intro no
    rw [marks.marked]
    split
    next same => simp [same]
    next different => simp [different]
  rw [releaseInode, freed]
  dsimp only
  rw [if_neg (Nat.lt_irrefl 0), blockMapFreeAll, blockMapShrink]
  split
  next none =>
    have noData : blocks.data = [] :=
      List.length_eq_zero_iff.mp (held.mapped.count.symm.trans none)
    refine ⟨fun no => ?_, inodes⟩
    rw [held.mapped.all_nil noData]
    simpa using marks.others no
  next =>
    obtain ⟨left, freed, shrunk, further⟩ := shrinkLoop_shrunk held (Nat.min_le_left _ _)
    have noData := (further bounded.count).1
    rw [Nat.min_self, Nat.sub_self, List.take_zero] at noData
    have isFreed := shrunk.perm
    rw [shrunk.mapped.all_nil noData, List.nil_append] at isFreed
    refine ⟨fun no => ?_, fun no => (shrunk.frees.inodes no).trans (inodes no)⟩
    rw [shrunk.frees.marks, isFreed.mem_iff]
    exact and_congr_left fun _ => marks.others no

/-- A file system, and one of its directories. -/
structure Sound (fs : FileSystem) (parentIno : Nat) (parent : MappedInode) : Prop where
  laid : fs.Laid true
  named : fs.Marked true parentIno
  bounded : ∃ blocks, Bounded fs parent.map blocks
  contents : parent.blocks.length = parent.map.count

/-- The bitmaps, and the entries and the links of the parent, are as before. -/
structure Unchanged (fs : FileSystem) (parent : MappedInode) (after : FileSystem)
    (afterParent : MappedInode) : Prop where
  bitmaps : ∀ inode no, after.Marked inode no ↔ fs.Marked inode no
  entries : afterParent.blocks = parent.blocks
  links : afterParent.links = parent.links

theorem releaseInode_undoes {last : FileSystem} (marks : fs.Marks true ino true mid)
    (known : fs.Known true ino) (fresh : ¬ fs.Marked true ino)
    (isGrown : Grown mid ⟨[], [], []⟩ after map grown added) (takes : Takes after last [])
    (bounded : Bounded last map grown) (inode : Bool) (no : Nat) :
    (releaseInode last ino map).Marked inode no ↔ fs.Marked inode no := by
  have isKnown : last.Known true ino :=
    (((marks.shape.trans isGrown.takes.shape).trans takes.shape).known true ino).mpr known
  obtain ⟨blocksLeft, inodesLeft⟩ := releaseInode_marked bounded isKnown
  cases inode with
  | false =>
    have all : no ∈ grown.all ↔ no ∈ added := isGrown.perm.mem_iff
    rw [blocksLeft, takes.marks, isGrown.takes.marks, all, or_iff_left List.not_mem_nil]
    constructor
    · rintro ⟨was | isAdded, notAdded⟩
      · exact (marks.others no).mp was
      · exact absurd isAdded notAdded
    · intro marked
      have was : mid.Marked false no := (marks.others no).mpr marked
      exact ⟨.inl was, fun isAdded => isGrown.takes.fresh no isAdded was⟩
  | true =>
    rw [inodesLeft, takes.inodes, isGrown.takes.inodes, marks.marked]
    split
    next same =>
      subst same
      simp [fresh]
    next different => simp [different]

theorem Sound.createInode_fails (sound : Sound fs parentIno parent)
    (fits : dirEntrySize + name.length < limits.blockSize) (isDir : Bool)
    (failed : 0 < (createInode limits fs parentIno parent name isDir).1) :
    Unchanged fs parent (createInode limits fs parentIno parent name isDir).2.1
      (createInode limits fs parentIno parent name isDir).2.2.1 := by
  obtain ⟨blocks, bounded⟩ := sound.bounded
  rw [createInode] at failed ⊢
  split at failed
  next => exact ⟨fun _ _ => Iff.rfl, rfl, rfl⟩
  next mid ino allocated =>
    obtain ⟨known, fresh, marks⟩ :=
      FileSystem.groupBitmapAlloc_some sound.laid (.inr sound.named.1) allocated
    have large : inodeBlocks < mid.blocksPerBlock := marks.shape.perBlock ▸ bounded.held.large
    have start : Bounded mid (MappedInode.fresh isDir).map ⟨[], [], []⟩ :=
      .empty (marks.shape.laid false bounded.held.laid) large
    have parentStart := bounded.of_marks marks
    obtain ⟨grown, added, isGrown⟩ : ∃ grown added, Lengthened mid ⟨[], [], []⟩
        (if isDir then addMappedDots limits mid (.fresh isDir) ino parentIno
          else (0, mid, .fresh isDir)).2.1
        (if isDir then addMappedDots limits mid (.fresh isDir) ino parentIno
          else (0, mid, .fresh isDir)).2.2.map grown added := by
      split
      next => exact addMappedDots_lengthened start limits ino parentIno
      next => exact ⟨_, [], start.stays⟩
    generalize (if isDir then addMappedDots limits mid (.fresh isDir) ino parentIno
      else (0, mid, MappedInode.fresh isDir)) = dots at failed isGrown ⊢
    obtain ⟨rc, between, node⟩ := dots
    dsimp only at failed isGrown ⊢
    have nodeBounded := isGrown.bounded start.held
    split at failed
    next refused =>
      rw [if_pos refused]
      exact ⟨releaseInode_undoes marks known fresh isGrown.grown (.refl between) nodeBounded,
        rfl, rfl⟩
    next made =>
      rw [if_neg made]
      have handles := isGrown.grown.handles start.held
      have parentBounded := parentStart.other handles fun _ _ => List.not_mem_nil
      split at failed
      next refused =>
        rw [if_pos refused]
        obtain ⟨⟨_, lengthened⟩, same⟩ := addMappedEntry_fails parentBounded fits refused
        have apart : ∀ block ∈ grown.all, block ∉ blocks.all := fun block isNew isOld =>
          isGrown.grown.takes.fresh block (isGrown.grown.perm.mem_iff.mp isNew)
            (parentStart.held.marked block isOld)
        have last := nodeBounded.other (lengthened.grown.handles parentBounded.held) apart
        exact ⟨releaseInode_undoes marks known fresh isGrown.grown lengthened.grown.takes last,
          congrArg Inode.blocks same, congrArg Inode.links same⟩
      next => exact absurd failed (Nat.lt_irrefl 0)

theorem growEntry_overflows (long : ¬ dirEntrySize + name.length < limits.blockSize)
    (fs : FileSystem) (dir : MappedInode) (ino rounds : Nat) :
    0 < (growEntry limits name ino rounds fs dir).1 ∧
      dir.blocks.length ≤ (growEntry limits name ino rounds fs dir).2.2.blocks.length := by
  induction rounds generalizing fs dir with
  | zero => exact ⟨Nat.succ_pos _, Nat.le_refl _⟩
  | succ rounds ih =>
    simp only [growEntry, addToBlock_fresh, if_neg long]
    split
    next refused => exact ⟨refused, Nat.le_refl _⟩
    next =>
      refine ⟨(ih ..).1, Nat.le_trans ?_ (ih ..).2⟩
      rw [List.length_append]
      exact Nat.le_add_right ..

/-- A group of sixteen blocks of 512 bytes, of which the first three are its own, and of four
inodes, of which the first is in use. -/
def rootVolume : FileSystem where
  groupCount := 1
  groupBlocks := 16
  groupInodes := 4
  groups := fun _ =>
    ⟨⟨16, 13, fun _ => 0xfffffff8, fun _ => 0xffffffff⟩, ⟨4, 3, fun _ => 0xe, fun _ => 0xffffffff⟩⟩
  inodesPerBlock := 9
  blocksPerBlock := 128
  tables := fun _ _ => 0

private theorem rootVolume_laid (inode : Bool) : rootVolume.Laid inode where
  some_group := Nat.zero_lt_one
  nonempty _ _ := by cases inode <;> exact Nat.succ_pos _
  bounded _ _ := by cases inode <;> exact Nat.le_refl _
  full group inside := absurd inside (by simp [rootVolume])

def bareRoot : MappedInode := .fresh true

theorem bareRoot_sound : Sound rootVolume rootIno bareRoot where
  laid := rootVolume_laid true
  named := by decide +kernel
  bounded := ⟨_, .empty (rootVolume_laid false) (by decide)⟩
  contents := rfl

theorem addMappedEntry_overflows (long : ¬ dirEntrySize + name.length < limits.blockSize)
    (ino : Nat) (some_rounds : fs.doublyBlocks ≠ 0) (grew : (blockMapGrow fs .empty 1).1 = 0) :
    0 < (addMappedEntry limits fs bareRoot name ino).1 ∧
      (addMappedEntry limits fs bareRoot name ino).2.2.blocks ≠ [] := by
  obtain ⟨rounds, isSucc⟩ := Nat.exists_eq_succ_of_ne_zero some_rounds
  simp only [addMappedEntry, bareRoot, MappedInode.fresh, addToBlocks, isSucc, growEntry, grew,
    Nat.lt_irrefl, if_false, addToBlock_fresh, if_neg long]
  obtain ⟨failed, longer⟩ := growEntry_overflows long (blockMapGrow fs .empty 1).2.1
    ⟨⟨true, 1, [List.replicate limits.blockSize 0xff]⟩, (blockMapGrow fs .empty 1).2.2⟩ ino rounds
  exact ⟨failed, fun none => absurd (none ▸ longer) (by simp)⟩

theorem createInode_overflows (long : ¬ dirEntrySize + name.length < limits.blockSize) :
    0 < (createInode limits rootVolume rootIno bareRoot name false).1 ∧
      (createInode limits rootVolume rootIno bareRoot name false).2.2.1.blocks ≠ [] := by
  have grows : ∀ made ∈ rootVolume.groupBitmapAlloc rootIno true,
      made.1.doublyBlocks ≠ 0 ∧ (blockMapGrow made.1 .empty 1).1 = 0 := by decide +kernel
  cases allocated : rootVolume.groupBitmapAlloc rootIno true with
  | none => exact absurd (congrArg Option.isSome allocated) (by decide +kernel)
  | some made =>
    obtain ⟨mid, ino⟩ := made
    obtain ⟨some_rounds, grew⟩ := grows _ allocated
    have added := addMappedEntry_overflows long ino some_rounds grew
    simp only [createInode, allocated, Bool.false_eq_true, if_false, Nat.lt_irrefl, if_pos added.1]
    exact added

/-- A creation that fails leaves everything as before, in every state, if and only if the
entry of the name fits into a block. -/
theorem createInode_unchanged_iff (limits : DirLimits) (name : List UInt8) :
    (∀ (fs : FileSystem) (parentIno : Nat) (parent : MappedInode) (isDir : Bool),
      Sound fs parentIno parent →
      0 < (createInode limits fs parentIno parent name isDir).1 →
      Unchanged fs parent (createInode limits fs parentIno parent name isDir).2.1
        (createInode limits fs parentIno parent name isDir).2.2.1) ↔
    dirEntrySize + name.length < limits.blockSize := by
  constructor
  · intro unchanged
    by_contra long
    obtain ⟨failed, filled⟩ := createInode_overflows long
    exact filled (unchanged _ _ _ _ bareRoot_sound failed).entries
  · intro fits fs parentIno parent isDir sound failed
    exact sound.createInode_fails fits isDir failed

def sectorBlocks : DirLimits := ⟨512, 512, 4⟩

def rootDirectory : Nat × FileSystem × MappedInode :=
  addMappedEntry sectorBlocks rootVolume bareRoot dotName rootIno

theorem rootDirectory_sound : Sound rootDirectory.2.1 rootIno rootDirectory.2.2 := by
  obtain ⟨blocks, bounded⟩ := bareRoot_sound.bounded
  obtain ⟨grown, added, isGrown⟩ :=
    addMappedEntry_lengthened bounded sectorBlocks dotName rootIno
  exact ⟨isGrown.grown.takes.shape.laid true bareRoot_sound.laid,
    (isGrown.grown.takes.inodes rootIno).mpr bareRoot_sound.named,
    ⟨grown, isGrown.bounded bounded.held⟩, by decide +kernel⟩

def longEntry : Nat × FileSystem × MappedInode × MappedInode :=
  createInode sectorBlocks rootDirectory.2.1 rootIno rootDirectory.2.2 longName false

/-- A name that no block has room for takes all the blocks that there are. -/
theorem longEntry_keepsBlocks :
    Sound rootDirectory.2.1 rootIno rootDirectory.2.2 ∧ 0 < longEntry.1 ∧
      ¬ Unchanged rootDirectory.2.1 rootDirectory.2.2 longEntry.2.1 longEntry.2.2.1 := by
  refine ⟨rootDirectory_sound, by decide +kernel, fun unchanged => ?_⟩
  exact absurd ((unchanged.bitmaps false 16).mp (by decide +kernel)) (by decide +kernel)

end RTContainer.Rfs
