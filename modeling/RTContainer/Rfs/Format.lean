import RTContainer.Rfs.GroupAllocation

/-! The format of the RFS, `rtems-rfs-format.c`, and where `rtems_rfs_inode_open` finds an
inode. A size is a natural number; no value of a format goes over its type. -/

set_option autoImplicit false

namespace RTContainer.Rfs

/-- `rtems_rfs_format_config`; a field that is 0 asks for the default. -/
structure FormatConfig where
  blockSize : Nat
  groupBlocks : Nat
  groupInodes : Nat
  inodeOverhead : Nat

structure Media where
  blocks : Nat
  blockSize : Nat

def Media.size (media : Media) : Nat := media.blocks * media.blockSize

/-- What `rtems_rfs_check_config` sets up in the file system. -/
structure Geometry where
  blockSize : Nat
  blocks : Nat
  groupCount : Nat
  groupBlocks : Nat
  groupInodes : Nat
  inodesPerBlock : Nat

def gigs (count : Nat) : Nat := count * 1024 * 1024
def inodeSize : Nat := 56
def inodeOverheadPercentage : Nat := 1

def formatBlockSize (media : Media) (config : FormatConfig) : Nat :=
  if config.blockSize = 0 then
    let size :=
      if gigs 1 ≤ media.size then 2 ^ Nat.log2 ((media.size + gigs 1) / gigs 1 % 2 ^ 32) else 0
    let size := if size < 512 then 512 else size
    if 4 * 1024 < size then 4 * 1024 else size
  else config.blockSize

/-- `rtems_rfs_inodes_from_percent`. -/
def inodesFromPercent (blocks blockSize groupCount percentage : Nat) : Nat :=
  rupQuotient ((blocks - superblockSize) * percentage / 100) groupCount * (blockSize / inodeSize)

/-- `rtems_rfs_check_config`. -/
def checkConfig (media : Media) (config : FormatConfig) : Option Geometry :=
  let blockSize := formatBlockSize media config
  if blockSize % media.blockSize ≠ 0 then none
  else
    let bits := 8 * blockSize
    let groupBlocks := if config.groupBlocks = 0 then bits else config.groupBlocks
    if bits < groupBlocks then none
    else
      let blocks := media.size / blockSize
      let groupCount := rupQuotient blocks bits
      let groupInodes :=
        if config.groupInodes = 0 then
          inodesFromPercent blocks blockSize groupCount
            (if config.inodeOverhead = 0 then inodeOverheadPercentage else config.inodeOverhead)
        else config.groupInodes
      let inodesPerBlock := blockSize / inodeSize
      let groupInodes := rupQuotient groupInodes inodesPerBlock * inodesPerBlock
      some {
        blockSize := blockSize
        blocks := blocks
        groupCount := groupCount
        groupBlocks := groupBlocks
        groupInodes := if bits < groupInodes then bits else groupInodes
        inodesPerBlock := inodesPerBlock }

namespace Geometry

variable (geometry : Geometry)

/-- `rtems_rfs_fs_block`. -/
def fsBlock (group block : Nat) : Nat :=
  geometry.groupBlocks * group + block + 1

/-- The number of blocks of a group, as it is written and opened. -/
def groupSize (group : Nat) : Nat :=
  let base := geometry.fsBlock group 0
  if geometry.blocks ≤ base + geometry.groupBlocks then geometry.blocks - base
  else geometry.groupBlocks

def inodeBlocks : Nat :=
  rupQuotient geometry.groupInodes geometry.inodesPerBlock

/-- The block bitmap that `rtems_rfs_write_group` writes, over a search map with any words. -/
def writtenBitmap (group : Nat) (words : Int → BitVec 32) : Bitmap :=
  let bitmap : Bitmap := ⟨geometry.groupSize group, 0, fun _ => elementClear, words⟩
  (0 :: 1 :: (List.range geometry.inodeBlocks).map (· + groupInodeBlock)).foldl
    (fun bitmap bit => (bitmap.mapSet bit).1) bitmap.mapClearAll

/-- `rtems_rfs_group_open`, of a group that has been written. -/
def openGroup (words : Int → BitVec 32) (group : Nat) : Group where
  blockBitmap := (geometry.writtenBitmap group words).createSearch
  inodeBitmap :=
    (Bitmap.mapClearAll ⟨min geometry.groupInodes (geometry.groupSize group), 0,
      fun _ => elementSet, words⟩).createSearch

/-- The file system that is opened after the format. -/
def fileSystem (words : Int → BitVec 32) (tables : Nat → Nat → Nat) : FileSystem where
  __ := geometry
  groups := geometry.openGroup words
  blocksPerBlock := geometry.blockSize / 4
  tables := tables

/-- `rtems_rfs_group_open` takes every group: the base of none is outside of the disk. -/
def Opens : Prop :=
  ∀ group < geometry.groupCount, geometry.fsBlock group 0 < geometry.blocks

instance (geometry : Geometry) : Decidable geometry.Opens :=
  inferInstanceAs (Decidable (∀ group < _, _))

end Geometry

structure InodePlace where
  group : Nat
  block : Nat
  offset : Nat

namespace FileSystem

/-- Where `rtems_rfs_inode_open` finds an inode. -/
def inodeOpen (fs : FileSystem) (ino : Nat) : Except Nat InodePlace :=
  if ino = 0 then .error einval
  else if fs.groupCount * fs.groupInodes < ino - rootIno then .error einval
  else
    let gino := ino - rootIno
    let group := gino / fs.groupInodes
    let gino := gino % fs.groupInodes
    let index := gino / fs.inodesPerBlock + groupInodeBlock
    .ok ⟨group, fs.groupNumber false group index, gino % fs.inodesPerBlock⟩

def InGroup (fs : FileSystem) (place : InodePlace) : Prop :=
  place.offset < fs.inodesPerBlock ∧ ∃ index < rupQuotient fs.groupInodes fs.inodesPerBlock,
    place.block = fs.groupNumber false place.group (index + groupInodeBlock) ∧
      index + groupInodeBlock < (fs.bitmap false place.group).size

def GroupCall.ForBlocks (state : GroupState) : GroupCall → Prop
  | .alloc goal inode => inode = false ∧ (goal = 0 ∨ state.fs.Known false goal)
  | .free inode no => inode = false ∧ state.used false no = true
  | .test _ _ => True

def GroupCall.NotHandedOut (block : Nat) (state : GroupState) : GroupCall → Prop
  | .alloc goal inode => ∀ after no,
      state.fs.groupBitmapAlloc goal inode = some (after, no) → no ≠ block
  | _ => True

def NeverHandedOut (fs : FileSystem) (block : Nat) : Prop :=
  ∀ calls, Machine.Meets GroupState.step GroupCall.ForBlocks ⟨fs, fun _ _ => false⟩ calls →
    Machine.Meets GroupState.step (GroupCall.NotHandedOut block) ⟨fs, fun _ _ => false⟩ calls

/-- An inode is in an inode block of its own group, no other one is in its place, and its
block is never handed out. -/
def Addressed (fs : FileSystem) (ino : Nat) : Prop :=
  ∃ place, fs.inodeOpen ino = .ok place ∧ place.group < fs.groupCount ∧ fs.InGroup place ∧
    (∀ other otherPlace, other ≤ fs.groupCount * fs.groupInodes →
      fs.inodeOpen other = .ok otherPlace → otherPlace.block = place.block →
        otherPlace.offset = place.offset → other = ino) ∧
    fs.NeverHandedOut place.block

variable {fs : FileSystem} {ino no : Nat} {place : InodePlace}

structure Reserved (block : Nat) (state : GroupState) : Prop where
  laid : state.fs.Laid false
  marked : state.fs.Marked false block
  notUsed : state.used false block = false
  known : ∀ no, state.used false no = true → state.fs.Known false no

theorem Reserved.step {block : Nat} {state : GroupState} {call : GroupCall}
    (reserved : Reserved block state) (given : call.ForBlocks state) :
    Reserved block (state.step call) ∧ call.NotHandedOut block state := by
  have noted : ∀ (no : Nat) (value : Bool) (after : FileSystem), no ≠ block →
      state.fs.Known false no → state.fs.Marks false no value after →
      Reserved block (state.note false no value after) := by
    intro no value after different known marks
    refine ⟨marks.shape.laid false reserved.laid, ?_, ?_, fun other used => ?_⟩
    · rw [GroupState.note, marks.marked, if_neg different.symm]
      exact reserved.marked
    · simpa [GroupState.note, different.symm] using reserved.notUsed
    · refine (marks.shape.known false other).mpr ?_
      by_cases same : other = no
      · exact same ▸ known
      · exact reserved.known other (by simpa [GroupState.note, same] using used)
  cases call with
  | alloc goal inode =>
    obtain ⟨rfl, goalKnown⟩ := given
    have found : ∀ after no, state.fs.groupBitmapAlloc goal false = some (after, no) →
        no ≠ block := by
      intro after no allocated same
      exact (groupBitmapAlloc_some reserved.laid goalKnown allocated).2.1 (same ▸ reserved.marked)
    refine ⟨?_, found⟩
    rw [GroupState.step]
    cases result : state.fs.groupBitmapAlloc goal false with
    | none => exact reserved
    | some allocated =>
      obtain ⟨known, -, marks⟩ := groupBitmapAlloc_some reserved.laid goalKnown result
      exact noted _ true _ (found _ _ result) known marks
  | free inode no =>
    obtain ⟨rfl, used⟩ := given
    have known := reserved.known no used
    have different : no ≠ block := by
      rintro rfl
      rw [reserved.notUsed] at used
      cases used
    obtain ⟨after, freed, marks⟩ := groupBitmapFree_known known
    rw [GroupState.step, freed]
    exact ⟨noted no false after different known marks, trivial⟩
  | test inode no => exact ⟨reserved, trivial⟩

theorem neverHandedOut_of_marked (laid : fs.Laid false) (marked : fs.Marked false no) :
    fs.NeverHandedOut no := by
  intro calls given
  have start : Reserved no ⟨fs, fun _ _ => false⟩ := ⟨laid, marked, rfl, nofun⟩
  exact Machine.meets_of_preserved (Reserved no) start
    (fun state call reserved given => (reserved.step given).1)
    (fun state call reserved given => (reserved.step given).2) given

theorem inodeOpen_ok (positive : 0 < fs.groupInodes) (opened : fs.inodeOpen ino = .ok place) :
    1 ≤ ino ∧ place.group = (ino - 1) / fs.groupInodes ∧
      (place.group < fs.groupCount ↔ ino ≤ fs.groupCount * fs.groupInodes) ∧
      place.block = fs.groupNumber false place.group
        ((ino - 1) % fs.groupInodes / fs.inodesPerBlock + groupInodeBlock) ∧
      place.offset = (ino - 1) % fs.groupInodes % fs.inodesPerBlock := by
  rw [inodeOpen] at opened
  split at opened
  next => cases opened
  next some_ino =>
    split at opened
    next => cases opened
    next =>
      cases opened
      refine ⟨Nat.pos_of_ne_zero some_ino, rfl, ?_, rfl, rfl⟩
      rw [Nat.div_lt_iff_lt_mul positive, rootIno]
      omega

theorem addressed_of_fits (laid : fs.Laid false) (positive : 0 < fs.groupInodes)
    (perBlock : 0 < fs.inodesPerBlock)
    (fits : ∀ group < fs.groupCount, groupInodeBlock +
      rupQuotient fs.groupInodes fs.inodesPerBlock ≤ (fs.bitmap false group).size)
    (marked : ∀ group < fs.groupCount,
      ∀ index < rupQuotient fs.groupInodes fs.inodesPerBlock,
        fs.Marked false (fs.groupNumber false group (index + groupInodeBlock)))
    (some_ino : 1 ≤ ino) (inside : ino ≤ fs.groupCount * fs.groupInodes) : fs.Addressed ino := by
  have opens : ∃ place, fs.inodeOpen ino = .ok place := by
    rw [inodeOpen, if_neg (by omega), if_neg (by rw [rootIno]; omega)]
    exact ⟨_, rfl⟩
  obtain ⟨place, opened⟩ := opens
  have index : ∀ number, (number - 1) % fs.groupInodes / fs.inodesPerBlock <
      rupQuotient fs.groupInodes fs.inodesPerBlock := by
    intro number
    rw [rupQuotient, if_neg (Nat.pos_iff_ne_zero.mp positive)]
    have below := Nat.mod_lt (number - 1) positive
    exact Nat.lt_succ_of_le (Nat.div_le_div_right (by omega))
  obtain ⟨-, isGroup, groupInside, isBlock, isOffset⟩ := inodeOpen_ok positive opened
  have groupInside := groupInside.mpr inside
  have spec : ∀ number place, number ≤ fs.groupCount * fs.groupInodes →
      fs.inodeOpen number = .ok place →
      (place.block - 1) / fs.groupSize false = (number - 1) / fs.groupInodes ∧
        (place.block - 1) % fs.groupSize false =
          (number - 1) % fs.groupInodes / fs.inodesPerBlock + groupInodeBlock := by
    intro number place below opened
    obtain ⟨-, isGroup, groupInside, isBlock, -⟩ := inodeOpen_ok positive opened
    have groupInside := groupInside.mpr below
    have := fits place.group groupInside
    have := index number
    obtain ⟨quotient, remainder, -⟩ := groupNumber_spec laid groupInside
      (show (number - 1) % fs.groupInodes / fs.inodesPerBlock + groupInodeBlock <
        (fs.bitmap false place.group).size by omega)
    rw [isBlock, quotient, remainder, isGroup]
    exact ⟨rfl, rfl⟩
  refine ⟨place, opened, groupInside, ⟨?_, _, index ino, isBlock, ?_⟩, ?_, ?_⟩
  · rw [isOffset]
    exact Nat.mod_lt _ perBlock
  · have := fits place.group groupInside
    have := index ino
    omega
  · intro other otherPlace below otherOpened sameBlock sameOffset
    obtain ⟨otherSome, -, -, -, otherOffset⟩ := inodeOpen_ok positive otherOpened
    obtain ⟨quotient, remainder⟩ := spec ino place inside opened
    obtain ⟨otherQuotient, otherRemainder⟩ := spec other otherPlace below otherOpened
    rw [sameBlock, quotient] at otherQuotient
    rw [sameBlock, remainder, Nat.add_right_cancel_iff] at otherRemainder
    rw [otherOffset, isOffset] at sameOffset
    have sameIndex := (Nat.div_add_mod ((other - 1) % fs.groupInodes) fs.inodesPerBlock).symm
    rw [← otherRemainder, sameOffset, Nat.div_add_mod] at sameIndex
    have sameNumber := (Nat.div_add_mod (other - 1) fs.groupInodes).symm
    rw [← otherQuotient, sameIndex, Nat.div_add_mod] at sameNumber
    omega
  · rw [isBlock]
    exact neverHandedOut_of_marked laid (marked place.group groupInside _ (index ino))

end FileSystem

theorem mapSets_isSet (bits : List Nat) (bitmap : Bitmap) :
    (bits.foldl (fun bitmap bit => (bitmap.mapSet bit).1) bitmap).size = bitmap.size ∧
      ∀ bit < bitmap.size, bit ∈ bits ∨ bitmap.isSet bit = true →
        (bits.foldl (fun bitmap bit => (bitmap.mapSet bit).1) bitmap).isSet bit = true := by
  induction bits generalizing bitmap with
  | nil => exact ⟨rfl, fun bit _ given => given.resolve_left List.not_mem_nil⟩
  | cons first rest ih =>
    obtain ⟨size, isSet⟩ := ih (bitmap.mapSet first).1
    have step : (bitmap.mapSet first).1.size = bitmap.size ∧ ∀ bit < bitmap.size,
        bit = first ∨ bitmap.isSet bit = true → (bitmap.mapSet first).1.isSet bit = true := by
      by_cases inside : first < bitmap.size
      · rw [Bitmap.mapSet_eq bitmap inside]
        dsimp only
        split
        next already =>
          exact ⟨rfl, fun bit _ given => given.elim (fun same => same ▸ already) id⟩
        next =>
          have sets : bitmap.Sets first true (bitmap.takeBit first) := Bitmap.takeBit_sets
          refine ⟨sets.size, fun bit _ given => ?_⟩
          rw [sets.isSet]
          split
          next => rfl
          next different => exact given.resolve_left different
      · rw [Bitmap.mapSet, if_pos (Nat.le_of_not_lt inside)]
        exact ⟨rfl, fun bit below given =>
          given.resolve_left fun same => inside (same ▸ below)⟩
    refine ⟨size.trans step.1, fun bit below given => isSet bit (step.1 ▸ below) ?_⟩
    rcases given with member | already
    · rcases List.mem_cons.mp member with same | later
      · exact .inr (step.2 bit below (.inl same))
      · exact .inl later
    · exact .inr (step.2 bit below (.inr already))

namespace Geometry

variable {geometry : Geometry} {words : Int → BitVec 32} {tables : Nat → Nat → Nat}

theorem fileSystem_size (group : Nat) :
    ((geometry.fileSystem words tables).bitmap false group).size = geometry.groupSize group :=
  (Bitmap.createSearchLoop_counts ..).1.trans (mapSets_isSet ..).1

theorem fileSystem_isSet {group bit : Nat} (inside : bit < geometry.groupSize group)
    (reserved : bit < groupInodeBlock + geometry.inodeBlocks) :
    ((geometry.fileSystem words tables).bitmap false group).isSet bit = true := by
  have opened : ∀ bitmap : Bitmap, bitmap.createSearch.isSet bit = bitmap.isSet bit := by
    intro bitmap
    rw [Bitmap.isSet, Bitmap.createSearch, (Bitmap.createSearchLoop_counts ..).2.1]
    rfl
  refine (opened _).trans ((mapSets_isSet _ _).2 bit inside (.inl ?_))
  rcases bit with _ | _ | bit
  · exact List.mem_cons_self
  · exact List.mem_cons_of_mem _ List.mem_cons_self
  · refine List.mem_cons_of_mem _ (List.mem_cons_of_mem _ (List.mem_map.mpr ⟨bit, ?_, rfl⟩))
    rw [groupInodeBlock] at reserved
    exact List.mem_range.mpr (by omega)

theorem Opens.laid (opens : geometry.Opens) (some_group : 0 < geometry.groupCount)
    (positive : 0 < geometry.groupBlocks) :
    (geometry.fileSystem words tables).Laid false where
  some_group := some_group
  nonempty group inside := by
    have base := opens group inside
    rw [fileSystem_size, groupSize]
    split <;> omega
  bounded group _ := by
    rw [fileSystem_size, groupSize]
    change _ ≤ geometry.groupBlocks
    split <;> omega
  full group inside := by
    have next := opens (group + 1) inside
    rw [fileSystem_size, groupSize]
    change _ = geometry.groupBlocks
    rw [fsBlock] at next ⊢
    rw [Nat.mul_succ] at next
    rw [if_neg (by omega)]

end Geometry

private theorem rupQuotient_pos (dividend divisor : Nat) : 0 < rupQuotient dividend divisor := by
  rw [rupQuotient]
  split <;> exact Nat.succ_pos _

theorem checkConfig_positive {media : Media} {config : FormatConfig} {geometry : Geometry}
    (accepted : checkConfig media config = some geometry)
    (large : inodeSize ≤ geometry.blockSize) :
    0 < geometry.groupCount ∧ 0 < geometry.groupBlocks ∧ 0 < geometry.groupInodes ∧
      0 < geometry.inodesPerBlock := by
  simp only [checkConfig, Option.ite_none_left_eq_some, Option.some.injEq] at accepted
  obtain ⟨-, -, rfl⟩ := accepted
  have perBlock : 0 < formatBlockSize media config / inodeSize := Nat.div_pos large (by decide)
  have some_bytes : 0 < formatBlockSize media config := Nat.lt_of_lt_of_le (by decide) large
  refine ⟨rupQuotient_pos .., ?_, ?_, perBlock⟩
  · dsimp only
    split <;> omega
  · dsimp only
    generalize (if config.groupInodes = 0 then _ else config.groupInodes) = inodes
    split
    next => omega
    next => exact Nat.mul_pos (rupQuotient_pos ..) perBlock

theorem checkConfig_inodesPerBlock {media : Media} {config : FormatConfig} {geometry : Geometry}
    (accepted : checkConfig media config = some geometry) :
    geometry.inodesPerBlock = geometry.blockSize / inodeSize := by
  simp only [checkConfig, Option.ite_none_left_eq_some, Option.some.injEq] at accepted
  obtain ⟨-, -, rfl⟩ := accepted
  rfl

theorem addressed_iff_of_large {media : Media} {config : FormatConfig}
    {geometry : Geometry} {words : Int → BitVec 32} {tables : Nat → Nat → Nat}
    (accepted : checkConfig media config = some geometry)
    (large : inodeSize ≤ geometry.blockSize) (opens : geometry.Opens) :
    let fs := geometry.fileSystem words tables
    (∀ ino place, fs.inodeOpen ino = .ok place →
      (place.group < fs.groupCount ↔ ino ≤ geometry.groupCount * geometry.groupInodes)) ∧
    ((∀ ino place, fs.inodeOpen ino = .ok place →
        ino ≤ geometry.groupCount * geometry.groupInodes → fs.Addressed ino) ↔
      ∀ group < geometry.groupCount,
        groupInodeBlock + geometry.inodeBlocks ≤ geometry.groupSize group) := by
  obtain ⟨some_group, groupBlocks, positive, perBlock⟩ := checkConfig_positive accepted large
  have laid := @Geometry.Opens.laid geometry words tables opens some_group groupBlocks
  refine ⟨fun ino place opened => (FileSystem.inodeOpen_ok positive opened).2.2.1, ?_, ?_⟩
  · intro addressed group inside
    -- the last inode of a group is in the last of its inode blocks
    have number : geometry.groupInodes * group + geometry.groupInodes ≤
        geometry.groupCount * geometry.groupInodes := by
      rw [← Nat.mul_succ, Nat.mul_comm]
      exact Nat.mul_le_mul_right _ inside
    have opened : ∃ place, (geometry.fileSystem words tables).inodeOpen
        (geometry.groupInodes * group + geometry.groupInodes) = .ok place := by
      rw [FileSystem.inodeOpen, if_neg (by omega)]
      change ∃ place, (if geometry.groupCount * geometry.groupInodes < _ then _ else _) = _
      rw [if_neg (by rw [rootIno]; omega)]
      exact ⟨_, rfl⟩
    obtain ⟨place, opened⟩ := opened
    obtain ⟨found, isFound, -, ⟨-, index, below, isBlock, fits⟩, -⟩ :=
      addressed _ place opened number
    obtain rfl : place = found := by simpa [opened] using isFound
    obtain ⟨-, isGroup, -, ownBlock, -⟩ := FileSystem.inodeOpen_ok positive opened
    have number : geometry.groupInodes * group + geometry.groupInodes - 1 =
        geometry.groupInodes * group + (geometry.groupInodes - 1) := by omega
    have below : geometry.groupInodes - 1 < geometry.groupInodes := by omega
    change place.group = (_ - 1) / geometry.groupInodes at isGroup
    change place.block = FileSystem.groupNumber _ false place.group
      ((_ - 1) % geometry.groupInodes / geometry.inodesPerBlock + groupInodeBlock) at ownBlock
    rw [number, Nat.mul_add_div positive, Nat.div_eq_of_lt below, Nat.add_zero] at isGroup
    rw [number, Nat.mul_add_mod, Nat.mod_eq_of_lt below, isBlock] at ownBlock
    rw [isGroup, Geometry.fileSystem_size] at fits
    simp only [FileSystem.groupNumber, Bool.false_eq_true, if_false] at ownBlock
    rw [Geometry.inodeBlocks, rupQuotient, if_neg (Nat.pos_iff_ne_zero.mp positive)]
    omega
  · intro fits ino place opened below
    obtain ⟨some_ino, -⟩ := FileSystem.inodeOpen_ok positive opened
    refine FileSystem.addressed_of_fits laid positive perBlock (fun group inside => ?_)
      (fun group inside index indexInside => ?_) some_ino below
    · rw [Geometry.fileSystem_size]
      exact fits group inside
    · have within : index + groupInodeBlock < geometry.groupSize group := by
        have := fits group inside
        change index < geometry.inodeBlocks at indexInside
        omega
      obtain ⟨quotient, remainder, known⟩ := FileSystem.groupNumber_spec laid inside
        (show index + groupInodeBlock <
          ((geometry.fileSystem words tables).bitmap false group).size by
            rw [Geometry.fileSystem_size]; exact within)
      refine ⟨known, ?_⟩
      rw [FileSystem.bitOf, quotient, remainder]
      refine Geometry.fileSystem_isSet within ?_
      change index < geometry.inodeBlocks at indexInside
      omega

/-- The group of a number is one of the file system for all numbers that are accepted but
the last. No division by the inodes of a block is one by zero, and each of these numbers has
a place of its own in its group that is never handed out as a data block, if and only if a
block has room for an inode and the inode blocks fit into every group. -/
theorem inodeOpen_addressed_iff (media : Media) (config : FormatConfig) (geometry : Geometry)
    (words : Int → BitVec 32) (tables : Nat → Nat → Nat)
    (accepted : checkConfig media config = some geometry) (opens : geometry.Opens) :
    let fs := geometry.fileSystem words tables
    (inodeSize ≤ geometry.blockSize → ∀ ino place, fs.inodeOpen ino = .ok place →
      (place.group < fs.groupCount ↔ ino ≤ geometry.groupCount * geometry.groupInodes)) ∧
    ((geometry.inodesPerBlock ≠ 0 ∧ ∀ ino place, fs.inodeOpen ino = .ok place →
        ino ≤ geometry.groupCount * geometry.groupInodes → fs.Addressed ino) ↔
      inodeSize ≤ geometry.blockSize ∧ ∀ group < geometry.groupCount,
        groupInodeBlock + geometry.inodeBlocks ≤ geometry.groupSize group) := by
  have room : geometry.inodesPerBlock ≠ 0 ↔ inodeSize ≤ geometry.blockSize := by
    rw [checkConfig_inodesPerBlock accepted, Nat.div_ne_zero_iff]
    exact and_iff_right (by decide)
  refine ⟨fun large => (addressed_iff_of_large accepted large opens).1, ?_⟩
  rw [room]
  exact and_congr_right fun large => (addressed_iff_of_large accepted large opens).2

/-- A disk of a hundred blocks, with all defaults. -/
def hundredBlocks : Geometry :=
  (checkConfig ⟨100, 512⟩ ⟨0, 0, 0, 0⟩).getD ⟨0, 0, 0, 0, 0, 0⟩

theorem hundredBlocks_addressed :
    let fs := hundredBlocks.fileSystem (fun _ => 0) fun _ _ => 0
    (56 ≤ 512 → ∀ ino place, fs.inodeOpen ino = .ok place →
      (place.group < fs.groupCount ↔ ino ≤ 1 * 9)) ∧
    ((9 ≠ 0 ∧ ∀ ino place, fs.inodeOpen ino = .ok place → ino ≤ 1 * 9 → fs.Addressed ino) ↔
      56 ≤ 512 ∧ ∀ group < 1, groupInodeBlock + 1 ≤ hundredBlocks.groupSize group) :=
  inodeOpen_addressed_iff ⟨100, 512⟩ ⟨0, 0, 0, 0⟩ hundredBlocks (fun _ => 0) (fun _ _ => 0) rfl
    (by decide)

/-- The number behind the last is accepted, and its group is behind the last group. -/
theorem hundredBlocks_notAddressed :
    let fs := hundredBlocks.fileSystem (fun _ => 0) fun _ _ => 0
    ¬ ∀ ino place, fs.inodeOpen ino = .ok place → place.group < fs.groupCount :=
  fun inside => absurd (inside 10 _ rfl) (by decide)

-- groups of four blocks are accepted for five blocks of inodes
example : (checkConfig ⟨100, 512⟩ ⟨512, 4, 45, 0⟩).map (fun geometry =>
    (groupInodeBlock + geometry.inodeBlocks, geometry.groupSize 0)) = some (7, 4) := by decide

end RTContainer.Rfs
