import RTContainer.Rfs.Bitmap
import Mathlib.Data.Bool.Basic

/-! The groups of the RFS, `rtems-rfs-group.c`. The blocks that follow the
superblock are divided into groups, as are the inodes; each group has a bitmap for
its blocks and one for its inodes. -/

set_option autoImplicit false

namespace RTContainer.Rfs

def enospc : Nat := 28
def rootIno : Nat := 1
def superblockSize : Nat := 1
def groupInodeBlock : Nat := 2

structure Group where
  blockBitmap : Bitmap
  inodeBitmap : Bitmap

/-- What `rtems_rfs_file_system` holds about its groups, and the numbers in the
blocks that are used as tables of blocks. -/
structure FileSystem where
  groupCount : Nat
  groupBlocks : Nat
  groupInodes : Nat
  groups : Nat → Group
  inodesPerBlock : Nat
  blocksPerBlock : Nat
  tables : Nat → Nat → Nat

def rupQuotient (dividend divisor : Nat) : Nat :=
  if dividend = 0 then 1 else (dividend - 1) / divisor + 1

namespace FileSystem

variable (fs : FileSystem) (inode : Bool)

/-- The number of blocks, or of inodes, by which the groups are told apart. -/
def groupSize : Nat :=
  if inode then fs.groupInodes else fs.groupBlocks

def bitmap (group : Nat) : Bitmap :=
  if inode then (fs.groups group).inodeBitmap else (fs.groups group).blockBitmap

def setBitmap (group : Nat) (bitmap : Bitmap) : FileSystem :=
  { fs with
    groups := Function.update fs.groups group <|
      if inode then { fs.groups group with inodeBitmap := bitmap }
      else { fs.groups group with blockBitmap := bitmap } }

/-- `rtems_rfs_group_block` and `rtems_rfs_group_inode`. The first block of the
first group is the one after the superblock. -/
def groupNumber (group bit : Nat) : Nat :=
  if inode then fs.groupInodes * group + bit + rootIno
  else fs.groupBlocks * group + superblockSize + bit

def groupAt (start offset : Nat) (up : Bool) : Option Nat :=
  if up then if start + offset < fs.groupCount then some (start + offset) else none
  else if offset ≤ start ∧ start - offset < fs.groupCount then some (start - offset) else none

theorem groupAt_some {fs : FileSystem} {start offset group : Nat} {up : Bool}
    (found : fs.groupAt start offset up = some group) :
    group < fs.groupCount ∧ offset < fs.groupCount + start + 1 ∧
      if up then group = start + offset else group + offset = start := by
  cases up <;> simp only [groupAt, Bool.false_eq_true, if_true, if_false] at found ⊢ <;>
    split at found <;> simp at found <;> omega

/-- The loop of `rtems_rfs_group_bitmap_alloc`: the groups on either side of the
first, and from one end on those of the other side. -/
def scanGroups (fs : FileSystem) (inode : Bool)
    (start seed offset : Nat) (updown up : Bool) : Option (FileSystem × Nat) :=
  match _inside : fs.groupAt start offset up with
  | none => if updown then fs.scanGroups inode start seed offset false (!up) else none
  | some group =>
    let bit := if offset = 0 then seed else if up then 0 else fs.groupSize inode - 1
    match (fs.bitmap inode group).mapAlloc bit with
    | some (bitmap, found) =>
      some (fs.setBitmap inode group bitmap, fs.groupNumber inode group found)
    | none =>
      if updown && !up then fs.scanGroups inode start seed offset true true
      else fs.scanGroups inode start seed (offset + 1) updown (!updown && up)
termination_by 2 * (fs.groupCount + start + 1 - offset) + 2 * updown.toNat + (!up).toNat
decreasing_by
  · rename_i both
    subst both
    have := Bool.toNat_le (!(!up))
    simp only [Bool.toNat_true, Bool.toNat_false]
    omega
  · rename_i down
    obtain ⟨rfl, rfl⟩ : updown = true ∧ up = false := by simpa using down
    simp
  · have bound := (groupAt_some _inside).2.1
    have := Bool.toNat_le (!(!updown && up))
    omega

def groupBitmapAlloc (goal : Nat) (inode : Bool) : Option (FileSystem × Nat) :=
  let goal := if inode ∨ rootIno ≤ goal then goal - rootIno else goal
  fs.scanGroups inode (goal / fs.groupSize inode) (goal % fs.groupSize inode) 0 true true

def groupBitmapFree (no : Nat) : FileSystem × Nat :=
  let index := no - if inode then rootIno else superblockSize
  let group := index / fs.groupSize inode
  let bit := index % fs.groupSize inode
  let (bitmap, rc) := (fs.bitmap inode group).mapClear bit
  (fs.setBitmap inode group bitmap, rc)

end FileSystem

end RTContainer.Rfs

/-! Allocation marks a number that was free, and freeing clears its mark. The
goal of a search has to be a number of the file system, or none. -/

namespace RTContainer.Rfs

namespace FileSystem

/-- Only the last group may be short. -/
structure Laid (fs : FileSystem) (inode : Bool) : Prop where
  some_group : 0 < fs.groupCount
  nonempty : ∀ group < fs.groupCount, 0 < (fs.bitmap inode group).size
  bounded : ∀ group < fs.groupCount, (fs.bitmap inode group).size ≤ fs.groupSize inode
  full : ∀ group, group + 1 < fs.groupCount → (fs.bitmap inode group).size = fs.groupSize inode

/-- The number is that of a bit of a group. -/
def Known (fs : FileSystem) (inode : Bool) (no : Nat) : Prop :=
  1 ≤ no ∧ (no - 1) / fs.groupSize inode < fs.groupCount ∧
    (no - 1) % fs.groupSize inode < (fs.bitmap inode ((no - 1) / fs.groupSize inode)).size

def bitOf (fs : FileSystem) (inode : Bool) (no : Nat) : Bool :=
  (fs.bitmap inode ((no - 1) / fs.groupSize inode)).isSet ((no - 1) % fs.groupSize inode)

/-- The number is marked as allocated. -/
def Marked (fs : FileSystem) (inode : Bool) (no : Nat) : Prop :=
  fs.Known inode no ∧ fs.bitOf inode no = true

instance (fs : FileSystem) (inode : Bool) (no : Nat) : Decidable (fs.Known inode no) :=
  inferInstanceAs (Decidable (_ ∧ _ ∧ _))

instance (fs : FileSystem) (inode : Bool) (no : Nat) : Decidable (fs.Marked inode no) :=
  inferInstanceAs (Decidable (_ ∧ _))

/-- The blocks of a group that are its own: the two bitmaps and, behind them, its inodes. -/
def Fixed (fs : FileSystem) (no : Nat) : Prop :=
  fs.Known false no ∧ (no - superblockSize) % fs.groupBlocks <
    groupInodeBlock + rupQuotient fs.groupInodes fs.inodesPerBlock

structure SameShape (fs after : FileSystem) : Prop where
  perBlock : after.blocksPerBlock = fs.blocksPerBlock
  known : ∀ inode no, after.Known inode no ↔ fs.Known inode no
  fixed : ∀ no, after.Fixed no ↔ fs.Fixed no
  laid : ∀ inode, fs.Laid inode → after.Laid inode

structure Marks (fs : FileSystem) (inode : Bool) (no : Nat) (value : Bool) (after : FileSystem) :
    Prop where
  marked : ∀ other, after.Marked inode other ↔
    if other = no then value = true else fs.Marked inode other
  others : ∀ other, after.Marked (!inode) other ↔ fs.Marked (!inode) other
  shape : SameShape fs after
  tables : after.tables = fs.tables

variable {fs mid after : FileSystem} {inode value : Bool} {group bit no other : Nat}

theorem SameShape.refl (fs : FileSystem) : SameShape fs fs :=
  ⟨rfl, fun _ _ => Iff.rfl, fun _ => Iff.rfl, fun _ => id⟩

theorem SameShape.trans (first : SameShape fs mid) (second : SameShape mid after) :
    SameShape fs after where
  perBlock := second.perBlock.trans first.perBlock
  known inode no := (second.known inode no).trans (first.known inode no)
  fixed no := (second.fixed no).trans (first.fixed no)
  laid inode := second.laid inode ∘ first.laid inode

theorem SameShape.tables (fs : FileSystem) (tables : Nat → Nat → Nat) :
    SameShape fs { fs with tables } :=
  ⟨rfl, fun _ _ => Iff.rfl, fun _ => Iff.rfl, fun _ laid => ⟨laid.1, laid.2, laid.3, laid.4⟩⟩

@[simp] theorem setBitmap_groupSize (fs : FileSystem) (inode kind : Bool) (group : Nat)
    (bitmap : Bitmap) : (fs.setBitmap inode group bitmap).groupSize kind = fs.groupSize kind := rfl

@[simp] theorem setBitmap_groupCount (fs : FileSystem) (inode : Bool) (group : Nat)
    (bitmap : Bitmap) : (fs.setBitmap inode group bitmap).groupCount = fs.groupCount := rfl

theorem setBitmap_bitmap (fs : FileSystem) (inode kind : Bool) (group other : Nat)
    (bitmap : Bitmap) : (fs.setBitmap inode group bitmap).bitmap kind other =
      if kind = inode ∧ other = group then bitmap else fs.bitmap kind other := by
  rcases eq_or_ne other group with same | different
  · cases inode <;> cases kind <;> simp [FileSystem.bitmap, setBitmap, same]
  · cases inode <;> cases kind <;> simp [FileSystem.bitmap, setBitmap, different]

theorem setBitmap_marked {kind : Bool} {bitmap : Bitmap} (different : kind ≠ inode) (no : Nat) :
    (fs.setBitmap inode group bitmap).Marked kind no ↔ fs.Marked kind no := by
  simp [Marked, Known, bitOf, setBitmap_bitmap, different]

theorem setBitmap_shape {bitmap : Bitmap} (size : bitmap.size = (fs.bitmap inode group).size) :
    SameShape fs (fs.setBitmap inode group bitmap) := by
  have sizes : ∀ kind other, ((fs.setBitmap inode group bitmap).bitmap kind other).size =
      (fs.bitmap kind other).size := by
    intro kind other
    rw [setBitmap_bitmap]
    split
    next same => rw [size, same.1, same.2]
    next => rfl
  have known : ∀ kind no, (fs.setBitmap inode group bitmap).Known kind no ↔ fs.Known kind no := by
    intro kind no
    simp only [Known, sizes, setBitmap_groupSize, setBitmap_groupCount]
  refine ⟨rfl, known, fun no => ?_, fun kind laid => ⟨laid.some_group, ?_, ?_, ?_⟩⟩
  · exact and_congr_left fun _ => known false no
  · simpa only [sizes, setBitmap_groupSize, setBitmap_groupCount] using laid.nonempty
  · simpa only [sizes, setBitmap_groupSize, setBitmap_groupCount] using laid.bounded
  · simpa only [sizes, setBitmap_groupSize, setBitmap_groupCount] using laid.full

theorem Laid.groupSize_pos (laid : fs.Laid inode) : 0 < fs.groupSize inode :=
  Nat.lt_of_lt_of_le (laid.nonempty 0 laid.some_group) (laid.bounded 0 laid.some_group)

theorem setBitmap_marks {bitmap : Bitmap} (known : fs.Known inode no)
    (sets : (fs.bitmap inode ((no - 1) / fs.groupSize inode)).Sets
      ((no - 1) % fs.groupSize inode) value bitmap) :
    fs.Marks inode no value (fs.setBitmap inode ((no - 1) / fs.groupSize inode) bitmap) := by
  have shape := setBitmap_shape sets.size
  refine ⟨fun other => ?_, setBitmap_marked (Bool.not_ne_self inode), shape, rfl⟩
  rw [Marked, shape.known]
  rcases eq_or_ne other no with rfl | different
  · rw [if_pos rfl, bitOf, setBitmap_groupSize, setBitmap_bitmap, if_pos ⟨rfl, rfl⟩, sets.isSet,
      if_pos rfl]
    exact and_iff_right known
  · rw [if_neg different]
    refine and_congr_right fun otherKnown => ?_
    rw [bitOf, setBitmap_groupSize, setBitmap_bitmap]
    split
    next sameGroup =>
      have differentBit : (other - 1) % fs.groupSize inode ≠ (no - 1) % fs.groupSize inode := by
        intro sameBit
        have left := Nat.div_add_mod (other - 1) (fs.groupSize inode)
        have right := Nat.div_add_mod (no - 1) (fs.groupSize inode)
        rw [sameGroup.2, sameBit] at left
        have := known.1
        have := otherKnown.1
        omega
      rw [sets.isSet, if_neg differentBit, bitOf, sameGroup.2]
    next => rfl

section

variable (laid : fs.Laid inode)
include laid

theorem groupNumber_spec (inside : group < fs.groupCount)
    (bitInside : bit < (fs.bitmap inode group).size) :
    (fs.groupNumber inode group bit - 1) / fs.groupSize inode = group ∧
      (fs.groupNumber inode group bit - 1) % fs.groupSize inode = bit ∧
        fs.Known inode (fs.groupNumber inode group bit) := by
  have bound : bit < fs.groupSize inode := Nat.lt_of_lt_of_le bitInside (laid.bounded group inside)
  have number : fs.groupNumber inode group bit = fs.groupSize inode * group + bit + 1 := by
    cases inode with
    | true => rfl
    | false =>
      simp only [groupNumber, groupSize, superblockSize, Bool.false_eq_true, if_false]
      omega
  have isGroup : (fs.groupNumber inode group bit - 1) / fs.groupSize inode = group := by
    rw [number, Nat.add_sub_cancel, Nat.mul_add_div laid.groupSize_pos, Nat.div_eq_of_lt bound,
      Nat.add_zero]
  have isBit : (fs.groupNumber inode group bit - 1) % fs.groupSize inode = bit := by
    rw [number, Nat.add_sub_cancel, Nat.mul_add_mod, Nat.mod_eq_of_lt bound]
  refine ⟨isGroup, isBit, by omega, ?_, ?_⟩
  · rw [isGroup]
    exact inside
  · rw [isGroup, isBit]
    exact bitInside

/-- The seed of each group is a bit of its bitmap. -/
theorem scan_seed_lt {start seed offset : Nat} {up : Bool}
    (found : fs.groupAt start offset up = some group) (startInside : start < fs.groupCount)
    (seedInside : seed < (fs.bitmap inode start).size) :
    (if offset = 0 then seed else if up then 0 else fs.groupSize inode - 1) <
      (fs.bitmap inode group).size := by
  obtain ⟨inside, -, isGroup⟩ := groupAt_some found
  rcases Nat.eq_zero_or_pos offset with zero | positive
  · have isStart : group = start := by
      rw [zero] at isGroup
      cases up <;> simpa using isGroup
    rw [if_pos zero, isStart]
    exact seedInside
  · rw [if_neg (Nat.pos_iff_ne_zero.mp positive)]
    cases up with
    | true =>
      exact laid.nonempty group inside
    | false =>
      simp only [Bool.false_eq_true, if_false] at isGroup ⊢
      -- a group below the first one is not the last
      have := laid.full group (by omega)
      have := laid.groupSize_pos
      omega

private theorem scanGroups_some {start seed offset : Nat} {updown up : Bool}
    (startInside : start < fs.groupCount) (seedInside : seed < (fs.bitmap inode start).size)
    (allocated : fs.scanGroups inode start seed offset updown up = some (after, no)) :
    fs.Known inode no ∧ ¬ fs.Marked inode no ∧ fs.Marks inode no true after := by
  fun_induction scanGroups fs inode start seed offset updown up with
  | case1 offset up outside ih | case4 offset updown up group found bit absent down ih
  | case5 offset updown up group found bit absent notDown ih => exact ih allocated
  | case2 => exact nomatch allocated
  | case3 offset updown up group found bit bitmap index isFound =>
    obtain ⟨rfl, rfl⟩ : _ ∧ _ := by simpa using allocated
    have allocates := Bitmap.mapAlloc_allocates (scan_seed_lt laid found startInside seedInside) isFound
    have inside := (groupAt_some found).1
    obtain ⟨isGroup, isBit, known⟩ := groupNumber_spec laid inside allocates.inside
    refine ⟨known, ?_, ?_⟩
    · rintro ⟨-, isMarked⟩
      rw [bitOf, isGroup, isBit, allocates.clear] at isMarked
      exact nomatch isMarked
    · have marks := @setBitmap_marks fs inode true _ bitmap known
      rw [isGroup, isBit] at marks
      exact marks allocates.sets

/-- What is allocated was free, and nothing else changes. -/
theorem groupBitmapAlloc_some {goal : Nat} (goalKnown : goal = 0 ∨ fs.Known inode goal)
    (allocated : fs.groupBitmapAlloc goal inode = some (after, no)) :
    fs.Known inode no ∧ ¬ fs.Marked inode no ∧ fs.Marks inode no true after := by
  rw [groupBitmapAlloc] at allocated
  rcases goalKnown with none | ⟨positive, groupInside, bitInside⟩
  · have zero : (if inode = true ∨ rootIno ≤ goal then goal - rootIno else goal) = 0 := by
      rw [none]
      split <;> rfl
    simp only [zero, Nat.zero_div, Nat.zero_mod] at allocated
    exact scanGroups_some laid laid.some_group (laid.nonempty 0 laid.some_group) allocated
  · have index : (if inode = true ∨ rootIno ≤ goal then goal - rootIno else goal) = goal - 1 :=
      if_pos (.inr positive)
    simp only [index] at allocated
    exact scanGroups_some laid groupInside bitInside allocated

end

theorem groupBitmapFree_known (known : fs.Known inode no) :
    ∃ after, fs.groupBitmapFree inode no = (after, 0) ∧ fs.Marks inode no false after := by
  have index : (no - if inode then rootIno else superblockSize) = no - 1 := by cases inode <;> rfl
  obtain ⟨bitmap, cleared, sets⟩ := Bitmap.mapClear_sets known.2.2
  simp only [groupBitmapFree, index, cleared]
  exact ⟨_, rfl, setBitmap_marks known sets⟩

end FileSystem

end RTContainer.Rfs
