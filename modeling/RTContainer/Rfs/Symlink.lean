import RTContainer.Rfs.BlockFind
import RTContainer.Rfs.InodeCreation

/-! Symbolic links, `rtems_rfs_symlink` and `rtems_rfs_symlink_read`. A short text is kept
in the inode, and a longer one in a block of its own. -/

set_option autoImplicit false

namespace RTContainer.Rfs

def inodeDataNameSize : Nat := 20

/-- The inode of a link. `name` are the bytes of a short text, in the place of the slots. -/
structure LinkInode where
  name : List UInt8
  blockOffset : Nat
  map : BlockMap

/-- `rtems_rfs_symlink`, with a name that ends where its string does, whatever the length that
is given. The block of a long text is not marked as modified. -/
def symlink (limits : DirLimits) (fs : FileSystem) (parentIno : Nat) (parent : MappedInode)
    (name : List UInt8) (_length : Nat) (link : List UInt8) :
    Nat × FileSystem × MappedInode × LinkInode :=
  if limits.blockSize ≤ link.length then (enametoolong, fs, parent, ⟨[], 0, .empty⟩)
  else
    let (rc, fs, parent, node) := createInode limits fs parentIno parent name false
    if 0 < rc then (rc, fs, parent, ⟨[], 0, node.map⟩)
    else if link.length < inodeDataNameSize then
      let bytes := link ++ List.replicate (inodeDataNameSize - link.length) 0
      (0, fs, parent, ⟨bytes, link.length % 2 ^ 16, { node.map with count := 0 }⟩)
    else
      let (rc, fs, map) := blockMapGrow fs node.map 1
      (rc, fs, parent, ⟨[], if 0 < rc then 0 else link.length % 2 ^ 16, map⟩)

/-- `rtems_rfs_symlink_read`, once all modified buffers have been written and no others are
kept: `unread` is what the buffer of a block holds when it is requested without being read.
The result is the text and its length. -/
def symlinkRead (fs : FileSystem) (diskBlocks : Nat) (unread : Nat → List UInt8)
    (node : LinkInode) (size : Nat) : Except Nat (List UInt8 × Nat) :=
  let length := if size < node.blockOffset then size else node.blockOffset
  if node.map.count = 0 then .ok (node.name.take length, length)
  else
    let (rc, _, block) := blockMapFind fs diskBlocks node.map ⟨0, 0, 0⟩
    if 0 < rc then .error rc else .ok ((unread block).take length, length)

/-- The text of a link that has been made is read, and a failure leaves nothing. -/
def SymlinkWorks (limits : DirLimits) (fs : FileSystem) (parentIno : Nat) (parent : MappedInode)
    (name : List UInt8) (length : Nat) (link : List UInt8) : Prop :=
  let made := symlink limits fs parentIno parent name length link
  (made.1 = 0 → ∀ diskBlocks unread size, link.length ≤ size →
    symlinkRead made.2.1 diskBlocks unread made.2.2.2 size = .ok (link, link.length)) ∧
  (0 < made.1 → Unchanged fs parent made.2.1 made.2.2.1)

variable {limits : DirLimits} {fs : FileSystem} {parent : MappedInode} {parentIno length : Nat}
variable {name link : List UInt8}

theorem symlink_refused (long : limits.blockSize ≤ link.length) :
    SymlinkWorks limits fs parentIno parent name length link := by
  simp only [SymlinkWorks, symlink, if_pos long]
  exact ⟨fun made => absurd made (by decide), fun _ => ⟨fun _ _ => Iff.rfl, rfl, rfl⟩⟩

theorem Sound.symlink_short (sound : Sound fs parentIno parent)
    (short : link.length < inodeDataNameSize)
    (fits : dirEntrySize + name.length < limits.blockSize) :
    SymlinkWorks limits fs parentIno parent name length link := by
  by_cases long : limits.blockSize ≤ link.length
  · exact symlink_refused long
  have unchanged := sound.createInode_fails fits false
  simp only [SymlinkWorks, symlink, if_neg long, if_pos short]
  split
  next refused => exact ⟨fun made => absurd (made ▸ refused) (Nat.lt_irrefl 0), unchanged⟩
  next =>
    refine ⟨fun _ diskBlocks unread size enough => ?_, fun failed => absurd failed (Nat.lt_irrefl 0)⟩
    have length : link.length % 2 ^ 16 = link.length := by
      rw [inodeDataNameSize] at short
      omega
    simp only [symlinkRead, length, if_neg (Nat.not_lt.mpr enough), if_true, List.take_left]

theorem symlink_long (long : inodeDataNameSize ≤ link.length)
    (small : link.length < limits.blockSize)
    (fits : dirEntrySize + name.length < limits.blockSize) :
    ¬ SymlinkWorks limits rootVolume rootIno bareRoot name length link := by
  have grows : ∀ made ∈ rootVolume.groupBitmapAlloc rootIno true,
      made.1.doublyBlocks ≠ 0 ∧ (blockMapGrow made.1 .empty 1).1 = 0 ∧
      let text := blockMapGrow (blockMapGrow made.1 .empty 1).2.1 .empty 1
      text.1 = 0 ∧ text.2.2.count ≠ 0 ∧
        (blockMapFind text.2.1 17 text.2.2 ⟨0, 0, 0⟩).1 = 0 := by decide +kernel
  cases allocated : rootVolume.groupBitmapAlloc rootIno true with
  | none => exact absurd (congrArg Option.isSome allocated) (by decide +kernel)
  | some made =>
    obtain ⟨mid, ino⟩ := made
    obtain ⟨some_rounds, entered, written, counted, found⟩ := grows _ allocated
    obtain ⟨rounds, isSucc⟩ := Nat.exists_eq_succ_of_ne_zero some_rounds
    intro works
    simp only [SymlinkWorks, symlink, if_neg (Nat.not_le.mpr small), createInode, allocated,
      Bool.false_eq_true, if_false, Nat.lt_irrefl, addMappedEntry, bareRoot, MappedInode.fresh,
      addToBlocks, isSucc, growEntry, entered, addToBlock_fresh, if_pos fits,
      if_neg (Nat.not_lt.mpr long), written] at works
    cases link with
    | nil => exact absurd long (by decide)
    | cons byte rest =>
      have read := works.1 trivial 17 (fun _ => List.replicate limits.blockSize (byte + 1)) _
        (Nat.le_refl _)
      simp only [symlinkRead, if_neg counted, found, Nat.lt_irrefl, if_false, Except.ok.injEq,
        Prod.mk.injEq] at read
      have member : byte ∈ byte :: rest := List.mem_cons_self
      rw [← read.1] at member
      have same := List.eq_of_mem_replicate (List.mem_of_mem_take member)
      simp at same

theorem symlink_overflows (long : ¬ dirEntrySize + name.length < limits.blockSize)
    (small : link.length < limits.blockSize) :
    ¬ SymlinkWorks limits rootVolume rootIno bareRoot name length link := by
  obtain ⟨failed, filled⟩ := createInode_overflows long
  intro works
  simp only [SymlinkWorks, symlink, if_neg (Nat.not_le.mpr small), if_pos failed] at works
  exact filled (works.2 failed).entries

/-- In every state, if and only if the text is short and the entry of the name fits into a
block, or the text is refused. -/
theorem symlink_works_iff (limits : DirLimits) (name : List UInt8) (length : Nat)
    (link : List UInt8) :
    (∀ (fs : FileSystem) (parentIno : Nat) (parent : MappedInode), Sound fs parentIno parent →
      SymlinkWorks limits fs parentIno parent name length link) ↔
    limits.blockSize ≤ link.length ∨
      link.length < inodeDataNameSize ∧ dirEntrySize + name.length < limits.blockSize := by
  constructor
  · intro works
    have atRoot := works rootVolume rootIno bareRoot bareRoot_sound
    by_contra bad
    rw [not_or, Nat.not_le, not_and] at bad
    by_cases fits : dirEntrySize + name.length < limits.blockSize
    · have long : inodeDataNameSize ≤ link.length := Nat.not_lt.mp fun short => bad.2 short fits
      exact symlink_long long bad.1 fits atRoot
    · exact symlink_overflows fits bad.1 atRoot
  · rintro (refused | ⟨short, fits⟩) fs parentIno parent sound
    · exact symlink_refused refused
    · exact sound.symlink_short short fits

/-- A text of twenty bytes is not in the inode, and its block is not written. -/
theorem longLink_lost :
    Sound rootDirectory.2.1 rootIno rootDirectory.2.2 ∧
      ¬ SymlinkWorks sectorBlocks rootDirectory.2.1 rootIno rootDirectory.2.2 [97] 1
        (List.replicate 20 98) := by
  refine ⟨rootDirectory_sound, fun works => ?_⟩
  have read := works.1 (by decide +kernel) 17 (fun _ => List.replicate 512 0) 20 (by decide)
  exact absurd (congrArg (fun read => read.toOption.map Prod.fst) read) (by decide +kernel)

end RTContainer.Rfs
