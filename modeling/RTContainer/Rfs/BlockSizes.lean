import Mathlib.Algebra.Group.Nat.Defs
import RTContainer.Rfs.Block

/-! Positions and sizes in the widths of their types: a position has 64 bits, a block number
and an offset have 32, and a product with the block size is made in a `size_t` unless it is
widened first. -/

set_option autoImplicit false

namespace RTContainer.Rfs

/-- `rtems_rfs_block_size`: an offset of 0 is that of the end of the last block. -/
structure BlockSize where
  count : Nat
  offset : Nat
  deriving DecidableEq

namespace BlockSize

/-- `rtems_rfs_block_size_get_bpos`. -/
def bpos (size : BlockSize) : BlockPos :=
  ⟨if size.offset = 0 then size.count else size.count - 1, size.offset, 0⟩

/-- `rtems_rfs_block_pos_past_end`. -/
def pastEnd (size : BlockSize) (bpos : BlockPos) : Prop :=
  bpos.bno ≠ 0 ∧ size.count = 0 ∨ size.count ≤ bpos.bno ∨
    bpos.bno = size.count - 1 ∧ size.offset < bpos.boff

instance (size : BlockSize) (bpos : BlockPos) : Decidable (size.pastEnd bpos) :=
  inferInstanceAs (Decidable (_ ∨ _ ∨ _))

end BlockSize

/-- The bits of a `size_t`, and the block size, which comes from 32 bits of the superblock. -/
structure BlockGeometry where
  sizeBits : Nat
  blockSize : Nat
  sizeWide : 32 ≤ sizeBits ∧ sizeBits ≤ 64
  positive : 0 < blockSize
  blockFits : blockSize < 2 ^ 32

namespace BlockGeometry

variable (geometry : BlockGeometry)

def blockGetBpos (pos : Nat) (bpos : BlockPos) : BlockPos :=
  { bpos with
    bno := pos / geometry.blockSize % 2 ^ 32
    boff := pos % geometry.blockSize % 2 ^ 32 }

def blockGetPos (bpos : BlockPos) : Nat :=
  (bpos.bno * geometry.blockSize % 2 ^ geometry.sizeBits + bpos.boff) % 2 ^ geometry.sizeBits

def blockGetBlockSize (pos : Nat) : BlockSize :=
  if pos = 0 then ⟨0, 0⟩
  else ⟨(pos / geometry.blockSize + 1) % 2 ^ 32, pos % geometry.blockSize % 2 ^ 32⟩

def blockGetSize (size : BlockSize) : Nat :=
  if size.count = 0 then 0
  else
    let offset := if size.offset = 0 then geometry.blockSize % 2 ^ 32 else size.offset
    ((size.count - 1) * geometry.blockSize + offset) % 2 ^ 64

/-- A map has fewer blocks than its tables have entries, and a block number has 32 bits. -/
def largestFile : Nat :=
  min (2 ^ 32) (geometry.blockSize / 4 * (geometry.blockSize / 4) * inodeBlocks) *
    geometry.blockSize

structure SizeOk (size : BlockSize) : Prop where
  count : size.count < 2 ^ 32
  offset : size.offset < geometry.blockSize
  empty : size.count = 0 → size.offset = 0

structure PosOk (bpos : BlockPos) : Prop where
  bno : bpos.bno < 2 ^ 32
  boff : bpos.boff < geometry.blockSize

variable {geometry} {pos : Nat} {size : BlockSize} {bpos : BlockPos}

private theorem blockGetBpos_bno (small : pos / geometry.blockSize < 2 ^ 32) (start : BlockPos) :
    (geometry.blockGetBpos pos start).bno = pos / geometry.blockSize :=
  Nat.mod_eq_of_lt small

theorem blockGetBpos_boff (pos : Nat) (start : BlockPos) :
    (geometry.blockGetBpos pos start).boff = pos % geometry.blockSize :=
  Nat.mod_eq_of_lt (Nat.lt_trans (Nat.mod_lt _ geometry.positive) geometry.blockFits)

theorem count_mul_le (geometry : BlockGeometry) {count : Nat} (small : count < 2 ^ 32) :
    count * geometry.blockSize ≤ (2 ^ 32 - 1) * (2 ^ 32 - 1) :=
  Nat.mul_le_mul (by omega) (by have := geometry.blockFits; omega)

section

variable (ok : geometry.SizeOk size)
include ok

theorem blockGetSize_of_offset (partly : size.offset ≠ 0) :
    geometry.blockGetSize size = (size.count - 1) * geometry.blockSize + size.offset := by
  have some : size.count ≠ 0 := fun zero => partly (ok.empty zero)
  have product := geometry.count_mul_le (Nat.lt_of_le_of_lt (Nat.sub_le size.count 1) ok.count)
  have offset := Nat.lt_trans ok.offset geometry.blockFits
  rw [blockGetSize, if_neg some]
  dsimp only
  rw [if_neg partly, Nat.mod_eq_of_lt (by omega)]

theorem blockGetSize_full (full : size.offset = 0) :
    geometry.blockGetSize size = size.count * geometry.blockSize := by
  have product := geometry.count_mul_le ok.count
  have block := geometry.blockFits
  unfold blockGetSize
  split
  next zero => rw [zero, Nat.zero_mul]
  next some =>
    dsimp only
    obtain ⟨before, count⟩ := Nat.exists_eq_succ_of_ne_zero some
    rw [count] at product ⊢
    rw [Nat.mod_eq_of_lt block, Nat.succ_sub_one, ← Nat.succ_mul, Nat.mod_eq_of_lt (by omega)]

theorem blockGetSize_le : geometry.blockGetSize size ≤ size.count * geometry.blockSize := by
  by_cases full : size.offset = 0
  · exact Nat.le_of_eq (blockGetSize_full ok full)
  · have some : size.count ≠ 0 := fun zero => full (ok.empty zero)
    obtain ⟨before, count⟩ := Nat.exists_eq_succ_of_ne_zero some
    have offset := ok.offset
    rw [blockGetSize_of_offset ok full, count, Nat.succ_sub_one, Nat.succ_mul]
    omega

end

/-- The last block of a size is partly filled in one encoding of an exact multiple and missing
in the other; a count of more than 32 bits is cut. -/
theorem blockGetSize_blockGetBlockSize (pos : Nat) :
    geometry.blockGetSize (geometry.blockGetBlockSize pos) = pos ↔
      pos = 0 ∨ pos % geometry.blockSize ≠ 0 ∧ pos / geometry.blockSize + 1 < 2 ^ 32 := by
  have less := Nat.mod_lt pos geometry.positive
  have block := geometry.blockFits
  have position := Nat.div_add_mod' pos geometry.blockSize
  unfold blockGetBlockSize
  split
  next zero =>
    rw [zero]
    exact iff_of_true rfl (.inl rfl)
  next nonzero =>
    rw [or_iff_right nonzero, Nat.mod_eq_of_lt (Nat.lt_trans less block)]
    rcases Nat.lt_or_ge (pos / geometry.blockSize + 1) (2 ^ 32) with small | large
    · rw [Nat.mod_eq_of_lt small, and_iff_left small]
      have ok : geometry.SizeOk ⟨pos / geometry.blockSize + 1, pos % geometry.blockSize⟩ :=
        ⟨small, less, fun zero => absurd zero (Nat.succ_ne_zero _)⟩
      by_cases full : pos % geometry.blockSize = 0
      · rw [blockGetSize_full ok full, Nat.succ_mul]
        have positive := geometry.positive
        omega
      · rw [blockGetSize_of_offset ok full, Nat.add_sub_cancel, position]
        exact iff_of_true rfl full
    · refine iff_of_false (fun same => ?_) fun both => Nat.not_le_of_lt both.2 large
      rcases Nat.eq_or_lt_of_le large with all | more
      · rw [← all, Nat.mod_self, blockGetSize, if_pos rfl] at same
        exact nonzero same.symm
      · -- What is left of the count is that of a smaller size.
        have cut := Nat.mod_lt (pos / geometry.blockSize + 1) (Nat.two_pow_pos 32)
        generalize (pos / geometry.blockSize + 1) % 2 ^ 32 = count at same cut
        have fewer := Nat.mul_lt_mul_of_pos_right cut geometry.positive
        have least := Nat.mul_le_mul_right geometry.blockSize (Nat.le_of_lt_succ more)
        by_cases none : count = 0
        · rw [none, blockGetSize, if_pos rfl] at same
          exact nonzero same.symm
        · have ok : geometry.SizeOk ⟨count, pos % geometry.blockSize⟩ :=
            ⟨cut, less, fun zero => absurd zero none⟩
          have most := blockGetSize_le ok
          dsimp only at most
          omega

theorem blockGetPos_blockGetBpos (held : pos < geometry.largestFile) (start : BlockPos) :
    geometry.blockGetPos (geometry.blockGetBpos pos start) = pos ↔ pos < 2 ^ geometry.sizeBits := by
  have small : pos / geometry.blockSize < 2 ^ 32 :=
    (Nat.div_lt_iff_lt_mul geometry.positive).mpr
      (Nat.lt_of_lt_of_le held (Nat.mul_le_mul_right _ (Nat.min_le_left ..)))
  rw [blockGetPos, blockGetBpos_bno small, blockGetBpos_boff, Nat.mod_add_mod, Nat.div_add_mod']
  exact ⟨fun same => same ▸ Nat.mod_lt _ (Nat.two_pow_pos _), Nat.mod_eq_of_lt⟩

theorem blockSizeGetBpos_eq (ok : geometry.SizeOk size) :
    size.bpos = geometry.blockGetBpos (geometry.blockGetSize size) ⟨0, 0, 0⟩ := by
  have count := ok.count
  have offset := Nat.lt_trans ok.offset geometry.blockFits
  unfold BlockSize.bpos blockGetBpos
  by_cases full : size.offset = 0
  · rw [blockGetSize_full ok full, Nat.mul_div_cancel _ geometry.positive, Nat.mul_mod_left,
      if_pos full, full, Nat.mod_eq_of_lt count, Nat.zero_mod]
  · rw [blockGetSize_of_offset ok full, Nat.mul_add_mod', if_neg full,
      Nat.mod_eq_of_lt ok.offset, Nat.mod_eq_of_lt offset, Nat.mul_comm,
      Nat.mul_add_div geometry.positive, Nat.div_eq_of_lt ok.offset, Nat.add_zero,
      Nat.mod_eq_of_lt (by omega)]

theorem pastEnd_iff (ok : geometry.SizeOk size) (posOk : geometry.PosOk bpos) :
    (size.pastEnd bpos ↔ geometry.blockGetSize size <
        bpos.bno * geometry.blockSize + bpos.boff ∨ size.count ≤ bpos.bno) ↔
      ¬ (size.offset = 0 ∧ bpos.bno + 1 = size.count ∧ bpos.boff ≠ 0) := by
  have boff := posOk.boff
  have offset := ok.offset
  unfold BlockSize.pastEnd
  rcases Nat.lt_or_ge bpos.bno size.count with inside | outside
  · rcases Nat.lt_or_ge (bpos.bno + 1) size.count with before | last
    · have blocks := Nat.mul_le_mul_right geometry.blockSize (Nat.le_sub_one_of_lt before)
      have all := Nat.mul_le_mul_right geometry.blockSize (Nat.le_of_lt before)
      rw [Nat.succ_mul] at blocks all
      have within : ¬ geometry.blockGetSize size < bpos.bno * geometry.blockSize + bpos.boff := by
        by_cases full : size.offset = 0
        · rw [blockGetSize_full ok full]
          omega
        · rw [blockGetSize_of_offset ok full]
          omega
      omega
    · have count : size.count = bpos.bno + 1 := by omega
      by_cases full : size.offset = 0
      · rw [blockGetSize_full ok full, count, Nat.succ_mul]
        omega
      · rw [blockGetSize_of_offset ok full, count, Nat.add_sub_cancel]
        omega
  · omega

structure SizeArithmetic (geometry : BlockGeometry) (bytes pos : Nat) (size : BlockSize)
    (bpos : BlockPos) : Prop where
  getSize : geometry.blockGetSize (geometry.blockGetBlockSize bytes) = bytes
  getPos : ∀ start, geometry.blockGetPos (geometry.blockGetBpos pos start) = pos
  sizeBpos : size.bpos = geometry.blockGetBpos (geometry.blockGetSize size) ⟨0, 0, 0⟩
  pastEnd : size.pastEnd bpos ↔ geometry.blockGetSize size <
    bpos.bno * geometry.blockSize + bpos.boff ∨ size.count ≤ bpos.bno

structure ExactRange (geometry : BlockGeometry) (bytes pos : Nat) (size : BlockSize)
    (bpos : BlockPos) : Prop where
  bytes : bytes = 0 ∨ bytes % geometry.blockSize ≠ 0 ∧ bytes / geometry.blockSize + 1 < 2 ^ 32
  pos : pos < 2 ^ geometry.sizeBits
  notFull : ¬ (size.offset = 0 ∧ bpos.bno + 1 = size.count ∧ bpos.boff ≠ 0)

theorem sizeArithmetic_iff (bytes : Nat) (held : pos < geometry.largestFile)
    (ok : geometry.SizeOk size) (posOk : geometry.PosOk bpos) :
    SizeArithmetic geometry bytes pos size bpos ↔ ExactRange geometry bytes pos size bpos := by
  constructor
  · intro exactly
    exact ⟨(blockGetSize_blockGetBlockSize bytes).mp exactly.getSize,
      (blockGetPos_blockGetBpos held bpos).mp (exactly.getPos bpos),
      (pastEnd_iff ok posOk).mp exactly.pastEnd⟩
  · intro range
    exact ⟨(blockGetSize_blockGetBlockSize bytes).mpr range.bytes,
      fun start => (blockGetPos_blockGetBpos held start).mpr range.pos,
      blockSizeGetBpos_eq ok, (pastEnd_iff ok posOk).mpr range.notFull⟩

def smallBlocks : BlockGeometry where
  sizeBits := 32
  blockSize := 512
  sizeWide := by decide
  positive := by decide
  blockFits := by decide

theorem smallBlocks_sizeArithmetic :
    SizeArithmetic smallBlocks 1000 41000000 ⟨2, 488⟩ ⟨1, 489, 0⟩ :=
  (sizeArithmetic_iff 1000 (by decide) ⟨by decide, by decide, by decide⟩
    ⟨by decide, by decide⟩).mpr ⟨by decide, by decide, by decide⟩

/-- The size of one full block comes back as two blocks. -/
theorem oneBlock_doubled :
    ¬ ∀ (geometry : BlockGeometry) (bytes : Nat),
      geometry.blockGetSize (geometry.blockGetBlockSize bytes) = bytes := by
  intro claimed
  exact absurd (claimed smallBlocks 512) (by decide)

end BlockGeometry

end RTContainer.Rfs
