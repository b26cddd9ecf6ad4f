import RTContainer.Lib.Run
import RTContainer.Rfs.BlockShrinkage

/-! Block ownership. In every run on any number of maps, the blocks that are marked are
those that belong to the groups and those that one map refers to, once. -/

set_option autoImplicit false

namespace RTContainer.Rfs

open FileSystem (SameShape)
open Function

/-- The block of an index, as `rtems_rfs_block_map_find` finds it. -/
def blockAt (fs : FileSystem) (map : BlockMap) (bno : Nat) : Nat :=
  if map.count ≤ inodeBlocks then map.blocks bno
  else
    let direct := bno % fs.blocksPerBlock
    let singly := bno / fs.blocksPerBlock
    if map.count ≤ fs.singlyBlocks then fs.tables (map.blocks singly) direct
    else
      let doubly := singly / fs.blocksPerBlock
      fs.tables (fs.tables (map.blocks doubly) (singly % fs.blocksPerBlock)) direct

def tableCount (fs : FileSystem) (entries : Nat) : Nat :=
  (entries + fs.blocksPerBlock - 1) / fs.blocksPerBlock

def tableBlocks (fs : FileSystem) (map : BlockMap) : List Nat :=
  let singly := tableCount fs map.count
  if map.count ≤ inodeBlocks then []
  else if map.count ≤ fs.singlyBlocks then (List.range singly).map map.blocks
  else
    (List.range singly).map (fun table =>
      fs.tables (map.blocks (table / fs.blocksPerBlock)) (table % fs.blocksPerBlock)) ++
    (List.range (tableCount fs singly)).map map.blocks

def references (fs : FileSystem) (map : BlockMap) : List Nat :=
  (List.range map.count).map (blockAt fs map) ++ tableBlocks fs map

variable {fs after : FileSystem} {map next : BlockMap} {blocks left : MapBlocks}

theorem Mapped.references (large : inodeBlocks < fs.blocksPerBlock) (mapped : Mapped fs map blocks) :
    references fs map = blocks.all := by
  rw [Rfs.references, MapBlocks.all, List.append_assoc]
  have levels : inodeBlocks < fs.singlyBlocks := by
    simp only [FileSystem.singlyBlocks, inodeBlocks] at large ⊢
    omega
  cases mapped with
  | @direct data count short slots =>
    have few : map.count ≤ inodeBlocks := count ▸ short
    have isBlock : blockAt fs map = map.blocks := by
      funext bno
      rw [blockAt, if_pos few]
    rw [isBlock, tableBlocks, if_pos few, count, slots.map_range]
    rfl
  | @singly data singly count long fits paged slots =>
    have many : ¬ map.count ≤ inodeBlocks := by omega
    have isSingly : map.count ≤ fs.singlyBlocks := count ▸ fits
    have isBlock : blockAt fs map = fun bno =>
        fs.tables (map.blocks (bno / fs.blocksPerBlock)) (bno % fs.blocksPerBlock) := by
      funext bno
      rw [blockAt, if_neg many, if_pos isSingly]
    have tables : tableCount fs map.count = singly.length := by
      rw [tableCount, count, paged.length_pages_up]
    rw [isBlock, tableBlocks, if_neg many, if_pos isSingly, tables, count,
      (paged.tabulates slots).map_range, slots.map_range, List.append_nil]
  | @doubly data singly doubly count long paged outer slots =>
    have many : ¬ map.count ≤ inodeBlocks := by omega
    have notSingly : ¬ map.count ≤ fs.singlyBlocks := by omega
    have isBlock : blockAt fs map = fun bno =>
        fs.tables (fs.tables (map.blocks (bno / fs.blocksPerBlock / fs.blocksPerBlock))
          (bno / fs.blocksPerBlock % fs.blocksPerBlock)) (bno % fs.blocksPerBlock) := by
      funext bno
      rw [blockAt, if_neg many, if_neg notSingly]
    have tables : tableCount fs map.count = singly.length := by
      rw [tableCount, count, paged.length_pages_up]
    have tablesOfTables : tableCount fs singly.length = doubly.length := by
      rw [tableCount, outer.length_pages_up]
    have listed := outer.tabulates slots
    rw [isBlock, tableBlocks, if_neg many, if_neg notSingly, tables, tablesOfTables, count,
      (paged.tabulates listed).map_range, listed.map_range, slots.map_range]

/-- What a call on a map does to the blocks. It gives back only blocks of the map, takes
only blocks that were free, and writes to no table of another map. -/
structure Handles (fs : FileSystem) (blocks : MapBlocks) (after : FileSystem) (next : BlockMap)
    (left : MapBlocks) : Prop where
  held : Held after next left
  shape : SameShape fs after
  fresh : ∀ block ∈ left.all, block ∉ blocks.all → ¬ fs.Marked false block
  freed : ∀ block ∈ blocks.all, block ∉ left.all → ¬ after.Marked false block
  others : ∀ block, block ∉ blocks.all → block ∉ left.all →
    (after.Marked false block ↔ fs.Marked false block)
  frame : ∀ other, fs.Marked false other → other ∉ blocks.all → after.tables other = fs.tables other

theorem Grown.handles {added : List Nat} (held : Held fs map blocks)
    (growth : Grown fs blocks after next left added) : Handles fs blocks after next left where
  held := growth.held held
  shape := growth.takes.shape
  fresh block member absent := by
    rcases List.mem_append.mp (growth.perm.mem_iff.mp member) with inUse | late
    · exact absurd inUse absent
    · exact growth.takes.fresh block late
  freed block member absent :=
    absurd (growth.perm.mem_iff.mpr (List.mem_append_left _ member)) absent
  others block _ absent := by
    have notAdded : block ∉ added := fun late =>
      absent (growth.perm.mem_iff.mpr (List.mem_append_right _ late))
    rw [growth.takes.marks, or_iff_left notAdded]
  frame := growth.frame

theorem Shrunk.handles {freed : List Nat} (held : Held fs map blocks)
    (shrinks : Shrunk fs blocks after next left freed) : Handles fs blocks after next left where
  held := shrinks.held held
  shape := shrinks.frees.shape
  fresh block member absent :=
    absurd (shrinks.perm.mem_iff.mpr (List.mem_append_left _ member)) absent
  freed block member absent := by
    rcases List.mem_append.mp (shrinks.perm.mem_iff.mp member) with kept | isFreed
    · exact absurd kept absent
    · rw [shrinks.frees.marks]
      exact fun marked => marked.2 isFreed
  others block absent _ := by
    have notFreed : block ∉ freed := fun isFreed =>
      absent (shrinks.perm.mem_iff.mpr (List.mem_append_right _ isFreed))
    rw [shrinks.frees.marks, and_iff_left notFreed]
  frame other _ _ := by rw [shrinks.frees.tables]

theorem Handles.other {other : BlockMap} {otherBlocks : MapBlocks}
    (handles : Handles fs blocks after next left) (held : Held fs other otherBlocks)
    (apart : ∀ block ∈ otherBlocks.all, block ∉ blocks.all) : Held after other otherBlocks where
  __ := handles.held
  mapped := by
    refine held.mapped.congr handles.shape.perBlock (fun table member => ?_) rfl rfl
    exact handles.frame table (held.marked table member) (apart table member)
  mapGoal := handles.shape.goal held.mapGoal
  dataGoal := handles.shape.goal held.dataGoal
  nodup := held.nodup
  marked block member := by
    have marked := held.marked block member
    have notLeft : block ∉ left.all := fun isLeft =>
      handles.fresh block isLeft (apart block member) marked
    exact (handles.others block (apart block member) notLeft).mpr marked

structure Volume (Map : Type) where
  fs : FileSystem
  maps : Map → BlockMap

inductive MapCall (Map : Type) where
  | grow (map : Map) (blocks : Nat)
  | shrink (map : Map) (blocks : Nat)
  | freeAll (map : Map)

variable {Map : Type} [DecidableEq Map]

namespace Volume

def update (volume : Volume Map) (map : Map) (result : Nat × FileSystem × BlockMap) :
    Volume Map where
  fs := result.2.1
  maps := Function.update volume.maps map result.2.2

def step (volume : Volume Map) : MapCall Map → Volume Map
  | .grow map blocks => volume.update map (blockMapGrow volume.fs (volume.maps map) blocks)
  | .shrink map blocks => volume.update map (blockMapShrink volume.fs (volume.maps map) blocks)
  | .freeAll map => volume.update map (blockMapFreeAll volume.fs (volume.maps map))

/-- A block is marked exactly when it belongs to its group or one map refers to it, and
no block is referred to in any other way. -/
structure Owned (volume : Volume Map) : Prop where
  marked : ∀ block, volume.fs.Marked false block ↔ volume.fs.Fixed block ∨
    ∃ map, (references volume.fs (volume.maps map)).count block = 1 ∧
      ∀ other, other ≠ map → block ∉ references volume.fs (volume.maps other)
  referenced : ∀ map, ∀ block ∈ references volume.fs (volume.maps map),
    ¬ volume.fs.Fixed block ∧ (references volume.fs (volume.maps map)).count block = 1 ∧
      ∀ other, other ≠ map → block ∉ references volume.fs (volume.maps other)

/-- The blocks of the maps, which are apart from each other and from the fixed ones. -/
structure Holds (volume : Volume Map) (contents : Map → MapBlocks) : Prop where
  held : ∀ map, Held volume.fs (volume.maps map) (contents map)
  apart : ∀ map other, other ≠ map → ∀ block ∈ (contents map).all, block ∉ (contents other).all
  fixed : ∀ block, volume.fs.Fixed block → volume.fs.Marked false block ∧
    ∀ map, block ∉ (contents map).all
  owned : ∀ block, volume.fs.Marked false block →
    volume.fs.Fixed block ∨ ∃ map, block ∈ (contents map).all

variable {volume : Volume Map} {contents : Map → MapBlocks}

omit [DecidableEq Map] in
theorem Holds.isOwned (holds : volume.Holds contents) : volume.Owned := by
  have listed : ∀ map, references volume.fs (volume.maps map) = (contents map).all :=
    fun map => (holds.held map).mapped.references (holds.held map).large
  have once : ∀ map, ∀ block ∈ (contents map).all, (contents map).all.count block = 1 ∧
      ∀ other, other ≠ map → block ∉ (contents other).all := by
    intro map block member
    exact ⟨List.count_eq_one_of_mem (holds.held map).nodup member,
      fun other different => holds.apart map other different block member⟩
  constructor
  · intro block
    simp only [listed]
    constructor
    · intro marked
      rcases holds.owned block marked with fixed | ⟨map, member⟩
      · exact .inl fixed
      · exact .inr ⟨map, once map block member⟩
    · rintro (fixed | ⟨map, count, -⟩)
      · exact (holds.fixed block fixed).1
      · exact (holds.held map).marked block (List.count_pos_iff.mp (by omega))
  · intro map block member
    simp only [listed] at member ⊢
    exact ⟨fun fixed => (holds.fixed block fixed).2 map member, once map block member⟩

theorem Holds.update (holds : volume.Holds contents) {map : Map}
    {result : Nat × FileSystem × BlockMap}
    (handles : Handles volume.fs (contents map) result.2.1 result.2.2 left) :
    (volume.update map result).Holds (Function.update contents map left) := by
  have fresh : ∀ other, other ≠ map → ∀ block ∈ (contents other).all, block ∉ left.all := by
    intro other different block member isLeft
    have notOwn := holds.apart other map different.symm block member
    exact handles.fresh block isLeft notOwn ((holds.held other).marked block member)
  constructor
  · intro other
    rcases eq_or_ne other map with rfl | different
    · simp only [Volume.update, update_self]
      exact handles.held
    · simp only [Volume.update, update_of_ne different]
      exact handles.other (holds.held other) (holds.apart other map different.symm)
  · intro first second different block member
    rcases eq_or_ne first map with rfl | notFirst
    · rw [update_of_ne different]
      rw [update_self] at member
      exact fun inOther => fresh second different block inOther member
    · rw [update_of_ne notFirst] at member
      rcases eq_or_ne second map with rfl | notSecond
      · rw [update_self]
        exact fresh first notFirst block member
      · rw [update_of_ne notSecond]
        exact holds.apart first second different block member
  · intro block fixed
    have wasFixed : volume.fs.Fixed block := (handles.shape.fixed block).mp fixed
    obtain ⟨marked, absent⟩ := holds.fixed block wasFixed
    have notLeft : block ∉ left.all := fun isLeft =>
      handles.fresh block isLeft (absent map) marked
    refine ⟨(handles.others block (absent map) notLeft).mpr marked, fun other => ?_⟩
    rcases eq_or_ne other map with rfl | different
    · rw [update_self]
      exact notLeft
    · rw [update_of_ne different]
      exact absent other
  · intro block marked
    by_cases isLeft : block ∈ left.all
    · exact .inr ⟨map, by rwa [update_self]⟩
    have notOwn : block ∉ (contents map).all := fun member =>
      handles.freed block member isLeft marked
    have wasMarked := (handles.others block notOwn isLeft).mp marked
    rcases holds.owned block wasMarked with fixed | ⟨other, member⟩
    · exact .inl ((handles.shape.fixed block).mpr fixed)
    · have different : other ≠ map := fun same => notOwn (same ▸ member)
      exact .inr ⟨other, by rwa [update_of_ne different]⟩

theorem Holds.step (holds : volume.Holds contents) (call : MapCall Map) :
    ∃ next, (volume.step call).Holds next := by
  cases call with
  | grow map blocks =>
    obtain ⟨left, added, grown⟩ := blockMapGrow_grown (holds.held map) blocks
    exact ⟨_, holds.update (grown.handles (holds.held map))⟩
  | shrink map blocks =>
    obtain ⟨left, freed, shrunk⟩ := blockMapShrink_shrunk (holds.held map) blocks
    exact ⟨_, holds.update (shrunk.handles (holds.held map))⟩
  | freeAll map =>
    obtain ⟨left, freed, shrunk⟩ :=
      blockMapShrink_shrunk (holds.held map) (volume.maps map).count
    exact ⟨_, holds.update (shrunk.handles (holds.held map))⟩

/-- A file system as it has been formatted. An inode fits into a block, so that a block
has more numbers than an inode. -/
structure Formatted (fs : FileSystem) : Prop where
  laid : fs.Laid false
  large : inodeBlocks < fs.blocksPerBlock
  marked : ∀ block, fs.Marked false block ↔ fs.Fixed block

omit [DecidableEq Map] in
theorem Formatted.holds (formatted : Formatted fs) :
    Holds (⟨fs, fun _ => .empty⟩ : Volume Map) fun _ => ⟨[], [], []⟩ where
  held _ := .empty formatted.laid formatted.large
  apart _ _ _ _ member := absurd member List.not_mem_nil
  fixed block fixed := ⟨(formatted.marked block).mpr fixed, fun _ => List.not_mem_nil⟩
  owned block marked := .inl ((formatted.marked block).mp marked)

/-- A group of sixteen blocks, of which the first three are its own. -/
def smallVolume : FileSystem where
  groupCount := 1
  groupBlocks := 16
  groupInodes := 1
  groups := fun _ =>
    ⟨⟨16, 13, fun _ => 0xfffffff8, fun _ => 0xffffffff⟩, ⟨1, 1, fun _ => 1, fun _ => 0xffffffff⟩⟩
  inodesPerBlock := 1
  blocksPerBlock := 14
  tables := fun _ _ => 0

theorem smallVolume_formatted : Formatted smallVolume where
  laid :=
    { some_group := Nat.zero_lt_one
      nonempty := fun _ _ => Nat.succ_pos 15
      bounded := fun _ _ => Nat.le_refl 16
      full := fun group inside => absurd inside (by simp [smallVolume]) }
  large := by decide
  marked block := by
    refine and_congr_right fun known => ?_
    have below : (block - 1) % 16 < 16 := Nat.mod_lt _ (by decide)
    have bits : ∀ bit < 16, bitmapTest 0xfffffff8 (bit % 32) = true ↔ bit < 3 := by decide
    exact bits _ below

end Volume

end RTContainer.Rfs
