import RTContainer.Rfs.Group

/-! Block maps, `rtems-rfs-block.c`. The first few blocks of a map are in slots of
the inode. A longer map has tables of block numbers in the slots, and a map that is
longer still has tables of such tables. -/

set_option autoImplicit false

namespace RTContainer.Rfs

open Function

def enxio : Nat := 6
def efbig : Nat := 27
def inodeBlocks : Nat := 5

structure BlockPos where
  bno : Nat
  boff : Nat
  block : Nat

/-- `rtems_rfs_block_map`. Its size is a number of blocks and an offset. -/
structure BlockMap where
  dirty : Bool
  count : Nat
  offset : Nat
  bpos : BlockPos
  lastMapBlock : Nat
  lastDataBlock : Nat
  blocks : Nat → Nat

namespace FileSystem

def singlyBlocks (fs : FileSystem) : Nat := fs.blocksPerBlock * inodeBlocks

def doublyBlocks (fs : FileSystem) : Nat := fs.blocksPerBlock * fs.blocksPerBlock * inodeBlocks

def setNumber (fs : FileSystem) (table slot no : Nat) : FileSystem :=
  { fs with tables := update fs.tables table (update (fs.tables table) slot no) }

end FileSystem

namespace BlockMap

/-- The map of a new inode. -/
def empty : BlockMap where
  dirty := false
  count := 0
  offset := 0
  bpos := ⟨0, 0, 0⟩
  lastMapBlock := 0
  lastDataBlock := 0
  blocks := fun _ => 0

def setSlot (map : BlockMap) (slot no : Nat) : BlockMap :=
  { map with blocks := update map.blocks slot no }

end BlockMap

/-- A number that no table entry has been given. -/
def noBlock : Nat := 0xffffffff

variable (fs : FileSystem) (map : BlockMap)

/-- `rtems_rfs_block_map_indirect_alloc`: a new table, which takes over the slots of
the inode when the map goes up a level. -/
def blockMapIndirectAlloc (upping : Bool) : Option (FileSystem × BlockMap × Nat) :=
  (fs.groupBitmapAlloc map.lastMapBlock false).map fun (fs, newBlock) =>
    if upping then
      ({ fs with tables := update fs.tables newBlock fun slot =>
          if slot < inodeBlocks then map.blocks slot else noBlock },
        { map with blocks := fun _ => 0, lastMapBlock := newBlock }, newBlock)
    else
      ({ fs with tables := update fs.tables newBlock fun _ => noBlock },
        { map with lastMapBlock := newBlock }, newBlock)

/-- The table for the entry of an index, of those whose numbers are in the slots. It
is a new one for the first entry of a table, and when the entries do not fit into
the slots any more. -/
def growTable (index : Nat) (upping : Bool) : Option (FileSystem × BlockMap × Nat) :=
  let direct := index % fs.blocksPerBlock
  let indirect := index / fs.blocksPerBlock
  if direct = 0 ∨ indirect = 0 ∧ direct = inodeBlocks then
    (blockMapIndirectAlloc fs map upping).map
      fun (fs, map, table) => (fs, map.setSlot indirect table, table)
  else some (fs, map, map.blocks indirect)

def growSingly : Except (FileSystem × BlockMap) (FileSystem × BlockMap × Nat) :=
  match growTable fs map map.count (map.count = inodeBlocks) with
  | none => .error (fs, map)
  | some found => .ok found

/-- The table for the next block, when there are tables of tables. A new one is given
back when there is no table that it can go into. -/
def growDoubly : Except (FileSystem × BlockMap) (FileSystem × BlockMap × Nat) :=
  let direct := map.count % fs.blocksPerBlock
  let doubly := map.count / fs.blocksPerBlock / fs.blocksPerBlock
  let singly := map.count / fs.blocksPerBlock % fs.blocksPerBlock
  if direct = 0 then
    match blockMapIndirectAlloc fs map false with
    | none => .error (fs, map)
    | some (fs, map, singlyBlock) =>
      let outer := growTable fs map (map.count / fs.blocksPerBlock) (map.count = fs.singlyBlocks)
      match outer with
      | none => .error ((fs.groupBitmapFree false singlyBlock).1, map)
      | some (fs, map, outer) => .ok (fs.setNumber outer singly singlyBlock, map, singlyBlock)
  else .ok (fs, map, fs.tables (map.blocks doubly) singly)

/-- One round of the loop of `rtems_rfs_block_map_grow`: a block is allocated, and
given back when there is none for the tables it needs. -/
def growOne : Nat × FileSystem × BlockMap :=
  let grown := fun (map : BlockMap) block =>
    { map with count := map.count + 1, offset := 0, lastDataBlock := block, dirty := true }
  match fs.groupBitmapAlloc map.lastDataBlock false with
  | none => (enospc, fs, map)
  | some (fs, block) =>
    if map.count < inodeBlocks then (0, fs, grown (map.setSlot map.count block) block)
    else
      let table :=
        if map.count < fs.singlyBlocks then growSingly fs map
        else growDoubly fs map
      match table with
      | .error (fs, map) => (enospc, (fs.groupBitmapFree false block).1, map)
      | .ok (fs, map, table) =>
        (0, fs.setNumber table (map.count % fs.blocksPerBlock) block, grown map block)

def growLoop (fs : FileSystem) (map : BlockMap) :
    Nat → Nat × FileSystem × BlockMap
  | 0 => (0, fs, map)
  | blocks + 1 =>
    let (rc, fs, map) := growOne fs map
    if 0 < rc then (rc, fs, map) else growLoop fs map blocks

def blockMapGrow (blocks : Nat) : Nat × FileSystem × BlockMap :=
  if fs.doublyBlocks ≤ map.count + blocks then (efbig, fs, map)
  else growLoop fs map blocks

/-- `rtems_rfs_block_map_indirect_shrink`. The table is that of the buffer. -/
def blockMapIndirectShrink (table indirect index : Nat) : Nat × FileSystem × BlockMap :=
  if index = 0 ∨ indirect = 0 ∧ index = inodeBlocks then
    let blockToFree := map.blocks indirect
    let map :=
      if indirect = 0 ∧ index = inodeBlocks then
        { map with
          blocks := fun slot => if slot < inodeBlocks then fs.tables table slot else map.blocks slot }
      else map.setSlot indirect 0
    let (fs, rc) := fs.groupBitmapFree false blockToFree
    if 0 < rc then (rc, fs, map) else (0, fs, { map with lastMapBlock := blockToFree })
  else (0, fs, map)

def shrinkSingly (block : Nat) : Nat × FileSystem × BlockMap × Nat :=
  let direct := block % fs.blocksPerBlock
  let singly := block / fs.blocksPerBlock
  let table := map.blocks singly
  let blockToFree := fs.tables table direct
  let (rc, fs, map) := blockMapIndirectShrink fs map table singly direct
  (rc, fs, map, blockToFree)

def shrinkDoubly (block : Nat) : Nat × FileSystem × BlockMap × Nat :=
  let direct := block % fs.blocksPerBlock
  let doubly := block / fs.blocksPerBlock / fs.blocksPerBlock
  let doublySingly := block / fs.blocksPerBlock % fs.blocksPerBlock
  let outer := map.blocks doubly
  let singly := fs.tables outer doublySingly
  let blockToFree := fs.tables singly direct
  if direct = 0 then
    let (fs, rc) := fs.groupBitmapFree false singly
    if 0 < rc then (rc, fs, map, blockToFree)
    else
      let (rc, fs, map) :=
        blockMapIndirectShrink fs { map with lastMapBlock := singly } outer doubly doublySingly
      (rc, fs, map, blockToFree)
  else (0, fs, map, blockToFree)

/-- The last block is taken out of the slots or the tables. There is no result where
the code leaves its loop. -/
def takeLast (block : Nat) : Option (Nat × FileSystem × BlockMap × Nat) :=
  if block < inodeBlocks then some (0, fs, map.setSlot block 0, map.blocks block)
  else if block < fs.singlyBlocks then some (shrinkSingly fs map block)
  else if block < fs.doublyBlocks then some (shrinkDoubly fs map block)
  else none

/-- One round of the loop of `rtems_rfs_block_map_shrink`. -/
def shrinkOne : Option (Nat × FileSystem × BlockMap) :=
  (takeLast fs map (map.count - 1)).map fun (rc, fs, map, blockToFree) =>
    if 0 < rc then (rc, fs, map)
    else
      let (fs, rc) := fs.groupBitmapFree false blockToFree
      if 0 < rc then (rc, fs, map)
      else
        (0, fs, { map with
          count := map.count - 1, offset := 0, lastDataBlock := blockToFree, dirty := true })

def keepPosition : BlockMap :=
  let pastEnd := map.bpos.bno ≠ 0 ∧ map.count = 0 ∨ map.count ≤ map.bpos.bno ∨
    map.bpos.bno = map.count - 1 ∧ map.offset < map.bpos.boff
  if pastEnd then
    { map with
      bpos := ⟨if map.offset = 0 then map.count else map.count - 1, map.offset, 0⟩ }
  else map

def shrinkEnd : BlockMap :=
  keepPosition <|
    if map.count = 0 then { map with lastMapBlock := 0, lastDataBlock := 0 } else map

def shrinkLoop (fs : FileSystem) (map : BlockMap) : Nat → Nat × FileSystem × BlockMap
  | 0 => (0, fs, shrinkEnd map)
  | blocks + 1 =>
    match shrinkOne fs map with
    | none => (0, fs, shrinkEnd map)
    | some (rc, fs, map) => if 0 < rc then (rc, fs, map) else shrinkLoop fs map blocks

def blockMapShrink (blocks : Nat) : Nat × FileSystem × BlockMap :=
  if map.count = 0 then (0, fs, map) else shrinkLoop fs map (min blocks map.count)

def blockMapFreeAll : Nat × FileSystem × BlockMap :=
  blockMapShrink fs map map.count

end RTContainer.Rfs
