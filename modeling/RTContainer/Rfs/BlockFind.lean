import RTContainer.Rfs.BlockOwnership

/-! A block map is the list of the data blocks that it has grown by and not been shrunk
by since: `rtems_rfs_block_map_find` finds the blocks of the list, also by the position
that the map keeps. -/

set_option autoImplicit false

namespace RTContainer.Rfs

/-- `rtems_rfs_block_find_indirect`, on a disk of so many blocks. It returns 0 for a number
that is none of the disk too. -/
def findIndirect (fs : FileSystem) (diskBlocks table offset : Nat) : Nat × Nat :=
  let result := fs.tables table offset
  let result := if result = noBlock then 0 else result
  (0, if diskBlocks ≤ result then 0 else result)

/-- `rtems_rfs_block_map_find`: the result, the map with its position, and the block. -/
def blockMapFind (fs : FileSystem) (diskBlocks : Nat) (map : BlockMap) (bpos : BlockPos) :
    Nat × BlockMap × Nat :=
  if bpos.bno ≠ 0 ∧ map.count = 0 ∨ map.count ≤ bpos.bno then (enxio, map, 0)
  else
    let found :=
      if bpos.bno = map.bpos.bno ∧ map.bpos.block ≠ 0 then (0, map.bpos.block)
      else if map.count ≤ inodeBlocks then (0, map.blocks bpos.bno)
      else
        let direct := bpos.bno % fs.blocksPerBlock
        let singly := bpos.bno / fs.blocksPerBlock
        if map.count ≤ fs.singlyBlocks then
          findIndirect fs diskBlocks (map.blocks singly) direct
        else
          let doubly := singly / fs.blocksPerBlock
          let singly := singly % fs.blocksPerBlock
          if map.count < fs.doublyBlocks then
            let (rc, singly) := findIndirect fs diskBlocks (map.blocks doubly) singly
            if rc = 0 then findIndirect fs diskBlocks singly direct else (rc, 0)
          else (enxio, 0)
    if found.1 = 0 then (0, { map with bpos := ⟨bpos.bno, bpos.boff, found.2⟩ }, found.2)
    else (found.1, map, found.2)

variable {fs after : FileSystem} {map next : BlockMap} {blocks : MapBlocks} {diskBlocks : Nat}

theorem findIndirect_eq {table offset no : Nat} (isNo : fs.tables table offset = no)
    (onDisk : no < diskBlocks) (small : diskBlocks ≤ noBlock) :
    findIndirect fs diskBlocks table offset = (0, no) := by
  rw [findIndirect, isNo, if_neg (Nat.ne_of_lt (Nat.lt_of_lt_of_le onDisk small)),
    if_neg (Nat.not_le_of_lt onDisk)]

def Positioned (map : BlockMap) (data : List Nat) : Prop :=
  map.bpos.block ≠ 0 → data[map.bpos.bno]? = some map.bpos.block

structure Lists (diskBlocks : Nat) (fs : FileSystem) (map : BlockMap) (blocks : MapBlocks) :
    Prop where
  held : Held fs map blocks
  bounded : map.count < fs.doublyBlocks
  onDisk : ∀ no, fs.Known false no → no < diskBlocks
  positioned : Positioned map blocks.data

/-- A find reads the block list, and refuses a position behind it. -/
theorem Lists.find (lists : Lists diskBlocks fs map blocks) (small : diskBlocks ≤ noBlock)
    (bpos : BlockPos) :
    blockMapFind fs diskBlocks map bpos = match blocks.data[bpos.bno]? with
      | some block => (0, { map with bpos := ⟨bpos.bno, bpos.boff, block⟩ }, block)
      | none => (enxio, map, 0) := by
  have count := lists.held.mapped.count
  have large := lists.held.singlyBlocks_large
  have onDisk : ∀ no ∈ blocks.all, no < diskBlocks := fun no member =>
    lists.onDisk no (lists.held.marked no member).1
  cases isBlock : blocks.data[bpos.bno]? with
  | none =>
    have beyond : map.count ≤ bpos.bno := count ▸ List.getElem?_eq_none_iff.mp isBlock
    rw [blockMapFind, if_pos (.inr beyond)]
  | some block =>
    have inside : bpos.bno < map.count := by
      rw [count]
      exact (List.getElem?_eq_some_iff.mp isBlock).1
    have within : ¬ (bpos.bno ≠ 0 ∧ map.count = 0 ∨ map.count ≤ bpos.bno) := by omega
    have blockOnDisk : block < diskBlocks :=
      onDisk block (by simp [MapBlocks.all, List.mem_of_getElem? isBlock])
    rw [blockMapFind, if_neg within]
    by_cases kept : bpos.bno = map.bpos.bno ∧ map.bpos.block ≠ 0
    · have same := lists.positioned kept.2
      rw [← kept.1, isBlock, Option.some.injEq] at same
      simp only [if_pos kept, same, if_true]
    · have found : ∀ found : Nat × Nat, found = (0, block) →
          (if found.1 = 0 then
            ((0, { map with bpos := ⟨bpos.bno, bpos.boff, found.2⟩ }, found.2) :
              Nat × BlockMap × Nat)
          else (found.1, map, found.2)) =
            (0, { map with bpos := ⟨bpos.bno, bpos.boff, block⟩ }, block) := by
        rintro _ rfl
        rfl
      simp only [if_neg kept]
      apply found
      cases mapped : lists.held.mapped with
      | @direct data length short slots =>
        rw [if_pos (by omega), slots _ _ isBlock]
      | @singly data singly length long fits paged slots =>
        obtain ⟨table, isTable, isEntry⟩ := paged.found _ _ isBlock
        rw [if_neg (by omega), if_pos (by omega), slots _ _ isTable]
        exact findIndirect_eq isEntry blockOnDisk small
      | @doubly data singly doubly length long paged outer slots =>
        obtain ⟨table, isTable, isEntry⟩ := paged.found _ _ isBlock
        obtain ⟨page, isPage, isInner⟩ := outer.found _ _ isTable
        have tableOnDisk : table < diskBlocks :=
          onDisk table (by simp [MapBlocks.all, List.mem_of_getElem? isTable])
        rw [if_neg (by omega), if_neg (by omega), if_pos lists.bounded, slots _ _ isPage,
          findIndirect_eq isInner tableOnDisk small]
        exact findIndirect_eq isEntry blockOnDisk small

theorem Lists.placed (lists : Lists diskBlocks fs map blocks) {bpos : BlockPos}
    (positioned : bpos.block ≠ 0 → blocks.data[bpos.bno]? = some bpos.block) (offset : Nat)
    (dirty : Bool) :
    Lists diskBlocks fs { map with bpos := bpos, offset := offset, dirty := dirty } blocks where
  __ := lists
  held := ⟨lists.held.laid, lists.held.large, lists.held.mapped.congr rfl (fun _ _ => rfl) rfl rfl,
    lists.held.mapGoal, lists.held.dataGoal, lists.held.nodup, lists.held.marked⟩
  positioned := positioned

/-- What a map keeps when it gets a table. -/
def BlockMap.place (map : BlockMap) : BlockPos × Nat := (map.bpos, map.offset)

theorem blockMapIndirectAlloc_place {upping : Bool} {table : Nat}
    (allocated : blockMapIndirectAlloc fs map upping = some (after, next, table)) :
    next.place = map.place := by
  obtain ⟨⟨mid, newBlock⟩, -, result⟩ := Option.map_eq_some_iff.mp allocated
  dsimp only at result
  split at result <;> cases result <;> rfl

theorem growTable_place {index table : Nat} {upping : Bool}
    (found : growTable fs map index upping = some (after, next, table)) :
    next.place = map.place := by
  rw [growTable] at found
  dsimp only at found
  split at found
  next =>
    obtain ⟨⟨mid, between, newTable⟩, allocated, result⟩ := Option.map_eq_some_iff.mp found
    have place := blockMapIndirectAlloc_place allocated
    cases result
    exact place
  next =>
    cases found
    rfl

def tableOutcome : Except (FileSystem × BlockMap) (FileSystem × BlockMap × Nat) → BlockMap
  | .error (_, map) => map
  | .ok (_, map, _) => map

theorem growSingly_place (fs : FileSystem) (map : BlockMap) :
    (tableOutcome (growSingly fs map)).place = map.place := by
  rw [growSingly]
  split
  next => rfl
  next found isFound => exact growTable_place isFound

theorem growDoubly_place (fs : FileSystem) (map : BlockMap) :
    (tableOutcome (growDoubly fs map)).place = map.place := by
  rw [growDoubly]
  dsimp only
  split
  next =>
    split
    next => rfl
    next mid between table allocated =>
      have place := blockMapIndirectAlloc_place allocated
      split
      next => exact place
      next found => exact (growTable_place found).trans place
  next => rfl

theorem growOne_place (fs : FileSystem) (map : BlockMap) :
    (growOne fs map).2.2.bpos = map.bpos ∧
      (growOne fs map).2.2.offset = if 0 < (growOne fs map).1 then map.offset else 0 := by
  rw [growOne]
  dsimp only
  split
  next => exact ⟨rfl, rfl⟩
  next mid block allocated =>
    split
    next => exact ⟨rfl, rfl⟩
    next =>
      have place : (tableOutcome (if map.count < mid.singlyBlocks then growSingly mid map
          else growDoubly mid map)).place = map.place := by
        split
        next => exact growSingly_place mid map
        next => exact growDoubly_place mid map
      revert place
      generalize (if map.count < mid.singlyBlocks then growSingly mid map
        else growDoubly mid map) = outcome
      intro place
      obtain ⟨position, offset⟩ := Prod.mk.inj place
      cases outcome with
      | error failed => exact ⟨position, offset⟩
      | ok found => exact ⟨position, rfl⟩

theorem growLoop_bpos (fs : FileSystem) (map : BlockMap) (more : Nat) :
    (growLoop fs map more).2.2.bpos = map.bpos := by
  induction more generalizing fs map with
  | zero => rfl
  | succ more ih =>
    rw [growLoop]
    dsimp only
    split
    next => exact (growOne_place fs map).1
    next => exact (ih ..).trans ((growOne_place fs map).1)

/-- A map on its file system, and the data blocks that it has grown by and not been
shrunk by since. -/
structure ListedMap where
  fs : FileSystem
  map : BlockMap
  data : List Nat

inductive ListCall where
  | grow (blocks : Nat)
  | shrink (blocks : Nat)
  | find (bpos : BlockPos)

def ListedMap.step (diskBlocks : Nat) (listed : ListedMap) : ListCall → ListedMap
  | .grow blocks =>
    let (_, fs, map) := blockMapGrow listed.fs listed.map blocks
    let added :=
      if listed.fs.doublyBlocks ≤ listed.map.count + blocks then []
      else grownBlocks listed.fs listed.map blocks
    ⟨fs, map, listed.data ++ added⟩
  | .shrink blocks =>
    let (_, fs, map) := blockMapShrink listed.fs listed.map blocks
    ⟨fs, map, listed.data.take (listed.data.length - blocks)⟩
  | .find bpos =>
    ⟨listed.fs, (blockMapFind listed.fs diskBlocks listed.map bpos).2.1, listed.data⟩

/-- The map counts the blocks of the list, and finds each of them by its index. -/
def ListedMap.Refines (diskBlocks : Nat) (listed : ListedMap) : Prop :=
  listed.map.count = listed.data.length ∧ ∀ bpos,
    ((blockMapFind listed.fs diskBlocks listed.map bpos).1,
      (blockMapFind listed.fs diskBlocks listed.map bpos).2.2) =
        match listed.data[bpos.bno]? with
        | some block => (0, block)
        | none => (enxio, 0)

theorem Lists.grow (lists : Lists diskBlocks fs map blocks) (more : Nat) :
    ∃ grown added, Lists diskBlocks (blockMapGrow fs map more).2.1 (blockMapGrow fs map more).2.2
        grown ∧
      Grown fs blocks (blockMapGrow fs map more).2.1 (blockMapGrow fs map more).2.2 grown added ∧
      grown.data = blocks.data ++
        if fs.doublyBlocks ≤ map.count + more then [] else grownBlocks fs map more := by
  rw [blockMapGrow]
  split
  next =>
    have stays := lists.held.stays (.refl fs) (fun _ _ => rfl) lists.held.mapGoal rfl rfl rfl
    exact ⟨blocks, [], lists, stays, (List.append_nil _).symm⟩
  next fits =>
    obtain ⟨grown, added, isGrown, data⟩ := growLoop_grown lists.held more
    have held := isGrown.held lists.held
    have length := length_grownBlocks fs map more
    refine ⟨grown, added, ⟨held, ?_, fun no known => ?_, fun named => ?_⟩, isGrown, data⟩
    · have before := lists.held.mapped.count
      rw [held.mapped.count, data, List.length_append, isGrown.takes.shape.doublyBlocks]
      omega
    · exact lists.onDisk no ((isGrown.takes.shape.known false no).mp known)
    · rw [growLoop_bpos] at named ⊢
      rw [data]
      have position := lists.positioned named
      rw [List.getElem?_append_left (List.getElem?_eq_some_iff.mp position).1, position]

theorem Lists.shrink (lists : Lists diskBlocks fs map blocks) (fewer : Nat) :
    ∃ left, Lists diskBlocks (blockMapShrink fs map fewer).2.1 (blockMapShrink fs map fewer).2.2
      left ∧ left.data = blocks.data.take (blocks.data.length - fewer) ∧
        (blockMapShrink fs map fewer).1 = 0 := by
  have count := lists.held.mapped.count
  rw [blockMapShrink]
  split
  next none_left =>
    refine ⟨blocks, lists, ?_, rfl⟩
    rw [List.length_eq_zero_iff.mp (count.symm.trans none_left), List.take_nil]
  next =>
    obtain ⟨left, freed, shrunk, further⟩ :=
      shrinkLoop_shrunk lists.held (Nat.min_le_right fewer map.count)
    obtain ⟨data, success, position⟩ := further lists.bounded
    have held := shrunk.held lists.held
    have isData : left.data = blocks.data.take (blocks.data.length - fewer) := by
      rw [data, count]
      congr 1
      omega
    refine ⟨left, ⟨held, ?_, fun no known => ?_, fun named => ?_⟩, isData, success⟩
    · have bounded := lists.bounded
      rw [held.mapped.count, data, List.length_take, shrunk.frees.shape.doublyBlocks]
      omega
    · exact lists.onDisk no ((shrunk.frees.shape.known false no).mp known)
    · rcases position with unnamed | ⟨same, inside⟩
      · exact absurd unnamed named
      · rw [held.mapped.count, data, List.length_take] at inside
        rw [same] at named inside ⊢
        rw [data, List.getElem?_take_of_lt (Nat.lt_of_lt_of_le inside (Nat.min_le_left ..))]
        exact lists.positioned named

theorem Lists.start (laid : fs.Laid false) (large : inodeBlocks < fs.blocksPerBlock)
    (onDisk : ∀ no, fs.Known false no → no < diskBlocks) :
    ∃ blocks, Lists diskBlocks fs .empty blocks ∧ blocks.data = [] := by
  refine ⟨⟨[], [], []⟩, ⟨.empty laid large, ?_, onDisk, fun named => absurd rfl named⟩, rfl⟩
  have some_left : 0 < fs.blocksPerBlock := Nat.lt_of_le_of_lt (Nat.zero_le _) large
  exact Nat.mul_pos (Nat.mul_pos some_left some_left) (by decide)

open Volume in
theorem smallVolume_onDisk (no : Nat) (known : smallVolume.Known false no) : no < 17 := by
  have below : (no - 1) / 16 < 1 := known.2.1
  omega

end RTContainer.Rfs
