import RTContainer.Score.UnlimitedObjectsTables

/-! The books of an unlimited class: which objects are inactive, in use or open, and what the
record says of them. -/

set_option autoImplicit false

namespace RTContainer.Score

open UnlimitedInformation

namespace UnlimitedClass

/-- The objects of the present blocks are inactive or in use, the counters count the inactive
ones, and the table holds the open ones. -/
structure Consistent (state : UnlimitedClass) (api cls node count : Nat) : Prop
    extends Shaped state.information state.memory api cls node count where
  held : ∀ object, object ∈ state.information.inactiveChain ++ state.inUse ↔
    ∃ index, state.information.objectAt index = some object
  nodup : (state.information.inactiveChain ++ state.inUse).Nodup
  tally : BlockTally state.information.objectsPerBlock state.information.inactivePerBlock
    state.information.inactive (state.information.inactiveChain.map (objectIndex state.memory))
  slots : ∀ index object, state.information.localTable[index]? = some (some object) ↔
    state.information.objectAt index = some object ∧ ∃ id, (id, object) ∈ state.opened
  opened : ∀ id object, (id, object) ∈ state.opened →
    object ∈ state.inUse ∧ (state.memory object).id = id

section Steps

variable {state : UnlimitedClass} {api cls node count : Nat}
variable {object : ObjectAddress} {rest : List ObjectAddress}

section

variable (consistent : Consistent state api cls node count)
include consistent

theorem Consistent.objectAt_index
    (member : object ∈ state.information.inactiveChain ++ state.inUse) :
    state.information.objectAt (objectIndex state.memory object) = some object := by
  obtain ⟨index, present⟩ := (consistent.held object).mp member
  rw [consistent.objectIndex_eq present]
  exact present

theorem Consistent.nodup_indices :
    (state.information.inactiveChain.map (objectIndex state.memory)).Nodup := by
  refine List.Nodup.map_on ?_ (List.nodup_append.mp consistent.nodup).1
  intro first firstMember second secondMember same
  have isFirst := consistent.objectAt_index (List.mem_append_left state.inUse firstMember)
  have isSecond := consistent.objectAt_index (List.mem_append_left state.inUse secondMember)
  rw [same, isSecond] at isFirst
  exact (Option.some.inj isFirst).symm

theorem Consistent.objectsGet_opened {id : ObjectsId} (isOpen : (id, object) ∈ state.opened) :
    state.information.objectsGet id = some object := by
  obtain ⟨isHeld, isId⟩ := consistent.opened id object isOpen
  obtain ⟨index, present⟩ := (consistent.held object).mp (List.mem_append_right _ isHeld)
  have inTable := (consistent.slots index object).mpr ⟨present, id, isOpen⟩
  rw [← isId, consistent.ids index object present,
    consistent.objectsGet_eq (consistent.objectAt_lt present), inTable]
  rfl

variable {block array : Nat} {allocations : ExtendAllocations}

theorem Consistent.recount {inactive : Nat} {change : Nat → Nat} {chain : List ObjectAddress}
    (notFirst : 1 ≤ block) :
    Shaped { state.information with
      inactiveChain := chain
      inactivePerBlock := state.information.inactivePerBlock.modify block change
      inactive := inactive } state.memory api cls node count :=
  consistent.toShaped.replace rfl rfl rfl rfl (List.length_modify ..)
    (List.getElem?_modify_ne _ _ (Nat.ne_of_gt notFirst)) rfl fun _ => rfl

theorem Consistent.activate (chain : state.information.inactiveChain = object :: rest) :
    ∃ activated,
      ({ state.information with inactiveChain := rest } :
        UnlimitedInformation).objectsActivateUnlimited state.memory object = some activated ∧
      Consistent { state with information := activated, inUse := object :: state.inUse }
        api cls node count := by
  have present := consistent.objectAt_index (show object ∈ _ by simp [chain])
  have array := (objectAt_eq_some.mp present).1
  have moved : (rest ++ object :: state.inUse).Perm
      (state.information.inactiveChain ++ state.inUse) := by
    rw [chain]
    exact List.perm_middle
  have held : ∀ other, other ∈ rest ++ object :: state.inUse ↔
      ∃ index, state.information.objectAt index = some other := by
    intro other
    rw [moved.mem_iff]
    exact consistent.held other
  have tally := consistent.tally
  rw [chain, List.map_cons] at tally
  have opened : ∀ id other, (id, other) ∈ state.opened →
      other ∈ object :: state.inUse ∧ (state.memory other).id = id := by
    intro id other isOpen
    obtain ⟨isHeld, isId⟩ := consistent.opened id other isOpen
    exact ⟨List.mem_cons_of_mem object isHeld, isId⟩
  rcases Nat.lt_or_ge (objectIndex state.memory object) state.information.objectsPerBlock with
    first | later
  · refine ⟨{ state.information with inactiveChain := rest }, ?_, ?_⟩
    · simp [objectsActivateUnlimited, objectsIsInAllocatedBlock, first]
    · exact
        { toShaped := consistent.toShaped.replace rfl rfl rfl rfl rfl rfl rfl fun _ => rfl
          held := held
          nodup := moved.nodup_iff.mpr consistent.nodup
          tally := tally.take_first first
          slots := consistent.slots
          opened := opened }
  · have notFirst : 1 ≤ objectIndex state.memory object / state.information.objectsPerBlock :=
      (Nat.one_le_div_iff consistent.size_pos).mpr later
    have counted := consistent.toShaped.counted_lt array notFirst
    refine ⟨{ state.information with
      inactiveChain := rest
      inactivePerBlock := state.information.inactivePerBlock.modify
        (objectIndex state.memory object / state.information.objectsPerBlock) (· - 1)
      inactive := state.information.inactive - 1 }, ?_, ?_⟩
    · simp [objectsActivateUnlimited, objectsIsInAllocatedBlock, later, counted]
    · exact
        { toShaped := consistent.recount notFirst
          held := held
          nodup := moved.nodup_iff.mpr consistent.nodup
          tally := tally.take later
          slots := consistent.slots
          opened := opened }

theorem Consistent.inactive_of_full {index : Nat} (notFirst : 1 ≤ block)
    (full : state.information.inactivePerBlock[block]? = some state.information.objectsPerBlock)
    (present : state.information.objectAt index = some object)
    (inside : index / state.information.objectsPerBlock = block) :
    object ∈ state.information.inactiveChain := by
  obtain ⟨other, member, isIndex⟩ := List.mem_map.mp
    (consistent.tally.full consistent.nodup_indices consistent.size_pos notFirst full inside)
  have isOther := consistent.objectAt_index (List.mem_append_left state.inUse member)
  rw [isIndex, present] at isOther
  rw [Option.some.inj isOther]
  exact member

theorem Consistent.objectsFreeObjectsBlock (notFirst : 1 ≤ block) (bounded : block < count)
    (full : state.information.inactivePerBlock[block]? = some state.information.objectsPerBlock) :
    ∃ freed, state.information.objectsFreeObjectsBlock state.memory block = some freed ∧
      Consistent { state with information := freed } api cls node count := by
  obtain ⟨blocks, hasTables⟩ := consistent.hasTables (Nat.lt_of_le_of_lt notFirst bounded)
  have objects := consistent.withoutBlock_objectAt hasTables notFirst bounded
  have used : ∀ object ∈ state.inUse,
      objectIndex state.memory object / state.information.objectsPerBlock ≠ block := by
    intro object member inside
    have present := consistent.objectAt_index (List.mem_append_right _ member)
    exact (List.nodup_append.mp consistent.nodup).2.2 object
      (consistent.inactive_of_full notFirst full present inside) object member rfl
  refine ⟨state.information.withoutBlock state.memory blocks block,
    consistent.objectsFreeObjectsBlock_eq hasTables notFirst bounded,
    { toShaped := consistent.withoutBlock hasTables notFirst bounded
      held := ?_, nodup := ?_, tally := ?_, slots := ?_, opened := consistent.opened }⟩
  · intro object
    constructor
    · intro member
      rcases List.mem_append.mp member with member | member
      · obtain ⟨member, outside⟩ := List.mem_filter.mp member
        have present := consistent.objectAt_index (List.mem_append_left state.inUse member)
        exact ⟨_, (objects _ object).mpr ⟨present, of_decide_eq_true outside⟩⟩
      · have present := consistent.objectAt_index (List.mem_append_right _ member)
        exact ⟨_, (objects _ object).mpr ⟨present, used object member⟩⟩
    · rintro ⟨index, present⟩
      obtain ⟨wasPresent, outside⟩ := (objects index object).mp present
      rw [← consistent.objectIndex_eq wasPresent] at outside
      rcases List.mem_append.mp ((consistent.held object).mpr ⟨index, wasPresent⟩) with
        member | member
      · exact List.mem_append_left _ (List.mem_filter.mpr ⟨member, decide_eq_true outside⟩)
      · exact List.mem_append_right _ member
  · exact consistent.nodup.sublist (List.filter_sublist.append_right state.inUse)
  · have drained := consistent.tally.drain consistent.size_pos notFirst full
    rw [List.filter_map] at drained
    exact drained
  · intro index object
    refine (consistent.slots index object).trans ?_
    constructor
    · rintro ⟨present, id, isOpen⟩
      have outside := used object (consistent.opened id object isOpen).1
      rw [consistent.objectIndex_eq present] at outside
      exact ⟨(objects index object).mpr ⟨present, outside⟩, id, isOpen⟩
    · rintro ⟨present, isOpen⟩
      exact ⟨((objects index object).mp present).1, isOpen⟩

theorem Consistent.assignBlock (notFirst : 1 ≤ block) (bounded : block < count)
    (vacant : state.information.blockArray block = none)
    (fresh : ∀ other, state.information.blockArray other ≠ some array) :
    ∃ assigned written,
      state.information.assignBlock state.memory block
        (block * state.information.objectsPerBlock) array = some (assigned, written) ∧
      Consistent { state with information := assigned, memory := written } api cls node count ∧
      assigned.inactivePerBlock[block]? = some assigned.objectsPerBlock ∧
      (∀ other, assigned.blockArray other =
        if other = block then some array else state.information.blockArray other) ∧
      assigned.maximumId = state.information.maximumId ∧
      assigned.objectsPerBlock = state.information.objectsPerBlock := by
  have positive := consistent.size_pos
  obtain ⟨blocks, hasTables⟩ := consistent.hasTables (Nat.lt_of_le_of_lt notFirst bounded)
  have objects (index : Nat) (object : ObjectAddress) :
      (state.information.withBlock blocks block array).objectAt index = some object ↔ _ :=
    consistent.withBlock_objectAt hasTables notFirst bounded vacant index object
  have shaped := consistent.withBlock hasTables notFirst bounded vacant fresh
  obtain ⟨written, isWritten⟩ : ∃ written : ObjectsMemory,
    written = state.information.withBlockMemory state.memory api cls node block array := ⟨_, rfl⟩
  rw [← isWritten] at shaped
  have old : ∀ object ∈ state.information.inactiveChain ++ state.inUse, object.array ≠ array := by
    rintro object member rfl
    exact fresh _ (objectAt_eq_some.mp (consistent.objectAt_index member)).1
  have kept : ∀ object ∈ state.information.inactiveChain ++ state.inUse,
      written object = state.memory object := by
    intro object member
    rw [isWritten, withBlockMemory, if_neg fun isNew => old object member isNew.1]
  have isNew : ∀ object : ObjectAddress,
      object ∈ (List.range state.information.objectsPerBlock).map (ObjectAddress.mk array) ↔
        object.array = array ∧ object.position < state.information.objectsPerBlock := by
    rintro ⟨own, position⟩
    simp only [List.mem_map, List.mem_range, ObjectAddress.mk.injEq]
    constructor
    · rintro ⟨other, small, rfl, rfl⟩
      exact ⟨rfl, small⟩
    · rintro ⟨rfl, small⟩
      exact ⟨position, small, rfl, rfl⟩
  have indices : (List.range state.information.objectsPerBlock).map
      (objectIndex written ∘ ObjectAddress.mk array) =
        List.range' (block * state.information.objectsPerBlock)
          state.information.objectsPerBlock := by
    rw [List.range'_eq_map_range]
    refine List.map_congr_left fun position small => ?_
    exact shaped.objectIndex_eq ((objects _ _).mpr (.inr ⟨rfl, List.mem_range.mp small, rfl⟩))
  have counted : block < state.information.inactivePerBlock.length := by
    rw [(consistent.tables_some hasTables).2.2]
    exact bounded
  have inside : block < blocks.length := by
    rw [(consistent.tables_some hasTables).2.1]
    exact bounded
  have filled := blockArray_set (state.information.withBlock blocks block array) hasTables
    notFirst inside rfl rfl
  refine ⟨state.information.withBlock blocks block array, written, ?_,
    { toShaped := shaped, held := ?_, nodup := ?_, tally := ?_, slots := ?_, opened := ?_ },
    List.getElem?_set_self counted, filled, rfl, rfl⟩
  · rw [isWritten]
    exact consistent.assignBlock_eq hasTables bounded
  · intro object
    have before := consistent.held object
    simp only [UnlimitedInformation.withBlock, List.mem_append, isNew] at before ⊢
    constructor
    · rintro ((member | ⟨isArray, small⟩) | member)
      · obtain ⟨index, present⟩ := before.mp (.inl member)
        exact ⟨index, (objects index object).mpr (.inl present)⟩
      · exact ⟨_, (objects _ object).mpr (.inr ⟨isArray, small, rfl⟩)⟩
      · obtain ⟨index, present⟩ := before.mp (.inr member)
        exact ⟨index, (objects index object).mpr (.inl present)⟩
    · rintro ⟨index, present⟩
      rcases (objects index object).mp present with present | ⟨isArray, small, -⟩
      · rcases before.mpr ⟨index, present⟩ with member | member
        · exact .inl (.inl member)
        · exact .inr member
      · exact .inl (.inr ⟨isArray, small⟩)
  · show (state.information.inactiveChain ++ (List.range state.information.objectsPerBlock).map
      (ObjectAddress.mk array) ++ state.inUse).Nodup
    have arranged := List.perm_append_comm_assoc
      ((List.range state.information.objectsPerBlock).map (ObjectAddress.mk array))
      state.information.inactiveChain state.inUse
    rw [List.append_assoc, ← arranged.nodup_iff]
    refine List.nodup_append.mpr ⟨?_, consistent.nodup, ?_⟩
    · refine List.Nodup.map (fun first second same => ?_) List.nodup_range
      exact (ObjectAddress.mk.inj same).2
    · rintro object member other otherMember rfl
      exact old object otherMember ((isNew object).mp member).1
  · have filled := consistent.tally.fill positive notFirst (by
      intro place member inside
      obtain ⟨object, isInactive, rfl⟩ := List.mem_map.mp member
      have present := consistent.objectAt_index (List.mem_append_left state.inUse isInactive)
      have array := (objectAt_eq_some.mp present).1
      rw [inside, vacant] at array
      cases array)
    have same : state.information.inactiveChain.map (objectIndex written) =
        state.information.inactiveChain.map (objectIndex state.memory) := by
      refine List.map_congr_left fun object member => ?_
      rw [objectIndex, objectIndex, kept object (List.mem_append_left _ member)]
    rw [← same, ← indices, ← List.map_map, ← List.map_append] at filled
    exact filled
  · intro index object
    refine (consistent.slots index object).trans ?_
    constructor
    · rintro ⟨present, isOpen⟩
      exact ⟨(objects index object).mpr (.inl present), isOpen⟩
    · rintro ⟨present, id, isOpen⟩
      rcases (objects index object).mp present with present | ⟨isArray, -⟩
      · exact ⟨present, id, isOpen⟩
      · exact absurd isArray
          (old object (List.mem_append_right _ (consistent.opened id object isOpen).1))
  · intro id object isOpen
    obtain ⟨member, isId⟩ := consistent.opened id object isOpen
    refine ⟨member, Eq.trans ?_ isId⟩
    exact congrArg ObjectsControl.id (kept object (List.mem_append_right _ member))

theorem Consistent.growTables (fits : (count + 1) * state.information.objectsPerBlock < 65536) :
    ∃ grown, state.information.growTables (count * state.information.objectsPerBlock)
        (count * state.information.objectsPerBlock + state.information.objectsPerBlock) =
          some grown ∧
      Consistent { state with information := grown } api cls node (count + 1) ∧
      grown.objectsPerBlock = state.information.objectsPerBlock ∧
      grown.blockArray = state.information.blockArray := by
  have positive := consistent.size_pos
  obtain ⟨blocks, counts, isCopied, length, counted, copied⟩ := consistent.copiedTables_eq
  have arrays : (state.information.withTables blocks counts api cls node count).blockArray =
      state.information.blockArray := Shaped.withTables_blockArray copied
  have objects : (state.information.withTables blocks counts api cls node count).objectAt =
      state.information.objectAt := objectAt_congr rfl arrays
  refine ⟨state.information.withTables blocks counts api cls node count,
    consistent.growTables_eq isCopied,
    { toShaped := consistent.withTables fits length counted copied
      held := ?_, nodup := consistent.nodup, tally := ?_, slots := ?_
      opened := consistent.opened }, rfl, arrays⟩
  · intro object
    show _ ↔ ∃ index, (state.information.withTables blocks counts api cls node count).objectAt
      index = some object
    rw [objects]
    exact consistent.held object
  · have tally : BlockTally state.information.objectsPerBlock counts state.information.inactive
        (state.information.inactiveChain.map (objectIndex state.memory)) := by
      rcases copied with ⟨-, rfl⟩ | ⟨-, -, rfl, isOne⟩
      · exact consistent.tally
      · refine ⟨fun block inactive notFirst present => ?_, consistent.tally.all⟩
        rw [List.getElem?_eq_none notFirst] at present
        cases present
    refine tally.grow positive fun place member => .inl ?_
    obtain ⟨object, isInactive, rfl⟩ := List.mem_map.mp member
    rw [counted]
    exact consistent.objectAt_lt
      (consistent.objectAt_index (List.mem_append_left state.inUse isInactive))
  · intro index object
    have before := consistent.slots index object
    show (state.information.localTable ++
        List.replicate state.information.objectsPerBlock none)[index]? = some (some object) ↔
      (state.information.withTables blocks counts api cls node count).objectAt index =
        some object ∧ _
    rw [objects]
    rcases Nat.lt_or_ge index state.information.localTable.length with inside | outside
    · rw [List.getElem?_append_left inside]
      exact before
    · rw [List.getElem?_eq_none outside] at before
      rw [List.getElem?_append_right outside]
      refine Iff.trans ⟨fun inTable => ?_, fun impossible => nomatch impossible⟩ before
      obtain ⟨_, isNone⟩ := List.getElem?_eq_some_iff.mp inTable
      simp at isNone

theorem Consistent.searchBlock_found :
    let found := state.information.searchBlock
    1 ≤ found.block ∧ found.indexBase = found.block * state.information.objectsPerBlock ∧
      state.information.blockArray found.block = none ∧
      (found.doExtend = true ∧ found.block = count ∨
        found.doExtend = false ∧ found.block < count) := by
  have base : ∀ passed, state.information.objectsPerBlock +
      passed * state.information.objectsPerBlock =
        (1 + passed) * state.information.objectsPerBlock := by
    intro passed
    rw [Nat.add_mul, Nat.one_mul]
  have beyond : state.information.blockArray count = none := by
    refine Option.eq_none_iff_forall_ne_some.mpr fun array present => ?_
    exact Nat.lt_irrefl _ (consistent.blockArray_lt present)
  rw [searchBlock, consistent.blockCount_eq, objectsExtendSize]
  cases hasTables : state.information.objectBlocks with
  | none =>
    have tables := consistent.tables
    rw [hasTables] at tables
    obtain ⟨rfl, -⟩ := tables
    exact ⟨Nat.le_refl 1, (Nat.one_mul _).symm, beyond, .inl ⟨rfl, rfl⟩⟩
  | some blocks =>
    obtain ⟨several, length, -⟩ := consistent.tables_some hasTables
    obtain ⟨passed, isBlock, isBase, stopped⟩ := BlockSearch.walk_found
      state.information.objectsPerBlock ((blocks.take count).drop 1) 1
      state.information.objectsPerBlock
    simp only [isBlock, isBase, base, Nat.le_add_right, true_and]
    rw [List.take_of_length_le (Nat.le_of_eq length)] at stopped ⊢
    rcases stopped with ⟨grows, isLast⟩ | ⟨keeps, isVacant⟩
    · rw [List.length_drop, length] at isLast
      have isCount : 1 + passed = count := by omega
      rw [isCount]
      exact ⟨beyond, .inl ⟨grows, rfl⟩⟩
    · rw [List.getElem?_drop] at isVacant
      have inside := (List.getElem?_eq_some_iff.mp isVacant).1
      refine ⟨?_, .inr ⟨keeps, length ▸ inside⟩⟩
      rw [blockArray, if_neg (by omega), hasTables, Option.bind_some, isVacant]
      rfl

theorem Consistent.extends_found {tables : Bool}
    (fits : state.information.objectsGetMaximumIndex + state.information.objectsPerBlock ≤
      objectsIdFinalIndex) (unused : ∀ block, state.information.blockArray block ≠ some array)
    (heads : Bool) (enough : state.information.searchBlock.doExtend = true → tables = true) :
    ∃ extended written after,
      state.information.objectsExtendInformation state.memory ⟨some array, tables, heads⟩ =
        some (state.information.searchBlock.block, extended, written) ∧
      Consistent { state with information := extended, memory := written } api cls node after ∧
      state.information.searchBlock.block < after ∧ after ≤ count + 1 ∧
      extended.inactivePerBlock[state.information.searchBlock.block]? =
        some extended.objectsPerBlock ∧
      (∀ other, extended.blockArray other =
        if other = state.information.searchBlock.block then some array
        else state.information.blockArray other) ∧
      (state.information.searchBlock.doExtend = false →
        extended.maximumId = state.information.maximumId) ∧
      extended.objectsPerBlock = state.information.objectsPerBlock := by
  obtain ⟨notFirst, isBase, vacant, stopped⟩ := consistent.searchBlock_found
  rw [consistent.objectsGetMaximumIndex_eq] at fits
  rw [UnlimitedInformation.objectsExtendInformation, consistent.objectsGetMaximumIndex_eq,
    objectsExtendSize, isBase, if_neg (Nat.not_lt.mpr fits)]
  rcases stopped with ⟨grows, isCount⟩ | ⟨keeps, bounded⟩
  · have small : (count + 1) * state.information.objectsPerBlock < 65536 := by
      rw [Nat.succ_mul]
      rw [objectsIdFinalIndex] at fits
      omega
    obtain ⟨grown, isGrown, stays, size, arrays⟩ := consistent.growTables small
    rw [isCount] at vacant notFirst
    obtain ⟨assigned, written, isAssigned, holds, full, filled, -, sized⟩ := stays.assignBlock notFirst
      (Nat.lt_succ_self count) (arrays ▸ vacant) (arrays ▸ unused)
    have assigns : grown.assignBlock state.memory count
        (count * state.information.objectsPerBlock) array = some (assigned, written) := by
      rw [← size]
      exact isAssigned
    have hasTables := enough grows
    rw [isCount]
    rw [arrays] at filled
    refine ⟨assigned, written, count + 1, ?_, holds, Nat.lt_succ_self count, Nat.le_refl _, full,
      filled, fun keeps => Bool.noConfusion (grows.symm.trans keeps), sized.trans size⟩
    simp [grows, hasTables, isGrown, assigns]
  · obtain ⟨assigned, written, isAssigned, holds, full, filled, same, sized⟩ :=
      consistent.assignBlock notFirst bounded vacant unused
    refine ⟨assigned, written, count, ?_, holds, bounded, Nat.le_succ count, full, filled,
      fun _ => same, sized⟩
    simp [keeps, isAssigned]

section

variable (fresh : ∀ array, allocations.objects = some array →
  ∀ block, state.information.blockArray block ≠ some array)
include fresh

/-- An extension leaves a consistent class, whether it adds a block or not. -/
theorem Consistent.objectsExtendInformation :
    ∃ block extended written after,
      state.information.objectsExtendInformation state.memory allocations =
        some (block, extended, written) ∧
      Consistent { state with information := extended, memory := written } api cls node after ∧
      (0 < block → block < after ∧
        extended.inactivePerBlock[block]? = some extended.objectsPerBlock) := by
  have unchanged : ∃ block extended written after,
      some (0, state.information, state.memory) = some (block, extended, written) ∧
      Consistent { state with information := extended, memory := written } api cls node after ∧
      (0 < block → block < after ∧
        extended.inactivePerBlock[block]? = some extended.objectsPerBlock) :=
    ⟨0, state.information, state.memory, count, rfl, consistent, nofun⟩
  obtain ⟨objects, tables, heads⟩ := allocations
  rcases Nat.lt_or_ge objectsIdFinalIndex (state.information.objectsGetMaximumIndex +
    state.information.objectsPerBlock) with full | fits
  · rw [UnlimitedInformation.objectsExtendInformation, objectsExtendSize, if_pos full]
    exact unchanged
  · cases objects with
    | none =>
      rw [UnlimitedInformation.objectsExtendInformation, objectsExtendSize,
        if_neg (Nat.not_lt.mpr fits)]
      exact unchanged
    | some array =>
      by_cases short : state.information.searchBlock.doExtend = true ∧ tables = false
      · rw [UnlimitedInformation.objectsExtendInformation, objectsExtendSize,
          if_neg (Nat.not_lt.mpr fits)]
        simpa only [short, and_self, ↓reduceIte] using unchanged
      · obtain ⟨extended, written, after, isExtended, holds, bounded, -, isFull, -⟩ :=
          consistent.extends_found fits (fresh array rfl) heads fun grows =>
            Bool.of_not_eq_false fun missing => short ⟨grows, missing⟩
        exact ⟨_, extended, written, after, isExtended, holds, fun _ => ⟨bounded, isFull⟩⟩

theorem Consistent.extendInformation :
    ∃ extended written after,
      state.information.extendInformation state.memory allocations = some (extended, written) ∧
      Consistent { state with information := extended, memory := written } api cls node after := by
  obtain ⟨block, extended, written, after, isExtended, holds, full⟩ :=
    consistent.objectsExtendInformation fresh
  simp only [UnlimitedInformation.extendInformation, isExtended, bind, Option.bind_some]
  cases state.information.extend with
  | objects => exact ⟨extended, written, after, rfl, holds⟩
  | threads =>
    simp only
    split
    · next undone =>
      obtain ⟨bounded, isFull⟩ := full undone.1
      obtain ⟨freed, isFreed, stays⟩ := holds.objectsFreeObjectsBlock undone.1 bounded isFull
      refine ⟨freed, written, after, ?_, stays⟩
      rw [show extended.objectsFreeObjectsBlock written block = some freed from isFreed]
      rfl
    · exact ⟨extended, written, after, rfl, holds⟩

theorem Consistent.objectsAllocateWithExtend :
    ∃ object allocated written after,
      state.information.objectsAllocateWithExtend state.memory allocations =
        some (object, allocated, written) ∧
      Consistent
        { state with
          information := allocated
          memory := written
          inUse := object.toList ++ state.inUse } api cls node after := by
  cases chain : state.information.inactiveChain with
  | cons object rest =>
    obtain ⟨activated, isActivated, holds⟩ := consistent.activate chain
    refine ⟨some object, activated, state.memory, count, ?_, holds⟩
    simp [UnlimitedInformation.objectsAllocateWithExtend,
      UnlimitedInformation.objectsGetInactive, ObjectsInformation.objectsGetInactive, chain,
      isActivated]
  | nil =>
    obtain ⟨extended, written, after, isExtended, holds⟩ := consistent.extendInformation fresh
    cases extendedChain : extended.inactiveChain with
    | nil =>
      refine ⟨none, extended, written, after, ?_, holds⟩
      simp [UnlimitedInformation.objectsAllocateWithExtend,
        UnlimitedInformation.objectsGetInactive, ObjectsInformation.objectsGetInactive,
        chain, isExtended, extendedChain]
    | cons object rest =>
      obtain ⟨activated, isActivated, stays⟩ := holds.activate extendedChain
      refine ⟨some object, activated, written, after, ?_, stays⟩
      simp [UnlimitedInformation.objectsAllocateWithExtend,
        UnlimitedInformation.objectsGetInactive, ObjectsInformation.objectsGetInactive,
        chain, isExtended, extendedChain, show _ = some activated from isActivated]

end

theorem Consistent.objectsShrinkInformation :
    ∃ shrunk, state.information.objectsShrinkInformation state.memory = some shrunk ∧
      Consistent { state with information := shrunk } api cls node count := by
  rw [UnlimitedInformation.objectsShrinkInformation, consistent.blockCount_eq]
  split
  · exact ⟨state.information, rfl, consistent⟩
  · next block found =>
    obtain ⟨notFirst, bounded⟩ := List.mem_range'_1.mp (List.mem_of_find?_eq_some found)
    have full := List.find?_some found
    exact consistent.objectsFreeObjectsBlock notFirst (by omega) (of_decide_eq_true full)

theorem Consistent.appended (isHeld : object ∈ state.inUse)
    (isClosed : ∀ id, (id, object) ∉ state.opened) :
    object ∉ state.information.inactiveChain ∧
      (∀ other,
        other ∈ state.information.inactiveChain ++ [object] ++ state.inUse.erase object ↔
          ∃ index, state.information.objectAt index = some other) ∧
      (state.information.inactiveChain ++ [object] ++ state.inUse.erase object).Nodup ∧
      ∀ id other, (id, other) ∈ state.opened →
        other ∈ state.inUse.erase object ∧ (state.memory other).id = id := by
  have moved : (state.information.inactiveChain ++ [object] ++ state.inUse.erase object).Perm
      (state.information.inactiveChain ++ state.inUse) := by
    rw [List.append_assoc]
    exact (List.perm_cons_erase isHeld).symm.append_left _
  refine ⟨fun member => ?_, fun other => ?_, moved.nodup_iff.mpr consistent.nodup, ?_⟩
  · exact (List.nodup_append.mp consistent.nodup).2.2 object member object isHeld rfl
  · rw [moved.mem_iff]
    exact consistent.held other
  · intro id other isOpen
    obtain ⟨member, isId⟩ := consistent.opened id other isOpen
    have different : other ≠ object := fun same => isClosed id (same ▸ isOpen)
    exact ⟨(List.mem_erase_of_ne different).mpr member, isId⟩

end

def putBack (information : UnlimitedInformation) (memory : ObjectsMemory)
    (object : ObjectAddress) : UnlimitedInformation :=
  { information with
    inactiveChain := information.inactiveChain ++ [object]
    inactivePerBlock := information.inactivePerBlock.modify
      (objectIndex memory object / information.objectsPerBlock) (· + 1)
    inactive := information.inactive + 1 }

section

variable (consistent : Consistent state api cls node count) (isHeld : object ∈ state.inUse)
include consistent isHeld

/-- An object of a later block is counted as it goes back. -/
theorem Consistent.putBack (isClosed : ∀ id, (id, object) ∉ state.opened)
    (later : state.information.objectsPerBlock ≤ objectIndex state.memory object) :
    Consistent
        { state with
          information := putBack state.information state.memory object
          inUse := state.inUse.erase object } api cls node count ∧
      state.information.objectsFreeUnlimited state.memory object =
        if state.information.objectsPerBlock + state.information.objectsPerBlock / 2 <
            state.information.inactive + 1 then
          (putBack state.information state.memory object).objectsShrinkInformation state.memory
        else some (putBack state.information state.memory object) := by
  obtain ⟨unlinked, held, nodup, opened⟩ := consistent.appended isHeld isClosed
  have present := consistent.objectAt_index (List.mem_append_right _ isHeld)
  have array := (objectAt_eq_some.mp present).1
  have notFirst : 1 ≤ objectIndex state.memory object / state.information.objectsPerBlock :=
    (Nat.one_le_div_iff consistent.size_pos).mpr later
  have counted := consistent.toShaped.counted_lt array notFirst
  have inBlock : state.information.objectsPerBlock ≠ 0 ∧
      objectsIsInAllocatedBlock (objectIndex state.memory object)
        state.information.objectsPerBlock = true :=
    ⟨Nat.ne_of_gt consistent.size_pos, decide_eq_true later⟩
  have indices : (state.information.inactiveChain ++ [object]).map (objectIndex state.memory) =
      state.information.inactiveChain.map (objectIndex state.memory) ++
        [objectIndex state.memory object] := List.map_append
  constructor
  · exact
      { toShaped := consistent.recount notFirst
        held := held
        nodup := nodup
        tally := indices ▸ consistent.tally.put later
        slots := consistent.slots
        opened := opened }
  · simp only [UnlimitedInformation.objectsFreeUnlimited, UnlimitedInformation.chainAppend,
      ObjectsInformation.chainAppend, if_neg unlinked, Option.map_some, bind, Option.bind_some]
    rw [if_pos inBlock, if_pos counted]
    rfl

theorem Consistent.objectsFreeUnlimited (isClosed : ∀ id, (id, object) ∉ state.opened) :
    ∃ freed, state.information.objectsFreeUnlimited state.memory object = some freed ∧
      Consistent { state with information := freed, inUse := state.inUse.erase object }
        api cls node count := by
  rcases Nat.lt_or_ge (objectIndex state.memory object) state.information.objectsPerBlock with
    first | later
  · obtain ⟨unlinked, held, nodup, opened⟩ := consistent.appended isHeld isClosed
    have indices : (state.information.inactiveChain ++ [object]).map (objectIndex state.memory) =
        state.information.inactiveChain.map (objectIndex state.memory) ++
          [objectIndex state.memory object] := List.map_append
    refine ⟨{ state.information with
      inactiveChain := state.information.inactiveChain ++ [object] }, ?_, ?_⟩
    · simp [UnlimitedInformation.objectsFreeUnlimited, UnlimitedInformation.chainAppend,
        ObjectsInformation.chainAppend, unlinked, objectsIsInAllocatedBlock, first]
    · exact
        { toShaped := consistent.toShaped.replace rfl rfl rfl rfl rfl rfl rfl fun _ => rfl
          held := held
          nodup := nodup
          tally := indices ▸ consistent.tally.put_first first
          slots := consistent.slots
          opened := opened }
  · obtain ⟨counted, frees⟩ := consistent.putBack isHeld isClosed later
    rw [frees]
    split
    · exact counted.objectsShrinkInformation
    · exact ⟨_, rfl, counted⟩

theorem Consistent.objectsSetLocalObject (entry : Option ObjectAddress) :
    state.information.objectsSetLocalObject
        (objectsGetIndex (state.memory object).id) entry =
      some { state.information with
        localTable := state.information.localTable.set (objectIndex state.memory object)
          entry } := by
  have present := consistent.objectAt_index (List.mem_append_right _ isHeld)
  have bounded := consistent.objectAt_lt present
  have fits := consistent.fits
  have index : objectsGetIndex (state.memory object).id =
      objectIndex state.memory object + objectsIndexMinimum := by
    rw [consistent.ids _ object present]
    exact objectsBuildId_index (by rw [objectsIndexMinimum]; omega)
  have inside : objectsIndexMinimum ≤ objectsGetIndex (state.memory object).id ∧
      objectsGetIndex (state.memory object).id ≤ state.information.objectsGetMaximumIndex := by
    rw [consistent.objectsGetMaximumIndex_eq, index, objectsIndexMinimum]
    omega
  rw [ObjectsInformation.objectsSetLocalObject, if_pos inside]
  rfl

theorem Consistent.setSlot {entry : Option ObjectAddress} {written : ObjectsMemory}
    {opened : List (ObjectsId × ObjectAddress)}
    (ids : ∀ other, (written other).id = (state.memory other).id)
    (others : ∀ id other, other ≠ object → ((id, other) ∈ opened ↔ (id, other) ∈ state.opened))
    (own : entry = some object ∧ (∃ id, (id, object) ∈ opened) ∨
      entry = none ∧ ∀ id, (id, object) ∉ opened) (opens : ∀ id other, (id, other) ∈ opened →
      other ∈ state.inUse ∧ (state.memory other).id = id) :
    Consistent
      { state with
        information := { state.information with
          localTable := state.information.localTable.set (objectIndex state.memory object) entry }
        memory := written
        opened := opened } api cls node count := by
  have present := consistent.objectAt_index (List.mem_append_right _ isHeld)
  have bounded := consistent.objectAt_lt present
  rw [← consistent.table_length] at bounded
  have indices : objectIndex written = objectIndex state.memory := by
    funext other
    rw [objectIndex, objectIndex, ids]
  exact
    { toShaped := consistent.toShaped.replace rfl rfl rfl rfl rfl rfl (List.length_set ..) ids
      held := consistent.held
      nodup := consistent.nodup
      tally := by
        rw [indices]
        exact consistent.tally
      slots := by
        intro index other
        show (state.information.localTable.set _ entry)[index]? = _ ↔
          state.information.objectAt index = some other ∧ _
        rcases eq_or_ne (objectIndex state.memory object) index with rfl | different
        · rw [List.getElem?_set_self bounded, present]
          rcases own with ⟨rfl, isOpen⟩ | ⟨rfl, isClosed⟩
          · constructor
            · intro inTable
              cases inTable
              exact ⟨rfl, isOpen⟩
            · rintro ⟨isObject, -⟩
              rw [isObject]
          · constructor
            · intro inTable
              cases inTable
            · rintro ⟨isObject, id, isOpen⟩
              cases isObject
              exact absurd isOpen (isClosed id)
        · rw [List.getElem?_set_ne different]
          refine (consistent.slots index other).trans (and_congr_right fun isThere => ?_)
          have isOther : other ≠ object := by
            rintro rfl
            exact different (consistent.objectIndex_eq isThere)
          exact exists_congr fun id => (others id other isOther).symm
      opened := by
        intro id other isOpen
        obtain ⟨member, isId⟩ := opens id other isOpen
        exact ⟨member, (ids other).trans isId⟩ }

end

end Steps

end UnlimitedClass

end RTContainer.Score
