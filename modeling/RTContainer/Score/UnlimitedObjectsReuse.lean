import Mathlib.Data.Finset.Option
import Mathlib.Data.Fintype.EquivFin
import RTContainer.Score.UnlimitedObjectsRuns

/-! Blocks that have been given back and the limit of the index space. An extension refills
the first block without objects, but only as long as the indices would also allow for
another block behind the last one. -/

set_option autoImplicit false

namespace RTContainer.Score

open Machine

namespace BlockSearch

theorem walk_grows (extendCount : Nat) {blocks : List (Option Nat)} {block indexBase : Nat}
    (grows : (walk extendCount block indexBase blocks).doExtend = true) : none ∉ blocks := by
  induction blocks generalizing block indexBase with
  | nil => exact List.not_mem_nil
  | cons first rest ih =>
    cases first with
    | none => nomatch grows
    | some array =>
      rintro member
      rcases List.mem_cons.mp member with impossible | later
      · nomatch impossible
      · exact ih grows later

end BlockSearch

namespace UnlimitedInformation

def IsGap (information : UnlimitedInformation) (block : Nat) : Prop :=
  1 ≤ block ∧ block < information.blockCount ∧ information.blockArray block = none

def FitsAnother (information : UnlimitedInformation) : Prop :=
  information.objectsGetMaximumIndex + information.objectsPerBlock ≤ objectsIdFinalIndex

instance (information : UnlimitedInformation) : Decidable information.FitsAnother := by
  unfold FitsAnother
  infer_instance

end UnlimitedInformation

namespace UnlimitedClass

def Creates (state : UnlimitedClass) (call : UnlimitedCall) (after : UnlimitedClass) : Prop :=
  state.perform call = some after ∧ ∃ object, after.inUse = object :: state.inUse

end UnlimitedClass

namespace UnlimitedCall

def Extends (state : UnlimitedClass) (call : UnlimitedCall) (array : Nat) : Prop :=
  call = .allocate ⟨some array, true, true⟩ ∧ state.information.inactiveChain = []

/-- An extension with memory refills a gap if there is one; it fails only if there is none and
no further block fits into the index space. -/
def Reuses (state : UnlimitedClass) (call : UnlimitedCall) : Prop :=
  ∀ array, call.Extends state array →
    ((∃ block, state.information.IsGap block) → ∃ block after,
      state.information.IsGap block ∧ state.Creates call after ∧
        after.information.blockArray block = some array ∧
        after.information.maximumId = state.information.maximumId) ∧
    ((∃ after, state.Creates call after) ∨
      (∀ block, ¬ state.information.IsGap block) ∧ ¬ state.information.FitsAnother)

/-- When there is a gap, there is also room for another block behind the last one. -/
def LeavesRoom (state : UnlimitedClass) (call : UnlimitedCall) : Prop :=
  ∀ array block, call.Extends state array → state.information.IsGap block →
    state.information.FitsAnother

def ReusesIn (state : Option UnlimitedClass) (call : UnlimitedCall) : Prop :=
  ∀ before ∈ state, call.Reuses before

def LeavesRoomIn (state : Option UnlimitedClass) (call : UnlimitedCall) : Prop :=
  ∀ before ∈ state, call.LeavesRoom before

end UnlimitedCall

open UnlimitedInformation

namespace UnlimitedClass

variable {state : UnlimitedClass} {api cls node count array block : Nat}
variable {call : UnlimitedCall} {object : ObjectAddress}

theorem Consistent.searchBlock_gap (consistent : Consistent state api cls node count)
    (gap : state.information.IsGap block) :
    state.information.searchBlock.doExtend = false ∧
      state.information.IsGap state.information.searchBlock.block := by
  obtain ⟨notFirst, bounded, vacant⟩ := gap
  obtain ⟨foundFirst, -, foundVacant, stopped⟩ := consistent.searchBlock_found
  have keeps : state.information.searchBlock.doExtend ≠ true := by
    intro grows
    rw [consistent.blockCount_eq] at bounded
    obtain ⟨blocks, hasTables⟩ := consistent.hasTables (Nat.lt_of_le_of_lt notFirst bounded)
    obtain ⟨-, length, -⟩ := consistent.tables_some hasTables
    unfold searchBlock at grows
    simp only [hasTables] at grows
    refine BlockSearch.walk_grows _ grows ?_
    rw [consistent.blockCount_eq, List.take_of_length_le (Nat.le_of_eq length)]
    rw [blockArray, if_neg (Nat.ne_of_gt notFirst), hasTables, Option.bind_some,
      List.getElem?_eq_getElem (length.symm ▸ bounded)] at vacant
    have slot : blocks[block]? = some none := by
      rw [List.getElem?_eq_getElem (length.symm ▸ bounded)]
      exact congrArg some vacant
    refine List.mem_of_getElem? (i := block - 1) ?_
    rw [List.getElem?_drop, Nat.add_sub_cancel' notFirst]
    exact slot
  rcases stopped with ⟨grows, -⟩ | ⟨isKept, within⟩
  · exact absurd grows keeps
  · refine ⟨isKept, foundFirst, ?_, foundVacant⟩
    rw [consistent.blockCount_eq]
    exact within

theorem objectsActivateUnlimited_blocks {information activated : UnlimitedInformation}
    {memory : ObjectsMemory}
    (activates : information.objectsActivateUnlimited memory object = some activated) :
    activated.blockArray = information.blockArray ∧
      activated.maximumId = information.maximumId ∧
      activated.objectsPerBlock = information.objectsPerBlock ∧
      activated.inactiveChain = information.inactiveChain := by
  simp only [objectsActivateUnlimited] at activates
  split at activates
  · split at activates
    · cases activates
      exact ⟨rfl, rfl, rfl, rfl⟩
    · cases activates
  · cases activates
    exact ⟨rfl, rfl, rfl, rfl⟩

theorem Consistent.creates (consistent : Consistent state api cls node count)
    (extending : call.Extends state array) (fits : state.information.FitsAnother)
    (unused : ∀ block, state.information.blockArray block ≠ some array) :
    ∃ after newCount, state.Creates call after ∧ Consistent after api cls node newCount ∧
      state.information.searchBlock.block < newCount ∧ newCount ≤ count + 1 ∧
      (∀ other, after.information.blockArray other =
        if other = state.information.searchBlock.block then some array
        else state.information.blockArray other) ∧
      (state.information.searchBlock.doExtend = false →
        after.information.maximumId = state.information.maximumId) ∧
      after.opened = state.opened ∧
      after.information.objectsPerBlock = state.information.objectsPerBlock := by
  obtain ⟨rfl, chain⟩ := extending
  obtain ⟨extended, written, newCount, isExtended, holds, bounded, most, full, filled, same,
    size⟩ := consistent.extends_found fits unused true fun _ => rfl
  have notFirst := consistent.searchBlock_found.1
  have handled : state.information.extendInformation state.memory ⟨some array, true, true⟩ =
      some (extended, written) := by
    simp only [UnlimitedInformation.extendInformation, isExtended, bind, Option.bind_some]
    cases state.information.extend with
    | objects => rfl
    | threads => simp
  have isArray := (filled _).trans (if_pos rfl)
  have first := objectAt_block holds.size_pos isArray
    (show (ObjectAddress.mk array 0).position < _ from holds.size_pos)
  have inside : (state.information.searchBlock.block * extended.objectsPerBlock + 0) /
      extended.objectsPerBlock = state.information.searchBlock.block :=
    (BlockTally.inside_iff holds.size_pos).mpr
      ⟨Nat.le_refl _, Nat.lt_add_of_pos_right holds.size_pos⟩
  have member : ⟨array, 0⟩ ∈ extended.inactiveChain :=
    holds.inactive_of_full notFirst full first inside
  obtain ⟨object, rest, extendedChain⟩ := List.exists_cons_of_ne_nil (List.ne_nil_of_mem member)
  obtain ⟨activated, isActivated, stays⟩ := holds.activate extendedChain
  obtain ⟨arrays, maximum, sizes, -⟩ := objectsActivateUnlimited_blocks isActivated
  refine ⟨{ state with
    information := activated, memory := written, inUse := object :: state.inUse }, newCount,
    ⟨?_, object, rfl⟩, stays, bounded, most, ?_, ?_, rfl, sizes.trans size⟩
  · simp [UnlimitedClass.perform, UnlimitedInformation.objectsAllocateWithExtend,
      UnlimitedInformation.objectsGetInactive, ObjectsInformation.objectsGetInactive,
      chain, handled, extendedChain, show _ = some activated from isActivated]
  · rw [show activated.blockArray = extended.blockArray from arrays]
    exact filled
  · intro keeps
    exact maximum.trans (same keeps)

theorem not_creates {after : UnlimitedClass} (extending : call.Extends state array)
    (full : ¬ state.information.FitsAnother) : ¬ state.Creates call after := by
  obtain ⟨rfl, chain⟩ := extending
  rintro ⟨performs, object, created⟩
  have refused : state.information.objectsExtendInformation state.memory
      ⟨some array, true, true⟩ = some (0, state.information, state.memory) := by
    rw [UnlimitedInformation.objectsExtendInformation, objectsExtendSize,
      if_pos (Nat.not_le.mp full)]
  have handled : state.information.extendInformation state.memory ⟨some array, true, true⟩ =
      some (state.information, state.memory) := by
    simp only [UnlimitedInformation.extendInformation, refused, bind, Option.bind_some]
    cases state.information.extend with
    | objects => rfl
    | threads => rfl
  simp only [UnlimitedClass.perform, UnlimitedInformation.objectsAllocateWithExtend,
    UnlimitedInformation.objectsGetInactive, ObjectsInformation.objectsGetInactive, chain, handled,
    bind, Option.bind_some, pure, Option.map_some, Option.some.injEq] at performs
  rw [← performs] at created
  exact absurd created.symm (List.cons_ne_self object state.inUse)

theorem Consistent.reuses_iff (consistent : Consistent state api cls node count)
    (promised : call.Promised state) : call.Reuses state ↔ call.LeavesRoom state := by
  constructor
  · intro reuses array block extending gap
    obtain ⟨_, after, -, created, -⟩ := (reuses array extending).1 ⟨block, gap⟩
    exact Decidable.not_not.mp fun full => not_creates extending full created
  · intro room array extending
    have unused : ∀ block, state.information.blockArray block ≠ some array := by
      obtain ⟨rfl, -⟩ := extending
      exact UnlimitedCall.unused promised array rfl
    by_cases fits : state.information.FitsAnother
    · obtain ⟨after, _, created, -, -, -, filled, same, -⟩ :=
        consistent.creates extending fits unused
      refine ⟨fun ⟨block, gap⟩ => ?_, .inl ⟨after, created⟩⟩
      obtain ⟨keeps, isGap⟩ := consistent.searchBlock_gap gap
      exact ⟨_, after, isGap, created, (filled _).trans (if_pos rfl), same keeps⟩
    · have noGap : ∀ block, ¬ state.information.IsGap block :=
        fun block gap => fits (room array block extending gap)
      exact ⟨fun ⟨block, gap⟩ => absurd gap (noGap block), .inr ⟨noGap, fits⟩⟩

end UnlimitedClass

/-- All extensions of a run reuse the gaps if and only if each of them that finds a gap also
leaves room for another block. -/
theorem unlimitedRun_reuses_iff (api cls : Nat) (extend : ObjectsExtend) (max : BitVec 16)
    (positive : 0 < max.toNat) (objects : Nat) (memory : ObjectsMemory)
    (calls : List UnlimitedCall)
    (promised : Meets UnlimitedClass.step (fun state call => call.PromisedIn state)
      (some (UnlimitedClass.initial api cls extend max objects memory)) calls) :
    Meets UnlimitedClass.step (fun state call => call.ReusesIn state)
        (some (UnlimitedClass.initial api cls extend max objects memory)) calls ↔
      Meets UnlimitedClass.step (fun state call => call.LeavesRoomIn state)
        (some (UnlimitedClass.initial api cls extend max objects memory)) calls := by
  let Reached (reached : Option UnlimitedClass) : Prop :=
    ∃ state count, reached = some state ∧ state.Consistent api cls 1 count
  have start : Reached (some (UnlimitedClass.initial api cls extend max objects memory)) :=
    ⟨_, 1, rfl, UnlimitedClass.initial_consistent api cls extend positive objects memory⟩
  refine meets_iff_meets Reached start promised ?_ ?_
  · rintro reached call ⟨state, count, rfl, consistent⟩ promised -
    obtain ⟨performed, after, performs, holds⟩ := consistent.perform (promised state rfl)
    exact ⟨performed, after, performs, holds⟩
  · rintro reached call ⟨state, count, rfl, consistent⟩ promised
    have agrees := consistent.reuses_iff (promised state rfl)
    constructor
    · intro reuses before same
      cases same
      exact agrees.mp (reuses state rfl)
    · intro room before same
      cases same
      exact agrees.mpr (room state rfl)

/-- A class with blocks of one object reuses the gap of its first block. -/
theorem growthCalls_reuse :
    Meets UnlimitedClass.step (fun state call => call.ReusesIn state)
      (some (UnlimitedClass.initial 2 5 .objects 1 1 clearMemory)) growthCalls := by
  have fits : Meets UnlimitedClass.step
      (fun state _ => ∀ before ∈ state, before.information.FitsAnother)
      (some (UnlimitedClass.initial 2 5 .objects 1 1 clearMemory)) growthCalls := by decide
  have room : Meets UnlimitedClass.step (fun state call => call.LeavesRoomIn state)
      (some (UnlimitedClass.initial 2 5 .objects 1 1 clearMemory)) growthCalls :=
    fits.imp fun _ _ fits before same _ _ _ _ => fits before same
  exact (unlimitedRun_reuses_iff 2 5 .objects 1 (by decide) 1 clearMemory growthCalls
    (by decide)).mpr room

namespace UnlimitedClass

def Reaches (before after : UnlimitedClass) : Prop :=
  ∃ calls, Meets step (fun state call => call.PromisedIn state) (some before) calls ∧
    run step (some before) calls = some after

variable {before middle after state : UnlimitedClass} {count array : Nat}
variable {call : UnlimitedCall} {object : ObjectAddress}

theorem Reaches.refl (state : UnlimitedClass) : Reaches state state := ⟨[], trivial, rfl⟩

theorem Reaches.trans (first : Reaches before middle) (second : Reaches middle after) :
    Reaches before after := by
  obtain ⟨calls, promised, reached⟩ := first
  obtain ⟨more, promisedMore, reachedMore⟩ := second
  refine ⟨calls ++ more, meets_append.mpr ⟨promised, ?_⟩, ?_⟩
  · rw [reached]
    exact promisedMore
  · rw [run_append, reached]
    exact reachedMore

theorem Reaches.of_perform (call : UnlimitedCall) (promised : call.Promised state)
    (performs : state.perform call = some after) : Reaches state after := by
  refine ⟨[call], ⟨?_, trivial⟩, performs⟩
  intro given same
  cases same
  exact promised

structure Idle (state : UnlimitedClass) (size count : Nat) : Prop where
  consistent : Consistent state 2 5 1 count
  size : state.information.objectsPerBlock = size
  closed : state.opened = []

variable {size : Nat}

theorem Idle.drain (idle : state.Idle size count) :
    ∃ after, state.Reaches after ∧ after.Idle size count ∧
      after.information.inactiveChain = [] ∧
      after.information.blockArray = state.information.blockArray := by
  obtain ⟨chain, hasChain⟩ : ∃ chain, state.information.inactiveChain = chain := ⟨_, rfl⟩
  induction chain generalizing state with
  | nil => exact ⟨state, .refl state, idle, hasChain, rfl⟩
  | cons object rest ih =>
    obtain ⟨activated, activates, holds⟩ := idle.consistent.activate hasChain
    obtain ⟨arrays, -, sizes, chain⟩ := objectsActivateUnlimited_blocks activates
    have promised : (UnlimitedCall.allocate ⟨none, false, false⟩).Promised state :=
      fun array isObjects => (Option.not_mem_none array isObjects).elim
    have performs : state.perform (.allocate ⟨none, false, false⟩) = some
        { state with information := activated, inUse := object :: state.inUse } := by
      simp [UnlimitedClass.perform, UnlimitedInformation.objectsAllocateWithExtend,
        UnlimitedInformation.objectsGetInactive, ObjectsInformation.objectsGetInactive,
        hasChain, activates]
    have next : Idle { state with information := activated, inUse := object :: state.inUse }
        size count := ⟨holds, sizes.trans idle.size, idle.closed⟩
    obtain ⟨after, reaches, idleAfter, drained, same⟩ := ih next chain
    refine ⟨after, .trans (.of_perform _ promised performs) reaches, idleAfter, drained, ?_⟩
    exact same.trans arrays

theorem exists_promised (state : UnlimitedClass) :
    ∃ array, (UnlimitedCall.allocate ⟨some array, true, true⟩).Promised state := by
  obtain ⟨array, fresh⟩ := Infinite.exists_notMem_finset
    (state.information.initialObjects :: state.information.objectBlocks.getD []).toFinset.eraseNone
  rw [Finset.mem_eraseNone, List.mem_toFinset] at fresh
  obtain ⟨notInitial, unused⟩ := List.ne_and_not_mem_of_not_mem_cons fresh
  refine ⟨array, fun given isObjects => ?_⟩
  cases isObjects
  refine ⟨notInitial.symm, fun blocks hasTables member => unused ?_⟩
  rw [Option.mem_def.mp hasTables]
  exact member

section

variable (idle : state.Idle size count)
include idle

theorem Idle.grow (empty : state.information.inactiveChain = [])
    (noGap : ∀ block, ¬ state.information.IsGap block)
    (fits : (count + 1) * size ≤ objectsIdFinalIndex) :
    ∃ after array, state.Reaches after ∧ after.Idle size (count + 1) ∧
      after.information.inactiveChain = [] ∧
      ∀ other, after.information.blockArray other =
        if other = count then some array else state.information.blockArray other := by
  obtain ⟨consistent, isSize, closed⟩ := idle
  obtain ⟨array, promised⟩ := exists_promised state
  obtain ⟨notFirst, -, vacant, stopped⟩ := consistent.searchBlock_found
  have isLast : state.information.searchBlock.block = count := by
    rcases stopped with ⟨-, isCount⟩ | ⟨-, bounded⟩
    · exact isCount
    · rw [← consistent.blockCount_eq] at bounded
      exact absurd ⟨notFirst, bounded, vacant⟩ (noGap _)
  have fitsAnother : state.information.FitsAnother := by
    rw [FitsAnother, consistent.objectsGetMaximumIndex_eq, isSize, ← Nat.succ_mul]
    exact fits
  obtain ⟨created, newCount, ⟨performs, -⟩, holds, more, most, arrays, -, opened, size⟩ :=
    consistent.creates ⟨rfl, empty⟩ fitsAnother (UnlimitedCall.unused promised array rfl)
  have isCount : newCount = count + 1 := by omega
  subst isCount
  rw [isLast] at arrays
  obtain ⟨after, reaches, idleAfter, drained, same⟩ :=
    Idle.drain ⟨holds, size.trans isSize, opened.trans closed⟩
  exact ⟨after, array, .trans (.of_perform _ promised performs) reaches, idleAfter, drained,
    fun other => (congrFun same other).trans (arrays other)⟩

theorem Idle.free (isHeld : object ∈ state.inUse) (later : size ≤ objectIndex state.memory object)
    (few : state.information.inactive < size + size / 2) :
    ∃ after, state.Reaches after ∧ after.Idle size count ∧
      after.information.blockArray = state.information.blockArray ∧
      after.information.inactiveChain = state.information.inactiveChain ++ [object] ∧
      after.information.inactive = state.information.inactive + 1 ∧
      after.memory = state.memory ∧ after.inUse = state.inUse.erase object := by
  obtain ⟨consistent, isSize, closed⟩ := idle
  have notOpen : ∀ id, (id, object) ∉ state.opened := by
    rw [closed]
    exact fun id => List.not_mem_nil
  obtain ⟨counted, frees⟩ := consistent.putBack isHeld notOpen (isSize ▸ later)
  rw [isSize, if_neg (by omega)] at frees
  refine ⟨{ state with
    information := putBack state.information state.memory object
    inUse := state.inUse.erase object }, .of_perform (.free object) ?_ ?_,
    ⟨counted, isSize, closed⟩, rfl, rfl, rfl, rfl, rfl⟩
  · refine ⟨isHeld, fun pair isOpen => ?_⟩
    rw [closed] at isOpen
    nomatch isOpen
  · rw [UnlimitedClass.perform, frees]
    rfl

theorem Idle.freeAll (objects : List ObjectAddress)
    (held : ∀ object ∈ objects, object ∈ state.inUse) (distinct : objects.Nodup)
    (later : ∀ object ∈ objects, size ≤ objectIndex state.memory object)
    (few : state.information.inactive + objects.length ≤ size + size / 2) :
    ∃ after, state.Reaches after ∧ after.Idle size count ∧
      after.information.blockArray = state.information.blockArray ∧
      after.information.inactiveChain = state.information.inactiveChain ++ objects ∧
      after.information.inactive = state.information.inactive + objects.length ∧
      after.memory = state.memory ∧
      ∀ object ∈ state.inUse, object ∉ objects → object ∈ after.inUse := by
  induction objects generalizing state with
  | nil =>
    exact ⟨state, .refl state, idle, rfl, (List.append_nil _).symm, rfl, rfl,
      fun _ member _ => member⟩
  | cons object rest ih =>
    obtain ⟨different, distinct⟩ := List.nodup_cons.mp distinct
    rw [List.length_cons] at few
    obtain ⟨middle, first, idleMiddle, arrays, chain, inactive, memory, inUse⟩ :=
      idle.free (held object List.mem_cons_self) (later object List.mem_cons_self) (by omega)
    obtain ⟨after, more, idleAfter, arraysAfter, chainAfter, inactiveAfter, memoryAfter,
      inUseAfter⟩ := ih idleMiddle
        (fun other member => by
          rw [inUse]
          refine (List.mem_erase_of_ne ?_).mpr (held other (List.mem_cons_of_mem _ member))
          rintro rfl
          exact different member)
        distinct
        (fun other member => by
          rw [memory]
          exact later other (List.mem_cons_of_mem _ member))
        (by omega)
    refine ⟨after, first.trans more, idleAfter, arraysAfter.trans arrays, ?_, ?_,
      memoryAfter.trans memory, fun other member outside => ?_⟩
    · rw [chainAfter, chain, List.append_assoc]
      rfl
    · rw [inactiveAfter, inactive, List.length_cons]
      omega
    · obtain ⟨notFirst, notRest⟩ := List.ne_and_not_mem_of_not_mem_cons outside
      refine inUseAfter other ?_ notRest
      rw [inUse]
      exact (List.mem_erase_of_ne notFirst).mpr member

end

theorem Consistent.shrinks {api cls node block : Nat}
    (consistent : Consistent state api cls node count) (notFirst : 1 ≤ block)
    (bounded : block < count)
    (full : state.information.inactivePerBlock[block]? = some state.information.objectsPerBlock) :
    ∃ shrunk freed, state.information.objectsShrinkInformation state.memory = some shrunk ∧
      Consistent { state with information := shrunk } api cls node count ∧
      shrunk.IsGap freed ∧ shrunk.objectsPerBlock = state.information.objectsPerBlock := by
  rw [UnlimitedInformation.objectsShrinkInformation, consistent.blockCount_eq]
  split
  · next missing =>
      have member : block ∈ List.range' 1 (count - 1) := List.mem_range'_1.mpr (by omega)
      exact absurd (decide_eq_true full) (List.find?_eq_none.mp missing block member)
  · next found isFound =>
      obtain ⟨foundFirst, within⟩ := List.mem_range'_1.mp (List.mem_of_find?_eq_some isFound)
      have foundFull := List.find?_some isFound
      have inside : found < count := by omega
      obtain ⟨blocks, hasTables⟩ := consistent.hasTables (Nat.lt_of_le_of_lt notFirst bounded)
      obtain ⟨freed, frees, holds⟩ :=
        consistent.objectsFreeObjectsBlock foundFirst inside (of_decide_eq_true foundFull)
      have explicit := consistent.objectsFreeObjectsBlock_eq hasTables foundFirst inside
      cases explicit.symm.trans frees
      refine ⟨_, found, frees, holds, ⟨foundFirst, ?_, ?_⟩, rfl⟩
      · rw [show UnlimitedInformation.blockCount _ = count from holds.blockCount_eq]
        exact inside
      · rw [consistent.withoutBlock_blockArray hasTables foundFirst inside, if_pos rfl]

theorem Idle.noGap (idle : state.Idle size count)
    (present : ∀ block, 1 ≤ block → block < count → state.information.blockArray block ≠ none)
    (block : Nat) : ¬ state.information.IsGap block := by
  rintro ⟨notFirst, bounded, vacant⟩
  rw [idle.consistent.blockCount_eq] at bounded
  exact present block notFirst bounded vacant

theorem Idle.growTwice (idle : state.Idle size 1) (fits : 3 * size ≤ objectsIdFinalIndex) :
    ∃ after first second, state.Reaches after ∧ after.Idle size 3 ∧
      after.information.inactiveChain = [] ∧
      after.information.blockArray 1 = some first ∧
      after.information.blockArray 2 = some second := by
  obtain ⟨drained, toDrained, idleDrained, empty, -⟩ := idle.drain
  obtain ⟨two, first, toTwo, idleTwo, emptyTwo, arraysTwo⟩ :=
    idleDrained.grow empty (idleDrained.noGap fun block => by omega) (by omega)
  obtain ⟨three, second, toThree, idleThree, emptyThree, arraysThree⟩ :=
    idleTwo.grow emptyTwo
      (idleTwo.noGap fun block notFirst bounded => by
        have isOne : block = 1 := by omega
        rw [arraysTwo, if_pos isOne]
        exact Option.some_ne_none first)
      fits
  refine ⟨three, first, second, toDrained.trans (toTwo.trans toThree), idleThree, emptyThree,
    ?_, ?_⟩
  · rw [arraysThree, if_neg (by decide), arraysTwo, if_pos rfl]
  · rw [arraysThree, if_pos rfl]

/-- The first objects of a block. -/
def objectsOf (array count : Nat) : List ObjectAddress :=
  (List.range count).map (ObjectAddress.mk array)

theorem mem_objectsOf :
    object ∈ objectsOf array count ↔ ∃ position < count, object = ⟨array, position⟩ := by
  simp [objectsOf, eq_comm]

theorem length_objectsOf (array count : Nat) : (objectsOf array count).length = count := by
  rw [objectsOf, List.length_map, List.length_range]

section

variable {first second : Nat} (idle : state.Idle size 3)
  (empty : state.information.inactiveChain = [])
include idle empty

/-- When none is inactive, the objects of a block are all in use, under their indexes. -/
theorem Idle.held {block position : Nat}
    (isArray : state.information.blockArray block = some array) (small : position < size) :
    ⟨array, position⟩ ∈ state.inUse ∧
      objectIndex state.memory ⟨array, position⟩ = block * size + position := by
  have present := objectAt_block idle.consistent.size_pos isArray
    (show (ObjectAddress.mk array position).position < _ from idle.size.symm ▸ small)
  have member := (idle.consistent.held _).mpr ⟨_, present⟩
  rw [empty, List.nil_append] at member
  refine ⟨member, ?_⟩
  rw [idle.consistent.objectIndex_eq present, idle.size]

variable (isFirst : state.information.blockArray 1 = some first)
  (isSecond : state.information.blockArray 2 = some second)
include isFirst isSecond

theorem Idle.countP_first {part : Nat} (small : part ≤ size) :
    (objectsOf first size ++ objectsOf second part).countP
      (fun object => objectIndex state.memory object / size = 1) = size := by
  have positive : 0 < size := idle.size ▸ idle.consistent.size_pos
  have inOne : ∀ object ∈ objectsOf first size, objectIndex state.memory object / size = 1 := by
    intro object member
    obtain ⟨position, bounded, rfl⟩ := mem_objectsOf.mp member
    rw [(idle.held empty isFirst bounded).2, BlockTally.inside_iff positive]
    omega
  have inTwo : ∀ object ∈ objectsOf second part, objectIndex state.memory object / size = 2 := by
    intro object member
    obtain ⟨position, bounded, rfl⟩ := mem_objectsOf.mp member
    rw [(idle.held empty isSecond (bounded.trans_le small)).2, BlockTally.inside_iff positive]
    omega
  rw [List.countP_append,
    List.countP_eq_length.mpr fun object member => decide_eq_true (inOne object member),
    List.countP_eq_zero.mpr fun object member => by simp [inTwo object member],
    Nat.add_zero, length_objectsOf]

omit empty in
theorem Idle.different : first ≠ second := by
  rintro rfl
  have same := idle.consistent.distinct 1 2 first isFirst isSecond
  nomatch same

/-- The second block and half of the third one are freed. -/
theorem Idle.freeHalf : ∃ freed, state.Reaches freed ∧ freed.Idle size 3 ∧
    freed.information.inactiveChain = objectsOf first size ++ objectsOf second (size / 2) ∧
    freed.information.inactive = size + size / 2 ∧ freed.memory = state.memory ∧
    ⟨second, size / 2⟩ ∈ freed.inUse := by
  have positive : 0 < size := idle.size ▸ idle.consistent.size_pos
  have half : size / 2 < size := Nat.div_lt_self positive (by decide)
  have different := idle.different isFirst isSecond
  have inactive : state.information.inactive = 0 := by
    rw [idle.consistent.tally.all, empty]
    rfl
  have lengths : (objectsOf first size ++ objectsOf second (size / 2)).length =
      size + size / 2 := by
    rw [List.length_append, length_objectsOf, length_objectsOf]
  have each : ∀ object ∈ objectsOf first size ++ objectsOf second (size / 2),
      object ∈ state.inUse ∧ size ≤ objectIndex state.memory object := by
    intro object member
    rcases List.mem_append.mp member with inBlock | inPart
    · obtain ⟨position, small, rfl⟩ := mem_objectsOf.mp inBlock
      obtain ⟨isHeld, index⟩ := idle.held empty isFirst small
      exact ⟨isHeld, by omega⟩
    · obtain ⟨position, small, rfl⟩ := mem_objectsOf.mp inPart
      obtain ⟨isHeld, index⟩ := idle.held empty isSecond (small.trans half)
      exact ⟨isHeld, by omega⟩
  have distinct : (objectsOf first size ++ objectsOf second (size / 2)).Nodup := by
    have injective : ∀ array, Function.Injective (ObjectAddress.mk array) :=
      fun _ _ _ same => (ObjectAddress.mk.inj same).2
    refine List.nodup_append.mpr ⟨List.nodup_range.map (injective first),
      List.nodup_range.map (injective second), ?_⟩
    rintro object inBlock other inPart rfl
    obtain ⟨position, -, rfl⟩ := mem_objectsOf.mp inBlock
    obtain ⟨otherPosition, -, same⟩ := mem_objectsOf.mp inPart
    exact different (ObjectAddress.mk.inj same).1
  obtain ⟨freed, toFreed, idleFreed, -, chain, inactiveFreed, memory, inUse⟩ :=
    idle.freeAll _ (fun object member => (each object member).1) distinct
      (fun object member => (each object member).2) (by omega)
  rw [empty, List.nil_append] at chain
  refine ⟨freed, toFreed, idleFreed, chain, by omega, memory,
    inUse _ (idle.held empty isSecond half).1 fun member => ?_⟩
  rcases List.mem_append.mp member with inBlock | inPart
  · obtain ⟨position, -, same⟩ := mem_objectsOf.mp inBlock
    exact different (ObjectAddress.mk.inj same).1.symm
  · obtain ⟨position, small, same⟩ := mem_objectsOf.mp inPart
    exact Nat.ne_of_gt small (ObjectAddress.mk.inj same).2

theorem Idle.shrinkOnce : ∃ after block, state.Reaches after ∧ after.Idle size 3 ∧
    after.information.inactiveChain = [] ∧ after.information.IsGap block := by
  have positive : 0 < size := idle.size ▸ idle.consistent.size_pos
  have half : size / 2 < size := Nat.div_lt_self positive (by decide)
  obtain ⟨freed, toFreed, idleFreed, chain, inactive, memory, held⟩ :=
    idle.freeHalf empty isFirst isSecond
  -- One more object of the third block, and more than one and a half blocks are inactive.
  have notOpen : ∀ id, (id, ⟨second, size / 2⟩) ∉ freed.opened := by
    rw [idleFreed.closed]
    exact fun id => List.not_mem_nil
  obtain ⟨counted, frees⟩ := idleFreed.consistent.putBack held notOpen (by
    rw [idleFreed.size, memory, (idle.held empty isSecond half).2]
    omega)
  rw [idleFreed.size, if_pos (by omega)] at frees
  have full : (putBack freed.information freed.memory ⟨second, size / 2⟩).inactivePerBlock[1]? =
      some size := by
    have counts := counted.accounted.perBlock 1 (by
      rw [counted.blockCount_eq]
      decide) (Nat.le_refl 1)
    refine counts.trans (congrArg some ?_)
    show List.countP (fun object =>
      objectIndex freed.memory object / freed.information.objectsPerBlock = 1)
      (freed.information.inactiveChain ++ [⟨second, size / 2⟩]) = size
    have last : objectsOf second (size / 2 + 1) =
        objectsOf second (size / 2) ++ [⟨second, size / 2⟩] := by
      rw [objectsOf, List.range_succ, List.map_append]
      rfl
    rw [chain, idleFreed.size, memory, List.append_assoc, ← last]
    exact idle.countP_first empty isFirst isSecond half
  obtain ⟨shrunk, gap, shrinks, holds, isGap, sizes⟩ :=
    counted.shrinks (Nat.le_refl 1) (by decide) (full.trans (congrArg some idleFreed.size.symm))
  obtain ⟨after, toAfter, idleAfter, drained, same⟩ :=
    Idle.drain ⟨holds, sizes.trans idleFreed.size, idleFreed.closed⟩
  refine ⟨after, gap, (toFreed.trans (.of_perform (.free ⟨second, size / 2⟩) ?_ ?_)).trans
    toAfter, idleAfter, drained, isGap.1, ?_, ?_⟩
  · refine ⟨held, fun pair isOpen => ?_⟩
    rw [idleFreed.closed] at isOpen
    nomatch isOpen
  · rw [UnlimitedClass.perform, frees, shrinks]
    rfl
  · rw [idleAfter.consistent.blockCount_eq, ← holds.blockCount_eq]
    exact isGap.2.1
  · rw [same]
    exact isGap.2.2

end

end UnlimitedClass

/-- A class with blocks of 16384 objects has three blocks and has given the second one back.
The next extension does not refill the gap, although there is memory. -/
theorem gap_not_reused :
    ∃ calls : List UnlimitedCall,
      Meets UnlimitedClass.step (fun state call => call.PromisedIn state)
        (some (UnlimitedClass.initial 2 5 .objects 16384 1 clearMemory)) calls ∧
      ¬ Meets UnlimitedClass.step (fun state call => call.ReusesIn state)
        (some (UnlimitedClass.initial 2 5 .objects 16384 1 clearMemory)) calls := by
  have positive : 0 < (16384 : BitVec 16).toNat := by decide
  have start : (UnlimitedClass.initial 2 5 .objects 16384 1 clearMemory).Idle 16384 1 :=
    ⟨UnlimitedClass.initial_consistent 2 5 .objects positive 1 clearMemory, rfl, rfl⟩
  obtain ⟨grown, first, second, toGrown, idleGrown, empty, isFirst, isSecond⟩ :=
    start.growTwice (by decide)
  obtain ⟨state, block, toState, idle, drained, gap⟩ :=
    idleGrown.shrinkOnce empty isFirst isSecond
  obtain ⟨calls, promised, reached⟩ := toGrown.trans toState
  obtain ⟨array, fresh⟩ := UnlimitedClass.exists_promised state
  refine ⟨calls ++ [.allocate ⟨some array, true, true⟩], meets_append.mpr ⟨promised, ?_, trivial⟩,
    fun reuses => ?_⟩
  · rw [reached]
    intro given same
    cases same
    exact fresh
  · obtain ⟨-, last, -⟩ := meets_append.mp reuses
    rw [reached] at last
    have leavesRoom := (idle.consistent.reuses_iff fresh).mp (last state rfl)
    have room := leavesRoom array block ⟨rfl, drained⟩ gap
    rw [UnlimitedInformation.FitsAnother, idle.consistent.objectsGetMaximumIndex_eq,
      idle.size] at room
    exact absurd room (by decide)

end RTContainer.Score
