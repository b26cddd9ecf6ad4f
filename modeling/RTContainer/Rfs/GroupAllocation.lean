import RTContainer.Rfs.BitmapAllocation
import RTContainer.Rfs.Group

/-! Allocation from the groups of the RFS finds a number that is free as long as there is
one, and the test of a number tells whether it is allocated, as far as the test of a bit
is one of the bit. -/

set_option autoImplicit false

namespace RTContainer.Rfs

/-- `rtems_rfs_bitmap_map_test`. It shifts by the bit, not by its offset; what the processor
makes of a shift by the size of an element or more is given by `shift`. -/
def Bitmap.mapTest (bitmap : Bitmap) (shift : Nat → BitVec 32) (bit : Nat) : Except Nat Bool :=
  if bitmap.size ≤ bit then .error einval
  else .ok (bitmap.map (bit / elementBits : Nat) &&& shift bit == 0)

namespace FileSystem

/-- `rtems_rfs_group_bitmap_test`, on a disk of so many blocks. -/
def groupBitmapTest (fs : FileSystem) (shift : Nat → BitVec 32) (blocks : Nat) (inode : Bool)
    (no : Nat) : Except Nat Bool :=
  if no < rootIno ∨ (if inode then fs.groupCount * fs.groupInodes < no else blocks ≤ no) then
    .error einval
  else
    (fs.bitmap inode ((no - rootIno) / fs.groupSize inode)).mapTest shift
      ((no - rootIno) % fs.groupSize inode)

def Nearer (start first second : Nat) : Prop :=
  let distance (group : Nat) : Nat := group - start + (start - group)
  distance first < distance second ∨ distance first = distance second ∧ first < second

instance (start first second : Nat) : Decidable (Nearer start first second) :=
  inferInstanceAs (Decidable (_ ∨ _))

def Exhausted (fs : FileSystem) (inode : Bool) (group : Nat) : Prop :=
  ∀ bit < (fs.bitmap inode group).size, (fs.bitmap inode group).isSet bit = true

def SearchInPhase (fs : FileSystem) (inode : Bool) (start seed : Nat) : Prop :=
  ∀ group < fs.groupCount,
    (∀ other < fs.groupCount, Nearer start other group → fs.Exhausted inode other) →
    (fs.bitmap inode group).InPhaseFrom
      (if group = start then seed else if start < group then 0 else fs.groupSize inode - 1)

def ConsistentGroups (fs : FileSystem) : Prop :=
  ∀ inode, ∀ group < fs.groupCount, (fs.bitmap inode group).Consistent

variable {fs after : FileSystem} {inode : Bool} {group no : Nat}

def Seen (start offset : Nat) (updown up : Bool) (group : Nat) : Prop :=
  match updown, up with
  | true, true => start ≤ group + offset ∧ group < start + offset
  | true, false => start < group + offset ∧ group < start + offset
  | false, true => group < start + offset
  | false, false => start < group + offset

def Searched (fs : FileSystem) (inode : Bool) : Option (FileSystem × Nat) → Prop
  | some (after, _) => ∃ group, ∃ bitmap : Bitmap, after = fs.setBitmap inode group bitmap ∧
      (group < fs.groupCount → bitmap.Consistent)
  | none => ∀ group < fs.groupCount, fs.Exhausted inode group

variable {start offset : Nat} {up updown : Bool} {bitmap : Bitmap}

theorem groupAt_none (startInside : start < fs.groupCount)
    (outside : fs.groupAt start offset up = none) :
    if up then fs.groupCount ≤ start + offset else start < offset := by
  cases up <;> simp only [groupAt, Bool.false_eq_true, if_true, if_false] at outside ⊢ <;>
    split at outside
  · cases outside
  · omega
  · cases outside
  · omega

private theorem nearer_seen {other : Nat} (found : fs.groupAt start offset up = some group)
    (nearer : Nearer start other group) : Seen start offset updown up other := by
  have isGroup := (groupAt_some found).2.2
  cases up <;> cases updown <;>
    simp only [Seen, Nearer, Bool.false_eq_true, if_true, if_false] at * <;> omega

theorem scanGroups_searched (laid : fs.Laid inode) (consistent : fs.ConsistentGroups) {seed : Nat}
    (startInside : start < fs.groupCount) (seedInside : seed < (fs.bitmap inode start).size)
    (inPhase : fs.SearchInPhase inode start seed)
    (seen : ∀ group < fs.groupCount, Seen start offset updown up group → fs.Exhausted inode group) :
    fs.Searched inode (fs.scanGroups inode start seed offset updown up) := by
  have visit : ∀ (offset : Nat) (updown up : Bool) (group : Nat),
      (∀ group < fs.groupCount, Seen start offset updown up group → fs.Exhausted inode group) →
      fs.groupAt start offset up = some group →
      let bit := if offset = 0 then seed else if up then 0 else fs.groupSize inode - 1
      bit < (fs.bitmap inode group).size ∧ (fs.bitmap inode group).InPhaseFrom bit := by
    intro offset updown up group seen found
    refine ⟨scan_seed_lt laid found startInside seedInside, ?_⟩
    have given := inPhase group (groupAt_some found).1 fun other inside nearer =>
      seen other inside (nearer_seen found nearer)
    have isGroup := (groupAt_some found).2.2
    convert given using 1
    cases up <;> simp only [Bool.false_eq_true, if_true, if_false] at * <;>
      split <;> (try split) <;> (try split) <;> omega
  have exhausted : ∀ (offset : Nat) (updown up : Bool) (group : Nat),
      (∀ group < fs.groupCount, Seen start offset updown up group → fs.Exhausted inode group) →
      fs.groupAt start offset up = some group →
      (fs.bitmap inode group).mapAlloc
        (if offset = 0 then seed else if up then 0 else fs.groupSize inode - 1) = none →
      fs.Exhausted inode group := by
    intro offset updown up group seen found absent bit below
    obtain ⟨seedBelow, phase⟩ := visit offset updown up group seen found
    have complete := (Bitmap.mapAlloc_rightly
      (consistent inode group (groupAt_some found).1) seedBelow phase).1.1
    rw [absent] at complete
    by_contra isClear
    exact nomatch complete.mpr ⟨bit, below, Bool.eq_false_iff.mpr isClear⟩
  fun_induction scanGroups fs inode start seed offset updown up with
  | case1 offset up outside ih =>
    have bound := groupAt_none startInside outside
    refine ih fun group inside isSeen => seen group inside ?_
    cases up <;> simp only [Seen, Bool.not_true, Bool.not_false, Bool.false_eq_true,
      if_true, if_false] at * <;> omega
  | case2 offset updown up outside oneWay =>
    intro group inside
    have bound := groupAt_none startInside outside
    have oneWay : updown = false := Bool.eq_false_iff.mpr oneWay
    subst oneWay
    refine seen group inside ?_
    cases up <;> simp only [Seen, Bool.false_eq_true, if_true, if_false] at * <;> omega
  | case3 offset updown up group found bit bitmap index isFound =>
    obtain ⟨seedBelow, phase⟩ := visit offset updown up group seen found
    have isConsistent := consistent inode group (groupAt_some found).1
    obtain ⟨⟨-, allocates⟩, takes⟩ := Bitmap.mapAlloc_rightly isConsistent seedBelow phase
    have allocated := allocates bitmap index isFound
    refine ⟨group, bitmap, rfl, fun _ => ?_⟩
    rw [takes bitmap index isFound]
    exact isConsistent.takeBit allocated.inside allocated.clear
  | case4 offset updown up group found bit absent down ih =>
    obtain ⟨rfl, rfl⟩ : updown = true ∧ up = false := by simpa using down
    have full := exhausted offset true false group seen found absent
    have isGroup := (groupAt_some found).2.2
    refine ih fun other inside isSeen => ?_
    by_cases same : other = group
    · exact same ▸ full
    · refine seen other inside ?_
      simp only [Seen, Bool.false_eq_true, if_false] at *
      omega
  | case5 offset updown up group found bit absent notDown ih =>
    have full := exhausted offset updown up group seen found absent
    have isGroup := (groupAt_some found).2.2
    refine ih fun other inside isSeen => ?_
    by_cases same : other = group
    · exact same ▸ full
    · refine seen other inside ?_
      cases updown <;> cases up <;> simp only [Seen, Bool.not_true, Bool.not_false,
        Bool.and_true, Bool.and_false, Bool.false_eq_true, if_true, if_false, not_true] at * <;>
        omega

/-- The groups, and the numbers that have been allocated and not freed since. -/
structure GroupState where
  fs : FileSystem
  used : Bool → Nat → Bool

def GroupState.note (state : GroupState) (inode : Bool) (no : Nat) (value : Bool)
    (fs : FileSystem) : GroupState where
  fs := fs
  used kind other := if kind = inode ∧ other = no then value else state.used kind other

inductive GroupCall where
  | alloc (goal : Nat) (inode : Bool)
  | free (inode : Bool) (no : Nat)
  | test (inode : Bool) (no : Nat)

def GroupState.step (state : GroupState) : GroupCall → GroupState
  | .alloc goal inode =>
    match state.fs.groupBitmapAlloc goal inode with
    | some (fs, no) => state.note inode no true fs
    | none => state
  | .free inode no => state.note inode no false (state.fs.groupBitmapFree inode no).1
  | .test _ _ => state

/-- The numbers that are given are those of groups, or there is no goal for a block yet. -/
def GroupCall.InRange (fs : FileSystem) : GroupCall → Prop
  | .alloc goal inode => inode = false ∧ goal = 0 ∨ fs.Known inode goal
  | .free inode no => fs.Known inode no
  | .test inode no => (no - 1) / fs.groupSize inode < fs.groupCount

/-- A search does not decide on a clear bit out of phase, and a test is of a bit of the
first element of its group. -/
def GroupCall.Exact (fs : FileSystem) : GroupCall → Prop
  | .alloc goal inode =>
    fs.SearchInPhase inode ((goal - 1) / fs.groupSize inode) ((goal - 1) % fs.groupSize inode)
  | .free _ _ => True
  | .test inode no => (no - 1) % fs.groupSize inode < elementBits

/-- What a call answers agrees with the numbers in use. -/
def GroupState.Answers (shift : Nat → BitVec 32) (blocks : Nat) (state : GroupState) :
    GroupCall → Prop
  | .alloc goal inode =>
    match state.fs.groupBitmapAlloc goal inode with
    | some (_, no) => state.fs.Known inode no ∧ state.used inode no = false
    | none => ∀ group < state.fs.groupCount, state.fs.Exhausted inode group
  | .free inode no => (state.fs.groupBitmapFree inode no).2 = 0
  | .test inode no =>
    state.fs.groupBitmapTest shift blocks inode no = .ok true ↔ state.used inode no = true

/-- The bits that are set are those of the numbers in use. -/
def GroupState.Agrees (state : GroupState) : Prop :=
  ∀ inode no, state.fs.Marked inode no ↔ state.used inode no = true

structure GroupState.Holds (blocks : Nat) (state : GroupState) : Prop where
  laid : ∀ inode, state.fs.Laid inode
  onDisk : ∀ no, state.fs.Known false no → no < blocks
  consistent : state.fs.ConsistentGroups
  agrees : state.Agrees

variable {state : GroupState} {blocks : Nat} {shift : Nat → BitVec 32} {call : GroupCall}

theorem setBitmap_consistent (consistent : fs.ConsistentGroups)
    (isConsistent : group < fs.groupCount → bitmap.Consistent) :
    (fs.setBitmap inode group bitmap).ConsistentGroups := by
  intro kind other inside
  rw [setBitmap_bitmap]
  split
  next same => exact isConsistent (same.2 ▸ inside)
  next => exact consistent kind other inside

theorem GroupState.Holds.note (holds : state.Holds blocks) {value : Bool}
    (marks : state.fs.Marks inode no value (state.fs.setBitmap inode group bitmap))
    (known : state.fs.Known inode no)
    (isConsistent : group < state.fs.groupCount → bitmap.Consistent) :
    (state.note inode no value (state.fs.setBitmap inode group bitmap)).Holds blocks := by
  refine ⟨fun kind => marks.shape.laid kind (holds.laid kind),
    fun other isKnown => holds.onDisk other ((marks.shape.known false other).mp isKnown),
    setBitmap_consistent holds.consistent isConsistent, fun kind other => ?_⟩
  by_cases sameKind : kind = inode
  · subst sameKind
    refine (marks.marked other).trans ?_
    by_cases same : other = no
    · simp [GroupState.note, same]
    · simpa [GroupState.note, same] using holds.agrees kind other
  · refine (setBitmap_marked sameKind other).trans ?_
    simpa [GroupState.note, sameKind] using holds.agrees kind other

theorem groupBitmapAlloc_eq (fs : FileSystem) (inode : Bool) (goal : Nat) :
    fs.groupBitmapAlloc goal inode = fs.scanGroups inode ((goal - 1) / fs.groupSize inode)
      ((goal - 1) % fs.groupSize inode) 0 true true := by
  have index : (if inode = true ∨ rootIno ≤ goal then goal - rootIno else goal) = goal - 1 := by
    rw [rootIno]
    split <;> omega
  rw [groupBitmapAlloc]
  simp only [index]

theorem GroupState.Holds.alloc (holds : state.Holds blocks) {goal : Nat}
    (inRange : (GroupCall.alloc goal inode).InRange state.fs)
    (isExact : (GroupCall.alloc goal inode).Exact state.fs) :
    (state.step (.alloc goal inode)).Holds blocks ∧
      state.Answers shift blocks (.alloc goal inode) := by
  have laid := holds.laid inode
  have start : (goal - 1) / state.fs.groupSize inode < state.fs.groupCount ∧
      (goal - 1) % state.fs.groupSize inode <
        (state.fs.bitmap inode ((goal - 1) / state.fs.groupSize inode)).size := by
    rcases inRange with ⟨-, rfl⟩ | ⟨-, group, bit⟩
    · rw [Nat.zero_sub, Nat.zero_div, Nat.zero_mod]
      exact ⟨laid.some_group, laid.nonempty 0 laid.some_group⟩
    · exact ⟨group, bit⟩
  have searched : state.fs.Searched inode (state.fs.groupBitmapAlloc goal inode) := by
    rw [groupBitmapAlloc_eq]
    refine scanGroups_searched laid holds.consistent start.1 start.2 isExact fun group _ seen => ?_
    simp only [Seen] at seen
    omega
  have goalKnown : goal = 0 ∨ state.fs.Known inode goal := inRange.imp_left And.right
  rw [GroupState.step, Answers]
  cases result : state.fs.groupBitmapAlloc goal inode with
  | none =>
    rw [result] at searched
    exact ⟨holds, searched⟩
  | some found =>
    obtain ⟨known, isFree, marks⟩ := groupBitmapAlloc_some laid goalKnown result
    rw [result] at searched
    obtain ⟨group, bitmap, isAfter, isConsistent⟩ := searched
    rw [isAfter] at marks
    refine ⟨?_, known, ?_⟩
    · dsimp only
      rw [isAfter]
      exact holds.note marks known isConsistent
    · exact Bool.eq_false_iff.mpr fun used => isFree ((holds.agrees inode _).mpr used)

theorem GroupState.Holds.free (holds : state.Holds blocks) (known : state.fs.Known inode no) :
    (state.step (.free inode no)).Holds blocks ∧ state.Answers shift blocks (.free inode no) := by
  obtain ⟨after, freed, marks⟩ := groupBitmapFree_known known
  have isAfter : after = state.fs.setBitmap inode
      ((no - if inode then rootIno else superblockSize) / state.fs.groupSize inode)
      ((state.fs.bitmap inode
        ((no - if inode then rootIno else superblockSize) / state.fs.groupSize inode)).mapClear
        ((no - if inode then rootIno else superblockSize) % state.fs.groupSize inode)).1 := by
    rw [groupBitmapFree] at freed
    exact (congrArg Prod.fst freed).symm
  rw [GroupState.step, Answers, freed]
  rw [isAfter] at marks ⊢
  exact ⟨holds.note marks known fun inside => (holds.consistent inode _ inside).mapClear _, rfl⟩

theorem mapTest_eq (shifts : ∀ bit < elementBits, shift bit = 1#32 <<< bit) {bit : Nat}
    (inside : bit < bitmap.size) (small : bit < elementBits) :
    bitmap.mapTest shift bit = .ok (bitmap.isSet bit) := by
  have tests : (bitmap.map (bit / elementBits : Nat) &&& 1#32 <<< bit == 0) =
      !(bitmap.map (bit / elementBits : Nat)).getLsbD bit := by
    rw [← BitVec.twoPow_eq, BitVec.and_twoPow]
    cases (bitmap.map (bit / elementBits : Nat)).getLsbD bit with
    | true =>
      have different : BitVec.twoPow 32 bit ≠ 0 := fun zero => by
        have isBit := congrArg (BitVec.getLsbD · bit) zero
        simp only [BitVec.getLsbD_twoPow, decide_true, Bool.and_true] at isBit
        rw [decide_eq_true (show bit < 32 from small)] at isBit
        exact nomatch isBit.trans BitVec.getLsbD_zero
      simpa using different
    | false => rfl
  rw [Bitmap.mapTest, if_neg (Nat.not_le_of_lt inside), shifts bit small, tests, Bitmap.isSet,
    Nat.mod_eq_of_lt small, bitmapTest]

theorem GroupState.Holds.test (holds : state.Holds blocks)
    (shifts : ∀ bit < elementBits, shift bit = 1#32 <<< bit)
    (inside : (no - 1) / state.fs.groupSize inode < state.fs.groupCount)
    (small : (no - 1) % state.fs.groupSize inode < elementBits) :
    state.Answers shift blocks (.test inode no) := by
  rw [Answers, ← holds.agrees, groupBitmapTest]
  by_cases outside : no < rootIno ∨ (if inode = true
      then state.fs.groupCount * state.fs.groupInodes < no else blocks ≤ no)
  · rw [if_pos outside]
    refine iff_of_false (fun same => nomatch same) fun marked => ?_
    have known := marked.1
    rcases outside with zero | beyond
    · exact Nat.not_lt_of_ge known.1 zero
    · cases inode with
      | true =>
        have below := (Nat.div_lt_iff_lt_mul (holds.laid true).groupSize_pos).mp known.2.1
        simp only [groupSize, if_true] at beyond below
        omega
      | false =>
        have below := holds.onDisk no known
        simp only [Bool.false_eq_true, if_false] at beyond
        omega
  · rw [if_neg outside]
    have positive : 1 ≤ no := Nat.le_of_not_lt fun zero => outside (.inl zero)
    by_cases bitInside : (no - 1) % state.fs.groupSize inode <
        (state.fs.bitmap inode ((no - 1) / state.fs.groupSize inode)).size
    · rw [rootIno, mapTest_eq shifts bitInside small, Except.ok.injEq]
      exact (and_iff_right (show state.fs.Known inode no from ⟨positive, inside, bitInside⟩)).symm
    · rw [rootIno, Bitmap.mapTest, if_pos (Nat.le_of_not_lt bitInside)]
      exact iff_of_false (fun same => nomatch same) fun marked => bitInside marked.1.2.2

/-- In every run from a file system that has been opened, when no search decides on a clear bit
out of phase and each test is of a bit of a first element: the bits are those of the
numbers in use, and every answer agrees with them. -/
theorem groupRun_answers (fs : FileSystem) (blocks : Nat) (shift : Nat → BitVec 32)
    (laid : ∀ inode, fs.Laid inode) (onDisk : ∀ no, fs.Known false no → no < blocks)
    (opened : ∀ inode group, ∃ memory : Bitmap, fs.bitmap inode group = memory.createSearch)
    (shifts : ∀ bit < elementBits, shift bit = 1#32 <<< bit) (calls : List GroupCall)
    (inRange : Machine.Meets GroupState.step (fun state call => call.InRange state.fs)
      ⟨fs, fun inode no => decide (fs.Marked inode no)⟩ calls)
    (isExact : Machine.Meets GroupState.step (fun state call => call.Exact state.fs)
      ⟨fs, fun inode no => decide (fs.Marked inode no)⟩ calls) :
    Machine.Throughout GroupState.step GroupState.Agrees
        ⟨fs, fun inode no => decide (fs.Marked inode no)⟩ calls ∧
      Machine.Meets GroupState.step (GroupState.Answers shift blocks)
        ⟨fs, fun inode no => decide (fs.Marked inode no)⟩ calls := by
  have start : GroupState.Holds blocks ⟨fs, fun inode no => decide (fs.Marked inode no)⟩ := by
    refine ⟨laid, onDisk, fun inode group _ => ?_, fun inode no => decide_eq_true_iff.symm⟩
    obtain ⟨memory, isOpened⟩ := opened inode group
    change (fs.bitmap inode group).Consistent
    rw [isOpened]
    exact Bitmap.createSearch_consistent memory
  have each : ∀ (state : GroupState) (call : GroupCall), state.Holds blocks →
      call.InRange state.fs ∧ call.Exact state.fs →
      (state.step call).Holds blocks ∧ state.Answers shift blocks call := by
    intro state call holds given
    cases call with
    | alloc goal inode => exact holds.alloc given.1 given.2
    | free inode no => exact holds.free given.1
    | test inode no => exact ⟨holds, holds.test shifts given.1 given.2⟩
  have met := inRange.and isExact
  exact ⟨(Machine.throughout_of_preserved start (fun state call holds given =>
      (each state call holds given).1) met).imp fun _ => GroupState.Holds.agrees,
    Machine.meets_of_preserved (GroupState.Holds blocks) start
      (fun state call holds given => (each state call holds given).1)
      (fun state call holds given => (each state call holds given).2) met⟩

/-- A disk of two groups of forty blocks that are free. -/
def fortyBlocks : FileSystem where
  groupCount := 2
  groupBlocks := 40
  groupInodes := 40
  groups _ :=
    let bitmap := Bitmap.createSearch ⟨40, 0, fun _ => elementClear, fun _ => 0⟩
    ⟨bitmap, bitmap⟩
  inodesPerBlock := 9
  blocksPerBlock := 128
  tables _ _ := 0

/-- A shift by the size of an element or more leaves nothing. -/
def shiftOut (bit : Nat) : BitVec 32 := 1#32 <<< bit

theorem fortyBlocks_answers :
    Machine.Throughout GroupState.step GroupState.Agrees
        ⟨fortyBlocks, fun inode no => decide (fortyBlocks.Marked inode no)⟩
        [.alloc 50 false, .test false 50] ∧
      Machine.Meets GroupState.step (GroupState.Answers shiftOut 81)
        ⟨fortyBlocks, fun inode no => decide (fortyBlocks.Marked inode no)⟩
        [.alloc 50 false, .test false 50] := by
  have size : ∀ inode group, (fortyBlocks.bitmap inode group).size = 40 := by
    intro inode group
    cases inode <;> exact (Bitmap.createSearchLoop_counts ..).1
  have groupSize : ∀ inode, fortyBlocks.groupSize inode = 40 := by decide
  refine groupRun_answers fortyBlocks 81 shiftOut (fun inode => ⟨by decide, ?_, ?_, ?_⟩) ?_ ?_
    (fun _ _ => rfl) _ ⟨?_, ?_, trivial⟩ ⟨?_, ?_, trivial⟩
  · intro group _
    rw [size]
    decide
  · intro group _
    rw [size, groupSize]
  · intro group _
    rw [size, groupSize]
  · intro no known
    have below : (no - 1) / 40 < 2 := groupSize false ▸ known.2.1
    omega
  · intro inode group
    cases inode <;> exact ⟨_, rfl⟩
  · exact .inr (by decide +kernel)
  · change (50 - 1) / _ < _
    decide +kernel
  · intro group inside _ up round nonneg below _
    have phase : ∀ bit : Nat, (0 : Int) ≤ bit + direction up * (2048 * round) →
        (bit : Int) + direction up * (2048 * round) < 40 → bit < 40 → Bitmap.EndsInPhase up
          (Bitmap.windowEnd (fortyBlocks.bitmap false group) up
            (bit + direction up * (2048 * round))) := by
      intro bit nonneg below small
      simp only [Bitmap.EndsInPhase, Bitmap.windowEnd, size]
      cases up <;> simp only [direction, Bool.false_eq_true, if_true, if_false] at * <;> omega
    rw [show ((⟨fortyBlocks, fun inode no => decide (fortyBlocks.Marked inode no)⟩ :
      GroupState).fs.bitmap false group).size = 40 from size false group] at below
    obtain rfl | rfl : group = 0 ∨ group = 1 := by
      change group < 2 at inside
      omega
    · exact .inr (phase 39 nonneg below (by decide))
    · exact .inr (phase 9 nonneg below (by decide))
  · change (50 - 1) % _ < _
    decide +kernel

/-- Block 33 is free, and the test says that it is allocated. -/
theorem fortyBlocks_misreports :
    ¬ Machine.Meets GroupState.step (GroupState.Answers shiftOut 81)
      ⟨fortyBlocks, fun inode no => decide (fortyBlocks.Marked inode no)⟩ [.test false 33] := by
  rintro ⟨tested, -⟩
  have found : fortyBlocks.groupBitmapTest shiftOut 41 false 33 = .ok true := by decide +kernel
  exact absurd (tested.mp found) (by decide +kernel)

end FileSystem

end RTContainer.Rfs
