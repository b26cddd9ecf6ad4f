import RTContainer.Lib.Paged
import RTContainer.Rfs.Block

/-! A block map holds a list of data blocks. Growing it adds a block and the tables
that this takes, and writes to no table of another map. -/

set_option autoImplicit false

namespace RTContainer.Rfs

open FileSystem (SameShape)
open Function

structure Takes (fs after : FileSystem) (added : List Nat) : Prop where
  fresh : ∀ block ∈ added, ¬ fs.Marked false block
  known : ∀ block ∈ added, fs.Known false block
  nodup : added.Nodup
  marks : ∀ other, after.Marked false other ↔ fs.Marked false other ∨ other ∈ added
  inodes : ∀ ino, after.Marked true ino ↔ fs.Marked true ino
  shape : SameShape fs after

theorem Takes.refl (fs : FileSystem) : Takes fs fs [] where
  fresh _ member := absurd member List.not_mem_nil
  known _ member := absurd member List.not_mem_nil
  nodup := .nil
  marks _ := by simp
  inodes _ := Iff.rfl
  shape := .refl fs

variable {fs mid after : FileSystem} {first second entries pages added : List Nat} {upping : Bool}

theorem Takes.trans (takes : Takes fs mid first) (further : Takes mid after second) :
    Takes fs after (first ++ second) where
  fresh block member := by
    rcases List.mem_append.mp member with early | late
    · exact takes.fresh block early
    · exact fun marked => further.fresh block late ((takes.marks block).mpr (.inl marked))
  known block member := by
    rcases List.mem_append.mp member with early | late
    · exact takes.known block early
    · exact (takes.shape.known _ block).mp (further.known block late)
  nodup := by
    refine List.nodup_append.mpr ⟨takes.nodup, further.nodup, ?_⟩
    intro block early other late same
    exact further.fresh other late ((takes.marks other).mpr (.inr (same ▸ early)))
  marks other := by
    rw [further.marks, takes.marks, List.mem_append, or_assoc]
  inodes ino := (further.inodes ino).trans (takes.inodes ino)
  shape := takes.shape.trans further.shape

theorem Takes.tables {fs mid : FileSystem} {added : List Nat} (takes : Takes fs mid added)
    (tables : Nat → Nat → Nat) : Takes fs { mid with tables } added :=
  ⟨takes.fresh, takes.known, takes.nodup, takes.marks, takes.inodes,
    takes.shape.trans (.tables mid tables)⟩

theorem Takes.giveBack {fs mid : FileSystem} {added : List Nat} {block : Nat}
    (takes : Takes fs mid (added ++ [block])) :
    Takes fs (mid.groupBitmapFree false block).1 added ∧
      (mid.groupBitmapFree false block).1.tables = mid.tables := by
  have member : block ∈ added ++ [block] := List.mem_append_right _ List.mem_cons_self
  have known : mid.Known false block := (takes.shape.known _ block).mpr (takes.known block member)
  have isLast := List.nodup_append.mp takes.nodup
  have absent : block ∉ added := fun early => isLast.2.2 block early block List.mem_cons_self rfl
  obtain ⟨after, freed, marks⟩ := FileSystem.groupBitmapFree_known known
  rw [freed]
  refine ⟨?_, marks.tables⟩
  exact {
    fresh := fun other early => takes.fresh other (List.mem_append_left _ early)
    known := fun other early => takes.known other (List.mem_append_left _ early)
    nodup := isLast.1
    marks := by
      intro other
      rw [marks.marked, takes.marks]
      rcases eq_or_ne other block with same | different
      · subst same
        simp [takes.fresh other member, absent]
      · simp [different]
    inodes := fun ino => (marks.others ino).trans (takes.inodes ino)
    shape := takes.shape.trans marks.shape }

theorem FileSystem.setNumber_of_ne (fs : FileSystem) {table other : Nat} (slot no : Nat)
    (different : other ≠ table) : (fs.setNumber table slot no).tables other = fs.tables other :=
  update_of_ne different ..

theorem FileSystem.SameShape.doublyBlocks (shape : SameShape fs after) :
    after.doublyBlocks = fs.doublyBlocks := by
  rw [FileSystem.doublyBlocks, shape.perBlock, FileSystem.doublyBlocks]

def GoalKnown (fs : FileSystem) (goal : Nat) : Prop := goal = 0 ∨ fs.Known false goal

theorem FileSystem.SameShape.goal (shape : SameShape fs after) {goal : Nat}
    (known : GoalKnown fs goal) : GoalKnown after goal :=
  known.imp id (shape.known _ goal).mpr

theorem FileSystem.SameShape.goal_iff (shape : SameShape fs after) {goal : Nat} :
    GoalKnown after goal ↔ GoalKnown fs goal := or_congr Iff.rfl (shape.known _ goal)

variable {fs after : FileSystem} {map next : BlockMap}
variable {block table : Nat}

theorem groupBitmapAlloc_takes (laid : fs.Laid false) {goal : Nat} (known : GoalKnown fs goal)
    (allocated : fs.groupBitmapAlloc goal false = some (after, block)) :
    Takes fs after [block] ∧ after.tables = fs.tables := by
  obtain ⟨blockKnown, fresh, marks⟩ := FileSystem.groupBitmapAlloc_some laid known allocated
  refine ⟨⟨by simpa using fresh, by simpa using blockKnown, List.nodup_singleton _, ?_,
    marks.others, marks.shape⟩, marks.tables⟩
  intro other
  rw [marks.marked, List.mem_singleton]
  split
  next same => simp [same]
  next different => simp [different]

def tableRow (map : BlockMap) (upping : Bool) : Nat → Nat :=
  if upping then fun slot => if slot < inodeBlocks then map.blocks slot else noBlock
  else fun _ => noBlock

def tableMap (map : BlockMap) (upping : Bool) (table : Nat) : BlockMap :=
  if upping then { map with blocks := fun _ => 0, lastMapBlock := table }
  else { map with lastMapBlock := table }

theorem blockMapIndirectAlloc_takes (laid : fs.Laid false) (known : GoalKnown fs map.lastMapBlock)
    (allocated : blockMapIndirectAlloc fs map upping = some (after, next, table)) :
    Takes fs after [table] ∧
      after.tables = update fs.tables table (tableRow map upping) ∧
        next = tableMap map upping table := by
  obtain ⟨⟨mid, newBlock⟩, taken, result⟩ := Option.map_eq_some_iff.mp allocated
  obtain ⟨takes, tables⟩ := groupBitmapAlloc_takes laid known taken
  cases upping with
  | true | false =>
    obtain ⟨rfl, rfl, rfl⟩ : _ ∧ _ ∧ _ := by simpa using result
    exact ⟨takes.tables _, by rw [tables]; rfl, rfl⟩

structure MapBlocks where
  data : List Nat
  singly : List Nat
  doubly : List Nat

def MapBlocks.all (blocks : MapBlocks) : List Nat := blocks.data ++ blocks.singly ++ blocks.doubly

def BlockMap.Slots (map : BlockMap) (listed : List Nat) : Prop :=
  Tabulates map.blocks listed

/-- The blocks that are reached from the inode, by the level of the map. -/
inductive Mapped (fs : FileSystem) (map : BlockMap) : MapBlocks → Prop where
  | direct {data : List Nat} : map.count = data.length → data.length ≤ inodeBlocks →
      map.Slots data → Mapped fs map ⟨data, [], []⟩
  | singly {data singly : List Nat} : map.count = data.length → inodeBlocks < data.length →
      data.length ≤ fs.singlyBlocks → Paged fs.tables fs.blocksPerBlock singly data →
      map.Slots singly → Mapped fs map ⟨data, singly, []⟩
  | doubly {data singly doubly : List Nat} : map.count = data.length →
      fs.singlyBlocks < data.length →
      Paged fs.tables fs.blocksPerBlock singly data →
      Paged fs.tables fs.blocksPerBlock doubly singly →
      map.Slots doubly → Mapped fs map ⟨data, singly, doubly⟩

/-- What the entries of a level are kept in before one more is added: the slots, which
are all used, or the tables that the slots name. -/
inductive Level (fs : FileSystem) (map : BlockMap) : Bool → List Nat → List Nat → Prop where
  | slots {entries : List Nat} : entries.length = inodeBlocks → map.Slots entries →
      Level fs map true entries []
  | tables {entries pages : List Nat} : inodeBlocks < entries.length →
      Paged fs.tables fs.blocksPerBlock pages entries → map.Slots pages →
      Level fs map false entries pages

structure TableFor (fs : FileSystem) (map : BlockMap) (entries pages : List Nat)
    (after : FileSystem) (next : BlockMap) (table : Nat) (added : List Nat) : Prop where
  takes : Takes fs after added
  grown : ∀ entry, Paged
    (after.setNumber table (entries.length % fs.blocksPerBlock) entry).tables fs.blocksPerBlock
      (pages ++ added) (entries ++ [entry])
  slots : next.Slots (pages ++ added)
  goal : GoalKnown after next.lastMapBlock
  member : table ∈ pages ++ added
  frame : ∀ other, other ∉ added → after.tables other = fs.tables other
  count : next.count = map.count
  lastDataBlock : next.lastDataBlock = map.lastDataBlock

variable {blocks grown : MapBlocks}

/-- The table for the next entry is the last one, or a new one. -/
theorem growTable_some (laid : fs.Laid false) (known : GoalKnown fs map.lastMapBlock)
    (large : inodeBlocks < fs.blocksPerBlock) (level : Level fs map upping entries pages)
    (nodup : pages.Nodup) (marked : ∀ page ∈ pages, fs.Marked false page)
    (found : growTable fs map entries.length upping = some (after, next, table)) :
    ∃ added, TableFor fs map entries pages after next table added := by
  rw [growTable] at found
  cases level with
  | @slots entries short slots =>
    have direct : entries.length % fs.blocksPerBlock = inodeBlocks := by
      rw [short, Nat.mod_eq_of_lt large]
    have indirect : entries.length / fs.blocksPerBlock = 0 := by
      rw [short, Nat.div_eq_of_lt large]
    rw [if_pos (.inr ⟨indirect, direct⟩), indirect] at found
    obtain ⟨⟨mid, upped, newTable⟩, allocated, result⟩ := Option.map_eq_some_iff.mp found
    obtain ⟨rfl, rfl, rfl⟩ : _ ∧ _ ∧ _ := by simpa using result
    obtain ⟨takes, tables, rfl⟩ := blockMapIndirectAlloc_takes laid known allocated
    have copied : Tabulates (tableRow map true) entries := by
      refine slots.congr fun slot inside => ?_
      exact if_pos (short ▸ inside)
    refine ⟨[newTable], takes, ?_, ?_, ?_, List.mem_cons_self, ?_, rfl, rfl⟩
    · intro entry
      simp only [FileSystem.setNumber, tables, update_self, update_idem, List.nil_append]
      refine Paged.single (by simp) ?_ ?_
      · rw [List.length_append, List.length_singleton]
        omega
      · rw [direct, ← short]
        exact copied.snoc entry
    · exact (Tabulates.nil _).snoc newTable
    · exact .inr ((takes.shape.known _ newTable).mpr (takes.known newTable List.mem_cons_self))
    · intro other absent
      rw [tables, update_of_ne (by simpa using absent)]
  | @tables entries pages long paged slots =>
    have notFirst : ¬ (entries.length / fs.blocksPerBlock = 0 ∧
        entries.length % fs.blocksPerBlock = inodeBlocks) := by
      rintro ⟨quotient, remainder⟩
      have split := Nat.div_add_mod entries.length fs.blocksPerBlock
      rw [quotient, remainder] at split
      omega
    rcases Nat.eq_zero_or_pos (entries.length % fs.blocksPerBlock) with full | partly
    · rw [if_pos (.inl full)] at found
      obtain ⟨⟨mid, upped, newTable⟩, allocated, result⟩ := Option.map_eq_some_iff.mp found
      obtain ⟨rfl, rfl, rfl⟩ : _ ∧ _ ∧ _ := by simpa using result
      obtain ⟨takes, tables, rfl⟩ := blockMapIndirectAlloc_takes laid known allocated
      have fresh : newTable ∉ pages := fun listed =>
        takes.fresh newTable List.mem_cons_self (marked newTable listed)
      refine ⟨[newTable], takes, ?_, ?_, ?_, by simp, ?_, rfl, rfl⟩
      · intro entry
        simp only [FileSystem.setNumber, tables, update_self, update_idem]
        refine paged.appendPage full fresh ?_
        rw [full, update_self]
      · rw [← paged.length_pages_full full]
        exact slots.snoc newTable
      · exact .inr ((takes.shape.known _ newTable).mpr (takes.known newTable List.mem_cons_self))
      · intro other absent
        rw [tables, update_of_ne (by simpa using absent)]
    · rw [if_neg (not_or.mpr ⟨Nat.pos_iff_ne_zero.mp partly, notFirst⟩)] at found
      obtain ⟨rfl, rfl, rfl⟩ : _ ∧ _ ∧ _ := by simpa using found
      have partly := Nat.pos_iff_ne_zero.mp partly
      have inside : entries.length / fs.blocksPerBlock < pages.length := by
        rw [paged.length_pages partly]
        exact Nat.lt_succ_self _
      have last := List.getElem?_eq_getElem inside
      have isTable := slots _ _ last
      refine ⟨[], .refl fs, ?_, ?_, known, ?_, fun _ _ => rfl, rfl, rfl⟩
      · intro entry
        rw [List.append_nil, isTable]
        exact paged.append nodup partly last entry
      · rw [List.append_nil]
        exact slots
      · rw [List.append_nil, isTable]
        exact List.getElem_mem inside

structure TablesFor (fs : FileSystem) (map : BlockMap) (blocks : MapBlocks)
    (after : FileSystem) (next : BlockMap) (table : Nat) (singly doubly : List Nat) : Prop where
  takes : Takes fs after (singly ++ doubly)
  data : ∀ block, Paged
    (after.setNumber table (blocks.data.length % fs.blocksPerBlock) block).tables
      fs.blocksPerBlock (blocks.singly ++ singly) (blocks.data ++ [block])
  tables : ∀ block, Paged
    (after.setNumber table (blocks.data.length % fs.blocksPerBlock) block).tables
      fs.blocksPerBlock (blocks.doubly ++ doubly) (blocks.singly ++ singly)
  slots : next.Slots (blocks.doubly ++ doubly)
  goal : GoalKnown after next.lastMapBlock
  member : table ∈ blocks.singly ++ singly
  frame : ∀ other, other ∉ singly ++ doubly → other ∉ blocks.doubly →
    after.tables other = fs.tables other
  count : next.count = map.count
  lastDataBlock : next.lastDataBlock = map.lastDataBlock

theorem Level.congr (level : Level fs map upping entries pages)
    (perBlock : after.blocksPerBlock = fs.blocksPerBlock)
    (same : ∀ page ∈ pages, after.tables page = fs.tables page) (slots : next.blocks = map.blocks) :
    Level after next upping entries pages := by
  cases level with
  | slots short listed => exact .slots short (by rw [BlockMap.Slots, slots]; exact listed)
  | tables long paged listed =>
    refine .tables long ?_ (by rw [BlockMap.Slots, slots]; exact listed)
    rw [perBlock]
    exact paged.congr same

theorem Takes.not_mem {used : List Nat} (takes : Takes fs after added)
    (marked : ∀ block ∈ used, fs.Marked false block) (member : block ∈ added) : block ∉ used :=
  fun inUse => takes.fresh block member (marked block inUse)

theorem growDoubly_first (laid : fs.Laid false) (known : GoalKnown fs map.lastMapBlock)
    (large : inodeBlocks < fs.blocksPerBlock) (count : map.count = blocks.data.length)
    (full : blocks.data.length % fs.blocksPerBlock = 0)
    (paged : Paged fs.tables fs.blocksPerBlock blocks.singly blocks.data)
    (level : Level fs map (map.count = fs.singlyBlocks) blocks.singly blocks.doubly)
    (nodup : (blocks.singly ++ blocks.doubly).Nodup)
    (marked : ∀ page ∈ blocks.singly ++ blocks.doubly, fs.Marked false page)
    (found : growDoubly fs map = .ok (after, next, table)) :
    ∃ singly doubly, TablesFor fs map blocks after next table singly doubly := by
  have first : map.count % fs.blocksPerBlock = 0 := by rw [count, full]
  simp only [growDoubly, first, if_true] at found
  split at found
  next => exact nomatch found
  next mid upped newTable allocated =>
    obtain ⟨takes, tables, rfl⟩ := blockMapIndirectAlloc_takes laid known allocated
    have perBlock : mid.blocksPerBlock = fs.blocksPerBlock := takes.shape.perBlock
    have newOnly : ∀ page ∈ blocks.singly ++ blocks.doubly, page ≠ newTable := fun page inUse same =>
      takes.not_mem marked List.mem_cons_self (same ▸ inUse)
    have keeps : ∀ page ∈ blocks.singly ++ blocks.doubly, mid.tables page = fs.tables page := by
      intro page inUse
      rw [tables, update_of_ne (newOnly page inUse)]
    have inDoubly : ∀ page ∈ blocks.doubly, page ∈ blocks.singly ++ blocks.doubly :=
      fun page => List.mem_append_right _
    have midLevel : Level mid (tableMap map false newTable)
        (map.count = fs.singlyBlocks) blocks.singly blocks.doubly :=
      level.congr perBlock (fun page listed => keeps page (inDoubly page listed)) rfl
    have index : map.count / fs.blocksPerBlock = blocks.singly.length := by
      rw [count, paged.length_pages_full full]
    split at found
    next => exact nomatch found
    next third last outer grew =>
      obtain ⟨rfl, rfl, rfl⟩ : _ ∧ _ ∧ _ := by simpa using found
      have upperEq : mid.singlyBlocks = fs.singlyBlocks := congrArg (· * inodeBlocks) perBlock
      have grew : growTable mid (tableMap map false newTable) blocks.singly.length
          (map.count = fs.singlyBlocks) = some (third, last, outer) := by
        rw [← index, ← upperEq, ← perBlock]
        exact grew
      have midMarked : ∀ page ∈ blocks.singly ++ blocks.doubly, mid.Marked false page :=
        fun page inUse => (takes.marks page).mpr (.inl (marked page inUse))
      have goal : GoalKnown mid newTable :=
        .inr ((takes.shape.known _ newTable).mpr (takes.known newTable List.mem_cons_self))
      obtain ⟨added, tableFor⟩ := growTable_some (takes.shape.laid _ laid) goal
        (perBlock ▸ large) midLevel (List.nodup_append.mp nodup).2.1
        (fun page listed => midMarked page (inDoubly page listed)) grew
      have newAbsent : newTable ∉ blocks.doubly ++ added := by
        rw [List.mem_append]
        rintro (listed | late)
        · exact newOnly newTable (inDoubly newTable listed) rfl
        · exact tableFor.takes.fresh newTable late
            ((takes.marks newTable).mpr (.inr List.mem_cons_self))
      have apart : ∀ page ∈ blocks.singly, page ∉ blocks.doubly ++ added := by
        intro page listed
        rw [List.mem_append]
        rintro (upper | late)
        · exact (List.nodup_append.mp nodup).2.2 page listed page upper rfl
        · exact tableFor.takes.fresh page late (midMarked page (List.mem_append_left _ listed))
      have slot : map.count / fs.blocksPerBlock % fs.blocksPerBlock =
          blocks.singly.length % mid.blocksPerBlock := by rw [index, perBlock]
      have keepsLast : ∀ page ∈ blocks.singly,
          (third.setNumber outer (map.count / fs.blocksPerBlock % fs.blocksPerBlock) newTable).tables
            page = fs.tables page := by
        intro page listed
        have notOuter : page ≠ outer := fun same => apart page listed (same ▸ tableFor.member)
        have notAdded : page ∉ added := fun late => apart page listed (List.mem_append_right _ late)
        rw [FileSystem.setNumber_of_ne _ _ _ notOuter, tableFor.frame page notAdded]
        exact keeps page (List.mem_append_left _ listed)
      refine ⟨[newTable], added, (takes.trans tableFor.takes).tables _, ?_, ?_, tableFor.slots,
        (SameShape.tables ..).goal tableFor.goal, by simp, ?_, tableFor.count,
        tableFor.lastDataBlock⟩
      · intro block
        have fresh : newTable ∉ blocks.singly := fun listed =>
          newOnly newTable (List.mem_append_left _ listed) rfl
        refine (paged.congr keepsLast).appendPage full fresh ?_
        rw [full, update_self]
      · intro block
        have grown := tableFor.grown newTable
        rw [← slot, perBlock] at grown
        refine grown.congr fun page listed => ?_
        have different : page ≠ newTable := fun same => newAbsent (same ▸ listed)
        exact FileSystem.setNumber_of_ne _ _ _ different
      · intro other absent notDoubly
        have notNew : other ≠ newTable := by
          rintro rfl
          exact absent (by simp)
        have notAdded : other ∉ added := fun late => absent (List.mem_append_right _ late)
        have notOuter : other ≠ outer := by
          rintro rfl
          exact (List.mem_append.mp tableFor.member).elim notDoubly notAdded
        rw [FileSystem.setNumber_of_ne _ _ _ notOuter, tableFor.frame other notAdded, tables,
          update_of_ne notNew]

theorem growDoubly_next (known : GoalKnown fs map.lastMapBlock)
    (count : map.count = blocks.data.length) (partly : blocks.data.length % fs.blocksPerBlock ≠ 0)
    (paged : Paged fs.tables fs.blocksPerBlock blocks.singly blocks.data)
    (outer : Paged fs.tables fs.blocksPerBlock blocks.doubly blocks.singly)
    (slots : map.Slots blocks.doubly) (nodup : (blocks.singly ++ blocks.doubly).Nodup)
    (found : growDoubly fs map = .ok (after, next, table)) :
    TablesFor fs map blocks after next table [] [] := by
  have notFirst : ¬ map.count % fs.blocksPerBlock = 0 := by rw [count]; exact partly
  simp only [growDoubly, notFirst, if_false] at found
  obtain ⟨rfl, rfl, rfl⟩ : _ ∧ _ ∧ _ := by simpa using found
  have inside : blocks.data.length / fs.blocksPerBlock < blocks.singly.length := by
    rw [paged.length_pages partly]
    exact Nat.lt_succ_self _
  have last := List.getElem?_eq_getElem inside
  obtain ⟨page, isPage, isTable⟩ := outer.found _ _ last
  have tableEq : fs.tables (map.blocks (map.count / fs.blocksPerBlock / fs.blocksPerBlock))
      (map.count / fs.blocksPerBlock % fs.blocksPerBlock) =
        blocks.singly[blocks.data.length / fs.blocksPerBlock] := by
    rw [count, slots _ _ isPage, isTable]
  have member := List.getElem_mem inside
  rw [← tableEq] at last member
  have notUpper := fun upper => (List.nodup_append.mp nodup).2.2 _ member _ upper rfl
  refine ⟨.refl fs, ?_, ?_, ?_, known, ?_, fun _ _ _ => rfl, rfl, rfl⟩
  · intro block
    rw [List.append_nil]
    exact paged.append (List.nodup_append.mp nodup).1 partly last block
  · intro block
    rw [List.append_nil, List.append_nil]
    refine outer.congr fun page listed => ?_
    exact FileSystem.setNumber_of_ne _ _ _ fun same => notUpper (same ▸ listed)
  · rw [List.append_nil]
    exact slots
  · rw [List.append_nil]
    exact member

private theorem growDoubly_error (laid : fs.Laid false) (known : GoalKnown fs map.lastMapBlock)
    (failed : growDoubly fs map = .error (after, next)) :
    Takes fs after [] ∧ (∀ used, fs.Marked false used → after.tables used = fs.tables used) ∧
      GoalKnown after next.lastMapBlock ∧ ∃ goal, next = { map with lastMapBlock := goal } := by
  simp only [growDoubly] at failed
  split at failed
  next =>
    split at failed
    next =>
      obtain ⟨rfl, rfl⟩ : _ ∧ _ := by simpa using failed
      exact ⟨.refl fs, fun _ _ => rfl, known, map.lastMapBlock, rfl⟩
    next mid upped newTable allocated =>
      obtain ⟨takes, tables, rfl⟩ := blockMapIndirectAlloc_takes laid known allocated
      split at failed
      next =>
        obtain ⟨rfl, rfl⟩ : _ ∧ _ := by simpa using failed
        obtain ⟨given, sameTables⟩ := @Takes.giveBack fs mid [] newTable takes
        refine ⟨given, ?_, ?_, newTable, rfl⟩
        · intro used marked
          have different : used ≠ newTable := by
            rintro rfl
            exact takes.fresh used List.mem_cons_self marked
          rw [sameTables, tables, update_of_ne different]
        · exact .inr ((given.shape.known _ newTable).mpr (takes.known newTable List.mem_cons_self))
      next => exact nomatch failed
  next => exact nomatch failed

/-- A map has grown by some blocks; what is in use elsewhere has not changed. -/
structure Grown (fs : FileSystem) (blocks : MapBlocks) (after : FileSystem) (next : BlockMap)
    (grown : MapBlocks) (added : List Nat) : Prop where
  mapped : Mapped after next grown
  mapGoal : GoalKnown after next.lastMapBlock
  dataGoal : GoalKnown after next.lastDataBlock
  takes : Takes fs after added
  perm : grown.all.Perm (blocks.all ++ added)
  frame : ∀ other, fs.Marked false other → other ∉ blocks.all → after.tables other = fs.tables other

theorem Mapped.count (mapped : Mapped fs map blocks) : map.count = blocks.data.length := by
  cases mapped <;> assumption

theorem Mapped.congr (mapped : Mapped fs map blocks)
    (perBlock : after.blocksPerBlock = fs.blocksPerBlock)
    (same : ∀ table ∈ blocks.all, after.tables table = fs.tables table)
    (count : next.count = map.count) (slots : next.blocks = map.blocks) :
    Mapped after next blocks := by
  have upper : after.singlyBlocks = fs.singlyBlocks := congrArg (· * inodeBlocks) perBlock
  cases mapped with
  | direct length short listed =>
    exact .direct (count.trans length) short (by rw [BlockMap.Slots, slots]; exact listed)
  | singly length long fits paged listed =>
    refine .singly (count.trans length) long (upper ▸ fits) ?_
      (by rw [BlockMap.Slots, slots]; exact listed)
    rw [perBlock]
    exact paged.congr fun table member => same table (by simp [MapBlocks.all, member])
  | doubly length long paged outer listed =>
    refine .doubly (count.trans length) (upper ▸ long) ?_ ?_
      (by rw [BlockMap.Slots, slots]; exact listed)
    · rw [perBlock]
      exact paged.congr fun table member => same table (by simp [MapBlocks.all, member])
    · rw [perBlock]
      exact outer.congr fun table member => same table (by simp [MapBlocks.all, member])

structure Held (fs : FileSystem) (map : BlockMap) (blocks : MapBlocks) : Prop where
  laid : fs.Laid false
  large : inodeBlocks < fs.blocksPerBlock
  mapped : Mapped fs map blocks
  mapGoal : GoalKnown fs map.lastMapBlock
  dataGoal : GoalKnown fs map.lastDataBlock
  nodup : blocks.all.Nodup
  marked : ∀ block ∈ blocks.all, fs.Marked false block

theorem Held.empty (laid : fs.Laid false) (large : inodeBlocks < fs.blocksPerBlock) :
    Held fs .empty ⟨[], [], []⟩ where
  laid := laid
  large := large
  mapped := .direct rfl (Nat.zero_le _) (Tabulates.nil _)
  mapGoal := .inl rfl
  dataGoal := .inl rfl
  nodup := .nil
  marked _ member := absurd member List.not_mem_nil

theorem Held.singlyBlocks_large (held : Held fs map blocks) : inodeBlocks < fs.singlyBlocks := by
  have large := held.large
  simp only [FileSystem.singlyBlocks, inodeBlocks] at large ⊢
  omega

theorem Grown.held (held : Held fs map blocks) (growth : Grown fs blocks after next grown added) :
    Held after next grown where
  __ := growth
  laid := growth.takes.shape.laid _ held.laid
  large := growth.takes.shape.perBlock ▸ held.large
  nodup := by
    refine growth.perm.nodup_iff.mpr (List.nodup_append.mpr ⟨held.nodup, growth.takes.nodup, ?_⟩)
    intro block inUse other late same
    exact growth.takes.not_mem held.marked late (same ▸ inUse)
  marked block member := by
    rw [growth.takes.marks]
    exact (List.mem_append.mp (growth.perm.mem_iff.mp member)).imp (held.marked block) id

theorem Grown.trans {middle : MapBlocks} {between : BlockMap}
    (growth : Grown fs blocks mid between middle first)
    (further : Grown mid middle after next grown second) :
    Grown fs blocks after next grown (first ++ second) where
  __ := further
  takes := growth.takes.trans further.takes
  perm := by
    rw [← List.append_assoc]
    exact further.perm.trans (growth.perm.append_right second)
  frame other marked absent := by
    have notMiddle : other ∉ middle.all := by
      intro member
      rcases List.mem_append.mp (growth.perm.mem_iff.mp member) with inUse | late
      · exact absent inUse
      · exact growth.takes.fresh other late marked
    rw [further.frame other ((growth.takes.marks other).mpr (.inl marked)) notMiddle]
    exact growth.frame other marked absent

theorem Held.stays (held : Held fs map blocks) (takes : Takes fs after [])
    (same : ∀ used, fs.Marked false used → after.tables used = fs.tables used)
    (goal : GoalKnown after next.lastMapBlock) (count : next.count = map.count)
    (slots : next.blocks = map.blocks) (data : next.lastDataBlock = map.lastDataBlock) :
    Grown fs blocks after next blocks [] where
  mapped := held.mapped.congr takes.shape.perBlock
    (fun table member => same table (held.marked table member)) count slots
  mapGoal := goal
  dataGoal := data ▸ takes.shape.goal held.dataGoal
  takes := takes
  perm := by rw [List.append_nil]
  frame other marked _ := same other marked

def grownMap (map : BlockMap) (block : Nat) : BlockMap :=
  { map with count := map.count + 1, offset := 0, lastDataBlock := block, dirty := true }

theorem perm_grown (blocks : MapBlocks) (block : Nat) (singly doubly : List Nat) :
    (MapBlocks.all ⟨blocks.data ++ [block], blocks.singly ++ singly, blocks.doubly ++ doubly⟩).Perm
      (blocks.all ++ ([block] ++ (singly ++ doubly))) := by
  rw [List.perm_iff_count]
  intro other
  simp only [MapBlocks.all, List.count_append]
  omega

section

variable (held : Held fs map blocks)
include held

theorem growDirect_grown (takes : Takes fs after [block]) (tables : after.tables = fs.tables)
    (short : map.count < inodeBlocks) :
    ∃ grown, Grown fs blocks after (grownMap (map.setSlot map.count block) block) grown [block] ∧
      grown.data = blocks.data ++ [block] := by
  cases held.mapped with
  | @direct data length fits listed =>
    refine ⟨⟨data ++ [block], [], []⟩, ⟨?_, takes.shape.goal held.mapGoal, ?_, takes, ?_, ?_⟩, rfl⟩
    · refine .direct ?_ ?_ ?_
      · simp [grownMap, BlockMap.setSlot, length]
      · rw [List.length_append, List.length_singleton]
        omega
      · rw [length]
        exact listed.snoc block
    · exact .inr ((takes.shape.known _ block).mpr (takes.known block List.mem_cons_self))
    · exact perm_grown ⟨data, [], []⟩ block [] []
    · intro other _ _
      rw [tables]
  | singly length long => omega
  | doubly length long =>
    have := held.singlyBlocks_large
    omega

theorem growSingly_grown (takes : Takes fs mid [block]) (tables : mid.tables = fs.tables)
    (long : inodeBlocks ≤ map.count) (fits : map.count < fs.singlyBlocks)
    (found : growTable mid map map.count (map.count = inodeBlocks) =
      some (after, next, table)) :
    ∃ grown added, Grown fs blocks
      (after.setNumber table (next.count % after.blocksPerBlock) block) (grownMap next block)
        grown added ∧ grown.data = blocks.data ++ [block] := by
  have perBlock : mid.blocksPerBlock = fs.blocksPerBlock := takes.shape.perBlock
  have midMapped : Mapped mid map blocks :=
    held.mapped.congr perBlock (fun _ _ => by rw [tables]) rfl rfl
  have level : Level mid map (map.count = inodeBlocks) blocks.data blocks.singly ∧
      map.count = blocks.data.length ∧ blocks.doubly = [] := by
    cases midMapped with
    | @direct data length short listed =>
      have isFull : map.count = inodeBlocks := by omega
      rw [decide_eq_true isFull]
      exact ⟨.slots (length ▸ isFull) listed, length, rfl⟩
    | @singly data singly length long fits paged listed =>
      have notFull : ¬ map.count = inodeBlocks := by omega
      rw [decide_eq_false notFull]
      exact ⟨.tables long paged listed, length, rfl⟩
    | doubly length long =>
      rw [FileSystem.singlyBlocks, perBlock, ← FileSystem.singlyBlocks] at long
      omega
  obtain ⟨level, length, noDoubly⟩ := level
  have midMarked : ∀ used ∈ blocks.all, mid.Marked false used :=
    fun used inUse => (takes.marks used).mpr (.inl (held.marked used inUse))
  have inSingly : ∀ page ∈ blocks.singly, page ∈ blocks.all := fun page listed => by
    simp [MapBlocks.all, listed]
  have parts := List.nodup_append.mp (List.nodup_append.mp held.nodup).1
  have found : growTable mid map blocks.data.length (map.count = inodeBlocks) =
      some (after, next, table) := by
    rw [← length]
    exact found
  obtain ⟨added, tableFor⟩ := growTable_some (takes.shape.laid _ held.laid)
    (takes.shape.goal held.mapGoal) (perBlock ▸ held.large) level parts.2.1
    (fun page listed => midMarked page (inSingly page listed)) found
  have allTakes := takes.trans tableFor.takes
  have slot : next.count % after.blocksPerBlock = map.count % fs.blocksPerBlock := by
    rw [tableFor.count, tableFor.takes.shape.perBlock, perBlock]
  rw [slot]
  have lastTables : (after.setNumber table (map.count % fs.blocksPerBlock) block).blocksPerBlock =
      fs.blocksPerBlock := tableFor.takes.shape.perBlock.trans perBlock
  refine ⟨⟨blocks.data ++ [block], blocks.singly ++ added, []⟩, [block] ++ added,
    ⟨?_, (SameShape.tables ..).goal tableFor.goal, .inr ?_, allTakes.tables _, ?_, ?_⟩, rfl⟩
  · refine .singly ?_ ?_ ?_ ?_ tableFor.slots
    · simp [grownMap, tableFor.count, length]
    · rw [List.length_append, List.length_singleton]
      omega
    · rw [FileSystem.singlyBlocks, lastTables, ← FileSystem.singlyBlocks, List.length_append,
        List.length_singleton]
      omega
    · rw [lastTables, length]
      have grown := tableFor.grown block
      rw [perBlock] at grown
      exact grown
  · exact (allTakes.shape.known _ block).mpr (takes.known block List.mem_cons_self)
  · have perm := perm_grown blocks block added []
    rw [noDoubly] at perm
    simpa using perm
  · intro other marked absent
    have notTable : other ≠ table := by
      rintro rfl
      rcases List.mem_append.mp tableFor.member with listed | late
      · exact absent (inSingly other listed)
      · exact tableFor.takes.fresh other late ((takes.marks other).mpr (.inl marked))
    have notAdded : other ∉ added := fun late =>
      tableFor.takes.fresh other late ((takes.marks other).mpr (.inl marked))
    rw [FileSystem.setNumber_of_ne _ _ _ notTable, tableFor.frame other notAdded, tables]

theorem growDoubly_some (long : fs.singlyBlocks ≤ map.count)
    (found : growDoubly fs map = .ok (after, next, table)) :
    ∃ singly doubly, TablesFor fs map blocks after next table singly doubly := by
  have parts := List.nodup_append.mp held.nodup
  have positive : 0 < fs.blocksPerBlock := Nat.lt_of_le_of_lt (Nat.zero_le _) held.large
  have nodup : (blocks.singly ++ blocks.doubly).Nodup := by
    have swapped := held.nodup
    rw [MapBlocks.all, List.append_assoc] at swapped
    exact (List.nodup_append.mp swapped).2.1
  have marked : ∀ page ∈ blocks.singly ++ blocks.doubly, fs.Marked false page := by
    intro page inUse
    apply held.marked
    rw [MapBlocks.all, List.append_assoc]
    exact List.mem_append_right _ inUse
  cases mapped : held.mapped with
  | @direct data length short =>
    have := held.singlyBlocks_large
    omega
  | @singly data singly length _ fits paged listed =>
    have exact_length : data.length = fs.blocksPerBlock * inodeBlocks := by
      rw [← FileSystem.singlyBlocks]
      omega
    have full : data.length % fs.blocksPerBlock = 0 := by
      rw [exact_length, Nat.mul_mod_right]
    have short : singly.length = inodeBlocks := by
      rw [paged.length_pages_full full, exact_length, Nat.mul_div_cancel_left _ positive]
    have isFull : map.count = fs.singlyBlocks := by
      rw [length, exact_length, FileSystem.singlyBlocks]
    refine growDoubly_first held.laid held.mapGoal held.large length full paged ?_ nodup marked
      found
    rw [decide_eq_true isFull]
    exact .slots short listed
  | @doubly data singly doubly length more paged outer listed =>
    have notFull : ¬ map.count = fs.singlyBlocks := by omega
    have many : inodeBlocks < singly.length := by
      have enough := paged.enough
      rw [FileSystem.singlyBlocks, Nat.mul_comm] at more
      exact Nat.lt_of_mul_lt_mul_right (Nat.lt_of_lt_of_le more enough)
    rcases Nat.eq_zero_or_pos (data.length % fs.blocksPerBlock) with full | partly
    · refine growDoubly_first held.laid held.mapGoal held.large length full paged ?_ nodup marked
        found
      rw [decide_eq_false notFull]
      exact .tables many outer listed
    · exact ⟨[], [], growDoubly_next held.mapGoal length (Nat.pos_iff_ne_zero.mp partly) paged
        outer listed nodup found⟩

theorem growDoubly_grown (takes : Takes fs mid [block]) (tables : mid.tables = fs.tables)
    (long : fs.singlyBlocks ≤ map.count) (found : growDoubly mid map = .ok (after, next, table)) :
    ∃ grown added, Grown fs blocks
      (after.setNumber table (next.count % after.blocksPerBlock) block) (grownMap next block)
        grown added ∧ grown.data = blocks.data ++ [block] := by
  have perBlock : mid.blocksPerBlock = fs.blocksPerBlock := takes.shape.perBlock
  have upper : mid.singlyBlocks = fs.singlyBlocks := congrArg (· * inodeBlocks) perBlock
  have midMarked : ∀ used, fs.Marked false used → mid.Marked false used :=
    fun used inUse => (takes.marks used).mpr (.inl inUse)
  have midHeld : Held mid map blocks := {
    laid := takes.shape.laid _ held.laid
    large := perBlock ▸ held.large
    mapped := held.mapped.congr perBlock (fun _ _ => by rw [tables]) rfl rfl
    mapGoal := takes.shape.goal held.mapGoal
    dataGoal := takes.shape.goal held.dataGoal
    nodup := held.nodup
    marked := fun used inUse => midMarked used (held.marked used inUse) }
  obtain ⟨singly, doubly, tablesFor⟩ := growDoubly_some midHeld (upper ▸ long) found
  have length := held.mapped.count
  have allTakes := takes.trans tablesFor.takes
  have slot : next.count % after.blocksPerBlock = map.count % fs.blocksPerBlock := by
    rw [tablesFor.count, tablesFor.takes.shape.perBlock, perBlock]
  rw [slot]
  have lastTables : (after.setNumber table (map.count % fs.blocksPerBlock) block).blocksPerBlock =
      fs.blocksPerBlock := tablesFor.takes.shape.perBlock.trans perBlock
  refine ⟨⟨blocks.data ++ [block], blocks.singly ++ singly, blocks.doubly ++ doubly⟩,
    [block] ++ (singly ++ doubly), ⟨?_, (SameShape.tables ..).goal tablesFor.goal, .inr ?_,
    allTakes.tables _, perm_grown blocks block singly doubly, ?_⟩, rfl⟩
  · refine .doubly ?_ ?_ ?_ ?_ tablesFor.slots
    · simp [grownMap, tablesFor.count, length]
    · rw [FileSystem.singlyBlocks, lastTables, ← FileSystem.singlyBlocks, List.length_append,
        List.length_singleton]
      omega
    · have grown := tablesFor.data block
      rw [perBlock, ← length] at grown
      rw [lastTables]
      exact grown
    · have grown := tablesFor.tables block
      rw [perBlock, ← length] at grown
      rw [lastTables]
      exact grown
  · exact (allTakes.shape.known _ block).mpr (takes.known block List.mem_cons_self)
  · intro other marked absent
    have notAdded : other ∉ singly ++ doubly := fun late =>
      tablesFor.takes.fresh other late (midMarked other marked)
    have notTable : other ≠ table := by
      rintro rfl
      rcases List.mem_append.mp tablesFor.member with listed | late
      · exact absent (by simp [MapBlocks.all, listed])
      · exact notAdded (List.mem_append_left _ late)
    have notDoubly : other ∉ blocks.doubly := fun listed => absent (by simp [MapBlocks.all, listed])
    rw [FileSystem.setNumber_of_ne _ _ _ notTable, tablesFor.frame other notAdded notDoubly, tables]

/-- The block of a growth that fails later is given back. -/
theorem Held.givesBack (takes : Takes fs mid [block]) (tables : mid.tables = fs.tables)
    (further : Takes mid after [])
    (same : ∀ used, mid.Marked false used → after.tables used = mid.tables used)
    (goal : GoalKnown after next.lastMapBlock)
    (isNext : ∃ last, next = { map with lastMapBlock := last }) :
    Grown fs blocks (after.groupBitmapFree false block).1 next blocks [] := by
  have allTakes : Takes fs after ([] ++ [block]) := by simpa using takes.trans further
  obtain ⟨given, sameTables⟩ := allTakes.giveBack
  obtain ⟨last, rfl⟩ := isNext
  refine held.stays given ?_ ?_ rfl rfl rfl
  · intro used marked
    rw [sameTables, same used ((takes.marks used).mpr (.inl marked)), tables]
  · exact given.shape.goal_iff.mpr (allTakes.shape.goal_iff.mp goal)

/-- A map grows by one block, or fails and takes none. -/
theorem growOne_grown :
    ∃ grown added, Grown fs blocks (growOne fs map).2.1 (growOne fs map).2.2 grown added ∧
      grown.data = blocks.data ++
        (if 0 < (growOne fs map).1 then [] else [(growOne fs map).2.2.lastDataBlock]) ∧
      (0 < (growOne fs map).1 → added = []) := by
  have grew : ∀ {added : List Nat}, 0 < 0 → added = [] := fun refused =>
    absurd refused (Nat.lt_irrefl 0)
  rw [growOne]
  split
  next =>
    exact ⟨blocks, [], held.stays (.refl fs) (fun _ _ => rfl) held.mapGoal rfl rfl rfl,
      (List.append_nil _).symm, fun _ => rfl⟩
  next mid block allocated =>
    obtain ⟨takes, tables⟩ := groupBitmapAlloc_takes held.laid held.dataGoal allocated
    have perBlock : mid.blocksPerBlock = fs.blocksPerBlock := takes.shape.perBlock
    have upper : mid.singlyBlocks = fs.singlyBlocks := congrArg (· * inodeBlocks) perBlock
    have midGoal := takes.shape.goal held.mapGoal
    rcases Nat.lt_or_ge map.count inodeBlocks with short | long
    · rw [if_pos short]
      obtain ⟨grown, isGrown, data⟩ := growDirect_grown held takes tables short
      exact ⟨grown, [block], isGrown, data, grew⟩
    · rw [if_neg (Nat.not_lt.mpr long)]
      rcases Nat.lt_or_ge map.count mid.singlyBlocks with fits | beyond
      · simp only [fits, if_true, growSingly]
        cases found : growTable mid map map.count (map.count = inodeBlocks) with
        | none =>
          exact ⟨blocks, [], held.givesBack takes tables (.refl mid) (fun _ _ => rfl) midGoal
            ⟨map.lastMapBlock, rfl⟩, (List.append_nil _).symm, fun _ => rfl⟩
        | some outcome =>
          obtain ⟨last, next, table⟩ := outcome
          obtain ⟨grown, added, isGrown, data⟩ :=
            growSingly_grown held takes tables long (upper ▸ fits) found
          exact ⟨grown, added, isGrown, data, grew⟩
      · simp only [Nat.not_lt.mpr beyond, if_false]
        cases found : growDoubly mid map with
        | error failed =>
          obtain ⟨further, same, goal, isNext⟩ :=
            growDoubly_error (takes.shape.laid _ held.laid) midGoal found
          exact ⟨blocks, [], held.givesBack takes tables further same goal isNext,
            (List.append_nil _).symm, fun _ => rfl⟩
        | ok outcome =>
          obtain ⟨last, next, table⟩ := outcome
          obtain ⟨grown, added, isGrown, data⟩ :=
            growDoubly_grown held takes tables (upper ▸ beyond) found
          exact ⟨grown, added, isGrown, data, grew⟩

end

def grownBlocks (fs : FileSystem) (map : BlockMap) : Nat → List Nat
  | 0 => []
  | more + 1 =>
    let (rc, fs, map) := growOne fs map
    if 0 < rc then [] else map.lastDataBlock :: grownBlocks fs map more

theorem length_grownBlocks (fs : FileSystem) (map : BlockMap) (more : Nat) :
    (grownBlocks fs map more).length ≤ more := by
  induction more generalizing fs map with
  | zero => exact Nat.le_refl 0
  | succ more ih =>
    rw [grownBlocks]
    dsimp only
    split
    next => exact Nat.zero_le _
    next => exact Nat.succ_le_succ (ih ..)

theorem growLoop_grown (held : Held fs map blocks) (more : Nat) :
    ∃ grown added, Grown fs blocks (growLoop fs map more).2.1
      (growLoop fs map more).2.2 grown added ∧
        grown.data = blocks.data ++ grownBlocks fs map more := by
  induction more generalizing fs map blocks with
  | zero =>
    exact ⟨blocks, [], held.stays (.refl fs) (fun _ _ => rfl) held.mapGoal rfl rfl rfl,
      (List.append_nil _).symm⟩
  | succ more ih =>
    obtain ⟨middle, first, isMiddle, data, -⟩ := growOne_grown held
    rw [growLoop, grownBlocks]
    dsimp only
    split
    next failed =>
      rw [if_pos failed] at data
      exact ⟨middle, first, isMiddle, data⟩
    next grew =>
      rw [if_neg grew] at data
      obtain ⟨grown, second, isGrown, further⟩ := ih (isMiddle.held held)
      refine ⟨grown, first ++ second, isMiddle.trans isGrown, ?_⟩
      rw [further, data, List.append_assoc, List.singleton_append]

theorem blockMapGrow_grown (held : Held fs map blocks) (more : Nat) :
    ∃ grown added, Grown fs blocks (blockMapGrow fs map more).2.1
      (blockMapGrow fs map more).2.2 grown added := by
  rw [blockMapGrow]
  split
  next => exact ⟨blocks, [], held.stays (.refl fs) (fun _ _ => rfl) held.mapGoal rfl rfl rfl⟩
  next =>
    obtain ⟨grown, added, isGrown, -⟩ := growLoop_grown held more
    exact ⟨grown, added, isGrown⟩

end RTContainer.Rfs
