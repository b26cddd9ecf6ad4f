import RTContainer.Rfs.BlockGrowth

/-! Shrinking a block map gives back its last block and the tables that have no
entries left. It writes to no table. -/

set_option autoImplicit false

namespace RTContainer.Rfs

open FileSystem (SameShape)

variable {fs after : FileSystem} {map next : BlockMap} {block page rc : Nat}

structure Frees (fs after : FileSystem) (freed : List Nat) : Prop where
  marks : ∀ other, after.Marked false other ↔ fs.Marked false other ∧ other ∉ freed
  inodes : ∀ ino, after.Marked true ino ↔ fs.Marked true ino
  shape : SameShape fs after
  tables : after.tables = fs.tables

theorem Frees.refl (fs : FileSystem) : Frees fs fs [] :=
  ⟨fun _ => by simp, fun _ => Iff.rfl, .refl fs, rfl⟩

variable {mid : FileSystem} {first second freed data singly : List Nat} {blocks left : MapBlocks}
variable {last block rc : Nat}

theorem Frees.trans (frees : Frees fs mid first) (further : Frees mid after second) :
    Frees fs after (first ++ second) where
  marks other := by
    rw [further.marks, frees.marks, List.mem_append, not_or, and_assoc]
  inodes ino := (further.inodes ino).trans (frees.inodes ino)
  shape := frees.shape.trans further.shape
  tables := further.tables.trans frees.tables

theorem groupBitmapFree_frees (known : fs.Known false block) :
    ∃ after, fs.groupBitmapFree false block = (after, 0) ∧ Frees fs after [block] := by
  obtain ⟨after, freed, marks⟩ := FileSystem.groupBitmapFree_known known
  refine ⟨after, freed, ?_, marks.others, marks.shape, marks.tables⟩
  intro other
  rw [marks.marked, List.mem_singleton]
  split
  next same => simp [same]
  next different => simp [different]

/-- What is left of the tables without the last entry, whose table goes when it was
the only one in it. -/
structure TableLeft (fs : FileSystem) (map : BlockMap) (entries pages : List Nat)
    (after : FileSystem) (next : BlockMap) (left freed : List Nat) : Prop where
  level : ∃ upping, Level after next upping entries left
  frees : Frees fs after freed
  perm : pages.Perm (left ++ freed)
  goal : GoalKnown after next.lastMapBlock
  count : next.count = map.count
  lastDataBlock : next.lastDataBlock = map.lastDataBlock

theorem blockMapIndirectShrink_left (known : GoalKnown fs map.lastMapBlock)
    (large : inodeBlocks < fs.blocksPerBlock) {entries pages : List Nat} {last : Nat}
    (enough : inodeBlocks ≤ entries.length)
    (paged : Paged fs.tables fs.blocksPerBlock pages (entries ++ [last]))
    (slots : map.Slots pages) (marked : ∀ used ∈ pages, fs.Known false used)
    (isPage : pages[entries.length / fs.blocksPerBlock]? = some page) :
    ∃ after next left freed,
      blockMapIndirectShrink fs map page (entries.length / fs.blocksPerBlock)
        (entries.length % fs.blocksPerBlock) = (0, after, next) ∧
      TableLeft fs map entries pages after next left freed := by
  have pageKnown := marked page (List.mem_of_getElem? isPage)
  have slot := slots _ _ isPage
  obtain ⟨freedFs, freeEq, frees⟩ := groupBitmapFree_frees pageKnown
  have goal : GoalKnown freedFs page := .inr ((frees.shape.known _ page).mpr pageKnown)
  obtain ⟨rest, rfl, index⟩ := paged.eq_append isPage
  rw [blockMapIndirectShrink]
  rcases eq_or_ne entries.length inodeBlocks with short | long
  · -- the entries go back to the slots
    have indirect : entries.length / fs.blocksPerBlock = 0 := by
      rw [short, Nat.div_eq_of_lt large]
    have direct : entries.length % fs.blocksPerBlock = inodeBlocks := by
      rw [short, Nat.mod_eq_of_lt large]
    rw [indirect, List.length_eq_zero_iff] at index
    subst index
    rw [indirect] at slot
    rw [if_pos (.inr ⟨indirect, direct⟩), if_pos ⟨indirect, direct⟩, indirect, slot]
    dsimp only
    rw [freeEq]
    refine ⟨_, _, [], [page], rfl, ⟨true, .slots short ?_⟩, frees, .refl _, goal, rfl, rfl⟩
    intro index entry inside
    have below : index < inodeBlocks := short ▸ (List.getElem?_eq_some_iff.mp inside).1
    have isEntry := paged.read
      (show (entries ++ [last])[index]? = some entry by
        rwa [List.getElem?_append_left (short ▸ below)])
      (show [page][index / fs.blocksPerBlock]? = some page by
        rw [Nat.div_eq_of_lt (Nat.lt_trans below large)]
        rfl)
    rw [Nat.mod_eq_of_lt (Nat.lt_trans below large)] at isEntry
    exact (if_pos below).trans isEntry
  · have notUp : ¬ (entries.length / fs.blocksPerBlock = 0 ∧
        entries.length % fs.blocksPerBlock = inodeBlocks) := by
      rintro ⟨indirect, direct⟩
      have split := Nat.div_add_mod entries.length fs.blocksPerBlock
      rw [indirect, direct] at split
      omega
    have more : inodeBlocks < entries.length := by omega
    rcases Nat.eq_zero_or_pos (entries.length % fs.blocksPerBlock) with first | partly
    · rw [if_pos (.inl first), if_neg notUp, slot]
      dsimp only
      rw [freeEq]
      refine ⟨_, _, rest, [page], rfl, ⟨false, .tables more ?_ ?_⟩, frees, .refl _, goal, rfl, rfl⟩
      · rw [frees.tables, frees.shape.perBlock]
        exact paged.dropPage first
      · refine slots.dropLast.congr fun other inside => ?_
        rw [index] at inside
        exact Function.update_of_ne (Nat.ne_of_lt inside) ..
    · have partly := Nat.pos_iff_ne_zero.mp partly
      rw [if_neg (not_or.mpr ⟨partly, notUp⟩)]
      exact ⟨fs, map, _, [], rfl, ⟨false, .tables more (paged.dropLast partly) slots⟩, .refl fs,
        by rw [List.append_nil], known, rfl, rfl⟩

structure Shrunk (fs : FileSystem) (blocks : MapBlocks) (after : FileSystem) (next : BlockMap)
    (left : MapBlocks) (freed : List Nat) : Prop where
  mapped : Mapped after next left
  mapGoal : GoalKnown after next.lastMapBlock
  dataGoal : GoalKnown after next.lastDataBlock
  frees : Frees fs after freed
  perm : blocks.all.Perm (left.all ++ freed)

theorem Shrunk.held (held : Held fs map blocks) (shrinks : Shrunk fs blocks after next left freed) :
    Held after next left where
  __ := shrinks
  laid := shrinks.frees.shape.laid _ held.laid
  large := shrinks.frees.shape.perBlock ▸ held.large
  nodup := (List.nodup_append.mp (shrinks.perm.nodup_iff.mp held.nodup)).1
  marked block member := by
    have parts := List.nodup_append.mp (shrinks.perm.nodup_iff.mp held.nodup)
    rw [shrinks.frees.marks]
    refine ⟨held.marked block (shrinks.perm.mem_iff.mpr (List.mem_append_left _ member)), ?_⟩
    exact fun isFreed => parts.2.2 block member block isFreed rfl

theorem Shrunk.trans {middle : MapBlocks} {between : BlockMap}
    (shrinks : Shrunk fs blocks mid between middle first)
    (further : Shrunk mid middle after next left second) :
    Shrunk fs blocks after next left (second ++ first) where
  __ := further
  frees := by
    have both := shrinks.frees.trans further.frees
    refine ⟨fun other => ?_, both.inodes, both.shape, both.tables⟩
    rw [both.marks, List.mem_append, List.mem_append, or_comm]
  perm := by
    rw [← List.append_assoc]
    exact shrinks.perm.trans (further.perm.append_right first)

def shrunkMap (map : BlockMap) (blockToFree : Nat) : BlockMap :=
  { map with count := map.count - 1, offset := 0, lastDataBlock := blockToFree, dirty := true }

structure LastOut (fs : FileSystem) (blocks : MapBlocks) (mid : FileSystem) (next : BlockMap)
    (last : Nat) (left : MapBlocks) (freed : List Nat) : Prop where
  frees : Frees fs mid freed
  mapped : Mapped mid (shrunkMap next last) left
  goal : GoalKnown mid next.lastMapBlock
  data : blocks.data = left.data ++ [last]
  perm : blocks.all.Perm (left.all ++ (freed ++ [last]))

theorem LastOut.shrunk (held : Held fs map blocks)
    (out : LastOut fs blocks mid next last left freed) :
    ∃ after, mid.groupBitmapFree false last = (after, 0) ∧
      Shrunk fs blocks after (shrunkMap next last) left (freed ++ [last]) := by
  have member : last ∈ blocks.all := by simp [out.perm.mem_iff]
  have known : mid.Known false last := (out.frees.shape.known _ last).mpr (held.marked last member).1
  obtain ⟨after, freeEq, frees⟩ := groupBitmapFree_frees known
  refine ⟨after, freeEq, ?_, frees.shape.goal out.goal, .inr ((frees.shape.known _ last).mpr known),
    out.frees.trans frees, out.perm⟩
  exact out.mapped.congr frees.shape.perBlock (fun _ _ => by rw [frees.tables]) rfl rfl

theorem direct_lastOut (held : Held fs map ⟨data ++ [last], [], []⟩)
    (short : data.length < inodeBlocks) (length : map.count = data.length + 1)
    (slots : map.Slots (data ++ [last])) :
    map.blocks data.length = last ∧
      LastOut fs ⟨data ++ [last], [], []⟩ fs (map.setSlot data.length 0) last ⟨data, [], []⟩ [] := by
  refine ⟨slots _ _ List.getElem?_concat_length, .refl fs, .direct ?_ (Nat.le_of_lt short) ?_,
    held.mapGoal, rfl, by simp [MapBlocks.all]⟩
  · simp [shrunkMap, BlockMap.setSlot, length]
  · refine slots.dropLast.congr fun slot inside => ?_
    exact Function.update_of_ne (Nat.ne_of_lt inside) ..

theorem perm_left {data singly doubly singlyLeft doublyLeft singlyFreed doublyFreed : List Nat}
    {last : Nat} (singlyPerm : singly.Perm (singlyLeft ++ singlyFreed))
    (doublyPerm : doubly.Perm (doublyLeft ++ doublyFreed)) :
    (MapBlocks.all ⟨data ++ [last], singly, doubly⟩).Perm
      (MapBlocks.all ⟨data, singlyLeft, doublyLeft⟩ ++ (singlyFreed ++ doublyFreed ++ [last])) := by
  rw [List.perm_iff_count] at singlyPerm doublyPerm ⊢
  intro other
  have singlyCount := singlyPerm other
  have doublyCount := doublyPerm other
  simp only [MapBlocks.all, List.count_append] at singlyCount doublyCount ⊢
  omega

theorem singly_lastOut (held : Held fs map ⟨data ++ [last], singly, []⟩)
    (length : map.count = data.length + 1) (long : inodeBlocks ≤ data.length)
    (fits : data.length < fs.singlyBlocks)
    (paged : Paged fs.tables fs.blocksPerBlock singly (data ++ [last])) (slots : map.Slots singly) :
    ∃ mid next left freed, shrinkSingly fs map data.length = (0, mid, next, last) ∧
      LastOut fs ⟨data ++ [last], singly, []⟩ mid next last left freed := by
  obtain ⟨page, isPage, isLast⟩ := paged.found data.length last List.getElem?_concat_length
  have known : ∀ used ∈ singly, fs.Known false used := fun used inUse =>
    (held.marked used (by simp [MapBlocks.all, inUse])).1
  obtain ⟨mid, next, left, freed, shrinkEq, tableLeft⟩ :=
    blockMapIndirectShrink_left held.mapGoal held.large long paged slots known isPage
  have perm := @perm_left data singly [] left [] freed [] last tableLeft.perm (List.Perm.refl [])
  simp only [List.append_nil] at perm
  have count : (shrunkMap next last).count = data.length := by
    simp [shrunkMap, tableLeft.count, length]
  have upper : mid.singlyBlocks = fs.singlyBlocks :=
    congrArg (· * inodeBlocks) tableLeft.frees.shape.perBlock
  refine ⟨mid, next, ⟨data, left, []⟩, freed, ?_, tableLeft.frees, ?_, tableLeft.goal, rfl, perm⟩
  · rw [shrinkSingly]
    simp only [slots _ _ isPage, isLast, shrinkEq]
  · obtain ⟨upping, level⟩ := tableLeft.level
    cases level with
    | slots short listed => exact .direct count (Nat.le_of_eq short) listed
    | tables more leftPaged listed =>
      exact .singly count more (upper ▸ Nat.le_of_lt fits) leftPaged listed

theorem doubly_lastOut {doubly : List Nat} (held : Held fs map ⟨data ++ [last], singly, doubly⟩)
    (length : map.count = data.length + 1) (long : fs.singlyBlocks ≤ data.length)
    (paged : Paged fs.tables fs.blocksPerBlock singly (data ++ [last]))
    (outer : Paged fs.tables fs.blocksPerBlock doubly singly) (slots : map.Slots doubly) :
    ∃ mid next left freed, shrinkDoubly fs map data.length = (0, mid, next, last) ∧
      LastOut fs ⟨data ++ [last], singly, doubly⟩ mid next last left freed := by
  obtain ⟨table, isTable, isLast⟩ := paged.found data.length last List.getElem?_concat_length
  obtain ⟨rest, rfl, index⟩ := paged.eq_append isTable
  obtain ⟨page, isPage, tableEq⟩ := outer.found _ table isTable
  have known : ∀ used ∈ rest ++ [table] ++ doubly, fs.Known false used := by
    intro used inUse
    refine (held.marked used ?_).1
    rw [MapBlocks.all, List.append_assoc]
    exact List.mem_append_right _ inUse
  have outerEq := slots _ _ isPage
  rw [shrinkDoubly]
  simp only [outerEq, tableEq, isLast]
  rcases Nat.eq_zero_or_pos (data.length % fs.blocksPerBlock) with first | partly
  · have goalKnown := known table (by simp)
    obtain ⟨mid, freeEq, frees⟩ := groupBitmapFree_frees goalKnown
    have perBlock : mid.blocksPerBlock = fs.blocksPerBlock := frees.shape.perBlock
    have positive : 0 < fs.blocksPerBlock := Nat.lt_of_le_of_lt (Nat.zero_le _) held.large
    have total : data.length = rest.length * fs.blocksPerBlock := paged.length_of_last first
    have enough : inodeBlocks ≤ rest.length := by
      rw [FileSystem.singlyBlocks, total, Nat.mul_comm] at long
      exact Nat.le_of_mul_le_mul_right long positive
    have midOuter : Paged mid.tables mid.blocksPerBlock doubly (rest ++ [table]) := by
      rw [frees.tables, perBlock]
      exact outer
    obtain ⟨final, next, left, freed, shrinkEq, tableLeft⟩ :=
      @blockMapIndirectShrink_left mid { map with lastMapBlock := table } page
        (.inr ((frees.shape.known _ table).mpr goalKnown)) (perBlock ▸ held.large) rest doubly table
        enough midOuter slots
        (fun used inUse => (frees.shape.known _ used).mpr (known used (List.mem_append_right _ inUse)))
        (by rw [perBlock, index]; exact isPage)
    rw [perBlock, index] at shrinkEq
    have allFrees := frees.trans tableLeft.frees
    have count : (shrunkMap next last).count = data.length := by
      simp [shrunkMap, tableLeft.count, length]
    have upper : final.singlyBlocks = fs.singlyBlocks :=
      congrArg (· * inodeBlocks) allFrees.shape.perBlock
    have leftPaged : Paged final.tables final.blocksPerBlock rest data := by
      rw [allFrees.tables, allFrees.shape.perBlock]
      exact paged.dropPage first
    refine ⟨final, next, ⟨data, rest, left⟩, [table] ++ freed, ?_, allFrees, ?_, tableLeft.goal,
      rfl, perm_left (List.Perm.refl _) tableLeft.perm⟩
    · rw [if_pos first, freeEq]
      dsimp only
      rw [if_neg (Nat.lt_irrefl 0), shrinkEq]
    · obtain ⟨upping, level⟩ := tableLeft.level
      have large := held.large
      cases level with
      | slots short listed =>
        refine .singly count ?_ ?_ leftPaged listed
        · rw [total, short]
          exact Nat.lt_of_lt_of_le large (Nat.le_mul_of_pos_left _ (by decide))
        · have isFull : data.length = fs.singlyBlocks := by
            rw [total, short, FileSystem.singlyBlocks, Nat.mul_comm]
          omega
      | tables more leftOuter listed =>
        refine .doubly count ?_ leftPaged leftOuter listed
        rw [upper, FileSystem.singlyBlocks, total, Nat.mul_comm]
        exact Nat.mul_lt_mul_of_pos_right more positive
  · have partly := Nat.pos_iff_ne_zero.mp partly
    rw [if_neg partly]
    have more : fs.singlyBlocks < data.length := by
      refine Nat.lt_of_le_of_ne long fun same => partly ?_
      rw [← same, FileSystem.singlyBlocks, Nat.mul_mod_right]
    refine ⟨fs, map, ⟨data, rest ++ [table], doubly⟩, [], rfl, .refl fs, ?_, held.mapGoal, rfl, ?_⟩
    · refine .doubly ?_ more (paged.dropLast partly) outer slots
      simp [shrunkMap, length]
    · exact @perm_left data (rest ++ [table]) doubly (rest ++ [table]) doubly [] [] last
        (by rw [List.append_nil]) (by rw [List.append_nil])

section

variable (held : Held fs map blocks)
include held

/-- The last block of a map can be taken, with the tables it empties. -/
theorem last_lastOut (some_block : 0 < map.count) (below : map.count - 1 < fs.doublyBlocks) :
    ∃ mid next last left freed, LastOut fs blocks mid next last left freed ∧
      takeLast fs map (map.count - 1) = some (0, mid, next, last) := by
  rw [takeLast]
  obtain ⟨data, singly, doubly⟩ := blocks
  have total := held.mapped.count
  obtain rfl | ⟨data, last, rfl⟩ := List.eq_nil_or_concat' data
  · rw [List.length_nil] at total
    omega
  have length : map.count = data.length + 1 := by simpa using total
  have index : map.count - 1 = data.length := by omega
  rw [index] at below ⊢
  have large := held.singlyBlocks_large
  cases held.mapped with
  | direct count short slots =>
    have short : data.length < inodeBlocks := by omega
    obtain ⟨isLast, out⟩ := direct_lastOut held short length slots
    rw [if_pos short, isLast]
    exact ⟨_, _, last, _, _, out, rfl⟩
  | singly count long fits paged slots =>
    rw [List.length_append, List.length_singleton] at long fits
    obtain ⟨mid, next, left, freed, taken, out⟩ :=
      singly_lastOut held length (by omega) (by omega) paged slots
    rw [if_neg (by omega), if_pos (by omega), taken]
    exact ⟨mid, next, last, _, _, out, rfl⟩
  | doubly count long paged outer slots =>
    rw [List.length_append, List.length_singleton] at long
    obtain ⟨mid, next, left, freed, taken, out⟩ :=
      doubly_lastOut held length (by omega) paged outer slots
    rw [if_neg (by omega), if_neg (by omega), if_pos below, taken]
    exact ⟨mid, next, last, left, freed, out, rfl⟩

theorem takeLast_none (beyond : fs.doublyBlocks ≤ block) : takeLast fs map block = none := by
  have large := held.singlyBlocks_large
  have levels : fs.singlyBlocks ≤ fs.doublyBlocks := by
    rw [FileSystem.singlyBlocks, FileSystem.doublyBlocks, Nat.mul_assoc]
    exact Nat.le_mul_of_pos_left _ (Nat.lt_of_le_of_lt (Nat.zero_le _) held.large)
  rw [takeLast, if_neg (by omega), if_neg (by omega), if_neg (Nat.not_lt.mpr beyond)]

theorem Held.unchanged : Shrunk fs blocks fs map blocks [] :=
  ⟨held.mapped, held.mapGoal, held.dataGoal, .refl fs, by rw [List.append_nil]⟩

theorem Held.ends : Shrunk fs blocks fs (shrinkEnd map) blocks [] := by
  have kept : ∀ map : BlockMap, (keepPosition map).count = map.count ∧
      (keepPosition map).blocks = map.blocks ∧
      (keepPosition map).lastMapBlock = map.lastMapBlock ∧
      (keepPosition map).lastDataBlock = map.lastDataBlock := by
    intro map
    rw [keepPosition]
    split <;> exact ⟨rfl, rfl, rfl, rfl⟩
  rw [shrinkEnd]
  split
  next =>
    obtain ⟨count, slots, mapGoal, dataGoal⟩ :=
      kept { map with lastMapBlock := 0, lastDataBlock := 0 }
    exact ⟨held.mapped.congr rfl (fun _ _ => rfl) count slots, .inl mapGoal, .inl dataGoal,
      .refl fs, by rw [List.append_nil]⟩
  next =>
    obtain ⟨count, slots, mapGoal, dataGoal⟩ := kept map
    exact ⟨held.mapped.congr rfl (fun _ _ => rfl) count slots, mapGoal ▸ held.mapGoal,
      dataGoal ▸ held.dataGoal, .refl fs, by rw [List.append_nil]⟩

end

private theorem blockMapIndirectShrink_bpos (fs : FileSystem) (map : BlockMap)
    (table indirect index : Nat) :
    (blockMapIndirectShrink fs map table indirect index).2.2.bpos = map.bpos := by
  rw [blockMapIndirectShrink]
  split
  next =>
    dsimp only
    split <;> split <;> rfl
  next => rfl

theorem takeLast_bpos (taken : takeLast fs map block = some (rc, after, next, last)) :
    next.bpos = map.bpos := by
  rw [takeLast] at taken
  split at taken
  next =>
    cases taken
    rfl
  next =>
    split at taken
    next =>
      rw [shrinkSingly] at taken
      cases taken
      exact blockMapIndirectShrink_bpos ..
    next =>
      split at taken
      next =>
        rw [shrinkDoubly] at taken
        dsimp only at taken
        split at taken
        next =>
          split at taken
          next =>
            cases taken
            rfl
          next =>
            cases taken
            exact blockMapIndirectShrink_bpos ..
        next =>
          cases taken
          rfl
      next => cases taken

theorem shrinkOne_shrunk (held : Held fs map blocks) (some_block : 0 < map.count)
    (shrinks : shrinkOne fs map = some (rc, after, next)) :
    ∃ left freed, Shrunk fs blocks after next left freed ∧ left.data = blocks.data.dropLast ∧
      rc = 0 ∧ next.bpos = map.bpos := by
  rw [shrinkOne] at shrinks
  rcases Nat.lt_or_ge (map.count - 1) fs.doublyBlocks with below | beyond
  · obtain ⟨mid, taken, last, left, freed, out, isTaken⟩ := last_lastOut held some_block below
    obtain ⟨final, freeEq, shrunk⟩ := out.shrunk held
    have position := takeLast_bpos isTaken
    rw [isTaken] at shrinks
    simp only [Option.map_some, Nat.lt_irrefl, if_false, freeEq, Option.some.injEq,
      Prod.mk.injEq] at shrinks
    obtain ⟨rfl, rfl, rfl⟩ := shrinks
    exact ⟨left, _, shrunk, by rw [out.data, List.dropLast_concat], rfl, position⟩
  · rw [takeLast_none held beyond] at shrinks
    exact nomatch shrinks

def PositionKept (map next : BlockMap) : Prop :=
  next.bpos.block = 0 ∨ next.bpos = map.bpos ∧ next.bpos.bno < next.count

theorem shrinkEnd_position (map : BlockMap) : PositionKept map (shrinkEnd map) := by
  have keeps : ∀ map : BlockMap, PositionKept map (keepPosition map) := by
    intro map
    rw [keepPosition]
    split
    next => exact .inl rfl
    next inside =>
      refine .inr ⟨rfl, Nat.lt_of_not_le fun beyond => inside (.inr (.inl beyond))⟩
  rw [shrinkEnd]
  split
  next => exact keeps { map with lastMapBlock := 0, lastDataBlock := 0 }
  next => exact keeps map

/-- A map loses as many of its last blocks as it should. -/
theorem shrinkLoop_shrunk (held : Held fs map blocks) {fewer : Nat} (inside : fewer ≤ map.count) :
    ∃ left freed, Shrunk fs blocks (shrinkLoop fs map fewer).2.1 (shrinkLoop fs map fewer).2.2
      left freed ∧ (map.count < fs.doublyBlocks →
        left.data = blocks.data.take (map.count - fewer) ∧ (shrinkLoop fs map fewer).1 = 0 ∧
          PositionKept map (shrinkLoop fs map fewer).2.2) := by
  induction fewer generalizing fs map blocks with
  | zero =>
    refine ⟨blocks, [], held.ends, fun _ => ⟨?_, rfl, shrinkEnd_position map⟩⟩
    rw [Nat.sub_zero, held.mapped.count, List.take_length]
  | succ fewer ih =>
    rw [shrinkLoop]
    cases step : shrinkOne fs map with
    | none =>
      refine ⟨blocks, [], held.ends, fun bounded => ?_⟩
      obtain ⟨_, _, _, _, _, _, isTaken⟩ := last_lastOut held (by omega) (by omega)
      rw [shrinkOne, isTaken] at step
      exact nomatch step
    | some result =>
      obtain ⟨rc, after, next⟩ := result
      obtain ⟨middle, first, isMiddle, data, rfl, position⟩ :=
        shrinkOne_shrunk held (by omega) step
      dsimp only
      rw [if_neg (Nat.lt_irrefl 0)]
      have count : next.count = map.count - 1 := by
        rw [isMiddle.mapped.count, data, List.length_dropLast, held.mapped.count]
      obtain ⟨left, second, isLeft, further⟩ := ih (isMiddle.held held) (by omega)
      refine ⟨left, second ++ first, isMiddle.trans isLeft, fun bounded => ?_⟩
      have doubly : after.doublyBlocks = fs.doublyBlocks := by
        rw [FileSystem.doublyBlocks, isMiddle.frees.shape.perBlock, FileSystem.doublyBlocks]
      obtain ⟨rest, rc, kept⟩ := further (by omega)
      refine ⟨?_, rc, ?_⟩
      · rw [rest, data, List.dropLast_eq_take, List.take_take, count, held.mapped.count]
        congr 1
        omega
      · rw [PositionKept, position] at kept
        exact kept

theorem blockMapShrink_shrunk (held : Held fs map blocks) (fewer : Nat) :
    ∃ left freed, Shrunk fs blocks (blockMapShrink fs map fewer).2.1
      (blockMapShrink fs map fewer).2.2 left freed := by
  rw [blockMapShrink]
  split
  next => exact ⟨blocks, [], held.unchanged⟩
  next =>
    obtain ⟨left, freed, shrunk, -⟩ := shrinkLoop_shrunk held (Nat.min_le_right fewer map.count)
    exact ⟨left, freed, shrunk⟩

end RTContainer.Rfs
