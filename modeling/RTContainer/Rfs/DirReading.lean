import RTContainer.Rfs.DirListing
import RTContainer.Rfs.DirRuns

/-! Reading a directory, `rtems_rfs_dir_read`, and the search of a directory for entries
other than its own and its parent's, `rtems_rfs_dir_empty`. -/

set_option autoImplicit false

namespace RTContainer.Rfs

def nameMax : Nat := 255

/-- The fields of a `struct dirent` that are set. -/
structure Dirent where
  off : Nat
  ino : Nat
  name : List UInt8

/-- The loop over the blocks. An entry that ends where no other fits is read together with
the bytes behind it, and a place without an entry is read to the end of its block. -/
def readBlocks (limits : DirLimits) (bno : Nat) :
    List (List UInt8) → Nat → Nat → Except Nat (Dirent × Nat)
  | [], _, _ => .error enoent
  | block :: rest, boff, length =>
    let elength := entryLength block boff
    if elength ≠ dirEntryEmpty then
      if EntryInvalid limits elength (entryIno block boff) then .error eio
      else
        .ok (⟨bno * limits.blockSize + boff, entryIno block boff,
            (entryName block boff).take nameMax⟩,
          length + if limits.blockSize ≤ boff + elength + dirEntrySize then
            limits.blockSize - boff else elength)
    else readBlocks limits (bno + 1) rest 0 (length + (limits.blockSize - boff))

/-- `rtems_rfs_dir_read`, with the length that it returns. -/
def dirRead (limits : DirLimits) (blocks : List (List UInt8)) (offset : Nat) :
    Except Nat (Dirent × Nat) :=
  let offset :=
    if limits.blockSize - offset % limits.blockSize ≤ dirEntrySize then
      (offset / limits.blockSize + 1) * limits.blockSize
    else offset
  readBlocks limits (offset / limits.blockSize) (blocks.drop (offset / limits.blockSize))
    (offset % limits.blockSize) 0

/-- The loop of `rtems_rfs_rtems_dir_read`, with what has ended it. -/
def dirReads (limits : DirLimits) (blocks : List (List UInt8)) : Nat → Nat → List Dirent × Nat
  | 0, _ => ([], 0)
  | count + 1, offset =>
    match dirRead limits blocks offset with
    | .error rc => ([], rc)
    | .ok (dirent, size) =>
      let (dirents, rc) := dirReads limits blocks count (offset + size)
      (dirent :: dirents, rc)

def Dirent.shown (dirent : Dirent) : Nat × List UInt8 := (dirent.ino, dirent.name)

def DirEntry.shown (entry : DirEntry) : Nat × List UInt8 := (entry.ino, entry.name.take nameMax)

variable {limits : DirLimits} {block : List UInt8} {blocks front rest : List (List UInt8)}
variable {contents others : List (List DirEntry)} {entries before after : List DirEntry}
variable {entry : DirEntry}

theorem Packed.readBlocks_entry (packed : Packed limits block (before ++ entry :: after))
    (rest : List (List UInt8)) (bno length : Nat) :
    readBlocks limits bno (block :: rest) (packedBytes before).length length =
      .ok (⟨bno * limits.blockSize + (packedBytes before).length, entry.shown.1, entry.shown.2⟩,
        length + if limits.blockSize ≤ (packedBytes before).length + entry.size + dirEntrySize then
          limits.blockSize - (packedBytes before).length else entry.size) := by
  have has := packed.hasEntry
  have fits := packed.entry_fits
  have notEmpty : entryLength block (packedBytes before).length ≠ dirEntryEmpty := by
    rw [has.entryLength fits]
    exact Nat.ne_of_lt fits.encoded
  rw [readBlocks, if_pos notEmpty, if_neg (has.not_invalid fits), has.entryIno fits,
    has.entryName fits, has.entryLength fits]
  rfl

theorem Packed.readBlocks_end (packed : Packed limits block entries)
    (inside : (packedBytes entries).length + dirEntrySize < limits.blockSize)
    (bno length : Nat) :
    readBlocks limits bno (block :: rest) (packedBytes entries).length length =
      readBlocks limits (bno + 1) rest 0
        (length + (limits.blockSize - (packedBytes entries).length)) := by
  rw [readBlocks, if_neg]
  exact not_not.mpr (packed.entryLength_end (Nat.lt_sub_of_add_lt inside))

private theorem readBlocks_length (bno boff length : Nat) :
    readBlocks limits bno blocks boff length =
      (readBlocks limits bno blocks boff 0).map fun read => (read.1, length + read.2) := by
  induction blocks generalizing bno boff length with
  | nil => rfl
  | cons block rest ih =>
    simp only [readBlocks]
    split
    next =>
      split
      next => rfl
      next => simp only [Except.map, Nat.zero_add]
    next =>
      rw [ih (bno + 1) 0 (length + _), ih (bno + 1) 0 (0 + _)]
      cases readBlocks limits (bno + 1) rest 0 0 with
      | error rc => rfl
      | ok read => simp only [Except.map, Nat.zero_add, Nat.add_assoc]

theorem dirRead_at (front rest : List (List UInt8)) {boff : Nat}
    (inside : boff + dirEntrySize < limits.blockSize) :
    dirRead limits (front ++ rest) (front.length * limits.blockSize + boff) =
      readBlocks limits front.length rest boff 0 := by
  have below : boff < limits.blockSize := Nat.lt_of_le_of_lt (Nat.le_add_right ..) inside
  have isBlock : (front.length * limits.blockSize + boff) / limits.blockSize = front.length := by
    rw [Nat.mul_comm, Nat.mul_add_div (Nat.zero_lt_of_lt below), Nat.div_eq_of_lt below,
      Nat.add_zero]
  have isOffset : (front.length * limits.blockSize + boff) % limits.blockSize = boff := by
    rw [Nat.mul_comm, Nat.mul_add_mod, Nat.mod_eq_of_lt below]
  have roomy : ¬ limits.blockSize - boff ≤ dirEntrySize := by omega
  simp only [dirRead, isOffset, if_neg roomy, isBlock, List.drop_left]

def Shows (limits : DirLimits) (blocks : List (List UInt8)) (offset : Nat)
    (entries : List DirEntry) : Prop :=
  ∀ count, entries.length < count → ∃ dirents,
    dirReads limits blocks count offset = (dirents, enoent) ∧
      dirents.map Dirent.shown = entries.map DirEntry.shown

theorem Shows.skipped {offset skip : Nat} (shows : Shows limits blocks (offset + skip) entries)
    (reads : dirRead limits blocks offset =
      (dirRead limits blocks (offset + skip)).map fun read => (read.1, skip + read.2)) :
    Shows limits blocks offset entries := by
  intro count enough
  obtain ⟨count, rfl⟩ := Nat.exists_eq_succ_of_ne_zero (Nat.ne_zero_of_lt enough)
  obtain ⟨dirents, isRead, shown⟩ := shows _ enough
  refine ⟨dirents, ?_, shown⟩
  rw [← isRead, dirReads, dirReads, reads]
  cases dirRead limits blocks (offset + skip) with
  | error rc => rfl
  | ok read => simp only [Except.map, Nat.add_assoc]

theorem Shows.cons {offset size : Nat} {dirent : Dirent}
    (shows : Shows limits blocks (offset + size) entries)
    (reads : dirRead limits blocks offset = .ok (dirent, size))
    (isEntry : dirent.shown = entry.shown) : Shows limits blocks offset (entry :: entries) := by
  intro count enough
  obtain ⟨count, rfl⟩ := Nat.exists_eq_succ_of_ne_zero (Nat.ne_zero_of_lt enough)
  obtain ⟨dirents, isRead, shown⟩ := shows count (Nat.lt_of_succ_lt_succ enough)
  refine ⟨dirent :: dirents, ?_, ?_⟩
  · rw [dirReads, reads]
    simp only [isRead]
  · rw [List.map_cons, List.map_cons, isEntry, shown]

/-- Reading goes on from any entry of a block to the end of the directory. -/
theorem Packed.shows (before : List DirEntry) {after : List DirEntry}
    (packed : Packed limits block (before ++ after))
    (inside : (packedBytes before).length + dirEntrySize < limits.blockSize)
    (later : Shows limits (front ++ block :: rest) ((front.length + 1) * limits.blockSize) entries) :
    Shows limits (front ++ block :: rest)
      (front.length * limits.blockSize + (packedBytes before).length) (after ++ entries) := by
  have wide : 0 + dirEntrySize < limits.blockSize :=
    Nat.lt_of_le_of_lt (Nat.add_le_add_right (Nat.zero_le _) _) inside
  have toNext : front.length * limits.blockSize + (packedBytes before).length +
      (limits.blockSize - (packedBytes before).length) = (front.length + 1) * limits.blockSize := by
    rw [Nat.succ_mul]
    omega
  induction after generalizing before with
  | nil =>
    rw [List.append_nil] at packed
    rw [← toNext] at later
    refine later.skipped ?_
    have next := dirRead_at (front ++ [block]) rest wide
    rw [List.append_assoc, List.length_append, List.length_singleton, Nat.add_zero] at next
    rw [dirRead_at _ _ inside, packed.readBlocks_end inside, readBlocks_length, toNext,
      Nat.zero_add, ← next]
    rfl
  | cons entry after ih =>
    have reads := (dirRead_at front (block :: rest) inside).trans
      (packed.readBlocks_entry rest front.length 0)
    have further : Packed limits block ((before ++ [entry]) ++ after) := by simpa using packed
    have length : (packedBytes (before ++ [entry])).length =
        (packedBytes before).length + entry.size := by simp
    rw [Nat.zero_add] at reads
    by_cases last : limits.blockSize ≤ (packedBytes before).length + entry.size + dirEntrySize
    · rw [if_pos last] at reads
      have noMore : after = [] := by
        cases after with
        | nil => rfl
        | cons other after =>
          have below := further.offset_lt
          rw [length] at below
          omega
      subst noMore
      rw [← toNext] at later
      exact later.cons reads rfl
    · rw [if_neg last] at reads
      have continued := ih _ further (by rw [length]; omega) (by
        rw [length, Nat.succ_mul]
        omega)
      rw [length, ← Nat.add_assoc] at continued
      exact continued.cons reads rfl

theorem Listed.shows (wide : dirEntrySize < limits.blockSize) (front : List (List UInt8))
    (listed : Listed limits rest contents) :
    Shows limits (front ++ rest) (front.length * limits.blockSize) contents.flatten := by
  induction listed generalizing front with
  | nil =>
    intro count enough
    obtain ⟨count, rfl⟩ := Nat.exists_eq_succ_of_ne_zero (Nat.ne_zero_of_lt enough)
    have ended := dirRead_at front [] (Nat.lt_of_le_of_lt (Nat.le_of_eq (Nat.zero_add _)) wide)
    rw [Nat.add_zero] at ended
    exact ⟨[], by rw [dirReads, ended]; rfl, rfl⟩
  | @cons block entries rest others packed listed ih =>
    have later := ih (front ++ [block])
    rw [List.append_assoc, List.length_append] at later
    exact Packed.shows [] packed (by rw [packedBytes_nil]; simpa using wide) later

theorem HasEntry.not_notDots {offset : Nat} (has : HasEntry block offset entry)
    (fits : entry.Fits limits) (dotted : entry.Dotted) : ¬ NotDots block offset := by
  have first := has.getD_name 0 (List.length_pos_iff.mpr fits.named)
  rw [NotDots, has.entryLength fits, DirEntry.size]
  rcases dotted with named | named
  · rw [named, Nat.add_zero] at first
    rw [named, first]
    simp [dotName]
  · have second := has.getD_name 1 (by rw [named]; decide)
    rw [named, Nat.add_zero] at first
    rw [named] at second
    rw [named, first, second]
    simp [dotdotName]

theorem Packed.emptyBlock_iff (packed : Packed limits block entries) :
    Rfs.emptyBlock limits block = true ↔ ∀ entry ∈ entries, entry.Dotted := by
  refine ⟨packed.emptyBlock, fun dotted => ?_⟩
  have all : Packed limits block (entries ++ []) := by rwa [List.append_nil]
  rw [Rfs.emptyBlock, all.scan_skip, packed.scan_end, ite_self]
  rintro before entry after rfl
  exact if_neg (packed.hasEntry.not_notDots packed.entry_fits (dotted entry (by simp)))

theorem Listed.dirEmpty_iff (listed : Listed limits blocks contents) :
    Rfs.dirEmpty limits blocks = 0 ↔ blocks ≠ [] ∧ ∀ entry ∈ contents.flatten, entry.Dotted := by
  constructor
  · intro empty
    refine ⟨?_, listed.dirEmpty empty⟩
    rintro rfl
    exact nomatch empty
  · rintro ⟨some_block, dotted⟩
    rw [Rfs.dirEmpty, if_neg some_block, if_pos]
    clear some_block
    induction listed with
    | nil => rfl
    | cons packed listed ih =>
      simp only [List.flatten_cons, List.mem_append] at dotted
      rw [List.all_cons, Bool.and_eq_true]
      exact ⟨packed.emptyBlock_iff.mpr fun entry member => dotted entry (.inl member),
        ih fun entry member => dotted entry (.inr member)⟩

/-- A directory, and the entries that have been added and not deleted since. -/
structure DirContent where
  blocks : List (List UInt8)
  entries : List DirEntry

inductive DirEdit where
  | add (entry : DirEntry) (free : Nat)
  | del (entry : DirEntry) (doff : Nat)

namespace DirContent

def empty : DirContent := ⟨[], []⟩

def step (limits : DirLimits) (content : DirContent) : DirEdit → DirContent
  | .add entry free =>
    let (rc, blocks) := dirAddEntry limits content.blocks entry.name entry.ino free
    ⟨blocks, if rc = 0 then entry :: content.entries else content.entries⟩
  | .del entry doff =>
    let (rc, blocks) := dirDelEntry limits content.blocks entry.ino doff
    ⟨blocks, if rc = 0 then content.entries.erase entry else content.entries⟩

/-- The reads from the start show each entry once, and the directory is found empty when
its entries are those of itself and of its parent. -/
structure Readable (limits : DirLimits) (content : DirContent) : Prop where
  complete : ∀ count, content.entries.length < count → ∃ dirents,
    dirReads limits content.blocks count 0 = (dirents, enoent) ∧
      (dirents.map Dirent.shown).Perm (content.entries.map DirEntry.shown)
  empty : dirEmpty limits content.blocks = 0 ↔
    content.blocks ≠ [] ∧ ∀ entry ∈ content.entries, entry.Dotted

end DirContent

/-- The inode is one of the file system, and the entry that goes is at its offset. -/
def DirEdit.Admitted (limits : DirLimits) (content : DirContent) : DirEdit → Prop
  | .add entry _ => rootIno ≤ entry.ino ∧ entry.ino ≤ limits.inodes ∧ entry.ino < 2 ^ 32
  | .del entry doff => dirEntryAt limits content.blocks doff = some entry

def DirEdit.Plain (limits : DirLimits) : DirEdit → Prop
  | .add entry _ =>
    entry.name ≠ [] ∧ entry.size < limits.maxName ∧ entry.size < dirEntryEmpty
  | .del _ _ => True

variable {content : DirContent}

def DirContent.Holds (limits : DirLimits) (content : DirContent) : Prop :=
  ∃ contents, Listed limits content.blocks contents ∧ contents.flatten.Perm content.entries

theorem DirContent.Holds.readable (wide : dirEntrySize < limits.blockSize)
    (holds : content.Holds limits) : content.Readable limits := by
  obtain ⟨contents, listed, perm⟩ := holds
  refine ⟨fun count enough => ?_, ?_⟩
  · have shows := listed.shows wide []
    rw [List.length_nil, Nat.zero_mul] at shows
    obtain ⟨dirents, isRead, shown⟩ := shows count (perm.length_eq ▸ enough)
    exact ⟨dirents, isRead, shown ▸ perm.map _⟩
  · simp only [listed.dirEmpty_iff, perm.mem_iff]

theorem DirContent.Holds.step (holds : content.Holds limits) {edit : DirEdit}
    (admitted : edit.Admitted limits content) (plain : edit.Plain limits) :
    (content.step limits edit).Holds limits := by
  obtain ⟨contents, listed, perm⟩ := holds
  cases edit with
  | add entry free =>
    have fits : entry.Fits limits :=
      ⟨plain.1, plain.2.1, plain.2.2, admitted.1, admitted.2.1, admitted.2.2⟩
    obtain ⟨rc, after, next, added, isListed, -, outcome⟩ := listed.dirAddEntry fits free
    refine ⟨next, ?_⟩
    rw [DirContent.step, added]
    rcases outcome with ⟨rfl, grown⟩ | ⟨rfl, same⟩
    · exact ⟨isListed, grown.trans (perm.cons entry)⟩
    · exact ⟨isListed, same ▸ perm⟩
  | del entry doff =>
    have placed := listed.entryAt_iff.mp admitted
    obtain ⟨after, next, left, right, deleted, isListed, was, isNow⟩ := placed.dirDelEntry
    rw [Nat.mul_comm, Nat.div_add_mod] at deleted
    refine ⟨next, ?_⟩
    rw [DirContent.step, deleted]
    have erased := (List.perm_middle.symm.trans (was ▸ perm)).erase entry
    rw [List.erase_cons_head, ← isNow] at erased
    exact ⟨isListed, erased⟩

open Machine in
theorem dirEdits_readable (limits : DirLimits) (wide : dirEntrySize < limits.blockSize)
    (edits : List DirEdit)
    (admitted : Meets (DirContent.step limits) (fun content edit => edit.Admitted limits content)
      .empty edits)
    (plain : Meets (DirContent.step limits) (fun _ edit => edit.Plain limits) .empty edits) :
    Throughout (DirContent.step limits) (DirContent.Readable limits) .empty edits := by
  refine Throughout.imp (throughout_of_preserved ⟨[], .nil, .nil⟩ ?_ (admitted.and plain))
    fun content holds => DirContent.Holds.readable wide holds
  intro content edit holds given
  exact holds.step given.1 given.2

instance (content : DirContent) (edit : DirEdit) : Decidable (edit.Admitted limits content) :=
  match edit with
  | .add _ _ => inferInstanceAs (Decidable (_ ∧ _ ∧ _))
  | .del _ _ => inferInstanceAs (Decidable (_ = _))

/-- A new directory, with an entry that comes and goes. -/
def visitorEdits : List DirEdit :=
  [.add ⟨dotName, 3⟩ 1, .add ⟨dotdotName, 2⟩ 1, .add ⟨[97], 4⟩ 1, .del ⟨[97], 4⟩ 23]

open Machine in
theorem visitorEdits_readable :
    Throughout (DirContent.step kilobyteBlocks) (DirContent.Readable kilobyteBlocks) .empty
      visitorEdits :=
  dirEdits_readable kilobyteBlocks (by decide) visitorEdits (by decide +kernel)
    ⟨⟨by decide, by decide, by decide⟩, ⟨by decide, by decide, by decide⟩,
      ⟨by decide, by decide, by decide⟩, trivial, trivial⟩

open Machine in
/-- The entry of a long name is not valid, and a directory with it is found empty. -/
theorem longEntry_unreadable :
    Meets (DirContent.step kilobyteBlocks) (fun content edit => edit.Admitted kilobyteBlocks content)
      .empty [.add ⟨dotName, 3⟩ 1, .add ⟨longName, 4⟩ 1] ∧
    ¬ Throughout (DirContent.step kilobyteBlocks) (DirContent.Readable kilobyteBlocks) .empty
      [.add ⟨dotName, 3⟩ 1, .add ⟨longName, 4⟩ 1] := by
  refine ⟨by decide +kernel, fun readable => ?_⟩
  have isEmpty := readable.final.empty.mp (by decide +kernel)
  have isThere : ⟨longName, 4⟩ ∈ (run (DirContent.step kilobyteBlocks) .empty
      [.add ⟨dotName, 3⟩ 1, .add ⟨longName, 4⟩ 1]).entries := by decide +kernel
  rcases isEmpty.2 _ isThere with named | named
  · exact absurd (congrArg List.length named) (by decide +kernel)
  · exact absurd (congrArg List.length named) (by decide +kernel)

end RTContainer.Rfs
