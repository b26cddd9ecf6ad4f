import RTContainer.Rfs.Dir
import Mathlib.Data.List.Forall2

/-! A block of a directory is the bytes of its entries and, behind them, of no entry.
Searches are walks over the entries, and adding and deleting an entry keep the form. -/

set_option autoImplicit false

namespace RTContainer.Rfs

structure DirEntry where
  name : List UInt8
  ino : Nat
deriving DecidableEq

namespace DirEntry

def bytes (entry : DirEntry) : List UInt8 := entryBytes entry.name entry.ino

def size (entry : DirEntry) : Nat := dirEntrySize + entry.name.length

@[simp] theorem length_bytes (entry : DirEntry) : entry.bytes.length = entry.size := by
  simp only [bytes, entryBytes, size, dirEntrySize, List.length_append, BigEndian.length_write]

/-- The entry is one that the searches take for valid. -/
structure Fits (limits : DirLimits) (entry : DirEntry) : Prop where
  named : entry.name ≠ []
  short : entry.size < limits.maxName
  encoded : entry.size < dirEntryEmpty
  some_ino : rootIno ≤ entry.ino
  inside : entry.ino ≤ limits.inodes
  ino_bits : entry.ino < 256 ^ 4

theorem Fits.size_gt {limits : DirLimits} {entry : DirEntry} (fits : entry.Fits limits) :
    dirEntrySize < entry.size := by
  have := List.length_pos_iff.mpr fits.named
  rw [size]
  omega

end DirEntry

theorem field_of_drop {block rest : List UInt8} {offset width value : Nat}
    (written : block.drop offset = BigEndian.write width value ++ rest)
    (fits : value < 256 ^ width) : field block offset width = value := by
  rw [field, written, List.take_append_of_le_length (by simp),
    List.take_of_length_le (by simp), BigEndian.read_write fits]

def HasEntry (block : List UInt8) (offset : Nat) (entry : DirEntry) : Prop :=
  ∃ rest, block.drop offset = entry.bytes ++ rest

section HasEntry

variable {limits : DirLimits} {block : List UInt8} {offset : Nat} {entry : DirEntry}

section

variable (has : HasEntry block offset entry)
include has

theorem HasEntry.drop :
    ∃ rest, block.drop offset = BigEndian.write 4 entry.ino ++
      (BigEndian.write 4 (dirHash entry.name).toNat ++
        (BigEndian.write 2 entry.size ++ (entry.name ++ rest))) := by
  obtain ⟨rest, isEntry⟩ := has
  refine ⟨rest, ?_⟩
  rw [isEntry]
  simp only [DirEntry.bytes, entryBytes, DirEntry.size, List.append_assoc]

theorem HasEntry.entryIno (fits : entry.Fits limits) : entryIno block offset = entry.ino := by
  obtain ⟨rest, isEntry⟩ := has.drop
  exact field_of_drop isEntry fits.ino_bits

theorem HasEntry.entryHash : entryHash block offset = (dirHash entry.name).toNat := by
  obtain ⟨rest, isEntry⟩ := has.drop
  have hashed : block.drop (offset + 4) =
      BigEndian.write 4 (dirHash entry.name).toNat ++
        (BigEndian.write 2 entry.size ++ (entry.name ++ rest)) := by
    rw [← List.drop_drop, isEntry, List.drop_append_of_le_length (by simp)]
    simp
  exact field_of_drop hashed (dirHash entry.name).toNat_lt

theorem HasEntry.entryLength (fits : entry.Fits limits) :
    entryLength block offset = entry.size := by
  obtain ⟨rest, isEntry⟩ := has.drop
  have sized : block.drop (offset + 8) = BigEndian.write 2 entry.size ++ (entry.name ++ rest) := by
    rw [← List.drop_drop, isEntry, ← List.append_assoc, List.drop_left' (by simp)]
  exact field_of_drop sized (Nat.lt_trans fits.encoded (by decide))

theorem HasEntry.name : ∃ rest, block.drop (offset + dirEntrySize) = entry.name ++ rest := by
  obtain ⟨rest, isEntry⟩ := has.drop
  refine ⟨rest, ?_⟩
  rw [← List.drop_drop, isEntry, ← List.append_assoc, ← List.append_assoc,
    List.drop_left' (by simp [dirEntrySize])]

theorem HasEntry.not_invalid (fits : entry.Fits limits) :
    ¬ EntryInvalid limits (Rfs.entryLength block offset) (Rfs.entryIno block offset) := by
  rw [has.entryLength fits, has.entryIno fits, EntryInvalid]
  have := fits.size_gt
  have := fits.short
  have := fits.some_ino
  have := fits.inside
  omega

end

end HasEntry

def packedBytes (entries : List DirEntry) : List UInt8 := entries.flatMap DirEntry.bytes

@[simp] theorem packedBytes_nil : packedBytes [] = [] := rfl

@[simp] theorem packedBytes_append (before after : List DirEntry) :
    packedBytes (before ++ after) = packedBytes before ++ packedBytes after :=
  List.flatMap_append

@[simp] theorem packedBytes_cons (entry : DirEntry) (rest : List DirEntry) :
    packedBytes (entry :: rest) = entry.bytes ++ packedBytes rest := rfl

structure Packed (limits : DirLimits) (block : List UInt8) (entries : List DirEntry) : Prop where
  fits : ∀ entry ∈ entries, entry.Fits limits
  bytes : block = packedBytes entries ++
    List.replicate (limits.blockSize - (packedBytes entries).length) 0xff
  room : (packedBytes entries).length ≤ limits.blockSize

section Packed

variable {limits : DirLimits} {block : List UInt8} {entries before after : List DirEntry}
variable {entry : DirEntry} {Result : Type}
variable {visit : Nat → Option (Scan Result)} {atEnd : Nat → Scan Result}

theorem Packed.empty (limits : DirLimits) :
    Packed limits (List.replicate limits.blockSize 0xff) [] where
  fits _ member := absurd member List.not_mem_nil
  bytes := rfl
  room := Nat.zero_le _

section

variable (packed : Packed limits block (before ++ entry :: after))
include packed

theorem Packed.hasEntry : HasEntry block (packedBytes before).length entry := by
  refine ⟨packedBytes after ++ List.replicate
    (limits.blockSize - (packedBytes (before ++ entry :: after)).length) 0xff, ?_⟩
  conv_lhs => rw [packed.bytes]
  simp only [packedBytes_append, packedBytes_cons, List.append_assoc]
  rw [List.drop_left]

theorem Packed.entry_fits : entry.Fits limits := packed.fits entry (by simp)

theorem Packed.offset_lt : (packedBytes before).length < limits.blockSize - dirEntrySize := by
  have room := packed.room
  have := packed.entry_fits.size_gt
  simp only [packedBytes_append, packedBytes_cons, List.length_append,
    DirEntry.length_bytes] at room
  omega

end

theorem Packed.entryLength_end (packed : Packed limits block entries)
    (inside : (packedBytes entries).length < limits.blockSize - dirEntrySize) :
    entryLength block (packedBytes entries).length = dirEntryEmpty := by
  rw [dirEntrySize] at inside
  rw [entryLength, field, ← List.drop_drop]
  conv_lhs => rw [packed.bytes]
  rw [List.drop_left, List.drop_replicate, List.take_replicate, Nat.min_eq_left (by omega)]
  rfl

/-- A scan goes from one packed entry to the next. -/
theorem Packed.scan_entry (packed : Packed limits block (before ++ entry :: after)) :
    scanBlock limits block visit atEnd (packedBytes before).length =
      match visit (packedBytes before).length with
      | some result => result
      | none => scanBlock limits block visit atEnd (packedBytes (before ++ [entry])).length := by
  have has := packed.hasEntry
  have fits := packed.entry_fits
  have length := has.entryLength fits
  have notEmpty : entry.size ≠ dirEntryEmpty := Nat.ne_of_lt fits.encoded
  rw [scanBlock, if_pos packed.offset_lt, if_neg (length ▸ notEmpty),
    dif_neg (has.not_invalid fits), length]
  cases visit (packedBytes before).length with
  | some result => rfl
  | none => simp

theorem Packed.scan_end (packed : Packed limits block entries) :
    scanBlock limits block visit atEnd (packedBytes entries).length =
      if (packedBytes entries).length < limits.blockSize - dirEntrySize then
        atEnd (packedBytes entries).length
      else .passed := by
  rw [scanBlock]
  split
  next inside => rw [if_pos (packed.entryLength_end inside)]
  next => rfl

theorem Packed.scan_skip (packed : Packed limits block (before ++ after))
    (skips : ∀ first entry rest, before = first ++ entry :: rest →
      visit (packedBytes first).length = none) :
    scanBlock limits block visit atEnd 0 =
      scanBlock limits block visit atEnd (packedBytes before).length := by
  induction before using List.reverseRecOn generalizing after with
  | nil => rfl
  | append_singleton before entry ih =>
    rw [List.append_assoc] at packed
    have earlier : ∀ first other rest, before = first ++ other :: rest →
        visit (packedBytes first).length = none := by
      rintro first other rest rfl
      exact skips first other (rest ++ [entry]) (by simp)
    rw [ih packed earlier, packed.scan_entry, skips before entry [] rfl]

end Packed

def entryName (block : List UInt8) (offset : Nat) : List UInt8 :=
  (block.drop (offset + dirEntrySize)).take (entryLength block offset - dirEntrySize)

def entryOffsets (limits : DirLimits) (block : List UInt8) : Nat → Nat → List Nat
  | 0, _ => []
  | rounds + 1, offset =>
    if offset < limits.blockSize - dirEntrySize ∧ entryLength block offset ≠ dirEntryEmpty then
      offset :: entryOffsets limits block rounds (offset + entryLength block offset)
    else []

def Shadowed (limits : DirLimits) (blocks : List (List UInt8)) (name : List UInt8) : Prop :=
  ∃ block ∈ blocks, ∃ offset ∈ entryOffsets limits block block.length 0,
    EntryMatches block name offset ∧ entryName block offset ≠ name

instance (limits : DirLimits) (blocks : List (List UInt8)) (name : List UInt8) :
    Decidable (Shadowed limits blocks name) :=
  inferInstanceAs (Decidable (∃ block ∈ blocks, ∃ offset ∈ _, _ ∧ _))

section Lookup

variable {limits : DirLimits} {block name : List UInt8} {entries before after : List DirEntry}
variable {entry : DirEntry} {offset : Nat}

theorem HasEntry.entryName (has : HasEntry block offset entry) (fits : entry.Fits limits) :
    entryName block offset = entry.name := by
  obtain ⟨rest, isName⟩ := has.name
  rw [Rfs.entryName, isName, has.entryLength fits, DirEntry.size, Nat.add_sub_cancel_left,
    List.take_left]

theorem HasEntry.matches (has : HasEntry block offset entry) :
    EntryMatches block entry.name offset := by
  obtain ⟨rest, isName⟩ := has.name
  exact ⟨has.entryHash, by rw [isName, List.take_left]⟩

def entryStarts : Nat → List DirEntry → List Nat
  | _, [] => []
  | start, entry :: rest => start :: entryStarts (start + entry.size) rest

theorem mem_entryStarts {start : Nat} : offset ∈ entryStarts start entries ↔
    ∃ before entry after, entries = before ++ entry :: after ∧
      offset = start + (packedBytes before).length := by
  induction entries generalizing start with
  | nil => simp [entryStarts]
  | cons first rest ih =>
    rw [entryStarts, List.mem_cons, ih]
    constructor
    · rintro (rfl | ⟨before, entry, after, rfl, rfl⟩)
      · exact ⟨[], first, rest, rfl, rfl⟩
      · exact ⟨first :: before, entry, after, rfl, by simp [Nat.add_assoc]⟩
    · rintro ⟨before, entry, after, isSplit, rfl⟩
      cases before with
      | nil => exact .inl rfl
      | cons other before =>
        obtain ⟨rfl, rfl⟩ := List.cons.inj isSplit
        exact .inr ⟨before, entry, after, rfl, by simp [Nat.add_assoc]⟩

theorem Packed.entryOffsets_from {rounds : Nat} (before : List DirEntry)
    {after : List DirEntry} (packed : Packed limits block (before ++ after))
    (enough : after.length ≤ rounds) :
    entryOffsets limits block rounds (packedBytes before).length =
      entryStarts (packedBytes before).length after := by
  induction after generalizing before rounds with
  | nil =>
    rw [List.append_nil] at packed
    cases rounds with
    | zero => rfl
    | succ rounds =>
      rw [entryOffsets, if_neg]
      · rfl
      · rintro ⟨inside, notEmpty⟩
        exact notEmpty (packed.entryLength_end inside)
  | cons entry after ih =>
    obtain ⟨rounds, rfl⟩ := Nat.exists_eq_succ_of_ne_zero (Nat.ne_of_gt
      (Nat.lt_of_lt_of_le (Nat.succ_pos _) enough))
    have length := packed.hasEntry.entryLength packed.entry_fits
    have notEmpty := Nat.ne_of_lt packed.entry_fits.encoded
    rw [← length] at notEmpty
    have further : Packed limits block ((before ++ [entry]) ++ after) := by simpa using packed
    have next := ih _ further (Nat.le_of_succ_le_succ enough)
    simp only [packedBytes_append, packedBytes_cons, packedBytes_nil, List.append_nil,
      List.length_append, DirEntry.length_bytes] at next
    rw [entryOffsets, if_pos ⟨packed.offset_lt, notEmpty⟩, length, next, entryStarts]

private theorem length_le_packedBytes (entries : List DirEntry) :
    entries.length ≤ (packedBytes entries).length := by
  induction entries with
  | nil => exact Nat.zero_le _
  | cons first rest ih =>
    simp only [packedBytes_cons, List.length_append, List.length_cons,
      DirEntry.length_bytes, DirEntry.size, dirEntrySize]
    omega

theorem Packed.entryOffsets (packed : Packed limits block entries) :
    entryOffsets limits block block.length 0 = entryStarts 0 entries := by
  refine Packed.entryOffsets_from [] packed ?_
  have bytes := congrArg List.length packed.bytes
  rw [List.length_append] at bytes
  have := length_le_packedBytes entries
  omega

section

variable (packed : Packed limits block (before ++ entry :: after))
include packed

theorem Packed.mem_entryOffsets :
    (packedBytes before).length ∈ Rfs.entryOffsets limits block block.length 0 := by
  rw [packed.entryOffsets, mem_entryStarts]
  exact ⟨before, entry, after, rfl, (Nat.zero_add _).symm⟩

theorem Packed.not_matches (clear : ¬ Shadowed limits [block] name)
    (different : entry.name ≠ name) :
    ¬ EntryMatches block name (packedBytes before).length := by
  intro isMatch
  refine clear ⟨block, List.mem_cons_self, _, packed.mem_entryOffsets, isMatch, ?_⟩
  rw [packed.hasEntry.entryName packed.entry_fits]
  exact different

/-- A lookup finds the first entry of a name. -/
theorem Packed.lookup_found (clear : ¬ Shadowed limits [block] entry.name)
    (first : ∀ other ∈ before, other.name ≠ entry.name) :
    lookupBlock limits block entry.name = .found (entry.ino, (packedBytes before).length) := by
  rw [lookupBlock, packed.scan_skip, packed.scan_entry, if_pos packed.hasEntry.matches,
    packed.hasEntry.entryIno packed.entry_fits]
  rintro earlier other rest rfl
  have further : Packed limits block (earlier ++ other :: (rest ++ entry :: after)) := by
    rw [List.append_assoc] at packed
    exact packed
  exact if_neg (further.not_matches clear (first other (by simp)))

end

theorem Packed.lookup_passed (packed : Packed limits block entries)
    (clear : ¬ Shadowed limits [block] name) (absent : ∀ other ∈ entries, other.name ≠ name) :
    lookupBlock limits block name = .passed := by
  have all : Packed limits block (entries ++ []) := by rwa [List.append_nil]
  rw [lookupBlock, all.scan_skip, packed.scan_end, ite_self]
  rintro earlier other rest rfl
  exact if_neg (packed.not_matches clear (absent other (by simp)))

end Lookup

end RTContainer.Rfs
