import RTContainer.Rfs.DirMap

/-! The entries of a directory, read from its blocks. -/

set_option autoImplicit false

namespace RTContainer.Rfs

def entryAt (block : List UInt8) (offset : Nat) : DirEntry :=
  ⟨entryName block offset, entryIno block offset⟩

def dirEntries (limits : DirLimits) (blocks : List (List UInt8)) : List DirEntry :=
  blocks.flatMap fun block => (entryOffsets limits block block.length 0).map (entryAt block)

def dirEntryAt (limits : DirLimits) (blocks : List (List UInt8)) (doff : Nat) : Option DirEntry :=
  blocks[doff / limits.blockSize]?.bind fun block =>
    if doff % limits.blockSize ∈ entryOffsets limits block block.length 0 then
      some (entryAt block (doff % limits.blockSize))
    else none

def DirEntry.Dotted (entry : DirEntry) : Prop := entry.name = dotName ∨ entry.name = dotdotName

variable {limits : DirLimits} {block : List UInt8} {blocks : List (List UInt8)}
variable {contents : List (List DirEntry)} {entries before after : List DirEntry}
variable {entry : DirEntry} {offset : Nat}

theorem Packed.entryAt (packed : Packed limits block (before ++ entry :: after)) :
    entryAt block (packedBytes before).length = entry := by
  rw [Rfs.entryAt, packed.hasEntry.entryName packed.entry_fits,
    packed.hasEntry.entryIno packed.entry_fits]

theorem Packed.entries_from (before : List DirEntry) {after : List DirEntry}
    (packed : Packed limits block (before ++ after)) :
    (entryStarts (packedBytes before).length after).map (Rfs.entryAt block) = after := by
  induction after generalizing before with
  | nil => rfl
  | cons entry after ih =>
    have further : Packed limits block ((before ++ [entry]) ++ after) := by simpa using packed
    have rest := ih _ further
    simp only [packedBytes_append, packedBytes_cons, packedBytes_nil, List.append_nil,
      List.length_append, DirEntry.length_bytes] at rest
    rw [entryStarts, List.map_cons, packed.entryAt, rest]

theorem Packed.map_entryAt (packed : Packed limits block entries) :
    (Rfs.entryOffsets limits block block.length 0).map (Rfs.entryAt block) = entries := by
  rw [packed.entryOffsets]
  exact Packed.entries_from [] packed

theorem Listed.dirEntries (listed : Listed limits blocks contents) :
    Rfs.dirEntries limits blocks = contents.flatten := by
  induction listed with
  | nil => rfl
  | cons packed listed ih =>
    rw [Rfs.dirEntries, List.flatMap_cons, packed.map_entryAt, List.flatten_cons, ← ih]
    rfl

/-- An offset of the directory reads the entry that is placed there. -/
theorem Listed.entryAt_iff (listed : Listed limits blocks contents) {doff : Nat} :
    dirEntryAt limits blocks doff = some entry ↔
      Placed limits entry blocks contents (doff / limits.blockSize) (doff % limits.blockSize) := by
  rw [placed_iff, and_iff_right listed, dirEntryAt]
  generalize doff / limits.blockSize = bno
  generalize doff % limits.blockSize = offset
  induction listed generalizing bno with
  | nil => simp
  | @cons block entries rest others packed listed ih =>
    cases bno with
    | succ bno =>
      simp only [List.getElem?_cons_succ]
      exact ih bno
    | zero =>
      simp only [List.getElem?_cons_zero, Option.bind_some, Option.some.injEq]
      rw [packed.entryOffsets]
      constructor
      · intro found
        split at found
        next member =>
          obtain ⟨before, other, after, rfl, rfl⟩ := mem_entryStarts.mp member
          rw [Nat.zero_add, packed.entryAt, Option.some.injEq] at found
          subst found
          exact ⟨before, after, rfl, Nat.zero_add _⟩
        next => exact nomatch found
      · rintro ⟨before, after, rfl, rfl⟩
        rw [if_pos (mem_entryStarts.mpr ⟨before, entry, after, rfl, (Nat.zero_add _).symm⟩),
          packed.entryAt]

theorem HasEntry.getD_name (has : HasEntry block offset entry) (index : Nat)
    (inside : index < entry.name.length) :
    block.getD (offset + dirEntrySize + index) 0 = entry.name.getD index 0 := by
  obtain ⟨rest, isName⟩ := has.name
  rw [List.getD_eq_getElem?_getD, ← List.getElem?_drop, isName, List.getElem?_append_left inside,
    List.getD_eq_getElem?_getD]

theorem HasEntry.dotted (has : HasEntry block offset entry) (fits : entry.Fits limits)
    (dots : ¬ NotDots block offset) : entry.Dotted := by
  have bytes := has.getD_name
  rw [NotDots, has.entryLength fits, DirEntry.size] at dots
  obtain ⟨name, ino⟩ := entry
  dsimp only at dots bytes
  rcases name with _ | ⟨byte, _ | ⟨other, _ | ⟨third, rest⟩⟩⟩
  · exact absurd rfl fits.named
  · have first := bytes 0 Nat.one_pos
    simp only [Nat.add_zero, List.getD_cons_zero] at first
    rw [first] at dots
    have isDot : byte = 46 := by simpa [dirEntrySize] using dots
    exact .inl (by rw [isDot]; rfl)
  · have first := bytes 0 (by simp)
    have second := bytes 1 (by simp)
    simp only [Nat.add_zero, List.getD_cons_zero, List.getD_cons_succ] at first second
    rw [first, second] at dots
    have areDots : byte = 46 ∧ other = 46 := by simpa [dirEntrySize] using dots
    exact .inr (by rw [areDots.1, areDots.2]; rfl)
  · refine absurd ⟨.inl ?_, .inl ?_⟩ dots <;> simp only [List.length_cons, dirEntrySize] <;> omega

theorem Packed.emptyBlock_from (before : List DirEntry) {after : List DirEntry}
    (packed : Packed limits block (before ++ after)) :
    (scanBlock limits block
      (fun offset => if NotDots block offset then some (.found ()) else none) (fun _ => .passed)
      (packedBytes before).length = .found ()) ∨ ∀ entry ∈ after, entry.Dotted := by
  induction after generalizing before with
  | nil => exact .inr fun entry member => absurd member List.not_mem_nil
  | cons entry after ih =>
    rw [packed.scan_entry]
    by_cases dots : NotDots block (packedBytes before).length
    · rw [if_pos dots]
      exact .inl rfl
    · have further : Packed limits block ((before ++ [entry]) ++ after) := by simpa using packed
      rw [if_neg dots]
      refine (ih _ further).imp id fun rest other member => ?_
      rcases List.mem_cons.mp member with rfl | later
      · exact packed.hasEntry.dotted packed.entry_fits dots
      · exact rest other later

theorem Packed.emptyBlock (packed : Packed limits block entries)
    (empty : Rfs.emptyBlock limits block = true) : ∀ entry ∈ entries, entry.Dotted := by
  rcases Packed.emptyBlock_from [] packed with found | dotted
  · rw [packedBytes_nil, List.length_nil] at found
    rw [Rfs.emptyBlock, found] at empty
    exact nomatch empty
  · exact dotted

/-- A directory that is called empty has the dots only. -/
theorem Listed.dirEmpty (listed : Listed limits blocks contents)
    (empty : dirEmpty limits blocks = 0) : ∀ entry ∈ contents.flatten, entry.Dotted := by
  have all : blocks.all (Rfs.emptyBlock limits) = true := by
    rw [Rfs.dirEmpty] at empty
    split at empty
    next => exact nomatch empty
    next =>
      split at empty
      next all => exact all
      next => exact nomatch empty
  clear empty
  induction listed with
  | nil => exact fun entry member => absurd member List.not_mem_nil
  | cons packed listed ih =>
    rw [List.all_cons, Bool.and_eq_true] at all
    intro entry member
    rcases List.mem_append.mp member with first | later
    · exact packed.emptyBlock all.1 entry first
    · exact ih all.2 entry later

end RTContainer.Rfs
