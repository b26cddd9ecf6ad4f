import RTContainer.Lib.Run
import RTContainer.Rfs.DirProperties

/-! A directory is a finite map. It has an entry for each name that has been added and
not deleted since, and a lookup of a name finds it unless another entry is taken for it. -/

set_option autoImplicit false

namespace RTContainer.Rfs

variable {limits : DirLimits} {blocks : List (List UInt8)} {contents : List (List DirEntry)}
variable {entry : DirEntry} {name : List UInt8}

def Listed (limits : DirLimits) (blocks : List (List UInt8)) (contents : List (List DirEntry)) :
    Prop := List.Forall₂ (Packed limits) blocks contents

/-- Where an entry is. -/
inductive Placed (limits : DirLimits) (entry : DirEntry) :
    List (List UInt8) → List (List DirEntry) → Nat → Nat → Prop where
  | here {block : List UInt8} {rest : List (List UInt8)} {before after : List DirEntry}
      {others : List (List DirEntry)} : Packed limits block (before ++ entry :: after) →
      Listed limits rest others →
      Placed limits entry (block :: rest) ((before ++ entry :: after) :: others) 0
        (packedBytes before).length
  | later {block : List UInt8} {rest : List (List UInt8)} {entries : List DirEntry}
      {others : List (List DirEntry)} {bno offset : Nat} : Packed limits block entries →
      Placed limits entry rest others bno offset →
      Placed limits entry (block :: rest) (entries :: others) (bno + 1) offset

/-- Where an entry is, as the first of its name. -/
inductive Located (limits : DirLimits) (entry : DirEntry) :
    List (List UInt8) → List (List DirEntry) → Nat → Nat → Prop where
  | here {block : List UInt8} {rest : List (List UInt8)} {before after : List DirEntry}
      {others : List (List DirEntry)} : Packed limits block (before ++ entry :: after) →
      (∀ other ∈ before, other.name ≠ entry.name) → Listed limits rest others →
      Located limits entry (block :: rest) ((before ++ entry :: after) :: others) 0
        (packedBytes before).length
  | later {block : List UInt8} {rest : List (List UInt8)} {entries : List DirEntry}
      {others : List (List DirEntry)} {bno offset : Nat} : Packed limits block entries →
      (∀ other ∈ entries, other.name ≠ entry.name) → Located limits entry rest others bno offset →
      Located limits entry (block :: rest) (entries :: others) (bno + 1) offset

/-- A name that is listed has a first entry. -/
theorem Listed.located (listed : Listed limits blocks contents)
    (some_entry : ∃ entry ∈ contents.flatten, entry.name = name) :
    ∃ entry bno offset, entry.name = name ∧ Located limits entry blocks contents bno offset := by
  induction listed with
  | nil =>
    obtain ⟨entry, member, -⟩ := some_entry
    exact absurd member List.not_mem_nil
  | @cons block entries rest others packed listed ih =>
    by_cases here : ∃ entry ∈ entries, entry.name = name
    · have found : (entries.find? fun entry => entry.name = name).isSome := by
        simpa using here
      obtain ⟨entry, isFirst⟩ := Option.isSome_iff_exists.mp found
      obtain ⟨isNamed, before, after, rfl, first⟩ := List.find?_eq_some_iff_append.mp isFirst
      have isNamed : entry.name = name := by simpa using isNamed
      refine ⟨entry, 0, _, isNamed, .here packed (fun other member => ?_) listed⟩
      simpa [isNamed] using first other member
    · have elsewhere : ∃ entry ∈ others.flatten, entry.name = name := by
        obtain ⟨entry, member, isNamed⟩ := some_entry
        rw [List.flatten_cons, List.mem_append] at member
        rcases member with first | later
        · exact absurd ⟨entry, first, isNamed⟩ here
        · exact ⟨entry, later, isNamed⟩
      obtain ⟨entry, bno, offset, isNamed, located⟩ := ih elsewhere
      refine ⟨entry, bno + 1, offset, isNamed, .later packed (fun other member same => ?_) located⟩
      exact here ⟨other, member, same.trans isNamed⟩

variable {bno offset : Nat} {block : List UInt8} {entries before after : List DirEntry}

theorem placed_iff : Placed limits entry blocks contents bno offset ↔
    Listed limits blocks contents ∧ ∃ before after,
      contents[bno]? = some (before ++ entry :: after) ∧ offset = (packedBytes before).length := by
  constructor
  · intro placed
    induction placed with
    | here packed listed => exact ⟨.cons packed listed, _, _, rfl, rfl⟩
    | later packed _ ih =>
      obtain ⟨listed, before, after, found, isOffset⟩ := ih
      exact ⟨.cons packed listed, before, after, found, isOffset⟩
  · rintro ⟨listed, before, after, found, rfl⟩
    induction listed generalizing bno with
    | nil => exact nomatch found
    | cons packed listed ih =>
      cases bno with
      | zero =>
        obtain rfl := Option.some.inj found
        exact .here packed listed
      | succ bno => exact .later packed (ih found)

theorem Located.placed (located : Located limits entry blocks contents bno offset) :
    Placed limits entry blocks contents bno offset := by
  induction located with
  | here packed _ listed => exact .here packed listed
  | later packed _ _ ih => exact .later packed ih

theorem Placed.mem (placed : Placed limits entry blocks contents bno offset) :
    entry ∈ contents.flatten := by
  induction placed with
  | here => simp
  | later _ _ ih => exact List.mem_append_right _ ih

theorem Shadowed.mono {some_blocks : List (List UInt8)} (subset : some_blocks ⊆ blocks)
    (clear : ¬ Shadowed limits blocks name) : ¬ Shadowed limits some_blocks name :=
  fun ⟨block, member, shadow⟩ => clear ⟨block, subset member, shadow⟩

theorem Located.lookup (located : Located limits entry blocks contents bno offset)
    (clear : ¬ Shadowed limits blocks entry.name) (start : Nat) :
    lookupBlocks limits entry.name start blocks =
      .ok (entry.ino, (start + bno) * limits.blockSize + offset) := by
  induction located generalizing start with
  | here packed first _ =>
    rw [lookupBlocks, packed.lookup_found (Shadowed.mono (by simp) clear) first]
    rfl
  | later packed absent located ih =>
    rw [lookupBlocks, packed.lookup_passed (Shadowed.mono (by simp) clear) absent]
    rw [ih (Shadowed.mono (List.subset_cons_self ..) clear), Nat.add_assoc, Nat.add_comm 1]

theorem Listed.lookup_absent (listed : Listed limits blocks contents)
    (clear : ¬ Shadowed limits blocks name)
    (absent : ∀ entry ∈ contents.flatten, entry.name ≠ name) (start : Nat) :
    lookupBlocks limits name start blocks = .error enoent := by
  induction listed generalizing start with
  | nil => rfl
  | @cons block entries rest others packed listed ih =>
    have first : ∀ entry ∈ entries, entry.name ≠ name := fun entry member =>
      absent entry (List.mem_append_left _ member)
    rw [lookupBlocks, packed.lookup_passed (Shadowed.mono (by simp) clear) first]
    exact ih (Shadowed.mono (List.subset_cons_self ..) clear)
      (fun entry member => absent entry (List.mem_append_right _ member)) _

theorem Packed.write (packed : Packed limits block entries) (fits : entry.Fits limits)
    (room : (packedBytes entries).length + entry.size ≤ limits.blockSize) :
    Packed limits (writeAt block (packedBytes entries).length entry.bytes) (entries ++ [entry]) where
  fits other member := by
    rcases List.mem_append.mp member with earlier | last
    · exact packed.fits other earlier
    · rw [List.mem_singleton.mp last]
      exact fits
  bytes := by
    rw [writeAt, packed.bytes, List.take_left]
    simp only [packedBytes_append, packedBytes_cons, packedBytes_nil, List.append_nil,
      List.length_append, DirEntry.length_bytes, List.append_assoc]
    rw [← List.drop_drop, List.drop_left, List.drop_replicate, Nat.sub_sub]
  room := by simpa using room

theorem Packed.add (packed : Packed limits block entries) (fits : entry.Fits limits) :
    (∃ written, addToBlock limits block entry.name entry.ino = .found written ∧
      Packed limits written (entries ++ [entry])) ∨
    addToBlock limits block entry.name entry.ino = .passed := by
  have all : Packed limits block (entries ++ []) := by rwa [List.append_nil]
  rw [addToBlock, all.scan_skip (fun _ _ _ _ => rfl), packed.scan_end]
  split
  next =>
    split
    next room =>
      refine .inl ⟨_, rfl, packed.write fits ?_⟩
      rw [DirEntry.size]
      omega
    next => exact .inr rfl
  next => exact .inr rfl

def Extends (contents next : List (List DirEntry)) : Prop :=
  ∀ (bno : Nat) (entries : List DirEntry), contents[bno]? = some entries →
    ∃ more : List DirEntry, next[bno]? = some (entries ++ more)

theorem Extends.refl (contents : List (List DirEntry)) : Extends contents contents :=
  fun _ _ found => ⟨[], by rw [List.append_nil, found]⟩

theorem Extends.cons {next : List (List DirEntry)} (entries more : List DirEntry)
    (rest : Extends contents next) : Extends (entries :: contents) ((entries ++ more) :: next) := by
  intro bno found isFound
  cases bno with
  | zero =>
    obtain rfl := Option.some.inj isFound
    exact ⟨more, rfl⟩
  | succ bno => exact rest bno found isFound

theorem Extends.append (contents more : List (List DirEntry)) :
    Extends contents (contents ++ more) :=
  fun _ _ found => ⟨[], by rw [List.append_nil, List.getElem?_append_left
    (List.getElem?_eq_some_iff.mp found).1, found]⟩

theorem Extends.trans {middle next : List (List DirEntry)} (first : Extends contents middle)
    (second : Extends middle next) : Extends contents next := by
  intro bno entries found
  obtain ⟨more, isMiddle⟩ := first bno entries found
  obtain ⟨further, isNext⟩ := second bno _ isMiddle
  exact ⟨more ++ further, by rw [isNext, List.append_assoc]⟩

theorem Placed.extends {after : List (List UInt8)} {next : List (List DirEntry)}
    (placed : Placed limits entry blocks contents bno offset) (extended : Extends contents next)
    (listed : Listed limits after next) : Placed limits entry after next bno offset := by
  obtain ⟨-, before, behind, found, isOffset⟩ := placed_iff.mp placed
  obtain ⟨more, isNext⟩ := extended bno _ found
  refine placed_iff.mpr ⟨listed, before, behind ++ more, ?_, isOffset⟩
  rw [isNext, List.append_assoc, List.cons_append]

section

variable (listed : Listed limits blocks contents)
include listed

theorem Listed.add (fits : entry.Fits limits) :
    (∃ written next, addToBlocks limits entry.name entry.ino blocks = .found written ∧
      Listed limits written next ∧ Extends contents next ∧
      next.flatten.Perm (entry :: contents.flatten)) ∨
    addToBlocks limits entry.name entry.ino blocks = .passed := by
  induction listed with
  | nil => exact .inr rfl
  | @cons block entries rest others packed listed ih =>
    rw [addToBlocks]
    rcases packed.add fits with ⟨written, added, isPacked⟩ | passed
    · rw [added]
      refine .inl ⟨_, (entries ++ [entry]) :: others, rfl, .cons isPacked listed,
        .cons entries [entry] (.refl others), ?_⟩
      rw [List.flatten_cons, List.flatten_cons, List.append_assoc]
      exact List.perm_middle
    · rw [passed]
      rcases ih with ⟨written, next, added, isListed, extended, perm⟩ | passedRest
      · dsimp only
        rw [added]
        have kept := extended.cons entries []
        rw [List.append_nil] at kept
        refine .inl ⟨_, entries :: next, rfl, .cons packed isListed, kept, ?_⟩
        rw [List.flatten_cons, List.flatten_cons]
        exact (perm.append_left entries).trans List.perm_middle
      · dsimp only
        rw [passedRest]
        exact .inr rfl

theorem Listed.append_block (packed : Packed limits block entries) :
    Listed limits (blocks ++ [block]) (contents ++ [entries]) :=
  List.rel_append listed (.cons packed .nil)

theorem Listed.addGrown (fits : entry.Fits limits) (free : Nat) :
    ∃ rc after next, Rfs.addGrown limits entry.name entry.ino free blocks = (rc, after) ∧
      Listed limits after next ∧ Extends contents next ∧
      (rc = 0 ∧ next.flatten.Perm (entry :: contents.flatten) ∨
        rc = enospc ∧ next.flatten = contents.flatten) := by
  induction free generalizing blocks contents with
  | zero => exact ⟨enospc, blocks, contents, rfl, listed, .refl contents, .inr ⟨rfl, rfl⟩⟩
  | succ free ih =>
    rw [Rfs.addGrown]
    rcases (Packed.empty limits).add fits with ⟨written, added, isPacked⟩ | passed
    · rw [added]
      refine ⟨0, _, contents ++ [[entry]], rfl, listed.append_block isPacked,
        .append contents _, .inl ⟨rfl, ?_⟩⟩
      rw [List.flatten_append]
      exact List.perm_append_singleton entry contents.flatten
    · rw [passed]
      obtain ⟨rc, after, next, grown, isListed, extended, outcome⟩ :=
        ih (listed.append_block (Packed.empty limits))
      refine ⟨rc, after, next, grown, isListed, (Extends.append contents _).trans extended, ?_⟩
      simpa using outcome

/-- An entry that fits is added, or no block is free for it. -/
theorem Listed.dirAddEntry (fits : entry.Fits limits) (free : Nat) :
    ∃ rc after next, Rfs.dirAddEntry limits blocks entry.name entry.ino free = (rc, after) ∧
      Listed limits after next ∧ Extends contents next ∧
      (rc = 0 ∧ next.flatten.Perm (entry :: contents.flatten) ∨
        rc = enospc ∧ next.flatten = contents.flatten) := by
  rw [Rfs.dirAddEntry]
  rcases listed.add fits with ⟨written, next, added, isListed, extended, perm⟩ | passed
  · rw [added]
    exact ⟨0, written, next, rfl, isListed, extended, .inl ⟨rfl, perm⟩⟩
  · rw [passed]
    exact listed.addGrown fits free

end

theorem Packed.remove (packed : Packed limits block (before ++ entry :: after)) :
    Packed limits (removeAt limits block (packedBytes before).length) (before ++ after) where
  fits other member := by
    refine packed.fits other ?_
    rcases List.mem_append.mp member with earlier | later
    · exact List.mem_append_left _ earlier
    · exact List.mem_append_right _ (List.mem_cons_of_mem _ later)
  bytes := by
    have room := packed.room
    have length := packed.hasEntry.entryLength packed.entry_fits
    simp only [packedBytes_append, packedBytes_cons, List.length_append,
      DirEntry.length_bytes] at room
    rw [removeAt, length, ← List.drop_drop]
    conv_lhs => rw [packed.bytes]
    simp only [packedBytes_append, packedBytes_cons, List.append_assoc, List.length_append,
      DirEntry.length_bytes]
    rw [List.take_left, List.drop_left, List.drop_left' entry.length_bytes, ← List.append_assoc,
      List.take_of_length_le, List.append_assoc, List.append_assoc, ← List.replicate_add]
    · congr 3
      omega
    · simp only [List.length_append, List.length_replicate]
      omega
  room := by
    have room := packed.room
    simp only [packedBytes_append, packedBytes_cons, List.length_append,
      DirEntry.length_bytes] at room ⊢
    omega

theorem Packed.del {search : Bool} (packed : Packed limits block (before ++ entry :: after)) :
    delFromBlock limits block entry.ino search (packedBytes before).length =
      .found (removeAt limits block (packedBytes before).length, (packedBytes before).length) := by
  rw [delFromBlock, packed.scan_entry, packed.hasEntry.entryIno packed.entry_fits, if_pos rfl]

section

variable (placed : Placed limits entry blocks contents bno offset)
include placed

/-- A deletion takes exactly the placed entry out of the blocks. -/
theorem Placed.del (search : Bool) :
    ∃ after next left right,
      delFromBlocks limits entry.ino search offset (blocks.drop bno) = (0, after) ∧
      Listed limits (blocks.take bno ++ after) next ∧
      contents.flatten = left ++ entry :: right ∧ next.flatten = left ++ right := by
  induction placed with
  | @here block rest before after others packed listed =>
    rw [List.drop_zero, delFromBlocks, packed.del]
    dsimp only
    split
    next isLast =>
      obtain ⟨isEmpty, isStart, rfl⟩ := isLast
      have noBefore : before = [] := by
        cases before with
        | nil => rfl
        | cons other before => simp [DirEntry.size, dirEntrySize] at isStart
      have noAfter : after = [] := by
        cases after with
        | nil => rfl
        | cons other after =>
          have removed := packed.remove
          rw [removed.hasEntry.entryLength removed.entry_fits] at isEmpty
          exact absurd isEmpty (Nat.ne_of_lt removed.entry_fits.encoded)
      cases listed
      subst noBefore noAfter
      exact ⟨[], [], [], [], rfl, .nil, rfl, rfl⟩
    next =>
      refine ⟨_, (before ++ after) :: others, before, after ++ others.flatten, rfl,
        .cons packed.remove listed, ?_, ?_⟩
      · simp
      · simp
  | @later block rest entries others bno offset packed placed ih =>
    obtain ⟨after, next, left, right, deleted, isListed, was, isNow⟩ := ih
    refine ⟨after, entries :: next, entries ++ left, right, deleted, .cons packed isListed, ?_, ?_⟩
    · rw [List.flatten_cons, was, List.append_assoc]
    · rw [List.flatten_cons, isNow, List.append_assoc]

theorem Placed.offset_lt : bno < blocks.length ∧ offset < limits.blockSize := by
  induction placed with
  | here packed _ =>
    exact ⟨Nat.succ_pos _, Nat.lt_of_lt_of_le packed.offset_lt (Nat.sub_le ..)⟩
  | later _ _ ih => exact ⟨Nat.succ_lt_succ ih.1, ih.2⟩

theorem Placed.dirDelEntry :
    ∃ after next left right,
      Rfs.dirDelEntry limits blocks entry.ino (bno * limits.blockSize + offset) = (0, after) ∧
      Listed limits after next ∧
      contents.flatten = left ++ entry :: right ∧ next.flatten = left ++ right := by
  obtain ⟨inside, below⟩ := placed.offset_lt
  have isBlock : (bno * limits.blockSize + offset) / limits.blockSize = bno := by
    rw [Nat.add_comm, Nat.add_mul_div_right _ _ (Nat.lt_of_le_of_lt (Nat.zero_le _) below),
      Nat.div_eq_of_lt below, Nat.zero_add]
  have isOffset : (bno * limits.blockSize + offset) % limits.blockSize = offset := by
    rw [Nat.add_comm, Nat.add_mul_mod_self_right, Nat.mod_eq_of_lt below]
  have start : (if bno * limits.blockSize + offset = 0 then 0 else offset) = offset := by
    split <;> omega
  obtain ⟨after, next, left, right, deleted, outcome⟩ :=
    placed.del (decide (bno * limits.blockSize + offset = 0))
  refine ⟨_, next, left, right, ?_, outcome⟩
  rw [Rfs.dirDelEntry]
  simp only [isBlock, isOffset, if_pos inside, start, deleted]

end

end RTContainer.Rfs
