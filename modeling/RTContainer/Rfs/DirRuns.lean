import RTContainer.Rfs.DirMap
import Mathlib.Data.List.Nodup

/-! Runs on one directory. A lookup answers as the map of the names would, as long as no
name is too long for an entry and no entry is taken for that of another name. -/

set_option autoImplicit false

namespace RTContainer.Rfs

open Function

/-- A directory, and the names that have been added and not deleted since. -/
structure DirRecord where
  blocks : List (List UInt8)
  names : List UInt8 → Option Nat

inductive DirCall where
  | add (name : List UInt8) (ino free : Nat)
  | del (name : List UInt8)
  | lookup (name : List UInt8)

namespace DirRecord

def empty : DirRecord := ⟨[], fun _ => none⟩

def expected (record : DirRecord) (name : List UInt8) : Except Nat Nat :=
  match record.names name with
  | some ino => .ok ino
  | none => .error enoent

def answer (limits : DirLimits) (record : DirRecord) (name : List UInt8) : Except Nat Nat :=
  (dirLookupIno limits record.blocks name).map Prod.fst

/-- An entry is deleted with the offset that a lookup has returned. -/
def step (limits : DirLimits) (record : DirRecord) : DirCall → DirRecord
  | .add name ino free =>
    let (rc, blocks) := dirAddEntry limits record.blocks name ino free
    ⟨blocks, if rc = 0 then update record.names name (some ino) else record.names⟩
  | .del name =>
    match dirLookupIno limits record.blocks name with
    | .ok (ino, offset) =>
      ⟨(dirDelEntry limits record.blocks ino offset).2, update record.names name none⟩
    | .error _ => record
  | .lookup _ => record

/-- The directory answers as the map does, and deletes what it has found. -/
def Answers (limits : DirLimits) (record : DirRecord) : DirCall → Prop
  | .add _ _ _ => True
  | .del name => answer limits record name = record.expected name ∧
      ∀ ino offset, dirLookupIno limits record.blocks name = .ok (ino, offset) →
        (dirDelEntry limits record.blocks ino offset).1 = 0
  | .lookup name => answer limits record name = record.expected name

end DirRecord

/-- A name that is added is not yet there, and the inode is one of the file system. -/
def DirCall.Admitted (limits : DirLimits) (record : DirRecord) : DirCall → Prop
  | .add name ino _ =>
    record.names name = none ∧ rootIno ≤ ino ∧ ino ≤ limits.inodes ∧ ino < 2 ^ 32
  | .del _ => True
  | .lookup _ => True

/-- A name that is added has at least one byte and its entry is shorter than the longest
name, and no other entry is taken for that of a name that is looked up. -/
def DirCall.Plain (limits : DirLimits) (record : DirRecord) : DirCall → Prop
  | .add name _ _ => name ≠ [] ∧ dirEntrySize + name.length < limits.maxName ∧
      dirEntrySize + name.length < dirEntryEmpty
  | .del name => ¬ Shadowed limits record.blocks name
  | .lookup name => ¬ Shadowed limits record.blocks name

instance (limits : DirLimits) (record : DirRecord) (call : DirCall) :
    Decidable (call.Plain limits record) :=
  match call with
  | .add _ _ _ => inferInstanceAs (Decidable (_ ∧ _ ∧ _))
  | .del _ => inferInstanceAs (Decidable (¬ _))
  | .lookup _ => inferInstanceAs (Decidable (¬ _))

variable {limits : DirLimits} {record : DirRecord} {contents : List (List DirEntry)}
variable {name : List UInt8}

/-- The entries of the directory are those of the names. -/
structure DirRecord.Holds (limits : DirLimits) (record : DirRecord)
    (contents : List (List DirEntry)) : Prop where
  listed : Listed limits record.blocks contents
  nodup : (contents.flatten.map DirEntry.name).Nodup
  names : ∀ entry, record.names entry.name = some entry.ino ↔ entry ∈ contents.flatten

namespace DirRecord

section

variable (holds : record.Holds limits contents)
include holds

theorem Holds.absent (none : record.names name = none) :
    ∀ entry ∈ contents.flatten, entry.name ≠ name := by
  rintro entry member rfl
  rw [(holds.names entry).mpr member] at none
  exact nomatch none

theorem Holds.lookup_some {ino : Nat} (isThere : record.names name = some ino)
    (clear : ¬ Shadowed limits record.blocks name) :
    ∃ bno offset, Located limits ⟨name, ino⟩ record.blocks contents bno offset ∧
      dirLookupIno limits record.blocks name = .ok (ino, bno * limits.blockSize + offset) := by
  have member := (holds.names ⟨name, ino⟩).mp isThere
  obtain ⟨entry, bno, offset, isNamed, located⟩ := holds.listed.located ⟨_, member, rfl⟩
  have same : entry = ⟨name, ino⟩ :=
    List.inj_on_of_nodup_map holds.nodup located.placed.mem member isNamed
  subst same
  refine ⟨bno, offset, located, ?_⟩
  rw [dirLookupIno, located.lookup clear, Nat.zero_add]

theorem Holds.lookup_none (none : record.names name = none)
    (clear : ¬ Shadowed limits record.blocks name) :
    dirLookupIno limits record.blocks name = .error enoent :=
  holds.listed.lookup_absent clear (holds.absent none) 0

theorem Holds.answers (clear : ¬ Shadowed limits record.blocks name) :
    answer limits record name = record.expected name := by
  rw [answer, expected]
  cases isThere : record.names name with
  | none =>
    rw [holds.lookup_none isThere clear]
    rfl
  | some ino =>
    obtain ⟨bno, offset, -, found⟩ := holds.lookup_some isThere clear
    rw [found]
    rfl

theorem Holds.add {ino free : Nat} (absent : record.names name = none)
    (fits : DirEntry.Fits limits ⟨name, ino⟩) :
    ∃ next, (record.step limits (.add name ino free)).Holds limits next := by
  obtain ⟨rc, after, next, added, listed, -, outcome⟩ := holds.listed.dirAddEntry fits free
  refine ⟨next, ?_⟩
  rw [step, added]
  rcases outcome with ⟨isDone, perm⟩ | ⟨isFull, same⟩
  · subst isDone
    have nodup : ((⟨name, ino⟩ :: contents.flatten : List DirEntry).map DirEntry.name).Nodup := by
      refine List.nodup_cons.mpr ⟨fun member => ?_, holds.nodup⟩
      obtain ⟨entry, listed, isNamed⟩ := List.mem_map.mp member
      exact holds.absent absent entry listed isNamed
    refine ⟨listed, (perm.map _).nodup_iff.mpr nodup, fun entry => ?_⟩
    rw [perm.mem_iff, List.mem_cons, ← holds.names entry]
    dsimp only
    rcases eq_or_ne entry.name name with isNamed | different
    · subst isNamed
      rw [if_pos rfl, update_self, absent]
      constructor
      · intro same
        obtain rfl := Option.some.inj same
        exact .inl rfl
      · rintro (isNew | nothing)
        · exact congrArg some (congrArg DirEntry.ino isNew).symm
        · exact nomatch nothing
    · rw [if_pos rfl, update_of_ne different]
      refine (or_iff_right fun isNew => different ?_).symm
      rw [isNew]
  · have notDone : rc ≠ 0 := by
      rw [isFull]
      decide
    refine ⟨listed, same ▸ holds.nodup, fun entry => ?_⟩
    dsimp only
    rw [if_neg notDone, same]
    exact holds.names entry

theorem Holds.del (clear : ¬ Shadowed limits record.blocks name) :
    ∃ next, (record.step limits (.del name)).Holds limits next := by
  rw [step]
  cases isThere : record.names name with
  | none =>
    rw [holds.lookup_none isThere clear]
    exact ⟨contents, holds⟩
  | some ino =>
    obtain ⟨bno, offset, located, found⟩ := holds.lookup_some isThere clear
    obtain ⟨after, next, left, right, deleted, listed, was, isNow⟩ := located.placed.dirDelEntry
    rw [found]
    dsimp only at deleted ⊢
    rw [deleted]
    have nodup := holds.nodup
    rw [was, List.map_append, List.map_cons, List.nodup_middle, List.nodup_cons,
      ← List.map_append] at nodup
    refine ⟨next, listed, by rw [isNow]; exact nodup.2, fun entry => ?_⟩
    have wasListed := holds.names entry
    rw [was] at wasListed
    rw [isNow]
    dsimp only
    rcases eq_or_ne entry.name name with isNamed | different
    · rw [isNamed, update_self]
      refine iff_of_false (fun absurd => nomatch absurd) fun member => nodup.1 ?_
      exact List.mem_map.mpr ⟨entry, member, isNamed⟩
    · rw [update_of_ne different, wasListed, List.mem_append, List.mem_append, List.mem_cons]
      have notEntry : entry ≠ ⟨name, ino⟩ := fun same => different (by rw [same])
      rw [or_iff_right notEntry]

theorem Holds.answers_call {call : DirCall} (plain : call.Plain limits record) :
    record.Answers limits call := by
  cases call with
  | add => trivial
  | lookup name => exact holds.answers plain
  | del name =>
    refine ⟨holds.answers plain, fun ino offset found => ?_⟩
    cases isThere : record.names name with
    | none =>
      rw [holds.lookup_none isThere plain] at found
      exact nomatch found
    | some known =>
      obtain ⟨bno, place, located, isFound⟩ := holds.lookup_some isThere plain
      rw [isFound, Except.ok.injEq, Prod.mk.injEq] at found
      obtain ⟨rfl, rfl⟩ := found
      obtain ⟨after, next, left, right, deleted, -⟩ := located.placed.dirDelEntry
      dsimp only at deleted
      rw [deleted]

theorem Holds.step {call : DirCall} (admitted : call.Admitted limits record)
    (plain : call.Plain limits record) : ∃ next, (record.step limits call).Holds limits next := by
  cases call with
  | lookup name => exact ⟨contents, holds⟩
  | del name => exact holds.del plain
  | add name ino free =>
    obtain ⟨absent, some_ino, inside, bits⟩ := admitted
    exact holds.add absent ⟨plain.1, plain.2.1, plain.2.2, some_ino, inside, bits⟩

end

theorem empty_holds (limits : DirLimits) : empty.Holds limits [] where
  listed := .nil
  nodup := .nil
  names _ := iff_of_false (fun absurd => nomatch absurd) List.not_mem_nil

end DirRecord

open Machine in
theorem dirRun_answers (limits : DirLimits) (calls : List DirCall)
    (admitted : Meets (DirRecord.step limits) (fun record call => call.Admitted limits record)
      .empty calls)
    (plain : Meets (DirRecord.step limits) (fun record call => call.Plain limits record)
      .empty calls) :
    Meets (DirRecord.step limits) (DirRecord.Answers limits) .empty calls := by
  refine meets_of_preserved (fun record => ∃ contents, record.Holds limits contents)
    ⟨[], DirRecord.empty_holds limits⟩ ?_ ?_ (admitted.and plain)
  · rintro record call ⟨contents, holds⟩ ⟨isAdmitted, isPlain⟩
    exact holds.step isAdmitted isPlain
  · rintro record call ⟨contents, holds⟩ ⟨-, isPlain⟩
    exact holds.answers_call isPlain

/-- Blocks of a kilobyte, and names as long as the default. -/
def kilobyteBlocks : DirLimits := ⟨1024, 512, 100⟩

/-- A directory with its own entry and one more. -/
def shortNames : List DirCall := [.add [46] 2 1, .add [97] 3 1, .lookup [97], .del [97], .lookup [97]]

open Machine in
theorem shortNames_answers :
    Meets (DirRecord.step kilobyteBlocks) (DirRecord.Answers kilobyteBlocks) .empty shortNames :=
  dirRun_answers kilobyteBlocks shortNames
    ⟨⟨rfl, by decide⟩, ⟨by decide +kernel, by decide⟩, trivial, trivial, trivial, trivial⟩
    ⟨by decide, by decide, by decide +kernel, by decide +kernel, by decide +kernel, trivial⟩

/-- A name of five hundred and two bytes. -/
def longName : List UInt8 := List.replicate 502 97

open Machine in
/-- The name is added, and its entry is then as long as none may be. -/
theorem longName_lost :
    Meets (DirRecord.step kilobyteBlocks) (fun record call => call.Admitted kilobyteBlocks record)
      .empty [.add longName 2 1, .lookup longName] ∧
    ¬ Meets (DirRecord.step kilobyteBlocks) (DirRecord.Answers kilobyteBlocks)
      .empty [.add longName 2 1, .lookup longName] := by
  refine ⟨⟨⟨rfl, by decide⟩, trivial, trivial⟩, fun ⟨_, answers, _⟩ => ?_⟩
  have isLost : DirRecord.answer kilobyteBlocks
      (DirRecord.empty.step kilobyteBlocks (.add longName 2 1)) longName = .error eio := by
    decide +kernel
  have isThere : (DirRecord.empty.step kilobyteBlocks (.add longName 2 1)).expected longName =
      .ok 2 := by decide +kernel
  have same := isLost.symm.trans (answers.trans isThere)
  exact nomatch same

end RTContainer.Rfs
