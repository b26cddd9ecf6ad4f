import RTContainer.Lib.BigEndian
import RTContainer.Rfs.Block
import RTContainer.Rfs.Buffer

/-! Directories, `rtems-rfs-dir.c`. The entries of a directory are packed into its
blocks. An entry does not go over the end of its block, and the bytes behind the last
entry of a block are all ones. -/

set_option autoImplicit false

namespace RTContainer.Rfs

def enoent : Nat := 2
def dirEntrySize : Nat := 10
def dirEntryEmpty : Nat := 0xffff

/-- What `rtems_rfs_file_system` says about directories. -/
structure DirLimits where
  blockSize : Nat
  maxName : Nat
  inodes : Nat

def rot (value : UInt32) (bits : UInt32) : UInt32 := value <<< bits ||| value >>> (32 - bits)

def hashMix (a b c : UInt32) : UInt32 × UInt32 × UInt32 :=
  let (a, c) := ((a - c) ^^^ rot c 4, c + b)
  let (b, a) := ((b - a) ^^^ rot a 6, a + c)
  let (c, b) := ((c - b) ^^^ rot b 8, b + a)
  let (a, c) := ((a - c) ^^^ rot c 16, c + b)
  let (b, a) := ((b - a) ^^^ rot a 19, a + c)
  let (c, b) := ((c - b) ^^^ rot b 4, b + a)
  (a, b, c)

def hashFinal (a b c : UInt32) : UInt32 :=
  let c := (c ^^^ b) - rot b 14
  let a := (a ^^^ c) - rot c 11
  let b := (b ^^^ a) - rot a 25
  let c := (c ^^^ b) - rot b 16
  let a := (a ^^^ c) - rot c 4
  let b := (b ^^^ a) - rot a 14
  (c ^^^ b) - rot b 24

/-- Four bytes of a key, the first the least significant. Bytes that the key does not
have are not added. -/
def hashWord (key : List UInt8) (index : Nat) : UInt32 :=
  (key.getD index 0).toUInt32 + (key.getD (index + 1) 0).toUInt32 <<< 8 +
    (key.getD (index + 2) 0).toUInt32 <<< 16 + (key.getD (index + 3) 0).toUInt32 <<< 24

def hashLoop (key : List UInt8) (a b c : UInt32) : UInt32 :=
  if 12 < key.length then
    let (a, b, c) := hashMix (a + hashWord key 0) (b + hashWord key 4) (c + hashWord key 8)
    hashLoop (key.drop 12) a b c
  else if key.length = 0 then c
  else hashFinal (a + hashWord key 0) (b + hashWord key 4) (c + hashWord key 8)
termination_by key.length
decreasing_by
  rw [List.length_drop]
  omega

def dirHash (key : List UInt8) : UInt32 :=
  let start := 0xdeadbeef + UInt32.ofNat key.length + 20010928
  hashLoop key start start start

def field (block : List UInt8) (offset width : Nat) : Nat :=
  BigEndian.read ((block.drop offset).take width)

def entryIno (block : List UInt8) (offset : Nat) : Nat := field block offset 4

def entryHash (block : List UInt8) (offset : Nat) : Nat := field block (offset + 4) 4

def entryLength (block : List UInt8) (offset : Nat) : Nat := field block (offset + 8) 2

variable (limits : DirLimits)

/-- `rtems_rfs_dir_entry_valid`, which holds when the entry is not valid. -/
def EntryInvalid (length ino : Nat) : Prop :=
  length ≤ dirEntrySize ∨ limits.maxName ≤ length ∨ ino < rootIno ∨ limits.inodes < ino

instance (limits : DirLimits) (length ino : Nat) : Decidable (EntryInvalid limits length ino) :=
  inferInstanceAs (Decidable (_ ∨ _ ∨ _ ∨ _))

def entryBytes (name : List UInt8) (ino : Nat) : List UInt8 :=
  BigEndian.write 4 ino ++ BigEndian.write 4 (dirHash name).toNat ++
    BigEndian.write 2 (dirEntrySize + name.length) ++ name

def writeAt (block : List UInt8) (offset : Nat) (bytes : List UInt8) : List UInt8 :=
  block.take offset ++ bytes ++ block.drop (offset + bytes.length)

/-- What becomes of the search of a block: it is over, or the next block is next. -/
inductive Scan (Result : Type) where
  | found (result : Result)
  | passed
  | failed (rc : Nat)

/-- The loop over the entries of a block. It ends with the first entry for which there
is a result, with an entry that is not valid, or where there are no more entries. -/
def scanBlock {Result : Type} (limits : DirLimits) (block : List UInt8)
    (visit : Nat → Option (Scan Result)) (atEnd : Nat → Scan Result) (offset : Nat) :
    Scan Result :=
  if offset < limits.blockSize - dirEntrySize then
    if entryLength block offset = dirEntryEmpty then atEnd offset
    else if _valid : EntryInvalid limits (entryLength block offset) (entryIno block offset) then
      .failed eio
    else
      match visit offset with
      | some result => result
      | none => scanBlock limits block visit atEnd (offset + entryLength block offset)
  else .passed
termination_by limits.blockSize - offset
decreasing_by
  have := (not_or.mp _valid).1
  simp only [dirEntrySize] at *
  omega

def EntryMatches (block name : List UInt8) (offset : Nat) : Prop :=
  entryHash block offset = (dirHash name).toNat ∧
    (block.drop (offset + dirEntrySize)).take name.length = name

instance (block name : List UInt8) (offset : Nat) : Decidable (EntryMatches block name offset) :=
  inferInstanceAs (Decidable (_ ∧ _))

def lookupBlock (block name : List UInt8) : Scan (Nat × Nat) :=
  scanBlock limits block
    (fun offset =>
      if EntryMatches block name offset then some (.found (entryIno block offset, offset))
      else none)
    (fun _ => .passed) 0

def lookupBlocks (limits : DirLimits) (name : List UInt8) :
    Nat → List (List UInt8) → Except Nat (Nat × Nat)
  | _, [] => .error enoent
  | bno, block :: rest =>
    match lookupBlock limits block name with
    | .found (ino, offset) => .ok (ino, bno * limits.blockSize + offset)
    | .failed rc => .error rc
    | .passed => lookupBlocks limits name (bno + 1) rest

variable (blocks : List (List UInt8)) (block name : List UInt8)

/-- The inode of the entry that is found, and the offset of the entry. -/
def dirLookupIno : Except Nat (Nat × Nat) :=
  lookupBlocks limits name 0 blocks

def addToBlock (ino : Nat) : Scan (List UInt8) :=
  scanBlock limits block (fun _ => none)
    (fun offset =>
      if name.length + dirEntrySize < limits.blockSize - offset then
        .found (writeAt block offset (entryBytes name ino))
      else .passed)
    0

def addToBlocks (limits : DirLimits) (name : List UInt8) (ino : Nat) :
    List (List UInt8) → Scan (List (List UInt8))
  | [] => .passed
  | block :: rest =>
    match addToBlock limits block name ino with
    | .found written => .found (written :: rest)
    | .failed rc => .failed rc
    | .passed =>
      match addToBlocks limits name ino rest with
      | .found written => .found (block :: written)
      | .failed rc => .failed rc
      | .passed => .passed

def addGrown (limits : DirLimits) (name : List UInt8) (ino : Nat) :
    Nat → List (List UInt8) → Nat × List (List UInt8)
  | 0, blocks => (enospc, blocks)
  | free + 1, blocks =>
    let block := List.replicate limits.blockSize 0xff
    match addToBlock limits block name ino with
    | .found written => (0, blocks ++ [written])
    | .failed rc => (rc, blocks ++ [block])
    | .passed => addGrown limits name ino free (blocks ++ [block])

def dirAddEntry (ino free : Nat) : Nat × List (List UInt8) :=
  match addToBlocks limits name ino blocks with
  | .found written => (0, written)
  | .failed rc => (rc, blocks)
  | .passed => addGrown limits name ino free blocks

def removeAt (offset : Nat) : List UInt8 :=
  let length := entryLength block offset
  block.take offset ++ (block.drop (offset + length)).take (limits.blockSize - (offset + length)) ++
    List.replicate length 0xff

def delFromBlock (ino : Nat) (search : Bool) (start : Nat) : Scan (List UInt8 × Nat) :=
  scanBlock limits block
    (fun offset =>
      if ino = entryIno block offset then some (.found (removeAt limits block offset, offset))
      else if search then none
      else some (.failed eio))
    (fun _ => .passed) start

def delFromBlocks (limits : DirLimits) (ino : Nat) (search : Bool) (start : Nat) :
    List (List UInt8) → Nat × List (List UInt8)
  | [] => (enoent, [])
  | block :: rest =>
    match delFromBlock limits block ino search start with
    | .found (after, offset) =>
      if entryLength after offset = dirEntryEmpty ∧ offset = 0 ∧ rest = [] then (0, [])
      else (0, after :: rest)
    | .failed rc => (rc, block :: rest)
    | .passed =>
      let (rc, after) := delFromBlocks limits ino search start rest
      (rc, block :: after)

def dirDelEntry (ino offset : Nat) : Nat × List (List UInt8) :=
  let bno := offset / limits.blockSize
  if bno < blocks.length then
    let search := offset = 0
    let (rc, after) :=
      delFromBlocks limits ino search (if search then 0 else offset % limits.blockSize)
        (blocks.drop bno)
    (rc, blocks.take bno ++ after)
  else (enoent, blocks)

def enotempty : Nat := 90
def dotName : List UInt8 := [46]
def dotdotName : List UInt8 := [46, 46]

def NotDots (offset : Nat) : Prop :=
  (entryLength block offset ≠ dirEntrySize + 1 ∨ block.getD (offset + dirEntrySize) 0 ≠ 46) ∧
    (entryLength block offset ≠ dirEntrySize + 2 ∨ block.getD (offset + dirEntrySize) 0 ≠ 46 ∨
      block.getD (offset + dirEntrySize + 1) 0 ≠ 46)

instance (block : List UInt8) (offset : Nat) : Decidable (NotDots block offset) :=
  inferInstanceAs (Decidable (_ ∧ _))

/-- The result of a block is that an entry has been found. An entry that is not valid
ends the search of its block, and has no other effect. -/
def emptyBlock : Bool :=
  match scanBlock limits block
    (fun offset => if NotDots block offset then some (.found ()) else none) (fun _ => .passed) 0 with
  | .found () => false
  | .passed => true
  | .failed _ => true

def dirEmpty : Nat :=
  if blocks = [] then enxio else if blocks.all (emptyBlock limits) then 0 else enotempty

end RTContainer.Rfs
