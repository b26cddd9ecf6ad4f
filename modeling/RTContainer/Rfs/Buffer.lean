import Mathlib.Data.List.Basic

/-! The buffer cache of the RFS, `rtems-rfs-buffer.c`. A block is attached to a
handle through a buffer of the I/O layer. Buffers in use are on one chain; the
released ones are kept on two others, apart by whether they have been modified. -/

set_option autoImplicit false

namespace RTContainer.Rfs

open Function

def eio : Nat := 5

structure BufferHandle (Buffer : Type) where
  dirty : Bool
  bnum : Nat
  buffer : Option Buffer

structure BufferChain (Buffer : Type) where
  nodes : List Buffer
  count : Nat

/-- A call of `rtems_rfs_buffer_io_release`, with whether the buffer had been
modified since the I/O layer gave it out. -/
structure IoRelease (Buffer : Type) where
  buffer : Buffer
  modified : Bool
  touched : Bool

/-- The I/O layer as one call meets it: the buffer that it gives out for a block,
which is none of those it has given out already, and the releases that succeed. -/
structure IoLayer (Buffer : Type) where
  request : (Buffer → Bool) → Nat → Bool → Option Buffer
  release : Buffer → Bool → Bool
  fresh : ∀ held block read buffer, request held block read = some buffer → held buffer = false

/-- What `rtems_rfs_file_system` holds about buffers, the buffers with their
`user` and `references` members, and the handles. The last three fields record
the buffers the I/O layer has given out, those of them that have been modified,
and the calls by which they went back; no operation reads them. -/
structure BufferCache (Handle Buffer : Type) where
  noLocalCache : Bool
  maxHeldBuffers : Nat
  buffers : BufferChain Buffer
  release : BufferChain Buffer
  releaseModified : BufferChain Buffer
  user : Buffer → Nat
  references : Buffer → Nat
  handles : Handle → BufferHandle Buffer
  held : Buffer → Bool
  touched : Buffer → Bool
  released : List (IoRelease Buffer)

variable {Handle Buffer : Type} [DecidableEq Handle] [DecidableEq Buffer]

namespace BufferChain

def empty : BufferChain Buffer := ⟨[], 0⟩

/-- `rtems_chain_append_unprotected` at the tail. -/
def append (chain : BufferChain Buffer) (buffer : Buffer) : BufferChain Buffer :=
  ⟨chain.nodes ++ [buffer], chain.count + 1⟩

def extract (chain : BufferChain Buffer) (buffer : Buffer) : BufferChain Buffer :=
  ⟨chain.nodes.erase buffer, chain.count - 1⟩

/-- The search of `rtems_rfs_scan_chain`, from the tail. -/
def scan (chain : BufferChain Buffer) (user : Buffer → Nat) (block : Nat) : Option Buffer :=
  if chain.count = 0 then none else chain.nodes.reverse.find? fun buffer => user buffer = block

end BufferChain

namespace BufferCache

/-- A new file system with all handles opened. -/
def initial (noLocalCache : Bool) (maxHeldBuffers : Nat) : BufferCache Handle Buffer where
  noLocalCache := noLocalCache
  maxHeldBuffers := maxHeldBuffers
  buffers := .empty
  release := .empty
  releaseModified := .empty
  user := fun _ => 0
  references := fun _ => 0
  handles := fun _ => ⟨false, 0, none⟩
  held := fun _ => false
  touched := fun _ => false
  released := []

variable (cache : BufferCache Handle Buffer) (handle : Handle)

def setHandle (record : BufferHandle Buffer) : BufferCache Handle Buffer :=
  { cache with handles := update cache.handles handle record }

def markDirty : BufferCache Handle Buffer :=
  let marked := cache.setHandle handle { cache.handles handle with dirty := true }
  match (cache.handles handle).buffer with
  | none => marked
  | some buffer => { marked with touched := update cache.touched buffer true }

/-- A buffer goes back to the I/O layer; its block is forgotten. -/
def ioRelease (buffer : Buffer) (modified : Bool) : BufferCache Handle Buffer :=
  { cache with
    user := update cache.user buffer 0
    held := update cache.held buffer false
    released := cache.released ++ [⟨buffer, modified, cache.touched buffer⟩] }

/-- The first buffer of a chain of released ones goes back to the I/O layer. There
is no result when the chain is empty, where the code uses the null pointer that it
is given. -/
def giveBack (modified : Bool) : Option (BufferCache Handle Buffer × Buffer) :=
  if modified then
    cache.releaseModified.nodes.head?.map fun buffer =>
      ({ cache with
        releaseModified := cache.releaseModified.extract buffer }.ioRelease buffer true, buffer)
  else
    cache.release.nodes.head?.map fun buffer =>
      ({ cache with release := cache.release.extract buffer }.ioRelease buffer false, buffer)

variable (io : Buffer → Bool → Bool)

def evict : Option (BufferCache Handle Buffer × Nat) :=
  let modified := !decide (cache.releaseModified.count < cache.release.count)
  (cache.giveBack modified).map fun (evicted, buffer) =>
    (evicted, if io buffer modified then 0 else eio)

def makeRoom : Option (BufferCache Handle Buffer × Nat) :=
  if cache.maxHeldBuffers ≤ cache.release.count + cache.releaseModified.count then
    cache.evict io
  else some (cache, 0)

/-- The loop of `rtems_rfs_release_chain`, over as many buffers as are named. -/
def releaseChain (cache : BufferCache Handle Buffer) (modified : Bool)
    (io : Buffer → Bool → Bool) : List Buffer → BufferCache Handle Buffer × Nat
  | [] => (cache, 0)
  | _ :: rest =>
    match cache.giveBack modified with
    | none => (cache, 0)
    | some (given, buffer) =>
      let (after, rc) := given.releaseChain modified io rest
      (after, if io buffer modified then rc else eio)

def buffersRelease : BufferCache Handle Buffer × Nat :=
  let (first, firstRc) := cache.releaseChain false io cache.release.nodes
  let (second, secondRc) := first.releaseChain true io first.releaseModified.nodes
  (second, if 0 < firstRc then firstRc else secondRc)

def keep (buffer : Buffer) (dirty : Bool) : BufferCache Handle Buffer :=
  if dirty then { cache with releaseModified := cache.releaseModified.append buffer }
  else { cache with release := cache.release.append buffer }

def retire (buffer : Buffer) (dirty : Bool)
    (io : Buffer → Bool → Bool) : Option (BufferCache Handle Buffer × Nat) :=
  let extracted := { cache with buffers := cache.buffers.extract buffer }
  if cache.noLocalCache then
    some (extracted.ioRelease buffer dirty, if io buffer dirty then 0 else eio)
  else
    (extracted.makeRoom io).map fun (kept, rc) => (kept.keep buffer dirty, rc)

/-- `rtems_rfs_buffer_handle_release`. `io` tells which releases succeed in the
I/O layer. -/
def handleRelease : Option (BufferCache Handle Buffer × Nat) :=
  let record := cache.handles handle
  match record.buffer with
  | none => some (cache, 0)
  | some buffer =>
    let references :=
      if 0 < cache.references buffer then cache.references buffer - 1
      else cache.references buffer
    let counted :=
      { cache with references := update cache.references buffer references }
    let dropped :=
      if references = 0 then counted.retire buffer record.dirty io else some (counted, 0)
    dropped.map fun (dropped, rc) => (dropped.setHandle handle { record with buffer := none }, rc)

/-- The buffer of a block that is attached to another handle or in the local
cache, taken from its chain. One from the modified chain makes the handle dirty. -/
def locate (block : Nat) : Option (BufferCache Handle Buffer × Buffer) :=
  match cache.buffers.scan cache.user block with
  | some buffer => some ({ cache with buffers := cache.buffers.extract buffer }, buffer)
  | none =>
    if cache.noLocalCache then none
    else
      match cache.release.scan cache.user block with
      | some buffer => some ({ cache with release := cache.release.extract buffer }, buffer)
      | none =>
        match cache.releaseModified.scan cache.user block with
        | some buffer =>
          some ({ cache with
            releaseModified := cache.releaseModified.extract buffer }.setHandle handle
              { cache.handles handle with dirty := true }, buffer)
        | none => none

def attach (block : Nat) (buffer : Buffer) : BufferCache Handle Buffer :=
  { cache with
    references := update cache.references buffer (cache.references buffer + 1)
    buffers := cache.buffers.append buffer
    user := update cache.user buffer block }.setHandle handle
      { cache.handles handle with bnum := block, buffer := some buffer }

def reuse : Option (BufferCache Handle Buffer × Nat) :=
  if (cache.handles handle).buffer.isSome then
    (cache.handleRelease handle io).map fun (released, rc) =>
      if 0 < rc then (released, rc)
      else (released.setHandle handle { released.handles handle with dirty := false, bnum := 0 }, 0)
  else some (cache, 0)

def HasBlock (block : Nat) : Prop :=
  (cache.handles handle).buffer.isSome ∧ block ≠ 0 ∧ (cache.handles handle).bnum = block

instance (cache : BufferCache Handle Buffer) (handle : Handle) (block : Nat) :
    Decidable (cache.HasBlock handle block) :=
  inferInstanceAs (Decidable (_ ∧ _ ∧ _))

def supply (block : Nat) (read : Bool) (io : IoLayer Buffer) : BufferCache Handle Buffer × Nat :=
  match cache.locate handle block with
  | some (located, buffer) => (located.attach handle block buffer, 0)
  | none =>
    match io.request cache.held block read with
    | none => (cache, eio)
    | some buffer =>
      let given := { cache with
        held := update cache.held buffer true
        touched := update cache.touched buffer false }
      (given.attach handle block buffer, 0)

def handleRequest (block : Nat)
    (read : Bool) (io : IoLayer Buffer) : Option (BufferCache Handle Buffer × Nat) :=
  if cache.HasBlock handle block then some (cache, 0)
  else
    (cache.reuse handle io.release).map fun (reused, rc) =>
      if 0 < rc then (reused, rc) else reused.supply handle block read io

end BufferCache

end RTContainer.Rfs
