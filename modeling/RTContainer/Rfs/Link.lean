import RTContainer.Rfs.Dir

/-! Links, `rtems-rfs-link.c` and `rtems-rfs-inode.c`, and the operations of
`rtems-rfs-rtems.c` on the entries of directories. A location is an inode and the offset
of the entry that names it in its parent. -/

set_option autoImplicit false

namespace RTContainer.Rfs

def enotsup : Nat := 134
def eisdir : Nat := 21
def enametoolong : Nat := 91

structure Inode where
  dir : Bool
  links : Nat
  blocks : List (List UInt8)

namespace Inode

def erased : Inode := ⟨false, 0xffff, []⟩

def getLinks (inode : Inode) : Nat := if inode.links = 0xffff then 0 else inode.links

def setLinks (inode : Inode) (links : Nat) : Inode := { inode with links := links % 2 ^ 16 }

end Inode

/-- A file system and its inodes. -/
structure Tree where
  fs : FileSystem
  blockSize : Nat
  maxName : Nat
  inodes : Nat → Inode

/-- `rtems_rfs_unlink_dir`. -/
inductive UnlinkDir where
  | denied
  | ifEmpty
  | allowed

namespace Tree

variable (tree : Tree)

def limits : DirLimits :=
  ⟨tree.blockSize, tree.maxName, tree.fs.groupCount * tree.fs.groupInodes⟩

variable (ino parent : Nat)

def setInode (inode : Inode) : Tree :=
  { tree with inodes := Function.update tree.inodes ino inode }

def setLinks (ino links : Nat) : Tree :=
  tree.setInode ino ((tree.inodes ino).setLinks links)

def addEntry (dir : Nat) (name : List UInt8) (ino free : Nat) : Nat × Tree :=
  let (rc, blocks) := dirAddEntry tree.limits (tree.inodes dir).blocks name ino free
  (rc, tree.setInode dir { tree.inodes dir with blocks })

def delEntry (dir ino doff : Nat) : Nat × Tree :=
  let (rc, blocks) := dirDelEntry tree.limits (tree.inodes dir).blocks ino doff
  (rc, tree.setInode dir { tree.inodes dir with blocks })

def inodeDelete : Nat × Tree :=
  let (fs, rc) := tree.fs.groupBitmapFree true ino
  if 0 < rc then (rc, { tree with fs }) else (0, { tree with fs }.setInode ino .erased)

def addDots (free : Nat → Nat) : Nat × Tree :=
  let (rc, tree) := tree.addEntry ino dotName ino (free 0)
  if 0 < rc then (rc, tree) else tree.addEntry ino dotdotName parent (free 1)

variable (name : List UInt8)

/-- `rtems_rfs_inode_create`, with one link. The blocks that are free are those at each
addition of an entry. -/
def inodeCreate (dir : Bool) (free : Nat → Nat) : Nat × Tree :=
  match tree.fs.groupBitmapAlloc parent true with
  | none => (enospc, tree)
  | some (fs, ino) =>
    let tree := { tree with fs }.setInode ino ⟨dir, 1, []⟩
    let (rc, tree) := if dir then tree.addDots ino parent free else (0, tree)
    if 0 < rc then (rc, (tree.inodeDelete ino).2)
    else
      let (rc, tree) := tree.addEntry parent name ino (free 2)
      if 0 < rc then (rc, (tree.inodeDelete ino).2)
      else (0, if dir then tree.setLinks parent ((tree.inodes parent).getLinks + 1) else tree)

/-- `rtems_rfs_write_root_dir`, on a file system that has no inodes yet. -/
def writeRootDir (free : Nat) : Nat × Tree :=
  match tree.fs.groupBitmapAlloc rootIno true with
  | none => (enospc, tree)
  | some (fs, ino) =>
    if ino ≠ rootIno then (einval, { tree with fs })
    else ({ tree with fs }.setInode ino ⟨true, 0, []⟩).addEntry ino dotName ino free

def link (parent target : Nat) (linkDir : Bool) (free : Nat) : Nat × Tree :=
  if !linkDir ∧ (tree.inodes target).dir then (enotsup, tree)
  else
    let (rc, tree) := tree.addEntry parent name target free
    if 0 < rc then (rc, tree)
    else (0, tree.setLinks target ((tree.inodes target).getLinks + 1))

def dropLink (parent target : Nat) (dir : Bool) : Nat × Tree :=
  let links := (tree.inodes target).getLinks
  if 1 < links then (0, tree.setLinks target (links - 1))
  else
    let (rc, tree) := tree.inodeDelete target
    if 0 < rc then (rc, tree)
    else if dir then
      let links := (tree.inodes parent).getLinks
      (0, tree.setLinks parent (if 1 < links then links - 1 else links))
    else (0, tree)

def unlink (parent target doff : Nat) (mode : UnlinkDir) : Nat × Tree :=
  let dir := (tree.inodes target).dir
  let refused :=
    match mode with
    | .denied => if dir then eisdir else 0
    | .ifEmpty => if dir then dirEmpty tree.limits (tree.inodes target).blocks else 0
    | .allowed => 0
  if 0 < refused then (refused, tree)
  else
    let (rc, tree) := tree.delEntry parent target doff
    if 0 < rc then (rc, tree) else tree.dropLink parent target dir

def mknod (dir : Bool) (free : Nat → Nat) : Nat × Tree :=
  tree.inodeCreate parent name dir free

/-- `rtems_rfs_symlink`, without the text of the link. -/
def symlink (linkLength : Nat) (free : Nat → Nat) : Nat × Tree :=
  if tree.blockSize ≤ linkLength then (enametoolong, tree)
  else tree.inodeCreate parent name false free

/-- `rtems_rfs_rtems_rmnod`, for `unlink` and for `rmdir`. -/
def rmnod (parent ino doff : Nat) : Nat × Tree :=
  tree.unlink parent ino doff .ifEmpty

def rename (oldParent ino doff newParent : Nat) (newName : List UInt8) (free : Nat) : Nat × Tree :=
  let (rc, tree) := tree.link newName newParent ino true free
  if 0 < rc then (rc, tree) else tree.unlink oldParent ino doff .allowed

end Tree

inductive TreeCall where
  | mknod (parent : Nat) (name : List UInt8) (dir : Bool) (free : Nat → Nat)
  | symlink (parent : Nat) (name : List UInt8) (linkLength : Nat) (free : Nat → Nat)
  | link (parent : Nat) (name : List UInt8) (target free : Nat)
  | rename (oldParent ino doff newParent : Nat) (newName : List UInt8) (free : Nat)
  | rmnod (parent ino doff : Nat)

def Tree.step (tree : Tree) : TreeCall → Tree
  | .mknod parent name dir free => (tree.mknod parent name dir free).2
  | .symlink parent name linkLength free => (tree.symlink parent name linkLength free).2
  | .link parent name target free => (tree.link name parent target false free).2
  | .rename oldParent ino doff newParent newName free =>
    (tree.rename oldParent ino doff newParent newName free).2
  | .rmnod parent ino doff => (tree.rmnod parent ino doff).2

end RTContainer.Rfs
