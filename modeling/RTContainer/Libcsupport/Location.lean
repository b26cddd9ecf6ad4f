import RTContainer.Score.ObjectId

/-! The locations and the mount table entries of the file systems, as
`sup_fs_location.c` and the mount lists use them. -/

set_option autoImplicit false

namespace RTContainer.Libcsupport

open RTContainer.Score

/-- A string without its end. -/
abbrev Path := List Char

/-- `rtems_filesystem_location_info_t`. `nullHandlers` tells whether its handlers
are those of the null location. -/
structure LocationInfo where
  nullHandlers : Bool
  mtEntry : Option Nat
  deriving DecidableEq

/-- `rtems_filesystem_global_location_t` without the fields of the list of deferred
releases. A location that has been freed cannot be read. -/
structure GlobalLocation where
  location : LocationInfo
  referenceCount : Int
  freed : Bool

/-- The fields of `rtems_filesystem_mount_table_entry_t` that the selection of a mount
point looks at. -/
structure MountTableEntry where
  target : Option Path
  mtFsRoot : Option Nat
  mounted : Bool

/-- The locations and the mount table entries in the heap. -/
structure Filesystem where
  globalLocations : Nat → Option GlobalLocation
  nullReferenceCount : Int
  mountEntries : Nat → Option MountTableEntry

/-- `rtems_filesystem_global_location_null`, which is static. -/
def nullLocation : Nat := 0

def nullMtEntry : Nat := 0

def nullLocationInfo : LocationInfo := ⟨true, some nullMtEntry⟩

namespace Filesystem

def storedLocation (filesystem : Filesystem) (address : Nat) :
    Option GlobalLocation :=
  if address = nullLocation then some ⟨nullLocationInfo, filesystem.nullReferenceCount, false⟩
  else filesystem.globalLocations address

def globalLocation (filesystem : Filesystem) (address : Nat) :
    Option GlobalLocation :=
  (filesystem.storedLocation address).filter fun location => !location.freed

end Filesystem

end RTContainer.Libcsupport
