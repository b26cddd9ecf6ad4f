import RTContainer.Libcsupport.Location

/-! The mount lists of the mount containers from `mntContainer.c`, and the hooks
through which the evaluation of a path finds its root and its current location.
The path that is being evaluated is in a static variable. -/

set_option autoImplicit false

namespace RTContainer.Score

open RTContainer.Libcsupport

def isMountEntryValid (filesystem : Filesystem) (entry : MountTableEntry) :
    Option Bool :=
  match entry.mtFsRoot with
  | none => some false
  | some root =>
    if !entry.mounted then some false
    else
      (filesystem.globalLocation root).map fun location =>
        let hasValidLocation := !location.location.nullHandlers
        let hasPositiveRefcount := decide (0 < location.referenceCount)
        let hasValidMtEntry := location.location.mtEntry.isSome
        hasPositiveRefcount && hasValidLocation || hasPositiveRefcount && entry.target.isSome ||
          hasValidMtEntry || hasPositiveRefcount && hasValidMtEntry

def isBelow (path target : Path) : Bool :=
  target.isPrefixOf path &&
    ((path.drop target.length).isEmpty || (path.drop target.length).head? == some '/')

/-- The variables of the loop of `find_best_mount_for_path`. -/
structure BestMount where
  bestMatch : Option Nat
  bestMatchLen : Nat
  foundInvalid : Bool

namespace BestMount

def initial : BestMount := ⟨none, 0, false⟩

def visit (best : BestMount) (address : Nat) (target : Path) (valid : Bool) : BestMount :=
  if valid then ⟨some address, target.length, false⟩
  else if best.bestMatchLen = 0 then ⟨best.bestMatch, target.length, true⟩
  else best

end BestMount

def findBestMount (filesystem : Filesystem) (path : Path) :
    List Nat → BestMount → Option BestMount
  | [], best => some best
  | address :: rest, best =>
    (filesystem.mountEntries address).bind fun entry =>
      match entry.target with
      | none => findBestMount filesystem path rest best
      | some target =>
        if isBelow path target && decide (best.bestMatchLen < target.length) then
          (isMountEntryValid filesystem entry).bind fun valid =>
            findBestMount filesystem path rest (best.visit address target valid)
        else findBestMount filesystem path rest best

def findBestMountForPath (filesystem : Filesystem) (mounts : List Nat) (path : Path) :
    Option (Option Nat × Bool) :=
  (findBestMount filesystem path mounts .initial).map fun best =>
    (best.bestMatch, best.foundInvalid)

end RTContainer.Score
