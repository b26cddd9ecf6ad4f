import Mathlib.Data.List.Nodup

/-! Registries of resources. A resource that could not be entered is in use all the same; a
resource that is given up is taken off whether it has been entered or not. -/

set_option autoImplicit false

structure Registry {Resource : Type} (inUse : Resource → Prop) (listed : List Resource) :
    Prop where
  used : ∀ resource ∈ listed, inUse resource
  distinct : listed.Nodup

namespace Registry

variable {Resource : Type} {inUse after : Resource → Prop} {listed : List Resource}
variable {resource : Resource}

theorem empty (inUse : Resource → Prop) : Registry inUse [] where
  used _ member := nomatch member
  distinct := List.nodup_nil

section

variable (registry : Registry inUse listed)
include registry

theorem imp (kept : ∀ resource ∈ listed, inUse resource → after resource) : Registry after listed where
  used resource member := kept resource member (registry.used resource member)
  distinct := registry.distinct

theorem unlisted (unused : ¬ inUse resource) : resource ∉ listed :=
  fun member => unused (registry.used resource member)

theorem enter (unused : ¬ inUse resource) (taken : after resource)
    (kept : ∀ other, inUse other → after other) : Registry after (resource :: listed) where
  used other member := by
    rcases List.mem_cons.mp member with rfl | old
    · exact taken
    · exact kept other (registry.used other old)
  distinct := List.nodup_cons.mpr ⟨registry.unlisted unused, registry.distinct⟩

end

variable [DecidableEq Resource]

/-- A resource that goes out of use leaves the registry. -/
theorem remove (registry : Registry inUse listed)
    (kept : ∀ other, other ≠ resource → inUse other → after other) :
    Registry after (listed.erase resource) where
  used other member := by
    obtain ⟨different, old⟩ := registry.distinct.mem_erase_iff.mp member
    exact kept other different (registry.used other old)
  distinct := registry.distinct.erase resource

theorem erase_entered (registry : Registry inUse listed) (unused : ¬ inUse resource)
    {entered : List Resource} (isEntered : entered = listed ∨ entered = resource :: listed) :
    entered.erase resource = listed := by
  rcases isEntered with rfl | rfl
  · exact List.erase_of_not_mem (registry.unlisted unused)
  · exact List.erase_cons_head resource listed

section Heaps

variable {Record : Type} {heap heapAfter : Resource → Option Record} {root : Resource}

structure Rooted (heap : Resource → Option Record) (root : Resource) (listed : List Resource) :
    Prop where
  rootLive : heap root ≠ none
  registry : Registry (fun resource => heap resource ≠ none) listed

section

omit [DecidableEq Resource]

section

variable (rooted : Rooted heap root listed)
include rooted

theorem Rooted.imp (live : ∀ resource, heap resource ≠ none → heapAfter resource ≠ none) :
    Rooted heapAfter root listed where
  rootLive := live root rooted.rootLive
  registry := rooted.registry.imp fun resource _ used => live resource used

theorem Rooted.ne_root (fresh : heap resource = none) : resource ≠ root := by
  rintro rfl
  exact rooted.rootLive fresh

/-- A resource that is made stays out of the registry or comes first in it. -/
theorem Rooted.enter {entered : List Resource} (fresh : heap resource = none)
    (made : heapAfter resource ≠ none)
    (others : ∀ other, other ≠ resource → heapAfter other = heap other)
    (isEntered : entered = listed ∨ entered = resource :: listed) :
    Rooted heapAfter root entered := by
  have kept : ∀ other, heap other ≠ none → heapAfter other ≠ none := by
    intro other live
    by_cases same : other = resource
    · rw [same]
      exact made
    · rw [others other same]
      exact live
  refine ⟨kept root rooted.rootLive, ?_⟩
  rcases isEntered with rfl | rfl
  · exact (rooted.imp kept).registry
  · exact rooted.registry.enter (not_not_intro fresh) made kept

end

end

theorem Rooted.free (rooted : Rooted heap root listed) (notRoot : resource ≠ root)
    (others : ∀ other, other ≠ resource → heap other ≠ none → heapAfter other ≠ none) :
    Rooted heapAfter root (listed.erase resource) where
  rootLive := others root notRoot.symm rooted.rootLive
  registry := rooted.registry.remove others

end Heaps

end Registry
