import Mathlib.Data.Set.Card
import RTContainer.Rfs.Buffer

/-! The chains of the buffer cache agree with the handles. Between two operations
every held buffer is on one chain; inside an operation one may be off the chains. -/

set_option autoImplicit false

namespace RTContainer.Rfs

open Function

variable {Handle Buffer : Type} [DecidableEq Buffer]

namespace BufferChain

def Counted (chain : BufferChain Buffer) : Prop := chain.count = chain.nodes.length

variable {chain : BufferChain Buffer}

omit [DecidableEq Buffer] in
theorem Counted.append (counted : chain.Counted) (buffer : Buffer) : (chain.append buffer).Counted := by
  simp only [Counted] at counted
  simp [Counted, BufferChain.append, counted]

theorem Counted.extract (counted : chain.Counted) {buffer : Buffer}
    (member : buffer ∈ chain.nodes) : (chain.extract buffer).Counted := by
  simp only [Counted] at counted
  simp [Counted, BufferChain.extract, counted, List.length_erase_of_mem member]

section

omit [DecidableEq Buffer]

variable {chain : BufferChain Buffer}

theorem Counted.scan_eq (counted : chain.Counted) (user : Buffer → Nat) (block : Nat) :
    chain.scan user block = chain.nodes.reverse.find? fun buffer => user buffer = block := by
  simp only [Counted] at counted
  rw [scan]
  split
  next empty =>
    have noNodes : chain.nodes = [] := List.length_eq_zero_iff.mp (counted ▸ empty)
    simp [noNodes]
  next => rfl

theorem scan_some {user : Buffer → Nat} {block : Nat} {buffer : Buffer}
    (found : chain.scan user block = some buffer) : buffer ∈ chain.nodes ∧ user buffer = block := by
  rw [scan] at found
  split at found
  next => exact nomatch found
  next =>
    have member := List.mem_of_find?_eq_some found
    exact ⟨List.mem_reverse.mp member, by simpa using List.find?_some found⟩

theorem Counted.scan_none {chain : BufferChain Buffer} (counted : chain.Counted)
    {user : Buffer → Nat} {block : Nat} (absent : chain.scan user block = none)
    {buffer : Buffer} (member : buffer ∈ chain.nodes) : user buffer ≠ block := by
  rw [counted.scan_eq, List.find?_eq_none] at absent
  intro same
  exact absent buffer (List.mem_reverse.mpr member) (decide_eq_true same)

end

end BufferChain

namespace BufferCache

def Unattached (cache : BufferCache Handle Buffer) (buffer : Buffer) : Prop :=
  ∀ handle, (cache.handles handle).buffer ≠ some buffer

/-- The held buffers are on one chain each, those named by `loose` aside, and
agree with the handles. -/
structure Consistent (cache : BufferCache Handle Buffer) (loose : List Buffer) : Prop where
  buffers_counted : cache.buffers.Counted
  release_counted : cache.release.Counted
  modified_counted : cache.releaseModified.Counted
  placed : ∀ buffer, cache.buffers.nodes.count buffer + cache.release.nodes.count buffer +
    cache.releaseModified.nodes.count buffer + loose.count buffer = (cache.held buffer).toNat
  block_once : ∀ left right, cache.held left → cache.held right →
    cache.user left = cache.user right → left = right
  clean : ∀ buffer ∈ cache.release.nodes, cache.touched buffer = false
  written : ∀ entry ∈ cache.released, entry.touched → entry.modified
  uncached : cache.noLocalCache → cache.release.nodes = [] ∧ cache.releaseModified.nodes = []
  attached : ∀ handle buffer, (cache.handles handle).buffer = some buffer →
    (buffer ∈ cache.buffers.nodes ∨ buffer ∈ loose) ∧
      cache.user buffer = (cache.handles handle).bnum
  references : ∀ buffer,
    {handle | (cache.handles handle).buffer = some buffer}.encard = cache.references buffer

variable {cache : BufferCache Handle Buffer} {loose : List Buffer} {buffer : Buffer}

section

variable (consistent : cache.Consistent loose)
include consistent

theorem Consistent.held_of_mem_buffers (member : buffer ∈ cache.buffers.nodes) :
    cache.held buffer = true := by
  have place := consistent.placed buffer
  have positive := List.count_pos_iff.mpr member
  cases isHeld : cache.held buffer with
  | true => rfl
  | false =>
    rw [isHeld, Bool.toNat_false] at place
    omega

theorem Consistent.not_mem_of_released
    (member : buffer ∈ cache.release.nodes ∨ buffer ∈ cache.releaseModified.nodes) :
    buffer ∉ cache.buffers.nodes ∧ buffer ∉ loose ∧ cache.held buffer = true := by
  have place := consistent.placed buffer
  have bound := Bool.toNat_le (cache.held buffer)
  have positive : 0 < cache.release.nodes.count buffer + cache.releaseModified.nodes.count buffer := by
    rcases member with member | member
    · have := List.count_pos_iff.mpr member
      omega
    · have := List.count_pos_iff.mpr member
      omega
  refine ⟨?_, ?_, ?_⟩
  · apply List.count_eq_zero.mp
    omega
  · apply List.count_eq_zero.mp
    omega
  · cases isHeld : cache.held buffer with
    | true => rfl
    | false =>
      rw [isHeld, Bool.toNat_false] at place
      omega

theorem Consistent.unattached_of_released
    (member : buffer ∈ cache.release.nodes ∨ buffer ∈ cache.releaseModified.nodes) :
    cache.Unattached buffer := by
  obtain ⟨notActive, notLoose, -⟩ := consistent.not_mem_of_released member
  intro handle isAttached
  rcases (consistent.attached handle buffer isAttached).1 with active | isLoose
  · exact notActive active
  · exact notLoose isLoose

theorem Consistent.mem_of_held (isHeld : cache.held buffer = true) :
    buffer ∈ cache.buffers.nodes ∨ buffer ∈ cache.release.nodes ∨
      buffer ∈ cache.releaseModified.nodes ∨ buffer ∈ loose := by
  have place := consistent.placed buffer
  rw [isHeld, Bool.toNat_true] at place
  simp only [← List.count_pos_iff]
  omega

end

theorem count_extract {chain : BufferChain Buffer} (member : buffer ∈ chain.nodes)
    (loose : List Buffer) (other : Buffer) :
    (chain.extract buffer).nodes.count other + (buffer :: loose).count other =
      chain.nodes.count other + loose.count other := by
  have positive := List.count_pos_iff.mpr member
  simp only [BufferChain.extract, List.count_erase, List.count_cons]
  split
  next same =>
    rw [eq_of_beq same] at positive
    omega
  next => omega

section

variable (consistent : cache.Consistent loose)
include consistent

theorem Consistent.extractActive (member : buffer ∈ cache.buffers.nodes) :
    ({ cache with buffers := cache.buffers.extract buffer }).Consistent (buffer :: loose) where
  __ := consistent
  buffers_counted := consistent.buffers_counted.extract member
  placed other := by
    have place := consistent.placed other
    have taken := count_extract member loose other
    dsimp only
    omega
  attached handle other isAttached := by
    obtain ⟨place, user⟩ := consistent.attached handle other isAttached
    refine ⟨?_, user⟩
    rcases eq_or_ne other buffer with same | different
    · exact .inr (same ▸ List.mem_cons_self)
    · rcases place with active | isLoose
      · exact .inl ((List.mem_erase_of_ne different).mpr active)
      · exact .inr (List.mem_cons_of_mem _ isLoose)

theorem Consistent.extractRelease (member : buffer ∈ cache.release.nodes) :
    ({ cache with release := cache.release.extract buffer }).Consistent (buffer :: loose) where
  __ := consistent
  release_counted := consistent.release_counted.extract member
  placed other := by
    have place := consistent.placed other
    have taken := count_extract member loose other
    dsimp only
    omega
  clean other remains := consistent.clean other (List.mem_of_mem_erase remains)
  uncached noLocalCache := by
    obtain ⟨noReleased, noModified⟩ := consistent.uncached noLocalCache
    exact ⟨by simp [BufferChain.extract, noReleased], noModified⟩
  attached handle other isAttached := by
    obtain ⟨place, user⟩ := consistent.attached handle other isAttached
    exact ⟨place.imp id (List.mem_cons_of_mem _), user⟩

theorem Consistent.extractModified (member : buffer ∈ cache.releaseModified.nodes) :
    ({ cache with releaseModified := cache.releaseModified.extract buffer }).Consistent
      (buffer :: loose) where
  __ := consistent
  modified_counted := consistent.modified_counted.extract member
  placed other := by
    have place := consistent.placed other
    have taken := count_extract member loose other
    dsimp only
    omega
  uncached noLocalCache := by
    obtain ⟨noReleased, noModified⟩ := consistent.uncached noLocalCache
    exact ⟨noReleased, by simp [BufferChain.extract, noModified]⟩
  attached handle other isAttached := by
    obtain ⟨place, user⟩ := consistent.attached handle other isAttached
    exact ⟨place.imp id (List.mem_cons_of_mem _), user⟩

theorem Consistent.take {block : Nat} (notHeld : cache.held buffer = false)
    (fresh : ∀ other, cache.held other = true → cache.user other ≠ block) :
    ({ cache with
      held := update cache.held buffer true
      touched := update cache.touched buffer false
      user := update cache.user buffer block }).Consistent (buffer :: loose) where
  __ := consistent
  placed other := by
    have place := consistent.placed other
    dsimp only
    rcases eq_or_ne other buffer with same | different
    · subst same
      rw [notHeld, Bool.toNat_false] at place
      simp only [update_self, Bool.toNat_true, List.count_cons_self]
      omega
    · rw [update_of_ne different, List.count_cons_of_ne different.symm]
      exact place
  block_once left right leftHeld rightHeld same := by
    dsimp only at leftHeld rightHeld same
    rcases eq_or_ne left buffer with leftEq | leftNe
    · rcases eq_or_ne right buffer with rightEq | rightNe
      · rw [leftEq, rightEq]
      · rw [update_of_ne rightNe] at rightHeld same
        rw [leftEq, update_self] at same
        exact absurd same.symm (fresh right rightHeld)
    · rw [update_of_ne leftNe] at leftHeld same
      rcases eq_or_ne right buffer with rightEq | rightNe
      · rw [rightEq, update_self] at same
        exact absurd same (fresh left leftHeld)
      · rw [update_of_ne rightNe] at rightHeld same
        exact consistent.block_once left right leftHeld rightHeld same
  clean other member := by
    dsimp only
    rcases eq_or_ne other buffer with same | different
    · rw [same, update_self]
    · rw [update_of_ne different]
      exact consistent.clean other member
  attached handle other isAttached := by
    obtain ⟨place, user⟩ := consistent.attached handle other isAttached
    have different : other ≠ buffer := by
      intro same
      have positive : 0 < cache.buffers.nodes.count buffer + loose.count buffer := by
        rcases place with active | isLoose
        · have := List.count_pos_iff.mpr (same ▸ active)
          omega
        · have := List.count_pos_iff.mpr (same ▸ isLoose)
          omega
      have total := consistent.placed buffer
      rw [notHeld, Bool.toNat_false] at total
      omega
    refine ⟨place.imp id (List.mem_cons_of_mem _), ?_⟩
    dsimp only
    rw [update_of_ne different]
    exact user

end

section

variable (consistent : cache.Consistent (buffer :: loose)) (unattached : cache.Unattached buffer)
include consistent unattached

theorem Consistent.attached_other {handle : Handle} {other : Buffer}
    (isAttached : (cache.handles handle).buffer = some other) :
    other ≠ buffer ∧ (other ∈ cache.buffers.nodes ∨ other ∈ loose) ∧
      cache.user other = (cache.handles handle).bnum := by
  have different : other ≠ buffer := fun same => unattached handle (same ▸ isAttached)
  obtain ⟨place, user⟩ := consistent.attached handle other isAttached
  exact ⟨different, place.imp id (List.mem_of_ne_of_mem different), user⟩

theorem Consistent.ioRelease {modified : Bool}
    (writes : cache.touched buffer = true → modified = true) :
    (cache.ioRelease buffer modified).Consistent loose where
  __ := consistent
  placed other := by
    have place := consistent.placed other
    have bound := Bool.toNat_le (cache.held other)
    simp only [BufferCache.ioRelease]
    rcases eq_or_ne other buffer with same | different
    · subst same
      rw [List.count_cons_self] at place
      rw [update_self, Bool.toNat_false]
      omega
    · rw [List.count_cons_of_ne different.symm] at place
      rw [update_of_ne different]
      exact place
  block_once left right leftHeld rightHeld same := by
    simp only [BufferCache.ioRelease] at leftHeld rightHeld same
    have leftNe : left ≠ buffer := by
      intro leftEq
      rw [leftEq, update_self] at leftHeld
      exact nomatch leftHeld
    have rightNe : right ≠ buffer := by
      intro rightEq
      rw [rightEq, update_self] at rightHeld
      exact nomatch rightHeld
    rw [update_of_ne leftNe] at leftHeld same
    rw [update_of_ne rightNe] at rightHeld same
    exact consistent.block_once left right leftHeld rightHeld same
  written entry logged := by
    simp only [BufferCache.ioRelease, List.mem_append, List.mem_singleton] at logged
    rcases logged with earlier | last
    · exact consistent.written entry earlier
    · rw [last]
      exact writes
  attached handle other isAttached := by
    obtain ⟨different, place, user⟩ := consistent.attached_other unattached isAttached
    simp only [BufferCache.ioRelease]
    rw [update_of_ne different]
    exact ⟨place, user⟩

theorem Consistent.keepRelease (cached : cache.noLocalCache = false)
    (unmodified : cache.touched buffer = false) :
    ({ cache with release := cache.release.append buffer }).Consistent loose where
  __ := consistent
  release_counted := consistent.release_counted.append buffer
  placed other := by
    have place := consistent.placed other
    rw [List.count_cons] at place
    simp only [BufferChain.append, List.count_append, List.count_cons, List.count_nil]
    omega
  clean other member := by
    simp only [BufferChain.append, List.mem_append, List.mem_singleton] at member
    rcases member with earlier | last
    · exact consistent.clean other earlier
    · rw [last]
      exact unmodified
  uncached noLocalCache := by simp [cached] at noLocalCache
  attached handle other isAttached := (consistent.attached_other unattached isAttached).2

theorem Consistent.keepModified (cached : cache.noLocalCache = false) :
    ({ cache with releaseModified := cache.releaseModified.append buffer }).Consistent loose where
  __ := consistent
  modified_counted := consistent.modified_counted.append buffer
  placed other := by
    have place := consistent.placed other
    rw [List.count_cons] at place
    simp only [BufferChain.append, List.count_append, List.count_cons, List.count_nil]
    omega
  uncached noLocalCache := by simp [cached] at noLocalCache
  attached handle other isAttached := (consistent.attached_other unattached isAttached).2

end

section Handles

variable [DecidableEq Handle] {handle : Handle}

omit [DecidableEq Buffer] in
@[simp] theorem setHandle_same (cache : BufferCache Handle Buffer) (handle : Handle)
    (record : BufferHandle Buffer) : (cache.setHandle handle record).handles handle = record :=
  update_self ..

omit [DecidableEq Buffer] in
theorem setHandle_of_ne (cache : BufferCache Handle Buffer) {handle other : Handle}
    (record : BufferHandle Buffer) (different : other ≠ handle) :
    (cache.setHandle handle record).handles other = cache.handles other :=
  update_of_ne different ..

theorem Consistent.setMarks (consistent : cache.Consistent loose) {record : BufferHandle Buffer}
    (sameBuffer : record.buffer = (cache.handles handle).buffer)
    (sameBlock : record.buffer.isSome → record.bnum = (cache.handles handle).bnum) :
    (cache.setHandle handle record).Consistent loose where
  __ := consistent
  attached other buffer isAttached := by
    rcases eq_or_ne other handle with same | different
    · subst same
      rw [setHandle_same] at isAttached ⊢
      rw [sameBlock (by simp [isAttached])]
      exact consistent.attached other buffer (sameBuffer ▸ isAttached)
    · rw [setHandle_of_ne cache record different] at isAttached ⊢
      exact consistent.attached other buffer isAttached
  references buffer := by
    have sameSet : {other | ((cache.setHandle handle record).handles other).buffer = some buffer} =
        {other | (cache.handles other).buffer = some buffer} := by
      ext other
      simp only [Set.mem_ofPred_eq]
      rcases eq_or_ne other handle with same | different
      · rw [same, setHandle_same, sameBuffer]
      · rw [setHandle_of_ne cache record different]
    rw [sameSet]
    exact consistent.references buffer

/-- The reference count and the buffer of a handle, once it has given it up. -/
def drop (cache : BufferCache Handle Buffer) (handle : Handle) (buffer : Buffer) :
    BufferCache Handle Buffer :=
  { cache with
    references := update cache.references buffer (cache.references buffer - 1)
  }.setHandle handle { cache.handles handle with buffer := none }

omit [DecidableEq Handle] in
theorem Consistent.references_pos (consistent : cache.Consistent loose)
    (isAttached : (cache.handles handle).buffer = some buffer) : 0 < cache.references buffer := by
  apply Nat.pos_of_ne_zero
  intro zero
  have card := consistent.references buffer
  rw [zero, Nat.cast_zero, Set.encard_eq_zero] at card
  exact Set.eq_empty_iff_forall_notMem.mp card handle isAttached

/-- A handle that drops its buffer leaves a consistent cache. -/
theorem Consistent.drop (consistent : cache.Consistent loose)
    (isAttached : (cache.handles handle).buffer = some buffer) :
    (cache.drop handle buffer).Consistent loose where
  __ := consistent
  attached other otherBuffer otherAttached := by
    simp only [BufferCache.drop] at otherAttached ⊢
    rcases eq_or_ne other handle with same | different
    · rw [same, setHandle_same] at otherAttached
      exact nomatch otherAttached
    · rw [setHandle_of_ne _ _ different] at otherAttached ⊢
      exact consistent.attached other otherBuffer otherAttached
  references otherBuffer := by
    have card := consistent.references otherBuffer
    have remaining : {other | ((cache.drop handle buffer).handles other).buffer = some otherBuffer} =
        {other | (cache.handles other).buffer = some otherBuffer} \ {handle} := by
      ext other
      simp only [BufferCache.drop, Set.mem_ofPred_eq, Set.mem_sdiff, Set.mem_singleton_iff]
      rcases eq_or_ne other handle with same | different
      · rw [same, setHandle_same]
        simp
      · rw [setHandle_of_ne _ _ different]
        simp [different]
    rw [remaining]
    rcases eq_or_ne otherBuffer buffer with same | different
    · subst same
      have member : handle ∈ {other | (cache.handles other).buffer = some otherBuffer} := isAttached
      rw [Set.encard_sdiff_singleton_of_mem member, card]
      simp [BufferCache.drop, setHandle]
    · have absent : handle ∉ {other | (cache.handles other).buffer = some otherBuffer} := by
        simp [isAttached, different.symm]
      rw [Set.sdiff_singleton_eq_self absent, card]
      simp [BufferCache.drop, setHandle, update_of_ne different]

/-- A loose buffer goes to a free handle. -/
theorem Consistent.attach (consistent : cache.Consistent (buffer :: loose))
    (isFree : (cache.handles handle).buffer = none) {block : Nat}
    (hasBlock : cache.user buffer = block) :
    (cache.attach handle block buffer).Consistent loose where
  __ := consistent
  buffers_counted := consistent.buffers_counted.append buffer
  placed other := by
    have place := consistent.placed other
    rw [List.count_cons] at place
    simp only [BufferCache.attach, setHandle, BufferChain.append, List.count_append,
      List.count_cons, List.count_nil]
    omega
  block_once := by
    simp only [BufferCache.attach, setHandle, ← hasBlock, update_eq_self]
    exact consistent.block_once
  attached other otherBuffer otherAttached := by
    simp only [BufferCache.attach] at otherAttached ⊢
    rcases eq_or_ne other handle with same | different
    · rw [same, setHandle_same] at otherAttached ⊢
      obtain rfl : buffer = otherBuffer := Option.some.inj otherAttached
      simp [setHandle, BufferChain.append]
    · rw [setHandle_of_ne _ _ different] at otherAttached ⊢
      obtain ⟨place, user⟩ := consistent.attached other otherBuffer otherAttached
      simp only [setHandle, ← hasBlock, update_eq_self, BufferChain.append,
        List.mem_append, List.mem_singleton]
      refine ⟨?_, user⟩
      rw [List.mem_cons] at place
      exact (or_assoc.mpr place)
  references otherBuffer := by
    have card := consistent.references otherBuffer
    rcases eq_or_ne otherBuffer buffer with same | different
    · subst same
      have absent : handle ∉ {other | (cache.handles other).buffer = some otherBuffer} := by
        simp [isFree]
      have joined :
          {other | ((cache.attach handle block otherBuffer).handles other).buffer =
              some otherBuffer} =
            insert handle {other | (cache.handles other).buffer = some otherBuffer} := by
        ext other
        simp only [BufferCache.attach, Set.mem_ofPred_eq, Set.mem_insert_iff]
        rcases eq_or_ne other handle with same | different
        · rw [same, setHandle_same]
          simp
        · rw [setHandle_of_ne _ _ different]
          simp [different]
      rw [joined, Set.encard_insert_of_notMem absent, card]
      simp [BufferCache.attach, setHandle]
    · have sameSet :
          {other | ((cache.attach handle block buffer).handles other).buffer = some otherBuffer} =
            {other | (cache.handles other).buffer = some otherBuffer} := by
        ext other
        simp only [BufferCache.attach, Set.mem_ofPred_eq]
        rcases eq_or_ne other handle with same | otherNe
        · rw [same, setHandle_same, isFree]
          simp [different.symm]
        · rw [setHandle_of_ne _ _ otherNe]
      rw [sameSet, card]
      simp [BufferCache.attach, setHandle, update_of_ne different]

end Handles

end BufferCache

end RTContainer.Rfs
