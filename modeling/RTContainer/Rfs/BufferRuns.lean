import RTContainer.Lib.Run
import RTContainer.Rfs.BufferProperties

/-! Runs of the buffer cache: what the operations keep, and when no update is lost. -/

set_option autoImplicit false

namespace RTContainer.Rfs

open Function

variable {Handle Buffer : Type} [DecidableEq Handle] [DecidableEq Buffer]

namespace BufferCache

variable {cache after : BufferCache Handle Buffer} {loose : List Buffer} {buffer : Buffer}
variable {handle : Handle} {io : Buffer → Bool → Bool} {rc : Nat}

def SameUse (cache after : BufferCache Handle Buffer) : Prop :=
  after.handles = cache.handles ∧ after.references = cache.references ∧
    after.touched = cache.touched ∧ after.noLocalCache = cache.noLocalCache ∧
    after.buffers = cache.buffers

omit [DecidableEq Handle] in
theorem Consistent.giveBack (consistent : cache.Consistent loose) {modified : Bool}
    (given : cache.giveBack modified = some (after, buffer)) :
    after.Consistent loose ∧ cache.SameUse after := by
  cases modified with
  | true =>
    simp only [BufferCache.giveBack, if_true, Option.map_eq_some_iff, Prod.mk.injEq] at given
    obtain ⟨first, isFirst, rfl, rfl⟩ := given
    have member := List.mem_of_head? isFirst
    have unattached := consistent.unattached_of_released (.inr member)
    exact ⟨(consistent.extractModified member).ioRelease unattached fun _ => rfl, rfl, rfl, rfl, rfl,
      rfl⟩
  | false =>
    simp only [BufferCache.giveBack, Bool.false_eq_true, if_false, Option.map_eq_some_iff,
      Prod.mk.injEq] at given
    obtain ⟨first, isFirst, rfl, rfl⟩ := given
    have member := List.mem_of_head? isFirst
    have unattached := consistent.unattached_of_released (.inl member)
    have clean := consistent.clean first member
    refine ⟨(consistent.extractRelease member).ioRelease unattached ?_, rfl, rfl, rfl, rfl, rfl⟩
    intro isTouched
    exact absurd (clean.symm.trans isTouched) Bool.false_ne_true

variable (io) in
omit [DecidableEq Handle] in
theorem Consistent.makeRoom (consistent : cache.Consistent loose)
    (room : 0 < cache.maxHeldBuffers) :
    ∃ after rc, cache.makeRoom io = some (after, rc) ∧
      after.Consistent loose ∧ cache.SameUse after := by
  rcases Nat.lt_or_ge (cache.release.count + cache.releaseModified.count) cache.maxHeldBuffers with
    below | full
  · exact ⟨cache, 0, if_neg (Nat.not_le.mpr below), consistent, rfl, rfl, rfl, rfl, rfl⟩
  have released : cache.release.count = cache.release.nodes.length := consistent.release_counted
  have modified : cache.releaseModified.count = cache.releaseModified.nodes.length :=
    consistent.modified_counted
  have given : (cache.giveBack
      (!decide (cache.releaseModified.count < cache.release.count))).isSome := by
    rcases Nat.lt_or_ge cache.releaseModified.count cache.release.count with longer | shorter
    · obtain ⟨first, rest, nodes⟩ := List.exists_cons_of_length_pos
        (show 0 < cache.release.nodes.length by omega)
      simp [BufferCache.giveBack, longer, nodes]
    · obtain ⟨first, rest, nodes⟩ := List.exists_cons_of_length_pos
        (show 0 < cache.releaseModified.nodes.length by omega)
      simp [BufferCache.giveBack, Nat.not_lt.mpr shorter, nodes]
  obtain ⟨⟨after, evicted⟩, givenEq⟩ := Option.isSome_iff_exists.mp given
  obtain ⟨kept, same⟩ := consistent.giveBack givenEq
  have made : cache.makeRoom io = (some (after, evicted)).map fun given => (given.1,
      if io given.2 !decide (cache.releaseModified.count < cache.release.count) then 0
      else eio) := by
    rw [← givenEq, BufferCache.makeRoom, if_pos full, BufferCache.evict]
  exact ⟨after, _, made, kept, same⟩

variable (io) in
omit [DecidableEq Handle] in
theorem Consistent.retire (consistent : cache.Consistent [])
    (member : buffer ∈ cache.buffers.nodes) (unattached : cache.Unattached buffer) {dirty : Bool}
    (saved : cache.touched buffer = true → dirty = true)
    (room : cache.noLocalCache = true ∨ 0 < cache.maxHeldBuffers) :
    ∃ after rc, cache.retire buffer dirty io = some (after, rc) ∧ after.Consistent [] ∧
      after.handles = cache.handles ∧ after.references = cache.references ∧
      after.buffers = cache.buffers.extract buffer := by
  have extracted := consistent.extractActive member
  cases cached : cache.noLocalCache with
  | true =>
    have retired : cache.retire buffer dirty io =
        some (BufferCache.ioRelease { cache with buffers := cache.buffers.extract buffer }
          buffer dirty, if io buffer dirty then 0 else eio) := by
      rw [BufferCache.retire, if_pos cached]
    exact ⟨_, _, retired, extracted.ioRelease unattached saved, rfl, rfl, rfl⟩
  | false =>
    have positive : 0 < cache.maxHeldBuffers := by
      rcases room with noLocalCache | positive
      · exact nomatch cached.symm.trans noLocalCache
      · exact positive
    obtain ⟨kept, rc, keptEq, keptConsistent, handlesEq, references, touchedEq, cachedEq, active⟩ :=
      extracted.makeRoom io positive
    have retired : cache.retire buffer dirty io = some (kept.keep buffer dirty, rc) := by
      rw [BufferCache.retire, if_neg (Bool.eq_false_iff.mp cached), keptEq]
      rfl
    have keptUnattached : kept.Unattached buffer := by
      intro other
      rw [handlesEq]
      exact unattached other
    have keptCached : kept.noLocalCache = false := cachedEq.trans cached
    cases dirty with
    | true =>
      exact ⟨_, rc, retired, keptConsistent.keepModified keptUnattached keptCached,
        handlesEq, references, active⟩
    | false =>
      have unmodified : kept.touched buffer = false := by
        rw [touchedEq]
        exact Bool.eq_false_iff.mpr fun isTouched => Bool.false_ne_true (saved isTouched)
      exact ⟨_, rc, retired,
        keptConsistent.keepRelease keptUnattached keptCached unmodified, handlesEq, references,
        active⟩

theorem giveBack_setHandle (cache : BufferCache Handle Buffer) (record : BufferHandle Buffer)
    (modified : Bool) :
    (cache.setHandle handle record).giveBack modified =
      (cache.giveBack modified).map fun (after, buffer) =>
        (after.setHandle handle record, buffer) := by
  cases modified with
  | true => cases first : cache.releaseModified.nodes.head? <;>
      simp [BufferCache.giveBack, setHandle, BufferCache.ioRelease, first]
  | false => cases first : cache.release.nodes.head? <;>
      simp [BufferCache.giveBack, setHandle, BufferCache.ioRelease, first]

theorem makeRoom_setHandle (cache : BufferCache Handle Buffer) (record : BufferHandle Buffer) :
    (cache.setHandle handle record).makeRoom io =
      (cache.makeRoom io).map fun (after, rc) => (after.setHandle handle record, rc) := by
  rcases Nat.lt_or_ge (cache.release.count + cache.releaseModified.count) cache.maxHeldBuffers with
    below | full
  · have unset : cache.makeRoom io = some (cache, 0) := if_neg (Nat.not_le.mpr below)
    have set : (cache.setHandle handle record).makeRoom io =
        some (cache.setHandle handle record, 0) := if_neg (Nat.not_le.mpr below)
    rw [unset, set]
    rfl
  · have unset : cache.makeRoom io = cache.evict io := if_pos full
    have set : (cache.setHandle handle record).makeRoom io =
        (cache.setHandle handle record).evict io := if_pos full
    rw [unset, set, evict, giveBack_setHandle, evict, Option.map_map, Option.map_map]
    rfl

theorem retire_setHandle (cache : BufferCache Handle Buffer) (record : BufferHandle Buffer)
    (dirty : Bool) :
    (cache.setHandle handle record).retire buffer dirty io =
      (cache.retire buffer dirty io).map fun (after, rc) => (after.setHandle handle record, rc) := by
  cases cached : cache.noLocalCache with
  | true => simp [BufferCache.retire, setHandle, BufferCache.ioRelease, cached]
  | false =>
    have made := @makeRoom_setHandle Handle Buffer _ _ handle io
      { cache with buffers := cache.buffers.extract buffer } record
    have unset : cache.retire buffer dirty io =
        (BufferCache.makeRoom { cache with buffers := cache.buffers.extract buffer } io).map
          fun (kept, rc) => (kept.keep buffer dirty, rc) := if_neg (Bool.eq_false_iff.mp cached)
    have set : (cache.setHandle handle record).retire buffer dirty io =
        (BufferCache.makeRoom ({ cache with
          buffers := cache.buffers.extract buffer }.setHandle handle record) io).map
            fun (kept, rc) => (kept.keep buffer dirty, rc) := if_neg (Bool.eq_false_iff.mp cached)
    rw [set, unset, made, Option.map_map, Option.map_map]
    cases dirty <;> rfl

private theorem handleRelease_attached (isAttached : (cache.handles handle).buffer = some buffer)
    (positive : 0 < cache.references buffer) :
    cache.handleRelease handle io =
      if cache.references buffer = 1 then
        (cache.drop handle buffer).retire buffer (cache.handles handle).dirty io
      else some (cache.drop handle buffer, 0) := by
  have last : cache.references buffer - 1 = 0 ↔ cache.references buffer = 1 := by omega
  rw [handleRelease, isAttached]
  simp only [positive, if_true, last, BufferCache.drop, retire_setHandle]
  split <;> rfl

/-- A handle that gives up the last reference to a modified buffer is one of those which
answer for it. -/
def KeepsUpdate (cache : BufferCache Handle Buffer) (answers : Handle → Bool) (handle : Handle) :
    Prop :=
  ∀ buffer ∈ (cache.handles handle).buffer, cache.references buffer = 1 →
    (cache.touched buffer = true → answers handle = true) ∧
      (cache.noLocalCache = true ∨ 0 < cache.maxHeldBuffers)

instance (cache : BufferCache Handle Buffer) (answers : Handle → Bool) (handle : Handle) :
    Decidable (cache.KeepsUpdate answers handle) :=
  inferInstanceAs (Decidable (∀ buffer ∈ (cache.handles handle).buffer, _))

/-- The handles which answer carry the mark, and the buffers in use are used. -/
structure Answered (cache : BufferCache Handle Buffer) (answers : Handle → Bool) : Prop where
  marked : ∀ handle, answers handle = true → (cache.handles handle).dirty = true
  used : ∀ buffer ∈ cache.buffers.nodes, 0 < cache.references buffer

variable {answers : Handle → Bool}

omit [DecidableEq Handle] in
theorem Consistent.not_mem_extract (consistent : cache.Consistent loose) :
    buffer ∉ (cache.buffers.extract buffer).nodes := by
  have place := consistent.placed buffer
  have bound := Bool.toNat_le (cache.held buffer)
  refine List.count_eq_zero.mp ?_
  rw [BufferChain.extract, List.count_erase_self]
  omega

variable (io) in
theorem Consistent.handleRelease (consistent : cache.Consistent [])
    (answered : cache.Answered answers) (keeps : cache.KeepsUpdate answers handle) :
    ∃ after rc, cache.handleRelease handle io = some (after, rc) ∧ after.Consistent [] ∧
      (after.handles handle).buffer = none ∧ after.Answered answers := by
  cases isAttached : (cache.handles handle).buffer with
  | none =>
    refine ⟨cache, 0, ?_, consistent, isAttached, answered⟩
    rw [BufferCache.handleRelease, isAttached]
  | some buffer =>
    have positive := consistent.references_pos isAttached
    have dropped := consistent.drop isAttached
    have detached : ((cache.drop handle buffer).handles handle).buffer = none := by
      rw [BufferCache.drop, setHandle_same]
    have marked (other : Handle) (answering : answers other = true) :
        ((cache.drop handle buffer).handles other).dirty = true := by
      rw [BufferCache.drop]
      rcases eq_or_ne other handle with rfl | different
      · rw [setHandle_same]
        exact answered.marked other answering
      · rw [setHandle_of_ne _ _ different]
        exact answered.marked other answering
    have used {other : Buffer} (member : other ∈ cache.buffers.nodes) (different : other ≠ buffer) :
        0 < (cache.drop handle buffer).references other := by
      simp only [BufferCache.drop, setHandle, update_of_ne different]
      exact answered.used other member
    rw [handleRelease_attached isAttached positive]
    split
    next last =>
      obtain ⟨saved, room⟩ := keeps buffer isAttached last
      have member : buffer ∈ cache.buffers.nodes := by
        rcases (consistent.attached handle buffer isAttached).1 with active | isLoose
        · exact active
        · exact absurd isLoose List.not_mem_nil
      have unattached : (cache.drop handle buffer).Unattached buffer := by
        intro other otherAttached
        have remaining := dropped.references_pos otherAttached
        simp [BufferCache.drop, setHandle, last] at remaining
      obtain ⟨after, rc, retired, afterConsistent, handlesEq, references, active⟩ :=
        dropped.retire io member unattached (fun touched => answered.marked _ (saved touched)) room
      refine ⟨after, rc, retired, afterConsistent, by rw [handlesEq]; exact detached,
        fun other answering => ?_, fun other still => ?_⟩
      · rw [handlesEq]
        exact marked other answering
      · rw [active] at still
        rw [references]
        exact used (List.mem_of_mem_erase still) fun same =>
          dropped.not_mem_extract (same ▸ still)
    next more =>
      refine ⟨_, 0, rfl, dropped, detached, marked, fun other member => ?_⟩
      rcases eq_or_ne other buffer with rfl | different
      · simp only [BufferCache.drop, setHandle, update_self]
        omega
      · exact used member different

omit [DecidableEq Handle] [DecidableEq Buffer] in
theorem Answered.extract (answered : cache.Answered answers) (chain : BufferChain Buffer)
    (fewer : ∀ other ∈ chain.nodes, other ∈ cache.buffers.nodes) :
    ({ cache with buffers := chain } : BufferCache Handle Buffer).Answered answers :=
  ⟨answered.marked, fun other member => answered.used other (fewer other member)⟩

theorem Consistent.locate (consistent : cache.Consistent []) (answered : cache.Answered answers)
    (isFree : (cache.handles handle).buffer = none) (block : Nat) :
    match cache.locate handle block with
    | some (located, buffer) => located.Consistent [buffer] ∧ located.user buffer = block ∧
        (located.handles handle).buffer = none ∧ located.Answered answers ∧
        (located.touched buffer = true → located.references buffer = 0 →
          (located.handles handle).dirty = true)
    | none => ∀ other, cache.held other = true → cache.user other ≠ block := by
  rw [BufferCache.locate]
  cases active : cache.buffers.scan cache.user block with
  | some buffer =>
    obtain ⟨member, hasBlock⟩ := BufferChain.scan_some active
    refine ⟨consistent.extractActive member, hasBlock, isFree,
      answered.extract _ fun _ => List.mem_of_mem_erase, fun _ unused => ?_⟩
    exact absurd unused (Nat.ne_of_gt (answered.used buffer member))
  | none =>
    have notActive := fun other => @BufferChain.Counted.scan_none _ _
      consistent.buffers_counted _ _ active other
    dsimp only
    rcases Bool.eq_false_or_eq_true cache.noLocalCache with cached | cached
    · rw [if_pos cached]
      obtain ⟨noReleased, noModified⟩ := consistent.uncached cached
      intro other isHeld
      rcases consistent.mem_of_held isHeld with member | member | member | member
      · exact notActive other member
      · simp [noReleased] at member
      · simp [noModified] at member
      · exact absurd member List.not_mem_nil
    · rw [if_neg (Bool.eq_false_iff.mp cached)]
      cases released : cache.release.scan cache.user block with
      | some buffer =>
        obtain ⟨member, hasBlock⟩ := BufferChain.scan_some released
        refine ⟨consistent.extractRelease member, hasBlock, isFree,
          ⟨answered.marked, answered.used⟩, fun touched => ?_⟩
        exact absurd ((consistent.clean buffer member).symm.trans touched) Bool.false_ne_true
      | none =>
        cases modified : cache.releaseModified.scan cache.user block with
        | some buffer =>
          obtain ⟨member, hasBlock⟩ := BufferChain.scan_some modified
          have extracted := consistent.extractModified member
          refine ⟨@Consistent.setMarks _ _ _ _ _ _ handle extracted _ rfl fun _ => rfl,
            hasBlock, ?_, ⟨fun other answering => ?_, answered.used⟩, fun _ _ => ?_⟩
          · rw [setHandle_same]
            exact isFree
          · rcases eq_or_ne other handle with rfl | different
            · rw [setHandle_same]
            · rw [setHandle_of_ne _ _ different]
              exact answered.marked other answering
          · rw [setHandle_same]
        | none =>
          intro other isHeld
          rcases consistent.mem_of_held isHeld with member | member | member | member
          · exact notActive other member
          · exact consistent.release_counted.scan_none released member
          · exact consistent.modified_counted.scan_none modified member
          · exact absurd member List.not_mem_nil

omit [DecidableEq Buffer] in
theorem Answered.set {before : BufferCache Handle Buffer} {record : BufferHandle Buffer}
    (answered : before.Answered answers) {answer : Bool}
    (marked : answer = true → record.dirty = true) :
    (before.setHandle handle record).Answered (update answers handle answer) where
  marked other answering := by
    rcases eq_or_ne other handle with rfl | different
    · rw [update_self] at answering
      rw [setHandle_same]
      exact marked answering
    · rw [update_of_ne different] at answering
      rw [setHandle_of_ne _ _ different]
      exact answered.marked other answering
  used := answered.used

variable (io) in
theorem Consistent.reuse (consistent : cache.Consistent []) (answered : cache.Answered answers)
    (keeps : cache.KeepsUpdate answers handle) :
    ∃ after rc, cache.reuse handle io = some (after, rc) ∧ after.Consistent [] ∧
      (after.handles handle).buffer = none ∧ after.Answered
        (update answers handle ((cache.handles handle).buffer.isNone && answers handle)) := by
  rw [BufferCache.reuse]
  split
  next isAttached =>
    obtain ⟨released, rc, releasedEq, releasedConsistent, isFree, released'⟩ :=
      consistent.handleRelease io answered keeps
    rw [releasedEq, Option.map_some, Option.isNone_eq_false_iff.mpr isAttached, Bool.false_and]
    rcases Nat.eq_zero_or_pos rc with ok | failed
    · subst ok
      refine ⟨_, 0, rfl, releasedConsistent.setMarks rfl ?_, ?_, released'.set nofun⟩
      · simp [isFree]
      · rw [setHandle_same]
        exact isFree
    · refine ⟨released, rc, congrArg some (if_pos failed), releasedConsistent, isFree,
        fun other answering => ?_, released'.used⟩
      rcases eq_or_ne other handle with rfl | different
      · rw [update_self] at answering
        cases answering
      · rw [update_of_ne different] at answering
        exact released'.marked other answering
  next unattached =>
    have isFree : (cache.handles handle).buffer = none := by simpa using unattached
    refine ⟨cache, 0, rfl, consistent, isFree, ?_⟩
    rwa [isFree, Option.isNone_none, Bool.true_and, update_eq_self]

/-- The handle alone has a buffer which has been modified. -/
def takes (cache : BufferCache Handle Buffer) (handle : Handle) : Bool :=
  match (cache.handles handle).buffer with
  | none => false
  | some buffer => cache.touched buffer && cache.references buffer = 1

theorem Answered.attach (answered : cache.Answered answers) (block : Nat)
    (marks : cache.touched buffer = true → cache.references buffer = 0 →
      (cache.handles handle).dirty = true) :
    (cache.attach handle block buffer).Answered
      (update answers handle
        (answers handle || (cache.attach handle block buffer).takes handle)) := by
  have used : ({ cache with
      references := update cache.references buffer (cache.references buffer + 1)
      buffers := cache.buffers.append buffer
      user := update cache.user buffer block } : BufferCache Handle Buffer).Answered answers := by
    refine ⟨answered.marked, fun other member => ?_⟩
    rcases eq_or_ne other buffer with rfl | different
    · simp only [update_self, Nat.succ_pos]
    · simp only [update_of_ne different]
      rw [BufferChain.append, List.mem_append, List.mem_singleton] at member
      exact answered.used other (member.resolve_right different)
  refine used.set fun answering => ?_
  rw [Bool.or_eq_true] at answering
  rcases answering with before | takes
  · exact answered.marked handle before
  · simp [BufferCache.takes, BufferCache.attach, setHandle] at takes
    exact marks takes.1 takes.2

theorem Consistent.supply (consistent : cache.Consistent []) (answered : cache.Answered answers)
    (isFree : (cache.handles handle).buffer = none) (block : Nat) (read : Bool)
    (io : IoLayer Buffer) : (cache.supply handle block read io).1.Consistent [] ∧
      (cache.supply handle block read io).1.Answered (update answers handle
        (answers handle || (cache.supply handle block read io).1.takes handle)) := by
  have located := consistent.locate answered isFree block
  rw [BufferCache.supply]
  cases found : cache.locate handle block with
  | some pair =>
    rw [found] at located
    obtain ⟨located, hasBlock, isFree, answered, marks⟩ := located
    exact ⟨located.attach isFree hasBlock, answered.attach block marks⟩
  | none =>
    rw [found] at located
    dsimp only
    cases given : io.request cache.held block read with
    | none =>
      have idle : cache.takes handle = false := by rw [BufferCache.takes, isFree]
      refine ⟨consistent, ?_⟩
      rwa [idle, Bool.or_false, update_eq_self]
    | some buffer =>
      have taken := consistent.take (io.fresh _ _ _ _ given) located
      have attached := @Consistent.attach _ _ _ _ _ _ _ handle taken isFree block (update_self ..)
      refine ⟨by simpa only [BufferCache.attach, update_idem] using attached, ?_⟩
      have fresh : ({ cache with
          held := update cache.held buffer true
          touched := update cache.touched buffer false } :
            BufferCache Handle Buffer).Answered answers := ⟨answered.marked, answered.used⟩
      exact fresh.attach block fun touched => by simp at touched

theorem Consistent.handleRequest (consistent : cache.Consistent [])
    (answered : cache.Answered answers) {block : Nat} (other : ¬ cache.HasBlock handle block)
    (keeps : cache.KeepsUpdate answers handle) (read : Bool) (io : IoLayer Buffer) :
    ∃ result, cache.handleRequest handle block read io = some result ∧
      result.1.Consistent [] ∧ result.1.Answered (update answers handle
        ((cache.handles handle).buffer.isNone && answers handle || result.1.takes handle)) := by
  rw [BufferCache.handleRequest, if_neg other]
  obtain ⟨reused, rc, reusedEq, reusedConsistent, isFree, answered⟩ :=
    consistent.reuse io.release answered keeps
  refine ⟨_, congrArg (Option.map _) reusedEq, ?_⟩
  dsimp only
  split
  next =>
    have idle : reused.takes handle = false := by rw [takes, isFree]
    rw [idle, Bool.or_false]
    exact ⟨reusedConsistent, answered⟩
  next =>
    have supplied := reusedConsistent.supply answered isFree block read io
    rwa [update_idem, update_self] at supplied

omit [DecidableEq Handle] in
theorem Consistent.releaseChain (consistent : cache.Consistent loose)
    (answered : cache.Answered answers) (modified : Bool) (io : Buffer → Bool → Bool)
    (chain : List Buffer) : (cache.releaseChain modified io chain).1.Consistent loose ∧
      (cache.releaseChain modified io chain).1.Answered answers := by
  induction chain generalizing cache with
  | nil => exact ⟨consistent, answered⟩
  | cons _ rest ih =>
    rw [BufferCache.releaseChain]
    split
    next => exact ⟨consistent, answered⟩
    next given buffer givenEq =>
      obtain ⟨kept, handles, references, -, -, active⟩ := consistent.giveBack givenEq
      exact ih kept ⟨handles ▸ answered.marked, active ▸ references ▸ answered.used⟩

theorem Consistent.markDirty (consistent : cache.Consistent []) (handle : Handle) :
    (cache.markDirty handle).Consistent [] := by
  have marked : (cache.setHandle handle { cache.handles handle with dirty := true }).Consistent [] :=
    consistent.setMarks rfl fun _ => rfl
  rw [BufferCache.markDirty]
  cases isAttached : (cache.handles handle).buffer with
  | none => exact marked
  | some buffer =>
    refine { marked with clean := ?_ }
    intro other member
    have unattached := consistent.unattached_of_released (.inl member)
    have different : other ≠ buffer := fun same => unattached handle (same ▸ isAttached)
    dsimp only
    rw [update_of_ne different]
    exact consistent.clean other member

theorem Answered.markDirty (answered : cache.Answered answers) (handle : Handle) :
    (cache.markDirty handle).Answered (update answers handle true) := by
  have marked : (cache.setHandle handle { cache.handles handle with dirty := true }).Answered
      (update answers handle true) := answered.set fun _ => rfl
  rw [BufferCache.markDirty]
  split
  · exact marked
  · exact ⟨marked.marked, marked.used⟩

omit [DecidableEq Handle] in
theorem initial_consistent (noLocalCache : Bool) (maxHeldBuffers : Nat) :
    (initial noLocalCache maxHeldBuffers : BufferCache Handle Buffer).Consistent [] where
  buffers_counted := rfl
  release_counted := rfl
  modified_counted := rfl
  placed _ := rfl
  block_once _ _ isHeld := nomatch isHeld
  clean _ member := absurd member List.not_mem_nil
  written _ logged := absurd logged List.not_mem_nil
  uncached _ := ⟨rfl, rfl⟩
  attached _ _ isAttached := nomatch isAttached
  references buffer := by simp [initial]

/-- No update is lost: a block has one buffer, every held buffer is on one of the
chains, which have the lengths that are counted, and a buffer goes back as modified
when it has been. -/
structure Sound (cache : BufferCache Handle Buffer) : Prop where
  block_once : ∀ left right, cache.held left → cache.held right →
    cache.user left = cache.user right → left = right
  attached : ∀ handle buffer, (cache.handles handle).buffer = some buffer →
    cache.held buffer ∧ buffer ∈ cache.buffers.nodes ∧
      cache.user buffer = (cache.handles handle).bnum
  chained : ∀ buffer, cache.buffers.nodes.count buffer + cache.release.nodes.count buffer +
    cache.releaseModified.nodes.count buffer = if cache.held buffer then 1 else 0
  counted : cache.buffers.count = cache.buffers.nodes.length ∧
    cache.release.count = cache.release.nodes.length ∧
    cache.releaseModified.count = cache.releaseModified.nodes.length
  written : ∀ entry ∈ cache.released, entry.touched → entry.modified

omit [DecidableEq Handle] in
theorem Consistent.sound (consistent : cache.Consistent []) : cache.Sound where
  __ := consistent
  attached handle buffer isAttached := by
    obtain ⟨place, user⟩ := consistent.attached handle buffer isAttached
    have active : buffer ∈ cache.buffers.nodes := place.resolve_right List.not_mem_nil
    exact ⟨consistent.held_of_mem_buffers active, active, user⟩
  chained buffer := by
    have place := consistent.placed buffer
    rw [List.count_nil, Nat.add_zero] at place
    rw [place]
    cases cache.held buffer <;> rfl
  counted := ⟨consistent.buffers_counted, consistent.release_counted, consistent.modified_counted⟩

end BufferCache

/-- A call into the buffer cache, with what the I/O layer does in it. -/
inductive BufferCall (Handle Buffer : Type) where
  | request (handle : Handle) (block : Nat) (read : Bool) (io : IoLayer Buffer)
  | markDirty (handle : Handle)
  | release (handle : Handle) (io : IoLayer Buffer)
  | buffersRelease (io : IoLayer Buffer)

namespace BufferCall

def givesUp (cache : BufferCache Handle Buffer) : BufferCall Handle Buffer → Option Handle
  | .request handle block _ _ => if cache.HasBlock handle block then none else some handle
  | .release handle _ => some handle
  | .markDirty _ | .buffersRelease _ => none

/-- There is no state after the null pointer has been used. -/
def step : Option (BufferCache Handle Buffer) → BufferCall Handle Buffer →
    Option (BufferCache Handle Buffer)
  | none, _ => none
  | some cache, .request handle block read io =>
    (cache.handleRequest handle block read io).map Prod.fst
  | some cache, .markDirty handle => some (cache.markDirty handle)
  | some cache, .release handle io => (cache.handleRelease handle io.release).map Prod.fst
  | some cache, .buffersRelease io => some (cache.buffersRelease io.release).1

/-- The handles which answer for what is written: `rtems_rfs_buffer_mark_dirty` has been called
with them, or they alone have taken a modified buffer, since they last changed their block. -/
def answer (answers : Handle → Bool) (before after : BufferCache Handle Buffer) :
    BufferCall Handle Buffer → Handle → Bool
  | .request handle block _ _ =>
    if before.HasBlock handle block then answers
    else update answers handle
      ((before.handles handle).buffer.isNone && answers handle || after.takes handle)
  | .markDirty handle => update answers handle true
  | .release _ _ | .buffersRelease _ => answers

def answeredStep : Option (BufferCache Handle Buffer) × (Handle → Bool) →
    BufferCall Handle Buffer → Option (BufferCache Handle Buffer) × (Handle → Bool)
  | (none, answers), _ => (none, answers)
  | (some before, answers), call =>
    (step (some before) call,
      ((step (some before) call).map fun after => call.answer answers before after).getD answers)

/-- Whenever the call makes a handle give up the last reference to its buffer, the
handle does not lose the update. -/
def KeepsUpdates : Option (BufferCache Handle Buffer) × (Handle → Bool) →
    BufferCall Handle Buffer → Prop
  | (none, _), _ => True
  | (some cache, answers), call => ∀ handle ∈ call.givesUp cache, cache.KeepsUpdate answers handle

instance (state : Option (BufferCache Handle Buffer) × (Handle → Bool))
    (call : BufferCall Handle Buffer) : Decidable (KeepsUpdates state call) :=
  match state with
  | (none, _) => isTrue trivial
  | (some cache, answers) => inferInstanceAs
    (Decidable (∀ handle ∈ call.givesUp cache, cache.KeepsUpdate answers handle))

theorem step_consistent {cache : BufferCache Handle Buffer} {answers : Handle → Bool}
    (consistent : cache.Consistent []) (answered : cache.Answered answers)
    {call : BufferCall Handle Buffer} (keeps : KeepsUpdates (some cache, answers) call) :
    ∃ after, step (some cache) call = some after ∧ after.Consistent [] ∧
      after.Answered (call.answer answers cache after) := by
  cases call with
  | request handle block read io =>
    by_cases has : cache.HasBlock handle block
    · refine ⟨cache, ?_, consistent, ?_⟩
      · rw [step, BufferCache.handleRequest, if_pos has, Option.map_some]
      · rwa [answer, if_pos has]
    · obtain ⟨result, requested, kept, answered⟩ :=
        consistent.handleRequest answered has (keeps handle (if_neg has)) read io
      refine ⟨result.1, congrArg (Option.map Prod.fst) requested, kept, ?_⟩
      rwa [answer, if_neg has]
  | markDirty handle => exact ⟨_, rfl, consistent.markDirty handle, answered.markDirty handle⟩
  | release handle io =>
    obtain ⟨after, rc, released, kept, -, answered⟩ :=
      consistent.handleRelease io.release answered (keeps handle rfl)
    exact ⟨after, congrArg (Option.map Prod.fst) released, kept, answered⟩
  | buffersRelease io =>
    obtain ⟨first, firstAnswered⟩ := consistent.releaseChain answered false io.release _
    exact ⟨_, rfl, first.releaseChain firstAnswered true io.release _⟩

end BufferCall

open Machine in
/-- No update is lost in a run in which the last reference to a modified buffer is given up by
a handle which answers for it. -/
theorem bufferRun_sound (noLocalCache : Bool) (maxHeldBuffers : Nat)
    (calls : List (BufferCall Handle Buffer))
    (keeps : Meets BufferCall.answeredStep BufferCall.KeepsUpdates
      (some (BufferCache.initial noLocalCache maxHeldBuffers), fun _ => false) calls) :
    Throughout BufferCall.step (fun state => ∃ cache, state = some cache ∧ cache.Sound)
      (some (BufferCache.initial noLocalCache maxHeldBuffers)) calls := by
  have consistent : Throughout BufferCall.answeredStep
      (fun state => ∃ cache, state.1 = some cache ∧ cache.Consistent [] ∧ cache.Answered state.2)
      (some (BufferCache.initial noLocalCache maxHeldBuffers), fun _ => false) calls := by
    refine throughout_of_preserved ⟨_, rfl, BufferCache.initial_consistent .., nofun, nofun⟩ ?_
      keeps
    rintro ⟨state, answers⟩ call ⟨cache, rfl, consistent, answered⟩ keepsCall
    obtain ⟨after, steps, kept⟩ := BufferCall.step_consistent consistent answered keepsCall
    refine ⟨after, steps, ?_⟩
    rw [BufferCall.answeredStep, steps]
    exact kept
  have same : ∀ state answers (call : BufferCall Handle Buffer),
      (BufferCall.answeredStep (state, answers) call).1 = BufferCall.step state call := by
    rintro (_ | cache) answers call <;> rfl
  refine (consistent.imp ?_).of_ghost same
  rintro state ⟨cache, isSome, cacheConsistent, -⟩
  exact ⟨cache, isSome, cacheConsistent.sound⟩

def twoBuffers : IoLayer (Fin 2) where
  request held _ _ := (List.finRange 2).find? fun buffer => !held buffer
  release _ _ := true
  fresh held block read buffer given := by simpa using List.find?_some given

/-- Two handles share a block, which the first of them modifies. -/
def sharedBlock : List (BufferCall (Fin 2) (Fin 2)) :=
  [.request 0 5 true twoBuffers, .request 1 5 true twoBuffers, .markDirty 0]

open Machine in
theorem sharedBlock_sound : Throughout BufferCall.step
    (fun state => ∃ cache, state = some cache ∧ cache.Sound)
    (some (BufferCache.initial false 5))
    (sharedBlock ++ [.release 1 twoBuffers, .release 0 twoBuffers, .buffersRelease twoBuffers]) :=
  bufferRun_sound false 5 _ (by decide)

open Machine in
/-- The handle that is released last has not modified the block. -/
theorem sharedBlock_loses : ¬ Throughout BufferCall.step
    (fun state => ∃ cache, state = some cache ∧ cache.Sound)
    (some (BufferCache.initial false 5))
    (sharedBlock ++ [.release 0 twoBuffers, .release 1 twoBuffers, .buffersRelease twoBuffers]) := by
  intro always
  obtain ⟨cache, isSome, sound⟩ := always.final
  have logged : (run BufferCall.step (some (BufferCache.initial false 5))
      (sharedBlock ++ [.release 0 twoBuffers, .release 1 twoBuffers,
        .buffersRelease twoBuffers])).map BufferCache.released = some [⟨0, false, true⟩] := rfl
  rw [isSome, Option.map_some, Option.some.injEq] at logged
  exact Bool.false_ne_true (sound.written ⟨0, false, true⟩ (by simp [logged]) rfl)

end RTContainer.Rfs
