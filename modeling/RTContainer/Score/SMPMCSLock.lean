import RTContainer.Lib.Run

/-! The MCS lock: every atomic operation of the acquire and the release is one step, and
the processors take their steps in any order. -/

set_option autoImplicit false

namespace RTContainer.Score

open Function

/-- The next atomic operation of a processor: in `_SMP_MCS_lock_Do_acquire` up to `spin`, then in
`_SMP_MCS_lock_Release`. -/
inductive SMPMCSLockPoint (Cpu : Type) where
  | storeNext
  | storeLocked
  | exchange
  | link (previous : Cpu)
  | spin
  | loadNext
  | compareExchange
  | await
  | unlock (next : Cpu)
deriving DecidableEq

namespace SMPMCSLockPoint

variable {Cpu : Type}

@[grind] def InLine : SMPMCSLockPoint Cpu → Prop
  | storeNext | storeLocked | exchange => False
  | link _ | spin | loadNext | compareExchange | await | unlock _ => True

@[grind] def Holds : SMPMCSLockPoint Cpu → Prop
  | loadNext | compareExchange | await | unlock _ => True
  | storeNext | storeLocked | exchange | link _ | spin => False

theorem Holds.apart {point : SMPMCSLockPoint Cpu} (holds : point.Holds) :
    point.InLine ∧ point ≠ .storeLocked ∧ point ≠ .exchange ∧ point ≠ .spin ∧
      ∀ other, point ≠ .link other := by
  cases point <;> simp_all [Holds, InLine]

end SMPMCSLockPoint

/-- The lock, the context of each processor, and the processors in the orders in which they
have queued and have got the lock. -/
structure SMPMCSLock (Cpu : Type) where
  queue : Option Cpu
  next : Cpu → Option Cpu
  locked : Cpu → Bool
  point : Cpu → SMPMCSLockPoint Cpu
  queued : List Cpu
  entered : List Cpu

namespace SMPMCSLock

variable {Cpu : Type} [DecidableEq Cpu]

def enter (lock : SMPMCSLock Cpu) (cpu : Cpu) : SMPMCSLock Cpu :=
  { lock with
    point := update lock.point cpu .loadNext
    entered := lock.entered ++ [cpu] }

/-- The next atomic operation of a processor that acquires and releases the lock again and again. -/
def step (lock : SMPMCSLock Cpu) (cpu : Cpu) : SMPMCSLock Cpu :=
  let goTo := update lock.point cpu
  match lock.point cpu with
  | .storeNext =>
    { lock with next := update lock.next cpu none, point := goTo .storeLocked }
  | .storeLocked =>
    { lock with locked := update lock.locked cpu true, point := goTo .exchange }
  | .exchange =>
    let reached := { lock with queue := some cpu, queued := lock.queued ++ [cpu] }
    match lock.queue with
    | none => reached.enter cpu
    | some previous => { reached with point := goTo (.link previous) }
  | .link previous =>
    { lock with next := update lock.next previous (some cpu), point := goTo .spin }
  | .spin => if lock.locked cpu then lock else lock.enter cpu
  | .loadNext => { lock with point := goTo ((lock.next cpu).elim .compareExchange .unlock) }
  | .compareExchange =>
    if lock.queue = some cpu then { lock with queue := none, point := goTo .storeNext }
    else { lock with point := goTo .await }
  | .await => (lock.next cpu).elim lock fun next => { lock with point := goTo (.unlock next) }
  | .unlock next =>
    { lock with locked := update lock.locked next false, point := goTo .storeNext }

/-- The processors with the tickets from `served` on form the line. -/
@[grind cases] structure Lined (lock : SMPMCSLock Cpu) (ticket : Cpu → Nat) (served : Nat) : Prop where
  cleared : ∀ cpu, lock.point cpu = .storeLocked ∨ lock.point cpu = .exchange → lock.next cpu = none
  armed : ∀ cpu, lock.point cpu = .exchange → lock.locked cpu = true
  queued : ∀ cpu, (lock.point cpu).InLine → served ≤ ticket cpu ∧ lock.queued[ticket cpu]? = some cpu
  place : ∀ i cpu, served ≤ i → lock.queued[i]? = some cpu →
    (lock.point cpu).InLine ∧ ticket cpu = i
  bound : served ≤ lock.queued.length
  last : ∀ cpu, lock.queue = some cpu →
    (lock.point cpu).InLine ∧ ticket cpu + 1 = lock.queued.length
  tail : ∀ cpu, (lock.point cpu).InLine → ticket cpu + 1 = lock.queued.length →
    lock.queue = some cpu
  free : lock.queue = none → served = lock.queued.length
  link : ∀ cpu previous, lock.point cpu = .link previous →
    (lock.point previous).InLine ∧ ticket previous + 1 = ticket cpu ∧ lock.next previous = none
  linked : ∀ cpu next, (lock.point cpu).InLine → lock.next cpu = some next →
    ticket next = ticket cpu + 1 ∧ (lock.point next = .spin ∨ (lock.point next).Holds)
  unlinked : ∀ cpu next, (lock.point cpu).InLine → lock.next cpu = none →
    (lock.point next).InLine → ticket next = ticket cpu + 1 → lock.point next = .link cpu
  first : ∀ cpu, (lock.point cpu).InLine → ticket cpu = served →
    (lock.point cpu).Holds ∧ lock.entered.length = served + 1 ∨
      lock.point cpu = .spin ∧ lock.locked cpu = false ∧ lock.entered.length = served
  others : ∀ cpu, (lock.point cpu).InLine → ticket cpu ≠ served →
    ¬ (lock.point cpu).Holds ∧ lock.locked cpu = true
  unlock : ∀ cpu next, lock.point cpu = .unlock next → lock.next cpu = some next
  await : ∀ cpu, lock.point cpu = .await → ticket cpu + 1 < lock.queued.length
  entered : lock.entered <+: lock.queued
  idle : served = lock.queued.length → lock.entered.length = served

/-- No processor is in the line, and their contexts hold anything. -/
def initial (next : Cpu → Option Cpu) (locked : Cpu → Bool) : SMPMCSLock Cpu :=
  ⟨none, next, locked, fun _ => .storeNext, [], []⟩

variable {lock : SMPMCSLock Cpu} {ticket : Cpu → Nat} {served : Nat} {cpu : Cpu}

open SMPMCSLockPoint

section

variable (lined : lock.Lined ticket served)
include lined

theorem Lined.arrive (point : lock.point cpu = .storeNext ∨ lock.point cpu = .storeLocked) :
    (lock.step cpu).Lined ticket served := by
  rcases point with point | point
  all_goals
    simp only [SMPMCSLock.step, point]
    constructor <;> grind

theorem Lined.toSpin {previous : Cpu}
    (point : lock.point cpu = .link previous) : (lock.step cpu).Lined ticket served := by
  simp only [SMPMCSLock.step, point]
  constructor <;> grind

theorem Lined.exchange (point : lock.point cpu = .exchange) :
    (lock.step cpu).Lined (update ticket cpu lock.queued.length) served := by
  simp only [SMPMCSLock.step, point]
  cases queue : lock.queue with
  | none =>
    simp only [SMPMCSLock.enter]
    constructor <;> grind [List.prefix_iff_getElem?]
  | some previous =>
    have ⟨inLine, isLast⟩ := lined.last previous queue
    have notLinked : lock.next previous = none := by
      cases isLinked : lock.next previous with
      | none => rfl
      | some next => grind [Holds.apart, lined.linked previous next inLine isLinked]
    constructor <;> grind

theorem Lined.enter (point : lock.point cpu = .spin)
    (unlocked : lock.locked cpu = false) : (lock.enter cpu).Lined ticket served := by
  unfold SMPMCSLock.enter
  constructor <;> grind [List.prefix_iff_getElem?]

theorem Lined.goTo {point : SMPMCSLockPoint Cpu}
    (holds : (lock.point cpu).Holds) (stillHolds : point.Holds)
    (unlocks : ∀ next, point = .unlock next → lock.next cpu = some next)
    (awaits : point = .await → lock.queue ≠ some cpu) :
    ({ lock with point := update lock.point cpu point } : SMPMCSLock Cpu).Lined
      ticket served := by
  have ⟨inLine, _, _, _, notLink⟩ := holds.apart
  have ⟨stillInLine, _, _, _, stillNotLink⟩ := stillHolds.apart
  constructor <;> grind

theorem Lined.leave (point : lock.point cpu = .compareExchange)
    (alone : lock.queue = some cpu) : (lock.step cpu).Lined ticket (served + 1) := by
  simp only [SMPMCSLock.step, point, alone, ↓reduceIte]
  constructor <;> grind

theorem Lined.handOver {next : Cpu}
    (point : lock.point cpu = .unlock next) : (lock.step cpu).Lined ticket (served + 1) := by
  have ⟨isTicket, waits⟩ :=
    lined.linked cpu next (by rw [point]; trivial) (lined.unlock cpu next point)
  have spins : lock.point next = .spin := by grind [Holds.apart]
  simp only [SMPMCSLock.step, point]
  constructor <;> grind

theorem Lined.step (cpu : Cpu) :
    ∃ after next, (lock.step cpu).Lined after next := by
  cases point : lock.point cpu with
  | storeNext => exact ⟨_, _, lined.arrive (.inl point)⟩
  | storeLocked => exact ⟨_, _, lined.arrive (.inr point)⟩
  | link previous => exact ⟨_, _, lined.toSpin point⟩
  | exchange => exact ⟨_, _, lined.exchange point⟩
  | unlock next => exact ⟨_, _, lined.handOver point⟩
  | spin =>
    simp only [SMPMCSLock.step, point]
    cases isLocked : lock.locked cpu with
    | false => exact ⟨_, _, lined.enter point isLocked⟩
    | true => exact ⟨_, _, lined⟩
  | compareExchange =>
    by_cases alone : lock.queue = some cpu
    · exact ⟨_, _, lined.leave point alone⟩
    · simp only [SMPMCSLock.step, point, alone, if_false]
      exact ⟨_, _, lined.goTo (by simp [point, Holds]) trivial nofun fun _ => alone⟩
  | loadNext =>
    simp only [SMPMCSLock.step, point]
    refine ⟨ticket, served, lined.goTo (by simp [point, Holds]) ?_ ?_ ?_⟩
    all_goals cases isNext : lock.next cpu <;> simp [Holds]
  | await =>
    simp only [SMPMCSLock.step, point]
    cases isNext : lock.next cpu with
    | none => exact ⟨_, _, lined⟩
    | some next =>
      refine ⟨_, _, lined.goTo (by simp [point, Holds]) trivial ?_ nofun⟩
      rintro _ ⟨⟩
      exact isNext

theorem Lined.goesOn (inLine : (lock.point cpu).InLine) :
    ∃ other, (lock.point other).InLine ∧ (lock.step other).point other ≠ lock.point other := by
  have line := lined.queued cpu inLine
  obtain ⟨head, isHead⟩ : ∃ head, lock.queued[served]? = some head := by grind
  have ⟨headInLine, isServed⟩ := lined.place served head (Nat.le_refl served) isHead
  by_cases waits : lock.point head = .await ∧ lock.next head = none
  · obtain ⟨next, isNext⟩ : ∃ next, lock.queued[served + 1]? = some next := by
      grind [lined.await head waits.1]
    have ⟨nextInLine, isTicket⟩ := lined.place (served + 1) next (Nat.le_succ served) isNext
    have links := lined.unlinked head next headInLine waits.2 nextInLine (by omega)
    exact ⟨next, nextInLine, by simp [SMPMCSLock.step, links]⟩
  · have canGoOn := lined.first head headInLine isServed
    refine ⟨head, headInLine, ?_⟩
    unfold SMPMCSLock.step SMPMCSLock.enter
    rcases canGoOn with ⟨holds, -⟩ | ⟨spins, isFree, -⟩
    · cases isPoint : lock.point head with
      | compareExchange => by_cases alone : lock.queue = some head <;> simp [alone]
      | _ => cases isNext : lock.next head <;> simp_all [Holds]
    · simp [spins, isFree]

end

/-- One processor at most holds the lock, the processors get it in the order in which they have
queued, and as long as one is in the line, one of the line can go on. -/
theorem mcsLockRun_excludes (next : Cpu → Option Cpu) (locked : Cpu → Bool)
    (calls : List Cpu) :
    let lock := Machine.run SMPMCSLock.step (initial next locked) calls
    (∀ cpu other, (lock.point cpu).Holds → (lock.point other).Holds → cpu = other) ∧
      lock.entered <+: lock.queued ∧
      ∀ cpu, (lock.point cpu).InLine →
        ∃ other, (lock.point other).InLine ∧ (lock.step other).point other ≠ lock.point other := by
  intro lock
  have start : (initial next locked).Lined (fun _ => 0) 0 := by
    constructor <;> simp [initial, InLine, Holds]
  have always : Machine.Throughout SMPMCSLock.step
      (fun lock => ∃ ticket served, lock.Lined ticket served) (initial next locked) calls :=
    Machine.throughout_of_preserved ⟨_, _, start⟩
      (fun _ cpu ⟨_, _, lined⟩ _ => lined.step cpu)
      (Machine.meets_of_forall (fun _ _ => trivial) _ calls)
  obtain ⟨ticket, served, lined⟩ := always.final
  refine ⟨?_, lined.entered, fun _ inLine => lined.goesOn inLine⟩
  have only : ∀ cpu, (lock.point cpu).Holds → lock.queued[served]? = some cpu := by
    intro cpu holds
    grind [holds.apart]
  intro cpu other holds otherHolds
  exact Option.some.inj ((only cpu holds).symm.trans (only other otherHolds))

end SMPMCSLock

end RTContainer.Score
