import RTContainer.Score.CgroupConfigs
import RTContainer.Score.RBTree
import RTContainer.Score.Watchdog

/-! The clock tick. `_Watchdog_Do_tickle` fires the first watchdog of a header as
long as it is due, and the routine that ends the period of a cgroup schedules its
own watchdog again from inside that loop. -/

set_option autoImplicit false

namespace RTContainer.Score

open RTContainer.Rtems Deadlines

/-- The watchdogs of the ticks header: two in every cgroup control block, and
those of the rest of the system. -/
inductive WatchdogName (Other : Type) where
  | cpuSuspend (block : ObjectsId)
  | cpuResume (block : ObjectsId)
  | other (watchdog : Other)
deriving DecidableEq

/-- What the routine of another watchdog does with watchdogs. A watchdog that is
inserted is inactive, as `_Watchdog_Insert` asserts. -/
inductive WatchdogCall (Other : Type) where
  | remove (watchdog : Other)
  | insert (watchdog : Other) (expire : Nat)

/-- The ticks header of a processor, and what the watchdog routines act on. The
tree is given by its watchdogs with their expiration times, in its order. -/
structure WatchdogCpu (Thread Other Outside : Type) where
  header : Queue (WatchdogName Other)
  ticks : Nat
  cgroups : CgroupSystem Thread
  outside : Outside

/-- The routines of the other watchdogs: what they make of the states of the
threads and of the rest of the system, and their calls on watchdogs. -/
abbrev OtherRoutines (Thread Other Outside : Type) : Type :=
  Other → (Thread → BitVec 32) → Outside →
    (Thread → BitVec 32) × Outside × List (WatchdogCall Other)

variable {Thread Other Outside : Type} [DecidableEq Thread] [DecidableEq Other]

def WatchdogCall.perform (call : WatchdogCall Other) (header : Queue (WatchdogName Other)) :
    Queue (WatchdogName Other) :=
  match call with
  | .remove watchdog => header.remove (.other watchdog)
  | .insert watchdog expire => header.insert (.other watchdog) expire

namespace WatchdogCpu

/-- `_Watchdog_Per_CPU_insert_ticks`. An interval has 32 bits, an expiration time 64. -/
def insertTicks (cpu : WatchdogCpu Thread Other Outside) (watchdog : WatchdogName Other)
    (ticks : Nat) : WatchdogCpu Thread Other Outside :=
  { cpu with header := cpu.header.insert watchdog ((ticks % 2 ^ 32 + cpu.ticks) % 2 ^ 64) }

def cpuPeriod (cpu : WatchdogCpu Thread Other Outside) (block : ObjectsId) : Nat :=
  (cpu.cgroups.configs (cpu.cgroups.cgroups block).config).cpuPeriod

/-- A turn of the loop of `_Watchdog_Do_tickle`: the watchdog is extracted and its
routine called. -/
def fire (routines : OtherRoutines Thread Other Outside) (cpu : WatchdogCpu Thread Other Outside)
    (first : WatchdogName Other) : WatchdogCpu Thread Other Outside :=
  let extracted := { cpu with header := cpu.header.remove first }
  match first with
  | .cpuSuspend block => { extracted with cgroups := cpu.cgroups.cpuSuspendRoutine block }
  | .cpuResume block =>
    { extracted with cgroups := cpu.cgroups.cpuResumeRoutine block }.insertTicks
      (.cpuResume block) (cpu.cpuPeriod block)
  | .other watchdog =>
    let (currentState, outside, calls) :=
      routines watchdog cpu.cgroups.currentState cpu.outside
    { extracted with
      header := calls.foldl (fun header call => call.perform header) extracted.header
      cgroups := { cpu.cgroups with currentState := currentState }
      outside := outside }

/-- `_Watchdog_Do_tickle`, with the watchdogs that it has fired. The fuel bounds
the firings: without enough of it there is no result. -/
def watchdogDoTickle (routines : OtherRoutines Thread Other Outside) (now : Nat) :
    Nat → WatchdogCpu Thread Other Outside → WatchdogName Other × Nat →
      Option (WatchdogCpu Thread Other Outside × List (WatchdogName Other))
  | fuel, cpu, first =>
    if first.2 ≤ now then
      match fuel with
      | 0 => none
      | fuel + 1 =>
        let fired := cpu.fire routines first.1
        let rest :=
          match fired.header.first with
          | none => some (fired, [])
          | some next => watchdogDoTickle routines now fuel fired next
        rest.map fun result => (result.1, first.1 :: result.2)
    else some (cpu, [])

/-- `rtems_cgroup_create`. A cgroup that is initialized starts its resume watchdog. -/
def rtemsCgroupCreate (cpu : WatchdogCpu Thread Other Outside) (name : BitVec 32) (id : Bool)
    (config : Nat) (allocated : Option ObjectsId) :
    WatchdogCpu Thread Other Outside × Except StatusCode ObjectsId :=
  let created := Rtems.rtemsCgroupCreate cpu.cgroups name id config allocated
  match created.2 with
  | .ok block =>
    let initialized := { cpu with cgroups := created.1 }
    (initialized.insertTicks (.cpuResume block) (initialized.cpuPeriod block), .ok block)
  | .error status => ({ cpu with cgroups := created.1 }, .error status)

/-- The part of `_Watchdog_Tick` before the header is looked at. -/
def advance (cpu : WatchdogCpu Thread Other Outside) : WatchdogCpu Thread Other Outside :=
  { cpu with ticks := cpu.ticks + 1 }

/-- The expiration time that the resume watchdog of a cgroup gets when it fires. -/
def resumeExpire (cpu : WatchdogCpu Thread Other Outside) (block : ObjectsId) : Nat :=
  (cpu.cpuPeriod block % 2 ^ 32 + cpu.ticks) % 2 ^ 64

end WatchdogCpu

/-- The other routines insert watchdogs for later only: the timer directives refuse
an interval of no ticks. -/
def OtherRoutines.ScheduleLater (routines : OtherRoutines Thread Other Outside) (now : Nat) :
    Prop :=
  ∀ watchdog currentState outside other expire,
    .insert other expire ∈ (routines watchdog currentState outside).2.2 → now < expire

variable {routines : OtherRoutines Thread Other Outside} {now : Nat}
variable {cpu : WatchdogCpu Thread Other Outside}

namespace WatchdogCall

variable {header : Queue (WatchdogName Other)} {name : WatchdogName Other}
variable {calls : List (WatchdogCall Other)}

theorem due_of_perform {call : WatchdogCall Other}
    (later : ∀ other expire, call = .insert other expire → now < expire)
    (isDue : (call.perform header).Due now name) : header.Due now name := by
  cases call with
  | remove watchdog => exact (Queue.due_remove.mp isDue).1
  | insert watchdog expire =>
    cases Queue.due_insert.mp isDue with
    | inl isNew => exact absurd isNew.2 (later watchdog expire rfl).not_ge
    | inr old => exact old.1

theorem due_of_calls (later : ∀ other expire, .insert other expire ∈ calls → now < expire)
    (isDue : (calls.foldl (fun header call => call.perform header) header).Due now name) :
    header.Due now name := by
  induction calls generalizing header with
  | nil => exact isDue
  | cons call rest ih =>
    have between := ih (fun other expire isIn => later other expire (List.mem_cons_of_mem _ isIn))
      isDue
    apply due_of_perform _ between
    intro other expire isCall
    exact later other expire (isCall ▸ List.mem_cons_self)

theorem cpuResume_due_calls {block : ObjectsId} (isDue : header.Due now (.cpuResume block)) :
    (calls.foldl (fun header call => call.perform header) header).Due now (.cpuResume block) := by
  induction calls generalizing header with
  | nil => exact isDue
  | cons call rest ih =>
    apply ih
    cases call with
    | remove watchdog => exact Queue.due_remove.mpr ⟨isDue, nofun⟩
    | insert watchdog expire => exact Queue.due_insert.mpr (.inr ⟨isDue, nofun⟩)

end WatchdogCall

namespace WatchdogCpu

theorem fire_ticks (first : WatchdogName Other) : (cpu.fire routines first).ticks = cpu.ticks := by
  cases first <;> rfl

theorem fire_cpuPeriod (first : WatchdogName Other) (block : ObjectsId) :
    (cpu.fire routines first).cpuPeriod block = cpu.cpuPeriod block := by
  cases first with
  | cpuSuspend suspended =>
    have same := cpu.cgroups.cpuSuspendRoutine_sameConfigs suspended
    simp only [cpuPeriod, fire, same.config, same.configs]
  | cpuResume resumed =>
    have same := cpu.cgroups.cpuResumeRoutine_sameConfigs resumed
    simp only [cpuPeriod, fire, insertTicks, same.config, same.configs]
  | other watchdog => rfl

theorem fire_resumeExpire (first : WatchdogName Other) (block : ObjectsId) :
    (cpu.fire routines first).resumeExpire block = cpu.resumeExpire block := by
  rw [resumeExpire, resumeExpire, fire_cpuPeriod, fire_ticks]

theorem due_of_fire {first name : WatchdogName Other} (later : routines.ScheduleLater now)
    (isDue : (cpu.fire routines first).header.Due now name) :
    (cpu.header.Due now name ∧ name ≠ first) ∨
      ∃ block, first = .cpuResume block ∧ cpu.resumeExpire block ≤ now := by
  cases first with
  | cpuSuspend block => exact .inl (Queue.due_remove.mp isDue)
  | cpuResume block =>
    cases Queue.due_insert.mp isDue with
    | inl again => exact .inr ⟨block, rfl, again.2⟩
    | inr old => exact .inl (Queue.due_remove.mp old.1)
  | other watchdog =>
    have before := WatchdogCall.due_of_calls
      (fun other expire => later watchdog cpu.cgroups.currentState cpu.outside other expire) isDue
    exact .inl (Queue.due_remove.mp before)

variable {block : ObjectsId}

theorem cpuResume_due_fire {first : WatchdogName Other}
    (isDue : cpu.header.Due now (.cpuResume block)) (atOnce : cpu.resumeExpire block ≤ now) :
    (cpu.fire routines first).header.Due now (.cpuResume block) := by
  cases first with
  | cpuSuspend suspended => exact Queue.due_remove.mpr ⟨isDue, nofun⟩
  | cpuResume resumed =>
    by_cases isBlock : resumed = block
    · subst resumed
      exact Queue.due_insert.mpr (.inl ⟨rfl, atOnce⟩)
    · have different : (.cpuResume block : WatchdogName Other) ≠ .cpuResume resumed :=
        fun same => isBlock (WatchdogName.cpuResume.inj same).symm
      have kept := Queue.due_remove.mpr ⟨isDue, different⟩
      exact Queue.due_insert.mpr (.inr ⟨kept, different⟩)
  | other watchdog =>
    exact WatchdogCall.cpuResume_due_calls (Queue.due_remove.mpr ⟨isDue, nofun⟩)

theorem watchdogDoTickle_eq_expire {first : WatchdogName Other × Nat} (fuel : Nat)
    (isFirst : cpu.header.first = some first) :
    watchdogDoTickle routines now fuel cpu first =
      expire WatchdogCpu.header (fire routines) now fuel cpu := by
  induction fuel generalizing cpu first with
  | zero => simp only [watchdogDoTickle, expire, isFirst]
  | succ fuel ih =>
    rw [watchdogDoTickle, expire]
    simp only [isFirst]
    cases isNext : (cpu.fire routines first.1).header.first with
    | none =>
      have ended : expire WatchdogCpu.header (fire routines) now fuel
          (cpu.fire routines first.1) = some (cpu.fire routines first.1, []) := by
        cases fuel <;> simp only [expire, isNext]
      rw [ended]
    | some next => simp only [ih isNext]

theorem watchdogDoTickle_eq_none {first : WatchdogName Other × Nat}
    (isFirst : cpu.header.first = some first) (isDue : cpu.header.Due now (.cpuResume block))
    (atOnce : cpu.resumeExpire block ≤ now) (fuel : Nat) :
    watchdogDoTickle routines now fuel cpu first = none := by
  rw [watchdogDoTickle_eq_expire fuel isFirst]
  apply expire_eq_none fun cpu : WatchdogCpu Thread Other Outside =>
    cpu.header.Due now (.cpuResume block) ∧ cpu.resumeExpire block ≤ now
  · intro state pending
    exact ⟨_, pending.1⟩
  · intro state next pending _
    exact ⟨cpuResume_due_fire pending.1 pending.2,
      (fire_resumeExpire next.1 block).trans_le pending.2⟩
  · exact ⟨isDue, atOnce⟩

/-- A call of `_Watchdog_Do_tickle` returns, having fired each watchdog at most
once, exactly when no resume watchdog that is due has a period that ends at once. -/
theorem watchdogDoTickle_returns_iff (cpu : WatchdogCpu Thread Other Outside)
    (routines : OtherRoutines Thread Other Outside) (now : Nat)
    (later : routines.ScheduleLater now) (first : WatchdogName Other × Nat)
    (isFirst : cpu.header.first = some first) :
    (∃ fuel after fired, watchdogDoTickle routines now fuel cpu first = some (after, fired) ∧
        fired.Nodup) ↔
      ∀ block, cpu.header.Due now (.cpuResume block) → now < cpu.resumeExpire block := by
  constructor
  · intro returns block isDue
    obtain ⟨fuel, after, fired, returns, -⟩ := returns
    by_contra atOnce
    rw [watchdogDoTickle_eq_none isFirst isDue (not_lt.mp atOnce) fuel] at returns
    exact Option.some_ne_none _ returns.symm
  · intro condition
    have returns : ∃ result, expire WatchdogCpu.header (fire routines) now
        (cpu.header.due now).length cpu = some result ∧ result.2.Nodup ∧
          ∀ name ∈ result.2, cpu.header.Due now name := by
      apply expire_returns (fun state : WatchdogCpu Thread Other Outside =>
        ∀ block, state.header.Due now (.cpuResume block) → now < state.resumeExpire block)
      · intro state next holds isNext early
        have fewer : ∀ name, (state.fire routines next.1).header.Due now name →
            state.header.Due now name ∧ name ≠ next.1 := by
          intro name isDue
          cases due_of_fire later isDue with
          | inl before => exact before
          | inr again =>
            obtain ⟨block, isResume, atOnce⟩ := again
            have due := Queue.first_due isNext early
            exact absurd atOnce (holds block (isResume ▸ due)).not_ge
        refine ⟨?_, fewer⟩
        intro block isDue
        rw [fire_resumeExpire]
        exact holds block (fewer _ isDue).1
      · exact condition
      · exact Nat.le_refl _
    obtain ⟨⟨after, fired⟩, returns, once, -⟩ := returns
    rw [← watchdogDoTickle_eq_expire _ isFirst] at returns
    exact ⟨_, after, fired, returns, once⟩

end WatchdogCpu

/-- A processor without scheduled watchdogs. Every cgroup gets one configuration. -/
def idleWatchdogs (config : CoreCgroupConfig) : WatchdogCpu (Fin 1) (Fin 1) Unit where
  header := ⟨[], List.Pairwise.nil, List.nodup_nil⟩
  ticks := 0
  cgroups :=
    { opened := []
      cgroups := fun _ => ⟨statesReady, 0, [], 0, 10, 0, false, false, 0, true⟩
      configs := fun _ => config
      cgroup := fun _ => none
      isAddedToCgroup := fun _ => false
      currentState := fun _ => statesReady
      lastCpuStartTimestamp := fun _ => 0 }
  outside := ()

/-- A timer that is fired again after every tick. -/
def everyTick (now : Nat) : OtherRoutines (Fin 1) (Fin 1) Unit :=
  fun watchdog currentState outside => (currentState, outside, [.insert watchdog (now + 1)])

theorem everyTick_scheduleLater (now : Nat) : (everyTick now).ScheduleLater now := by
  intro watchdog currentState outside other expire isIn
  simp only [everyTick, List.mem_singleton, WatchdogCall.insert.injEq] at isIn
  exact isIn.2 ▸ Nat.lt_succ_self now

/-- The header of a processor on which a cgroup with a period of one tick has been
created and a timer is due. -/
def busyWatchdogs : WatchdogCpu (Fin 1) (Fin 1) Unit :=
  let created := ((idleWatchdogs ⟨1, 1, 1, 0, 0⟩).rtemsCgroupCreate 1 true 0 (some 0)).1
  { created.advance with header := created.header.insert (.other 0) 1 }

theorem busyWatchdogs_returns :
    ∃ fuel after fired,
      WatchdogCpu.watchdogDoTickle (everyTick 1) 1 fuel busyWatchdogs (.cpuResume 0, 1) =
        some (after, fired) ∧ fired.Nodup := by
  apply (WatchdogCpu.watchdogDoTickle_returns_iff busyWatchdogs (everyTick 1) 1
    (everyTick_scheduleLater 1) (.cpuResume 0, 1) (by decide +kernel)).mpr
  intro block _
  exact (by decide : 1 < 2)

/-- The cgroup that a `create` command of the memory control file makes has no
period: the next tick does not return. -/
theorem memoryCgroup_neverReturns :
    ∃ cpu first,
      (idleWatchdogs ⟨1, 0, 0, 1024 * 1024, 0⟩).rtemsCgroupCreate 1 true 0 (some 0) = (cpu, .ok 0) ∧
      cpu.advance.header.first = some first ∧
      ¬ ∃ fuel after fired,
        WatchdogCpu.watchdogDoTickle (everyTick cpu.advance.ticks) cpu.advance.ticks fuel
          cpu.advance first = some (after, fired) ∧ fired.Nodup := by
  let cpu := ((idleWatchdogs ⟨1, 0, 0, 1024 * 1024, 0⟩).rtemsCgroupCreate 1 true 0 (some 0)).1
  have isFirst : cpu.advance.header.first = some (.cpuResume 0, 0) := by decide +kernel
  have isDue : cpu.advance.header.Due cpu.advance.ticks (.cpuResume 0) :=
    ⟨0, by decide +kernel, by decide +kernel⟩
  have atOnce : cpu.advance.resumeExpire 0 ≤ cpu.advance.ticks := by decide +kernel
  refine ⟨cpu, _, rfl, isFirst, ?_⟩
  intro returns
  obtain ⟨fuel, after, fired, returns, -⟩ := returns
  rw [WatchdogCpu.watchdogDoTickle_eq_none isFirst isDue atOnce fuel] at returns
  exact Option.some_ne_none _ returns.symm

end RTContainer.Score

/-! Runs of a watchdog header. `_Watchdog_Do_tickle` gives up the lock while a
service routine runs, so what the routine does, and what happens elsewhere in the
meantime, are steps of their own between the turns of its loop. -/

namespace RTContainer.Score

open RedBlack Deadlines Machine

/-- A header and the tickle that may be going on: the time it was given, and
whether a service routine called by it is running. The last field records the
scheduled watchdogs with their expiration times in the order of insertion; no
step looks at it. -/
structure TickledHeader (Watchdog : Type) where
  header : WatchdogHeader Watchdog
  now : Nat
  tickling : Bool
  scheduled : List (Watchdog × Nat)

/-- `tickle` calls `_Watchdog_Do_tickle` with the first watchdog of the header,
`turn` is the return of a service routine into its loop. -/
inductive WatchdogAction (Watchdog : Type) where
  | insert (watchdog : Watchdog) (expire : Nat)
  | remove (watchdog : Watchdog)
  | tickle (now : Nat)
  | turn

variable {Watchdog : Type} [DecidableEq Watchdog] (tree : Rebalancing Watchdog)

namespace TickledHeader

def initial (expire : Watchdog → Nat) : TickledHeader Watchdog where
  header := .headerInitialize expire
  now := 0
  tickling := false
  scheduled := []

variable (state : TickledHeader Watchdog)

def due : Option Watchdog :=
  state.header.first.filter fun first => state.header.expire first ≤ state.now

/-- The loop of `_Watchdog_Do_tickle` from the point where `first` has been read
to the call of a service routine or to its end. -/
def loop : TickledHeader Watchdog :=
  match state.header.first with
  | none => { state with tickling := false }
  | some first =>
    match state.header.turn tree first state.now with
    | none => { state with tickling := false }
    | some header =>
      { state with
        header := header
        tickling := true
        scheduled := state.scheduled.filter fun entry => entry.1 ≠ first }

def step : WatchdogAction Watchdog → TickledHeader Watchdog
  | .insert watchdog expire =>
    { state with
      header := state.header.insert tree watchdog expire
      scheduled := state.scheduled ++ [(watchdog, expire)] }
  | .remove watchdog =>
    { state with
      header := state.header.remove tree watchdog
      scheduled := state.scheduled.filter fun entry => entry.1 ≠ watchdog }
  | .tickle now => loop tree { state with now := now }
  | .turn => loop tree state

def fires : WatchdogAction Watchdog → Option Watchdog
  | .tickle now => due { state with now := now }
  | .turn => due state
  | _ => none

def Ends : WatchdogAction Watchdog → Prop
  | .tickle now => due { state with now := now } = none
  | .turn => due state = none
  | _ => False

/-- `_Watchdog_Insert` asserts that the watchdog is inactive; the callers of
`_Watchdog_Do_tickle` give it the first watchdog of a header that has one, and
the time does not go back. -/
def Permitted : WatchdogAction Watchdog → Prop
  | .insert watchdog _ => ¬ state.header.isScheduled watchdog = true
  | .remove _ => True
  | .tickle now => state.tickling = false ∧ state.now ≤ now ∧ state.header.first.isSome
  | .turn => state.tickling = true

instance decidablePermitted (state : TickledHeader Watchdog)
    (action : WatchdogAction Watchdog) : Decidable (state.Permitted action) :=
  match action with
  | .insert watchdog _ => inferInstanceAs (Decidable (¬ state.header.isScheduled watchdog = true))
  | .remove _ => isTrue trivial
  | .tickle now => inferInstanceAs (Decidable (state.tickling = false ∧ state.now ≤ now ∧
      state.header.first.isSome = true))
  | .turn => inferInstanceAs (Decidable (state.tickling = true))

/-- The pointer of the header names a watchdog of minimum expiration, and none
exactly when none is scheduled. -/
structure FirstLeast (state : TickledHeader Watchdog) : Prop where
  scheduled : ∀ watchdog,
    state.header.isScheduled watchdog = true ↔ ∃ expire, (watchdog, expire) ∈ state.scheduled
  none_iff : state.header.first = none ↔ state.scheduled = []
  least : ∀ first, state.header.first = some first →
    ∃ expire, (first, expire) ∈ state.scheduled ∧
      ∀ other otherExpire, (other, otherExpire) ∈ state.scheduled → expire ≤ otherExpire

def NotFired (watchdog : Watchdog) :
    TickledHeader Watchdog → List (WatchdogAction Watchdog) → Prop
  | _, [] => True
  | state, action :: rest =>
    (∃ expire, action = .insert watchdog expire) ∨
      state.fires action ≠ some watchdog ∧ NotFired watchdog (state.step tree action) rest

/-- What a scheduled watchdog is promised: unless it is removed, no tickle of its
expiration time or later ends without having fired it, it is not fired by an
earlier one, and it is fired once. -/
def FiresOnTime (watchdog : Watchdog) (expire : Nat) :
    TickledHeader Watchdog → List (WatchdogAction Watchdog) → Prop
  | _, [] => True
  | state, action :: rest =>
    if state.fires action = some watchdog then
      expire ≤ (state.step tree action).now ∧ NotFired tree watchdog (state.step tree action) rest
    else
      (state.Ends action → (state.step tree action).now < expire) ∧
        (action = .remove watchdog ∧ NotFired tree watchdog (state.step tree action) rest ∨
          FiresOnTime watchdog expire (state.step tree action) rest)

/-- `second` is not fired before `first` has been fired or one of them has been
removed. -/
def FiresInOrder (first second : Watchdog) :
    TickledHeader Watchdog → List (WatchdogAction Watchdog) → Prop
  | _, [] => True
  | state, action :: rest =>
    state.fires action ≠ some second ∧
      (state.fires action = some first ∨ action = .remove first ∨ action = .remove second ∨
        FiresInOrder first second (state.step tree action) rest)

def Queued : Prop :=
  ∃ queue, state.header.Represents queue ∧ queue.Sorts state.scheduled

variable {tree} {state} {watchdog : Watchdog} {expire : Nat}

section Loop

theorem loop_of_not_due (tree : Rebalancing Watchdog) (notDue : state.due = none) :
    state.loop tree = { state with tickling := false } := by
  cases isFirst : state.header.first with
  | none => simp only [loop, isFirst]
  | some first =>
    have later : ¬ state.header.expire first ≤ state.now := by
      simpa [due, isFirst, Option.filter] using notDue
    simp only [loop, isFirst, WatchdogHeader.turn, later, ↓reduceIte]

theorem loop_of_due (tree : Rebalancing Watchdog) {first : Watchdog} (isDue : state.due = some first) :
    state.header.first = some first ∧ state.header.expire first ≤ state.now ∧
      state.loop tree =
        { state with
          header := (state.header.nextFirst first).extract tree first
          tickling := true
          scheduled := state.scheduled.filter fun entry => entry.1 ≠ first } := by
  obtain ⟨isFirst, early⟩ := Option.filter_eq_some_iff.mp isDue
  have early : state.header.expire first ≤ state.now := of_decide_eq_true early
  refine ⟨isFirst, early, ?_⟩
  simp only [loop, isFirst, WatchdogHeader.turn, early, ↓reduceIte]

theorem loop_now : (state.loop tree).now = state.now := by
  cases isDue : state.due with
  | none => rw [loop_of_not_due tree isDue]
  | some first => rw [(loop_of_due tree isDue).2.2]

end Loop

section Queued

omit [DecidableEq Watchdog] in
theorem Queued.of_eq {other : TickledHeader Watchdog} (queued : state.Queued)
    (headerEq : other.header = state.header) (scheduledEq : other.scheduled = state.scheduled) :
    other.Queued := by
  obtain ⟨queue, represents, sorts⟩ := queued
  exact ⟨queue, headerEq ▸ represents, scheduledEq ▸ sorts⟩

theorem Queued.isScheduled_iff (queued : state.Queued) :
    state.header.isScheduled watchdog = true ↔ ∃ expire, (watchdog, expire) ∈ state.scheduled := by
  obtain ⟨queue, represents, sorts⟩ := queued
  simp only [represents.isScheduled_iff, sorts.mem_iff]

section

omit [DecidableEq Watchdog]

theorem Queued.expire_eq (queued : state.Queued) (member : (watchdog, expire) ∈ state.scheduled) :
    state.header.expire watchdog = expire := by
  obtain ⟨queue, represents, sorts⟩ := queued
  exact (represents.mem_entries.mp (sorts.mem_iff.mpr member)).2

theorem Queued.first (queued : state.Queued) (isFirst : state.header.first = some watchdog) :
    (watchdog, state.header.expire watchdog) ∈ state.scheduled ∧
      (∀ other otherExpire, (other, otherExpire) ∈ state.scheduled →
        state.header.expire watchdog ≤ otherExpire) ∧
      ∀ other, ¬ Queue.Precedes state.scheduled other (watchdog, state.header.expire watchdog) := by
  obtain ⟨queue, represents, sorts⟩ := queued
  rw [represents.first] at isFirst
  obtain ⟨⟨name, expire⟩, isEntry, rfl⟩ := Option.map_eq_some_iff.mp isFirst
  have member := Queue.mem_of_first isEntry
  obtain rfl := (represents.mem_entries.mp member).2
  exact ⟨sorts.mem_iff.mp member, fun other otherExpire otherIn =>
    Queue.first_le isEntry (sorts.mem_iff.mpr otherIn), fun other =>
      sorts.not_precedes_first isEntry⟩

theorem Queued.first_eq_none_iff (queued : state.Queued) :
    state.header.first = none ↔ state.scheduled = [] := by
  obtain ⟨queue, represents, sorts⟩ := queued
  rw [represents.first, Option.map_eq_none_iff, Queue.first, List.head?_eq_none_iff,
    List.eq_nil_iff_forall_not_mem, List.eq_nil_iff_forall_not_mem]
  simp only [sorts.mem_iff]

end

section

variable (queued : state.Queued)
include queued

theorem Queued.firstLeast : state.FirstLeast where
  scheduled := fun _ => queued.isScheduled_iff
  none_iff := queued.first_eq_none_iff
  least := fun _ isFirst => ⟨_, (queued.first isFirst).1, (queued.first isFirst).2.1⟩

omit [DecidableEq Watchdog] in
theorem Queued.later_of_not_due (notDue : state.due = none)
    (member : (watchdog, expire) ∈ state.scheduled) : state.now < expire := by
  cases isFirst : state.header.first with
  | none =>
    rw [queued.first_eq_none_iff.mp isFirst] at member
    contradiction
  | some first =>
    have later : ¬ state.header.expire first ≤ state.now := by
      simpa [due, isFirst, Option.filter] using notDue
    have least := (queued.first isFirst).2.1 watchdog expire member
    omega

theorem Queued.loop : (state.loop tree).Queued := by
  cases isDue : state.due with
  | none =>
    rw [loop_of_not_due tree isDue]
    exact queued.of_eq rfl rfl
  | some first =>
    obtain ⟨isFirst, -, looped⟩ := loop_of_due tree isDue
    obtain ⟨queue, represents, sorts⟩ := queued
    rw [looped]
    exact ⟨queue.remove first, represents.removeFirst isFirst, sorts.remove⟩

theorem Queued.step {action : WatchdogAction Watchdog} (permitted : state.Permitted action) :
    (state.step tree action).Queued := by
  cases action with
  | insert watchdog expire =>
    obtain ⟨queue, represents, sorts⟩ := queued
    have inactive : ¬ state.header.isScheduled watchdog = true := permitted
    have absent : watchdog ∉ queue.entries.map Prod.fst := by
      rw [← represents.names]
      simpa [WatchdogHeader.isScheduled] using inactive
    exact ⟨queue.insert watchdog expire, represents.insert inactive, sorts.insert absent⟩
  | remove watchdog =>
    obtain ⟨queue, represents, sorts⟩ := queued
    exact ⟨queue.remove watchdog, represents.remove, sorts.remove⟩
  | tickle now =>
    have started : ({ state with now := now } : TickledHeader Watchdog).Queued :=
      queued.of_eq rfl rfl
    exact started.loop
  | turn => exact queued.loop

omit [DecidableEq Watchdog] in
theorem Queued.first_ne_of_absent (absent : ∀ expire, (watchdog, expire) ∉ state.scheduled) :
    state.header.first ≠ some watchdog :=
  fun isFirst => absent _ (queued.first isFirst).1

end

end Queued

section Actions

variable {action : WatchdogAction Watchdog}

theorem of_fires (tree : Rebalancing Watchdog) (fired : state.fires action = some watchdog) :
    state.header.first = some watchdog ∧
      state.header.expire watchdog ≤ (state.step tree action).now ∧
      (state.step tree action).scheduled =
        state.scheduled.filter fun entry => entry.1 ≠ watchdog := by
  cases action with
  | insert other expire => contradiction
  | remove other => contradiction
  | tickle | turn =>
    obtain ⟨isFirst, early, looped⟩ := loop_of_due tree fired
    refine ⟨isFirst, early.trans_eq loop_now.symm, ?_⟩
    simp only [step, looped]

theorem Queued.later_of_ends (queued : state.Queued) (ends : state.Ends action)
    (member : (watchdog, expire) ∈ state.scheduled) : (state.step tree action).now < expire := by
  cases action with
  | insert other otherExpire => exact ends.elim
  | remove other => exact ends.elim
  | tickle now =>
    have started : ({ state with now := now } : TickledHeader Watchdog).Queued :=
      queued.of_eq rfl rfl
    exact loop_now.trans_lt (started.later_of_not_due ends member)
  | turn => exact loop_now.trans_lt (queued.later_of_not_due ends member)

theorem step_scheduled :
    (state.step tree action).scheduled =
      match action with
      | .insert watchdog expire => state.scheduled ++ [(watchdog, expire)]
      | .remove watchdog => state.scheduled.filter fun entry => entry.1 ≠ watchdog
      | _ =>
        match state.fires action with
        | none => state.scheduled
        | some fired => state.scheduled.filter fun entry => entry.1 ≠ fired := by
  cases action with
  | insert watchdog expire => rfl
  | remove watchdog => rfl
  | tickle now =>
    cases fired : state.fires (.tickle now) with
    | none =>
      have looped := loop_of_not_due tree fired
      simp only [step, looped]
    | some watchdog => exact (of_fires tree fired).2.2
  | turn =>
    cases fired : state.fires .turn with
    | none =>
      have looped := loop_of_not_due tree fired
      simp only [step, looped]
    | some watchdog => exact (of_fires tree fired).2.2

theorem step_keeps (member : (watchdog, expire) ∈ state.scheduled)
    (notFired : state.fires action ≠ some watchdog) (notRemoved : action ≠ .remove watchdog) :
    (watchdog, expire) ∈ (state.step tree action).scheduled := by
  rw [step_scheduled]
  have stays : ∀ other, watchdog ≠ other →
      (watchdog, expire) ∈ state.scheduled.filter fun entry => entry.1 ≠ other :=
    fun other different => List.mem_filter.mpr ⟨member, decide_eq_true different⟩
  split
  next => exact List.mem_append_left _ member
  next removed =>
    exact stays removed fun same => notRemoved (congrArg WatchdogAction.remove same.symm)
  next =>
    split
    next => exact member
    next fired isFired =>
      exact stays fired fun same => notFired (isFired.trans (congrArg some same.symm))

theorem step_precedes {first second : Watchdog × Nat}
    (precedes : Queue.Precedes state.scheduled first second)
    (notFired : state.fires action ≠ some first.1 ∧ state.fires action ≠ some second.1)
    (notRemoved : action ≠ .remove first.1 ∧ action ≠ .remove second.1) :
    Queue.Precedes (state.step tree action).scheduled first second := by
  rw [step_scheduled]
  split
  next => exact precedes.append
  next removed =>
    exact precedes.filter (fun same => notRemoved.1 (congrArg WatchdogAction.remove same.symm))
      fun same => notRemoved.2 (congrArg WatchdogAction.remove same.symm)
  next =>
    split
    next => exact precedes
    next fired isFired =>
      exact precedes.filter (fun same => notFired.1 (isFired.trans (congrArg some same.symm)))
        fun same => notFired.2 (isFired.trans (congrArg some same.symm))

end Actions

section Runs

variable {actions : List (WatchdogAction Watchdog)}

theorem Queued.notFired (queued : state.Queued)
    (absent : ∀ expire, (watchdog, expire) ∉ state.scheduled)
    (met : Meets (TickledHeader.step tree) Permitted state actions) :
    NotFired tree watchdog state actions := by
  induction actions generalizing state with
  | nil => trivial
  | cons action rest ih =>
    by_cases again : ∃ expire, action = .insert watchdog expire
    · exact .inl again
    refine .inr ⟨fun fired => queued.first_ne_of_absent absent (of_fires tree fired).1, ?_⟩
    refine ih (queued.step met.1) ?_ met.2
    intro expire member
    rw [step_scheduled] at member
    split at member
    next other otherExpire =>
      rcases List.mem_append.mp member with before | isNew
      · exact absent expire before
      · obtain ⟨rfl, rfl⟩ := Prod.mk.inj (List.mem_singleton.mp isNew)
        exact again ⟨expire, rfl⟩
    next => exact absent expire (List.mem_of_mem_filter member)
    next =>
      split at member
      next => exact absent expire member
      next => exact absent expire (List.mem_of_mem_filter member)

theorem not_mem_filter_name {scheduled : List (Watchdog × Nat)} (watchdog : Watchdog)
    (expire : Nat) :
    (watchdog, expire) ∉ scheduled.filter fun entry => entry.1 ≠ watchdog := by
  intro member
  exact of_decide_eq_true (List.mem_filter.mp member).2 rfl

theorem Queued.firesOnTime (queued : state.Queued)
    (member : (watchdog, expire) ∈ state.scheduled)
    (met : Meets (TickledHeader.step tree) Permitted state actions) :
    FiresOnTime tree watchdog expire state actions := by
  induction actions generalizing state with
  | nil => trivial
  | cons action rest ih =>
    have next : (state.step tree action).Queued := queued.step met.1
    simp only [FiresOnTime]
    split
    next fired =>
      obtain ⟨isFirst, early, remaining⟩ := of_fires tree fired
      rw [queued.expire_eq member] at early
      refine ⟨early, next.notFired (fun other => ?_) met.2⟩
      rw [remaining]
      exact not_mem_filter_name watchdog other
    next notFired =>
      refine ⟨fun ends => queued.later_of_ends ends member, ?_⟩
      by_cases removed : action = .remove watchdog
      · refine .inl ⟨removed, next.notFired (fun other => ?_) met.2⟩
        rw [removed]
        exact not_mem_filter_name watchdog other
      · exact .inr (ih next (step_keeps member notFired removed) met.2)

theorem Queued.firesInOrder {first second : Watchdog × Nat} (queued : state.Queued)
    (precedes : Queue.Precedes state.scheduled first second)
    (met : Meets (TickledHeader.step tree) Permitted state actions) :
    FiresInOrder tree first.1 second.1 state actions := by
  induction actions generalizing state with
  | nil => trivial
  | cons action rest ih =>
    have notFired : state.fires action ≠ some second.1 := by
      intro fired
      have none := (queued.first (of_fires tree fired).1).2.2 first
      rw [queued.expire_eq precedes.2.1] at none
      exact none precedes
    refine ⟨notFired, ?_⟩
    by_cases firstFired : state.fires action = some first.1
    · exact .inl firstFired
    by_cases firstRemoved : action = .remove first.1
    · exact .inr (.inl firstRemoved)
    by_cases secondRemoved : action = .remove second.1
    · exact .inr (.inr (.inl secondRemoved))
    · exact .inr (.inr (.inr (ih (queued.step met.1)
        (step_precedes precedes ⟨firstFired, notFired⟩ ⟨firstRemoved, secondRemoved⟩) met.2)))

omit [DecidableEq Watchdog] in
theorem initial_queued (expire : Watchdog → Nat) : (initial expire).Queued :=
  ⟨⟨[], .nil, .nil⟩, WatchdogHeader.headerInitialize_represents expire, fun _ => rfl⟩

end Runs

end TickledHeader

/-- In every run from the empty header the pointer names a watchdog of minimum
expiration; a watchdog that is inserted is fired once, by the first tickle whose
time is at least its expiration, unless it is removed before; and watchdogs that
are scheduled together are fired by expiration and then by insertion. -/
theorem watchdogRun_fires (tree : Rebalancing Watchdog) (expire : Watchdog → Nat)
    (actions : List (WatchdogAction Watchdog))
    (met : Meets (TickledHeader.step tree) TickledHeader.Permitted (.initial expire) actions) :
    Throughout (TickledHeader.step tree) TickledHeader.FirstLeast (.initial expire) actions ∧
      (∀ before watchdog expiration after,
        actions = before ++ .insert watchdog expiration :: after →
          TickledHeader.FiresOnTime tree watchdog expiration
            (run (TickledHeader.step tree) (.initial expire)
              (before ++ [.insert watchdog expiration])) after) ∧
      ∀ before after first second, actions = before ++ after →
        Queue.Precedes
            (run (TickledHeader.step tree) (.initial expire) before).scheduled first second →
          TickledHeader.FiresInOrder tree first.1 second.1
            (run (TickledHeader.step tree) (.initial expire) before) after := by
  have queued : Throughout (TickledHeader.step tree) TickledHeader.Queued (.initial expire)
      actions :=
    throughout_of_preserved (TickledHeader.initial_queued expire)
      (fun _ _ queued permitted => queued.step permitted) met
  have reached : ∀ {before after : List (WatchdogAction Watchdog)}, actions = before ++ after →
      (run (TickledHeader.step tree) (.initial expire) before).Queued ∧
        Meets (TickledHeader.step tree) TickledHeader.Permitted
          (run (TickledHeader.step tree) (.initial expire) before) after := by
    rintro before after rfl
    obtain ⟨metBefore, metAfter⟩ := meets_append.mp met
    exact ⟨(throughout_of_preserved (TickledHeader.initial_queued expire)
      (fun _ _ queued permitted => queued.step permitted) metBefore).final, metAfter⟩
  refine ⟨queued.imp fun _ queued => queued.firstLeast, ?_, ?_⟩
  · intro before watchdog expiration after split
    have regrouped : actions = (before ++ [.insert watchdog expiration]) ++ after := by
      rw [split, List.append_assoc, List.singleton_append]
    obtain ⟨inserted, met⟩ := reached regrouped
    refine inserted.firesOnTime ?_ met
    rw [run_append]
    exact List.mem_append_right _ (List.mem_singleton_self _)
  · intro before after first second split precedes
    obtain ⟨queued, met⟩ := reached split
    exact queued.firesInOrder precedes met

/-- Two watchdogs are inserted, the later one first; the earlier one is fired by
a tickle whose routine inserts it again. -/
def twoWatchdogs : List (WatchdogAction (Fin 2)) :=
  [.insert 0 7, .insert 1 5, .tickle 5, .insert 1 6, .turn, .tickle 8, .turn, .turn]

theorem twoWatchdogs_fires :
    Throughout (TickledHeader.step (RBTree.rebalancing (Fin 2))) TickledHeader.FirstLeast
        (.initial fun _ => 0) twoWatchdogs ∧
      TickledHeader.FiresOnTime (RBTree.rebalancing (Fin 2)) 0 7
        (run (TickledHeader.step (RBTree.rebalancing (Fin 2))) (.initial fun _ => 0) [.insert 0 7])
        [.insert 1 5, .tickle 5, .insert 1 6, .turn, .tickle 8, .turn, .turn] := by
  have met : Meets (TickledHeader.step (RBTree.rebalancing (Fin 2))) TickledHeader.Permitted
      (.initial fun _ => 0) twoWatchdogs := by
    decide +kernel
  have all := watchdogRun_fires (RBTree.rebalancing (Fin 2)) (fun _ => 0) twoWatchdogs met
  exact ⟨all.1, all.2.1 [] 0 7 _ rfl⟩

end RTContainer.Score
