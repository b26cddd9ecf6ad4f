import RTContainer.Score.SchedulerEdf

/-! The constant bandwidth server scheduler: the budget and the deadline of a thread that is attached
to a server. -/

set_option autoImplicit false

namespace RTContainer.Score

/-- `Scheduler_CBS_Parameters`, as `_Scheduler_CBS_Create_server` accepts them. -/
structure CbsParameters where
  deadline : Nat
  budget : Nat
  deadline_pos : 0 < deadline
  budget_pos : 0 < budget
  deadline_lt : deadline < schedulerEdfPrioMsb
  budget_lt : budget < schedulerEdfPrioMsb

/-- A thread with its `Scheduler_CBS_Node`. `available` is `CPU_budget.available`, `active` are the
deadline nodes in the priority aggregation of the thread, and `realPriority` is the least other
priority in it. -/
structure CbsThread (Node : Type) where
  cbsServer : Option CbsParameters
  available : Nat
  isPreemptible : Bool
  isReady : Bool
  deadlineNode : Option Node
  realPriority : Nat
  active : List Node
  nodePriority : Node → Nat

namespace CbsThread

variable {Node : Type}

/-- `SCHEDULER_PRIORITY_PURIFY` of the priority of the scheduler node: the minimum of the
aggregation. -/
def priority (thread : CbsThread Node) : Nat :=
  (thread.active.map thread.nodePriority).foldr min thread.realPriority

def attachThread (thread : CbsThread Node) (server : CbsParameters) : CbsThread Node :=
  { thread with cbsServer := some server, isPreemptible := true }

variable [DecidableEq Node] (thread : CbsThread Node) (priorityNode : Node)

def edfReleaseJob (deadline : Nat) : CbsThread Node :=
  { thread with
    nodePriority :=
      Function.update thread.nodePriority priorityNode (schedulerMapDeadline deadline)
    active :=
      if priorityNode ∈ thread.active then thread.active else priorityNode :: thread.active }

def edfCancelJob : CbsThread Node :=
  if priorityNode ∈ thread.active then
    { thread with active := thread.active.erase priorityNode }
  else thread

def releaseJob (deadline : Nat) : CbsThread Node :=
  let available :=
    match thread.cbsServer with
    | some servInfo => servInfo.budget % 2 ^ 32
    | none => thread.available
  edfReleaseJob { thread with available := available, deadlineNode := some priorityNode }
    priorityNode deadline

def cancelJob : CbsThread Node :=
  match thread.deadlineNode with
  | some _ => edfCancelJob { thread with deadlineNode := none } priorityNode
  | none => thread

def cancelDeadline : CbsThread Node :=
  match thread.deadlineNode with
  | some priorityNode => thread.cancelJob priorityNode
  | none => thread

def budgetAtTick : CbsThread Node :=
  if !thread.isPreemptible then thread
  else if !thread.isReady then thread
  else if thread.available = 1 then cancelDeadline { thread with available := 0 }
  else { thread with available := (thread.available + 2 ^ 32 - 1) % 2 ^ 32 }

/-- The comparison of `_Scheduler_CBS_Unblock`, in its 64-bit arithmetic. -/
def isLate (servInfo : CbsParameters) (available priority ticksSinceBoot : Nat) : Prop :=
  let deadlineLeft := available
  let budgetLeft := (priority + 2 ^ 64 - ticksSinceBoot) % 2 ^ 64
  servInfo.budget * deadlineLeft % 2 ^ 64 < servInfo.deadline * budgetLeft % 2 ^ 64

instance (servInfo : CbsParameters) (available priority ticksSinceBoot : Nat) :
    Decidable (isLate servInfo available priority ticksSinceBoot) :=
  inferInstanceAs (Decidable (_ < _))

/-- `_Scheduler_CBS_Unblock`; the thread becomes ready with `_Scheduler_EDF_Unblock`. -/
def unblock (ticksSinceBoot : Nat) : CbsThread Node :=
  let judged :=
    match thread.cbsServer with
    | some servInfo =>
      if thread.priority &&& schedulerEdfPrioMsb = 0 ∧
          isLate servInfo thread.available thread.priority ticksSinceBoot then
        thread.cancelDeadline
      else thread
    | none => thread
  { judged with isReady := true }

def block : CbsThread Node := { thread with isReady := false }

end CbsThread

/-- What the scheduler is called with for a thread. -/
inductive CbsCall (Node : Type) where
  | releaseJob (priorityNode : Node) (deadline : Nat)
  | cancelJob (priorityNode : Node)
  | tick
  | unblock (ticksSinceBoot : Nat)
  | block
  deriving DecidableEq

def CbsCall.perform {Node : Type} [DecidableEq Node] (thread : CbsThread Node) :
    CbsCall Node → CbsThread Node
  | .releaseJob priorityNode deadline => thread.releaseJob priorityNode deadline
  | .cancelJob priorityNode => thread.cancelJob priorityNode
  | .tick => thread.budgetAtTick
  | .unblock ticksSinceBoot => thread.unblock ticksSinceBoot
  | .block => thread.block

end RTContainer.Score

/-! The late unblock rule and the budget of a constant bandwidth server. -/

namespace RTContainer.Score

open Machine

namespace CbsThread

variable {Node : Type} [DecidableEq Node] {thread : CbsThread Node} {server : CbsParameters}

/-- The remaining budget is too much for the time to the deadline. -/
def LateRule (server : CbsParameters) (available deadline now : Nat) : Prop :=
  server.budget * (deadline - now) < available * server.deadline

/-- The job is due in the future, its scaled deadline is below the bit of the background, and
the products of the comparison fit into their types. -/
structure WithoutOverflow (server : CbsParameters) (available deadline now : Nat) : Prop where
  future : now < deadline
  scaled : deadline * 2 < schedulerEdfPrioMsb
  budget : server.budget * available < 2 ^ 63
  distance : server.deadline * (deadline * 2 - now % 2 ^ 32) < 2 ^ 64

/-- The largest remaining budget that is in time by the rule. -/
def mostInTime (server : CbsParameters) (deadline now : Nat) : Nat :=
  server.budget * (deadline - now) / server.deadline

/-- The least remaining budget that makes up for twice the deadline: the budget stands in the
place of the ticks, and the ticks of the scaled deadline in that of the budget. -/
def leastSpared (server : CbsParameters) (deadline now : Nat) : Nat :=
  (server.deadline * (deadline * 2 - now % 2 ^ 32) - 1) / server.budget + 1

/-- The remaining budget is between the two bounds, or outside of both. -/
def JudgedByRule (server : CbsParameters) (available deadline now : Nat) : Prop :=
  mostInTime server deadline now < available ∧ available < leastSpared server deadline now ∨
    leastSpared server deadline now ≤ available ∧ available ≤ mostInTime server deadline now

instance (server : CbsParameters) (available deadline now : Nat) :
    Decidable (JudgedByRule server available deadline now) :=
  inferInstanceAs (Decidable (_ ∨ _))

theorem lateRule_iff {available deadline now : Nat} :
    LateRule server available deadline now ↔ mostInTime server deadline now < available :=
  (Nat.div_lt_iff_lt_mul server.deadline_pos).symm

theorem isLate_iff {available deadline now : Nat}
    (fits : WithoutOverflow server available deadline now) :
    isLate server available (deadline * 2) (now % 2 ^ 32) ↔
      available < leastSpared server deadline now := by
  have ticks : now % 2 ^ 32 ≤ now := Nat.mod_le _ _
  have future := fits.future
  have scaled := fits.scaled
  unfold schedulerEdfPrioMsb at scaled
  have left : (deadline * 2 + 2 ^ 64 - now % 2 ^ 32) % 2 ^ 64 =
      deadline * 2 - now % 2 ^ 32 := by omega
  have product : server.budget * available < 2 ^ 64 :=
    Nat.lt_trans fits.budget (by decide)
  have positive : 0 < server.deadline * (deadline * 2 - now % 2 ^ 32) :=
    Nat.mul_pos server.deadline_pos (by omega)
  unfold isLate leastSpared
  dsimp only
  rw [left, Nat.mod_eq_of_lt product, Nat.mod_eq_of_lt fits.distance, Nat.lt_succ_iff,
    Nat.le_div_iff_mul_le server.budget_pos, Nat.mul_comm available]
  omega

/-- A server that has no more than the whole processor never spares what is in time. -/
theorem mostInTime_lt_leastSpared {deadline now : Nat} (future : now < deadline)
    (share : server.budget ≤ server.deadline) :
    mostInTime server deadline now < leastSpared server deadline now := by
  have ticks : now % 2 ^ 32 ≤ now := Nat.mod_le _ _
  have most : mostInTime server deadline now ≤ deadline - now :=
    Nat.div_le_of_le_mul (Nat.mul_le_mul_right _ share)
  refine Nat.lt_succ_of_le (most.trans ((Nat.le_div_iff_mul_le server.budget_pos).mpr ?_))
  have smaller : (deadline - now) * server.budget < server.deadline *
      (deadline * 2 - now % 2 ^ 32) := by
    rw [Nat.mul_comm]
    exact Nat.mul_lt_mul_of_le_of_lt share (by omega) server.deadline_pos
  omega

theorem cancelDeadline_eq {node : Node} (job : thread.deadlineNode = some node)
    (isActive : node ∈ thread.active) :
    thread.cancelDeadline =
      { thread with deadlineNode := none, active := thread.active.erase node } := by
  unfold cancelDeadline cancelJob edfCancelJob
  rw [job]
  exact if_pos isActive

theorem and_msb_eq_zero_iff {priority : Nat} (fits : priority < 2 ^ 64) :
    priority &&& schedulerEdfPrioMsb = 0 ↔ priority < schedulerEdfPrioMsb := by
  have bit : priority.testBit 63 = decide (priority / 2 ^ 63 % 2 = 1) :=
    Nat.testBit_eq_decide_div_mod_eq
  unfold schedulerEdfPrioMsb
  rw [Nat.and_two_pow, bit]
  by_cases upper : priority / 2 ^ 63 % 2 = 1
  · rw [decide_eq_true upper]
    refine iff_of_false (by decide) ?_
    omega
  · rw [decide_eq_false upper]
    refine iff_of_true rfl ?_
    omega

/-- A thread with a job is put to the background, or not, as the rule says exactly if the
remaining budget is between the bounds of the rule and of the comparison, or outside of both. -/
theorem unblock_judges_iff {node : Node} {deadline now : Nat}
    (attached : thread.cbsServer = some server) (job : thread.deadlineNode = some node)
    (isActive : node ∈ thread.active) (once : thread.active.Nodup)
    (isPriority : thread.priority = schedulerMapDeadline deadline)
    (fits : WithoutOverflow server thread.available deadline now) :
    (node ∉ (thread.unblock (now % 2 ^ 32)).active ↔
        LateRule server thread.available deadline now) ↔
      JudgedByRule server thread.available deadline now := by
  have scaled : schedulerMapDeadline deadline = deadline * 2 :=
    Nat.mod_eq_of_lt (Nat.lt_trans fits.scaled (by decide))
  have late : node ∉ (thread.unblock (now % 2 ^ 32)).active ↔
      thread.available < leastSpared server deadline now := by
    have plain : deadline * 2 &&& schedulerEdfPrioMsb = 0 :=
      (and_msb_eq_zero_iff (Nat.lt_trans fits.scaled (by decide))).mpr fits.scaled
    rw [← isLate_iff fits]
    unfold unblock
    rw [attached, isPriority, scaled]
    dsimp only
    split
    next judged =>
      rw [cancelDeadline_eq job isActive]
      exact iff_of_true once.not_mem_erase judged.2
    next spared =>
      exact iff_of_false (fun background => background isActive) fun isLate =>
        spared ⟨plain, isLate⟩
  rw [late, lateRule_iff, JudgedByRule]
  omega

/-- The server of the examples serves ten of every hundred ticks. -/
def serverOfHundred (budget : Nat) (pos : 0 < budget) (fits : budget < schedulerEdfPrioMsb) :
    CbsParameters where
  deadline := 100
  budget := budget
  deadline_pos := by decide
  budget_pos := pos
  deadline_lt := by decide
  budget_lt := fits

/-- A thread whose job is due at tick 100. -/
def dueAtHundred (server : CbsParameters) (available : Nat) : CbsThread Unit where
  cbsServer := some server
  available := available
  isPreemptible := true
  isReady := false
  deadlineNode := some ()
  realPriority := 2 ^ 63
  active := [()]
  nodePriority := fun _ => schedulerMapDeadline 100

/-- At tick 95 the five ticks to the deadline are too few for a budget of ten. -/
theorem unblock_judges_late :
    JudgedByRule (serverOfHundred 10 (by decide) (by decide)) 10 100 95 ∧
      (() ∉ ((dueAtHundred (serverOfHundred 10 (by decide) (by decide)) 10).unblock
            (95 % 2 ^ 32)).active ↔
        LateRule (serverOfHundred 10 (by decide) (by decide)) 10 100 95) :=
  ⟨by decide, (unblock_judges_iff rfl rfl (List.mem_singleton_self ()) (by decide) rfl
    ⟨by decide, by decide, by decide, by decide⟩).mpr (by decide)⟩

/-- At tick 0 the whole period is left for the whole budget, and the job goes to the background. -/
theorem unblock_judges_wrong :
    () ∉ ((dueAtHundred (serverOfHundred 10 (by decide) (by decide)) 10).unblock
        (0 % 2 ^ 32)).active ∧
      ¬ LateRule (serverOfHundred 10 (by decide) (by decide)) 10 100 0 := by
  unfold LateRule
  decide

/-- The budget is not more than that of the server, and there is one while the thread has an active
deadline. -/
structure WithinBudget (server : CbsParameters) (thread : CbsThread Node) : Prop where
  bounded : thread.available ≤ server.budget
  covered : thread.active ≠ [] → 0 < thread.available

/-- A tick of the executing thread takes one from the budget as long as there is one. -/
def CountsTick (thread : CbsThread Node) (call : CbsCall Node) : Prop :=
  call = .tick → thread.isPreemptible → thread.isReady →
    (call.perform thread).available = thread.available - 1

/-- No tick finds the budget empty, or the last one a second job, and a release fills the budget. -/
def SparesBudget (server : CbsParameters) (thread : CbsThread Node) : CbsCall Node → Prop
  | .tick => thread.isPreemptible → thread.isReady → 0 < thread.available ∧
      (thread.available = 1 → ∀ node ∈ thread.active, thread.deadlineNode = some node)
  | .releaseJob _ _ => server.budget % 2 ^ 32 ≠ 0
  | _ => True

structure Attached (server : CbsParameters) (thread : CbsThread Node) : Prop where
  attached : thread.cbsServer = some server
  fits : thread.available < 2 ^ 32
  once : thread.active.Nodup

variable {after : CbsThread Node}

omit [DecidableEq Node] in
theorem Attached.update (kept : thread.Attached server) (same : after.cbsServer = thread.cbsServer)
    (fits : after.available < 2 ^ 32) (once : after.active.Nodup) : after.Attached server :=
  ⟨same.trans kept.attached, fits, once⟩

structure Cancels (thread after : CbsThread Node) : Prop where
  cbsServer : after.cbsServer = thread.cbsServer
  available : after.available = thread.available
  active : after.active.Sublist thread.active

omit [DecidableEq Node] in
theorem Cancels.refl (thread : CbsThread Node) : thread.Cancels thread := ⟨rfl, rfl, .refl _⟩

theorem cancelJob_cancels (thread : CbsThread Node) (node : Node) :
    thread.Cancels (thread.cancelJob node) := by
  unfold cancelJob edfCancelJob
  split
  · split
    · exact ⟨rfl, rfl, List.erase_sublist⟩
    · exact ⟨rfl, rfl, .refl _⟩
  · exact .refl thread

theorem cancelDeadline_cancels (thread : CbsThread Node) :
    thread.Cancels thread.cancelDeadline := by
  unfold cancelDeadline
  split
  · exact cancelJob_cancels ..
  · exact .refl thread

theorem unblock_cancels (thread : CbsThread Node) (ticksSinceBoot : Nat) :
    thread.Cancels (thread.unblock ticksSinceBoot) := by
  have judged : ∀ after : CbsThread Node, thread.Cancels after →
      thread.Cancels { after with isReady := true } :=
    fun after cancels => ⟨cancels.cbsServer, cancels.available, cancels.active⟩
  unfold unblock
  refine judged _ ?_
  split
  · split
    · exact cancelDeadline_cancels thread
    · exact .refl thread
  · exact .refl thread

omit [DecidableEq Node] in
theorem Cancels.attached (cancels : thread.Cancels after) (kept : thread.Attached server) :
    after.Attached server :=
  kept.update cancels.cbsServer (cancels.available ▸ kept.fits) (kept.once.sublist cancels.active)

omit [DecidableEq Node] in
theorem Cancels.withinBudget (cancels : thread.Cancels after)
    (within : WithinBudget server thread) : WithinBudget server after where
  bounded := cancels.available ▸ within.bounded
  covered some := by
    rw [cancels.available]
    refine within.covered fun none => some ?_
    exact List.sublist_nil.mp (none ▸ cancels.active)

theorem cancelDeadline_active_eq_nil_iff (once : thread.active.Nodup) :
    thread.cancelDeadline.active = [] ↔
      ∀ node ∈ thread.active, thread.deadlineNode = some node := by
  unfold cancelDeadline
  cases job : thread.deadlineNode with
  | none =>
    dsimp only
    rw [List.eq_nil_iff_forall_not_mem]
    exact forall₂_congr fun _ _ => iff_of_false id nofun
  | some deadline =>
    have erased : (thread.cancelJob deadline).active = thread.active.erase deadline := by
      unfold cancelJob edfCancelJob
      rw [job]
      dsimp only
      split
      next => rfl
      next outside => exact (List.erase_of_not_mem outside).symm
    dsimp only
    rw [erased, List.eq_nil_iff_forall_not_mem]
    constructor
    · intro none node inside
      by_contra other
      have apart : node ≠ deadline := fun same => other (same ▸ rfl)
      exact none node ((List.mem_erase_of_ne apart).mpr inside)
    · intro only node inside
      have before := List.mem_of_mem_erase inside
      cases only node before
      exact once.not_mem_erase inside

theorem releaseJob_active_ne_nil (node : Node) (deadline : Nat) :
    (thread.releaseJob node deadline).active ≠ [] := by
  unfold releaseJob edfReleaseJob
  dsimp only
  split
  next released => exact List.ne_nil_of_mem released
  next => exact List.cons_ne_nil _ _

theorem releaseJob_available (kept : thread.Attached server) (node : Node) (deadline : Nat) :
    (thread.releaseJob node deadline).available = server.budget % 2 ^ 32 := by
  unfold releaseJob edfReleaseJob
  rw [kept.attached]

theorem releaseJob_attached (kept : thread.Attached server) (node : Node) (deadline : Nat) :
    (thread.releaseJob node deadline).Attached server := by
  refine kept.update rfl ?_ ?_
  · rw [releaseJob_available kept]
    exact Nat.mod_lt _ (Nat.two_pow_pos 32)
  · unfold releaseJob edfReleaseJob
    dsimp only
    split
    next => exact kept.once
    next fresh => exact List.nodup_cons.mpr ⟨fresh, kept.once⟩

theorem releaseJob_withinBudget_iff (kept : thread.Attached server) (node : Node)
    (deadline : Nat) :
    WithinBudget server (thread.releaseJob node deadline) ↔ server.budget % 2 ^ 32 ≠ 0 := by
  have filled := releaseJob_available kept node deadline
  constructor
  · intro within
    have covered := within.covered (releaseJob_active_ne_nil node deadline)
    rw [filled] at covered
    exact Nat.ne_of_gt covered
  · intro positive
    refine ⟨?_, fun _ => ?_⟩
    · rw [filled]
      exact Nat.mod_le _ _
    · rw [filled]
      exact Nat.pos_of_ne_zero positive

theorem budgetAtTick_idle (idle : ¬ (thread.isPreemptible ∧ thread.isReady)) :
    thread.budgetAtTick = thread := by
  unfold budgetAtTick
  split
  next => rfl
  next preemptible =>
    split
    next => rfl
    next ready => exact absurd ⟨by simpa using preemptible, by simpa using ready⟩ idle

theorem budgetAtTick_last (preemptible : thread.isPreemptible) (ready : thread.isReady)
    (last : thread.available = 1) :
    thread.budgetAtTick = cancelDeadline { thread with available := 0 } := by
  unfold budgetAtTick
  rw [preemptible, ready, last]
  rfl

theorem budgetAtTick_charged (preemptible : thread.isPreemptible) (ready : thread.isReady)
    (more : thread.available ≠ 1) :
    thread.budgetAtTick = { thread with available := (thread.available + 2 ^ 32 - 1) % 2 ^ 32 } := by
  unfold budgetAtTick
  rw [preemptible, ready]
  exact if_neg more

theorem budgetAtTick_attached (kept : thread.Attached server) :
    thread.budgetAtTick.Attached server := by
  by_cases charged : thread.isPreemptible ∧ thread.isReady
  · by_cases last : thread.available = 1
    · rw [budgetAtTick_last charged.1 charged.2 last]
      exact (cancelDeadline_cancels _).attached (kept.update rfl (Nat.two_pow_pos 32) kept.once)
    · rw [budgetAtTick_charged charged.1 charged.2 last]
      exact kept.update rfl (Nat.mod_lt _ (Nat.two_pow_pos 32)) kept.once
  · rw [budgetAtTick_idle charged]
    exact kept

theorem budgetAtTick_last_iff (kept : thread.Attached server) (preemptible : thread.isPreemptible)
    (ready : thread.isReady) (last : thread.available = 1) :
    WithinBudget server thread.budgetAtTick ∧
        thread.budgetAtTick.available = thread.available - 1 ↔
      ∀ node ∈ thread.active, thread.deadlineNode = some node := by
  have cancels := cancelDeadline_cancels { thread with available := 0 }
  have emptied : (cancelDeadline { thread with available := 0 }).active = [] ↔
      ∀ node ∈ thread.active, thread.deadlineNode = some node :=
    cancelDeadline_active_eq_nil_iff kept.once
  rw [budgetAtTick_last preemptible ready last, last]
  refine Iff.trans ⟨fun given => ?_, fun none => ⟨⟨?_, ?_⟩, cancels.available⟩⟩ emptied
  · by_contra some
    have covered := given.1.covered some
    rw [cancels.available] at covered
    exact absurd covered (Nat.lt_irrefl 0)
  · rw [cancels.available]
    exact Nat.zero_le _
  · exact fun some => absurd none some

theorem budgetAtTick_charged_iff (kept : thread.Attached server)
    (within : WithinBudget server thread) (preemptible : thread.isPreemptible)
    (ready : thread.isReady) (more : thread.available ≠ 1) :
    WithinBudget server thread.budgetAtTick ∧
        thread.budgetAtTick.available = thread.available - 1 ↔
      0 < thread.available := by
  have fits := kept.fits
  have bounded := within.bounded
  rw [budgetAtTick_charged preemptible ready more]
  dsimp only
  constructor
  · rintro ⟨-, counted⟩
    omega
  · intro positive
    have counted : (thread.available + 2 ^ 32 - 1) % 2 ^ 32 = thread.available - 1 := by omega
    refine ⟨⟨?_, fun _ => ?_⟩, counted⟩
    · dsimp only
      omega
    · dsimp only
      omega

theorem Attached.perform (kept : thread.Attached server) (call : CbsCall Node) :
    (call.perform thread).Attached server := by
  cases call with
  | releaseJob node deadline => exact releaseJob_attached kept node deadline
  | cancelJob node => exact (cancelJob_cancels thread node).attached kept
  | tick => exact budgetAtTick_attached kept
  | unblock ticksSinceBoot => exact (unblock_cancels thread ticksSinceBoot).attached kept
  | block => exact kept.update rfl kept.fits kept.once

theorem countsTick_of_ne {call : CbsCall Node} (other : call ≠ .tick) : CountsTick thread call :=
  fun isTick => absurd isTick other

theorem perform_keepsBudget_iff (kept : thread.Attached server)
    (within : WithinBudget server thread) (call : CbsCall Node) :
    WithinBudget server (call.perform thread) ∧ CountsTick thread call ↔
      SparesBudget server thread call := by
  cases call with
  | releaseJob node deadline =>
    have uncounted : CountsTick thread (.releaseJob node deadline) := countsTick_of_ne nofun
    rw [and_iff_left uncounted]
    exact releaseJob_withinBudget_iff kept node deadline
  | cancelJob node =>
    exact iff_of_true
      ⟨(cancelJob_cancels thread node).withinBudget within, countsTick_of_ne nofun⟩ trivial
  | unblock ticksSinceBoot =>
    exact iff_of_true
      ⟨(unblock_cancels thread ticksSinceBoot).withinBudget within, countsTick_of_ne nofun⟩
      trivial
  | block =>
    exact iff_of_true ⟨⟨within.bounded, within.covered⟩, countsTick_of_ne nofun⟩ trivial
  | tick =>
    by_cases charged : thread.isPreemptible ∧ thread.isReady
    · obtain ⟨preemptible, ready⟩ := charged
      have counts : CountsTick thread .tick ↔
          thread.budgetAtTick.available = thread.available - 1 :=
        ⟨fun counted => counted rfl preemptible ready, fun counted _ _ _ => counted⟩
      have spares : SparesBudget server thread .tick ↔ 0 < thread.available ∧
          (thread.available = 1 → ∀ node ∈ thread.active, thread.deadlineNode = some node) :=
        ⟨fun spared => spared preemptible ready, fun spared _ _ => spared⟩
      rw [counts, spares]
      by_cases last : thread.available = 1
      · refine (budgetAtTick_last_iff kept preemptible ready last).trans ?_
        exact ⟨fun only => ⟨last ▸ Nat.one_pos, fun _ => only⟩, fun spared => spared.2 last⟩
      · refine (budgetAtTick_charged_iff kept within preemptible ready last).trans ?_
        exact (and_iff_left fun one => absurd one last).symm
    · have same : CbsCall.tick.perform thread = thread := budgetAtTick_idle charged
      rw [same]
      exact iff_of_true
        ⟨within, fun _ preemptible ready => absurd ⟨preemptible, ready⟩ charged⟩
        fun preemptible ready => absurd ⟨preemptible, ready⟩ charged

/-- The runs of a thread that is attached to a server before it has a job keep the budget exactly if
it has no more than that of the server at first, and every call spares it. -/
theorem budgetRun_iff {start : CbsThread Node} (fits : start.available < 2 ^ 32)
    (idle : start.active = []) (calls : List (CbsCall Node)) :
    Throughout (fun thread call => CbsCall.perform thread call) (WithinBudget server)
          (start.attachThread server) calls ∧
        Meets (fun thread call => CbsCall.perform thread call) CountsTick
          (start.attachThread server) calls ↔
      start.available ≤ server.budget ∧
        Meets (fun thread call => CbsCall.perform thread call) (SparesBudget server)
          (start.attachThread server) calls := by
  have attached : (start.attachThread server).Attached server :=
    ⟨rfl, fits, idle ▸ List.nodup_nil⟩
  have within : WithinBudget server (start.attachThread server) ↔ start.available ≤ server.budget :=
    ⟨WithinBudget.bounded, fun bounded => ⟨bounded, fun some => absurd idle some⟩⟩
  have free : Meets (fun thread call => CbsCall.perform thread call) (fun _ _ => True)
      (start.attachThread server) calls := meets_of_forall (fun _ _ => trivial) _ _
  rw [← within]
  refine throughout_and_meets_iff (Attached server) attached free ?_ ?_
  · exact fun thread call kept _ => kept.perform call
  · exact fun thread call kept _ within => perform_keepsBudget_iff kept within call

/-- A thread before it is attached. -/
def unattached : CbsThread Unit where
  cbsServer := none
  available := 0
  isPreemptible := true
  isReady := true
  deadlineNode := none
  realPriority := 2 ^ 63
  active := []
  nodePriority := fun _ => 0

/-- A job that is cancelled before its budget is used up. -/
theorem budgetRun_cancelled :
    Throughout (fun thread call => CbsCall.perform thread call)
          (WithinBudget (serverOfHundred 10 (by decide) (by decide)))
          (unattached.attachThread (serverOfHundred 10 (by decide) (by decide)))
          [.releaseJob () 100, .tick, .cancelJob (), .tick] ∧
        Meets (fun thread call => CbsCall.perform thread call) CountsTick
          (unattached.attachThread (serverOfHundred 10 (by decide) (by decide)))
          [.releaseJob () 100, .tick, .cancelJob (), .tick] := by
  refine (budgetRun_iff (by decide) rfl _).mpr ⟨by decide, ?_⟩
  refine ⟨?_, fun _ _ => ?_, trivial, fun _ _ => ?_, trivial⟩
  · exact (by decide : 10 % 2 ^ 32 ≠ 0)
  · decide
  · decide

/-- The budget of one tick is used up by the first tick, and the second finds none. -/
theorem budgetRun_underflow :
    (run (fun thread call => CbsCall.perform thread call)
        (unattached.attachThread (serverOfHundred 1 (by decide) (by decide)))
        [.releaseJob () 100, .tick, .tick]).available = 2 ^ 32 - 1 ∧
      ¬ WithinBudget (serverOfHundred 1 (by decide) (by decide))
        (run (fun thread call => CbsCall.perform thread call)
          (unattached.attachThread (serverOfHundred 1 (by decide) (by decide)))
          [.releaseJob () 100, .tick, .tick]) := by
  have available : (run (fun thread call => CbsCall.perform thread call)
      (unattached.attachThread (serverOfHundred 1 (by decide) (by decide)))
      [.releaseJob () 100, .tick, .tick]).available = 2 ^ 32 - 1 := by decide
  refine ⟨available, fun within => ?_⟩
  have bounded := within.bounded
  rw [available] at bounded
  exact absurd bounded (by decide)

end CbsThread

end RTContainer.Score
