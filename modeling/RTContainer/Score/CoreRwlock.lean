import Mathlib.Data.List.TakeWhile
import RTContainer.Lib.Run

/-! The read-write locks of `corerwlockimpl.h`. The FIFO thread queue of a lock is the list of its
threads, from first to last; the threads that hold the lock are recorded beside it, one entry for
each time that a thread holds it. -/

set_option autoImplicit false

namespace RTContainer.Score

open Function

/-- `CORE_RWLock_States`. -/
inductive CoreRwlockState where
  | unlocked
  | lockedForReading
  | lockedForWriting
  deriving DecidableEq

/-- `Wait.option` of a thread that waits for a lock. -/
inductive CoreRwlockWaiting where
  | waitingForRead
  | waitingForWrite
  deriving DecidableEq

/-- What a caller that seizes a lock gets. -/
inductive CoreRwlockOutcome where
  | successful
  | unavailable
  | waits
  deriving DecidableEq

structure CoreRwlock (Thread : Type) where
  queue : List Thread
  currentState : CoreRwlockState
  numberOfReaders : Nat

namespace CoreRwlock

variable {Thread : Type}

def initialized : CoreRwlock Thread where
  queue := []
  currentState := .unlocked
  numberOfReaders := 0

variable (rwlock : CoreRwlock Thread)

/-- `_CORE_RWLock_Seize_for_reading`; the caller is enqueued when it waits. -/
def seizeForReading (executing : Thread) (wait : Bool) : CoreRwlock Thread × CoreRwlockOutcome :=
  let seized : CoreRwlock Thread :=
    { rwlock with
      currentState := .lockedForReading
      numberOfReaders := (rwlock.numberOfReaders + 1) % 2 ^ 32 }
  let blocked : CoreRwlock Thread × CoreRwlockOutcome :=
    if !wait then (rwlock, .unavailable)
    else ({ rwlock with queue := rwlock.queue ++ [executing] }, .waits)
  match rwlock.currentState with
  | .unlocked => (seized, .successful)
  | .lockedForReading => if rwlock.queue = [] then (seized, .successful) else blocked
  | .lockedForWriting => blocked

def seizeForWriting (executing : Thread) (wait : Bool) : CoreRwlock Thread × CoreRwlockOutcome :=
  match rwlock.currentState with
  | .unlocked => ({ rwlock with currentState := .lockedForWriting }, .successful)
  | .lockedForReading | .lockedForWriting =>
    if !wait then (rwlock, .unavailable)
    else ({ rwlock with queue := rwlock.queue ++ [executing] }, .waits)

/-- `_CORE_RWLock_Flush_filter`; `none` when the first thread of the queue stays. -/
def flushFilter (option : CoreRwlockWaiting) : Option (CoreRwlock Thread) :=
  match rwlock.currentState, option with
  | .lockedForReading, .waitingForRead =>
    some { rwlock with numberOfReaders := (rwlock.numberOfReaders + 1) % 2 ^ 32 }
  | .lockedForReading, .waitingForWrite => none
  | .lockedForWriting, _ => none
  | .unlocked, .waitingForRead =>
    some { rwlock with currentState := .lockedForReading, numberOfReaders := 1 }
  | .unlocked, .waitingForWrite => some { rwlock with currentState := .lockedForWriting }

def flushQueue (option : Thread → CoreRwlockWaiting) :
    List Thread → CoreRwlock Thread → CoreRwlock Thread × List Thread
  | [], rwlock => ({ rwlock with queue := [] }, [])
  | first :: rest, rwlock =>
    match rwlock.flushFilter (option first) with
    | none => ({ rwlock with queue := first :: rest }, [])
    | some admitted =>
      let (flushed, unblock) := flushQueue option rest admitted
      (flushed, first :: unblock)

def flushCritical (option : Thread → CoreRwlockWaiting) : CoreRwlock Thread × List Thread :=
  flushQueue option rwlock.queue rwlock

def surrender (option : Thread → CoreRwlockWaiting) : CoreRwlock Thread × List Thread :=
  match rwlock.currentState with
  | .unlocked => (rwlock, [])
  | .lockedForReading =>
    let left : CoreRwlock Thread :=
      { rwlock with numberOfReaders := (rwlock.numberOfReaders + 2 ^ 32 - 1) % 2 ^ 32 }
    if left.numberOfReaders ≠ 0 then (left, [])
    else flushCritical { left with currentState := .unlocked } option
  | .lockedForWriting => flushCritical { rwlock with currentState := .unlocked } option

end CoreRwlock

/-- A lock with the wait options of the threads, and the threads that read and write. -/
structure CoreRwlockUsers (Thread : Type) where
  rwlock : CoreRwlock Thread
  option : Thread → CoreRwlockWaiting
  readers : List Thread
  writers : List Thread

/-- What threads do with a lock; a thread that waits for it may time out. -/
inductive CoreRwlockCall (Thread : Type) where
  | seizeForReading (executing : Thread) (wait : Bool)
  | seizeForWriting (executing : Thread) (wait : Bool)
  | surrender (executing : Thread)
  | timeout (thread : Thread)
  deriving DecidableEq

namespace CoreRwlockUsers

variable {Thread : Type} [DecidableEq Thread]

def initial : CoreRwlockUsers Thread where
  rwlock := .initialized
  option := fun _ => .waitingForRead
  readers := []
  writers := []

def seizeForReading (users : CoreRwlockUsers Thread) (executing : Thread) (wait : Bool) :
    CoreRwlockUsers Thread :=
  let (rwlock, outcome) := users.rwlock.seizeForReading executing wait
  match outcome with
  | .successful => { users with rwlock := rwlock, readers := executing :: users.readers }
  | .unavailable => { users with rwlock := rwlock }
  | .waits =>
    { users with
      rwlock := rwlock
      option := update users.option executing .waitingForRead }

def seizeForWriting (users : CoreRwlockUsers Thread) (executing : Thread) (wait : Bool) :
    CoreRwlockUsers Thread :=
  let (rwlock, outcome) := users.rwlock.seizeForWriting executing wait
  match outcome with
  | .successful => { users with rwlock := rwlock, writers := executing :: users.writers }
  | .unavailable => { users with rwlock := rwlock }
  | .waits =>
    { users with
      rwlock := rwlock
      option := update users.option executing .waitingForWrite }

/-- The caller gives up the lock for once, and the threads that are unblocked hold it for what they
waited for. -/
def surrender (users : CoreRwlockUsers Thread) (executing : Thread) : CoreRwlockUsers Thread :=
  let (rwlock, unblock) := users.rwlock.surrender users.option
  { users with
    rwlock := rwlock
    readers := users.readers.erase executing ++
      unblock.filter fun thread => users.option thread = .waitingForRead
    writers := users.writers.erase executing ++
      unblock.filter fun thread => users.option thread = .waitingForWrite }

/-- The extraction of a waiting thread from the queue of the lock. -/
def timeout (users : CoreRwlockUsers Thread) (thread : Thread) : CoreRwlockUsers Thread :=
  { users with rwlock := { users.rwlock with queue := users.rwlock.queue.erase thread } }

end CoreRwlockUsers

variable {Thread : Type} [DecidableEq Thread]

def CoreRwlockCall.perform (users : CoreRwlockUsers Thread) :
    CoreRwlockCall Thread → CoreRwlockUsers Thread
  | .seizeForReading executing wait => users.seizeForReading executing wait
  | .seizeForWriting executing wait => users.seizeForWriting executing wait
  | .surrender executing => users.surrender executing
  | .timeout thread => users.timeout thread

def CoreRwlockCall.ByHolder (users : CoreRwlockUsers Thread) (call : CoreRwlockCall Thread) : Prop :=
  ∀ executing, call = .surrender executing → executing ∈ users.readers ∨ executing ∈ users.writers

end RTContainer.Score

/-! Which threads hold a read-write lock. -/

namespace RTContainer.Score

open Machine Function

variable {Thread : Type}

namespace CoreRwlock

variable {option : Thread → CoreRwlockWaiting}

def reads (option : Thread → CoreRwlockWaiting) (thread : Thread) : Bool :=
  option thread = .waitingForRead

def writes (option : Thread → CoreRwlockWaiting) (thread : Thread) : Bool :=
  option thread = .waitingForWrite

private theorem option_eq (thread : Thread) :
    option thread = .waitingForRead ∨ option thread = .waitingForWrite := by
  cases option thread with
  | waitingForRead => exact .inl rfl
  | waitingForWrite => exact .inr rfl

theorem flushQueue_writing {rwlock : CoreRwlock Thread} (queue : List Thread)
    (isWriting : rwlock.currentState = .lockedForWriting) :
    flushQueue option queue rwlock = ({ rwlock with queue := queue }, []) := by
  cases queue with
  | nil => rfl
  | cons first rest =>
    unfold flushQueue flushFilter
    rw [isWriting]

theorem flushQueue_reading {rwlock : CoreRwlock Thread} (queue : List Thread)
    (isReading : rwlock.currentState = .lockedForReading)
    (fits : rwlock.numberOfReaders < 2 ^ 32) :
    flushQueue option queue rwlock =
      ({ rwlock with
          queue := queue.dropWhile (reads option)
          numberOfReaders :=
            (rwlock.numberOfReaders + (queue.takeWhile (reads option)).length) % 2 ^ 32 },
        queue.takeWhile (reads option)) := by
  obtain ⟨before, state, readers⟩ := rwlock
  cases isReading
  dsimp only at fits ⊢
  induction queue generalizing readers with
  | nil =>
    have same : (readers + 0) % 2 ^ 32 = readers := Nat.mod_eq_of_lt fits
    simp only [flushQueue, List.dropWhile_nil, List.takeWhile_nil, List.length_nil, same]
  | cons first rest ih =>
    unfold flushQueue flushFilter
    rcases option_eq first with isRead | isWrite
    · have passes : reads option first = true := decide_eq_true isRead
      have joined := ih ((readers + 1) % 2 ^ 32) (Nat.mod_lt _ (Nat.two_pow_pos 32))
      have counts : ((readers + 1) % 2 ^ 32 + (rest.takeWhile (reads option)).length) % 2 ^ 32 =
          (readers + ((rest.takeWhile (reads option)).length + 1)) % 2 ^ 32 := by
        omega
      rw [isRead, List.takeWhile_cons_of_pos passes, List.dropWhile_cons_of_pos passes]
      dsimp only
      rw [joined, List.length_cons, counts]
    · have fails : ¬ reads option first = true := by
        unfold reads
        rw [isWrite]
        decide
      have same : (readers + 0) % 2 ^ 32 = readers := Nat.mod_eq_of_lt fits
      rw [isWrite, List.takeWhile_cons_of_neg fails, List.dropWhile_cons_of_neg fails]
      simp only [List.length_nil, same]

end CoreRwlock

open CoreRwlock

/-- There is at most one writer and never with a reader, the readers are counted, and no thread waits
for an unlocked lock. -/
structure RwlockSafe (users : CoreRwlockUsers Thread) : Prop where
  oneWriter : users.writers.length ≤ 1
  apart : users.writers ≠ [] → users.readers = []
  counted : users.rwlock.numberOfReaders = users.readers.length
  idle : users.rwlock.currentState = .unlocked → users.rwlock.queue = []

def HeldAs (users : CoreRwlockUsers Thread) : CoreRwlockState → Prop
  | .unlocked => users.readers = [] ∧ users.writers = [] ∧ users.rwlock.queue = []
  | .lockedForReading => users.readers ≠ [] ∧ users.writers = []
  | .lockedForWriting => users.readers = [] ∧ users.writers.length = 1

structure RwlockKept (users : CoreRwlockUsers Thread) : Prop where
  held : HeldAs users users.rwlock.currentState
  counted : users.rwlock.numberOfReaders = users.readers.length
  fits : users.readers.length < 2 ^ 32

variable {users : CoreRwlockUsers Thread}

theorem RwlockKept.safe (kept : RwlockKept users) : RwlockSafe users := by
  obtain ⟨held, counted, -⟩ := kept
  cases isState : users.rwlock.currentState with
  | unlocked =>
    rw [isState] at held
    obtain ⟨noReaders, noWriters, noQueue⟩ := held
    exact ⟨by rw [noWriters]; exact Nat.zero_le 1, fun _ => noReaders, counted, fun _ => noQueue⟩
  | lockedForReading =>
    rw [isState] at held
    obtain ⟨-, noWriters⟩ := held
    exact ⟨by rw [noWriters]; exact Nat.zero_le 1, fun writes => absurd noWriters writes, counted,
      fun isUnlocked => nomatch isState.symm.trans isUnlocked⟩
  | lockedForWriting =>
    rw [isState] at held
    obtain ⟨noReaders, oneWriter⟩ := held
    exact ⟨Nat.le_of_eq oneWriter, fun _ => noReaders, counted,
      fun isUnlocked => nomatch isState.symm.trans isUnlocked⟩

theorem RwlockKept.requeue (kept : RwlockKept users)
    (locked : users.rwlock.currentState ≠ .unlocked) (queue : List Thread)
    (option : Thread → CoreRwlockWaiting) :
    RwlockKept { users with rwlock := { users.rwlock with queue := queue }, option := option } := by
  obtain ⟨held, counted, fits⟩ := kept
  refine ⟨?_, counted, fits⟩
  cases isState : users.rwlock.currentState with
  | unlocked => exact absurd isState locked
  | lockedForReading | lockedForWriting =>
    rw [isState] at held
    exact held

variable {rwlock : CoreRwlock Thread} {executing : Thread}

theorem flushCritical_unlocked (option : Thread → CoreRwlockWaiting)
    (isUnlocked : rwlock.currentState = .unlocked) (none : rwlock.numberOfReaders = 0) :
    ∃ after unblock, rwlock.flushCritical option = (after, unblock) ∧
      after.numberOfReaders = (unblock.filter (reads option)).length % 2 ^ 32 ∧
        (unblock.filter (reads option)).length =
            (rwlock.queue.takeWhile (reads option)).length ∧
          HeldAs ⟨after, option, unblock.filter (reads option), unblock.filter (writes option)⟩
            after.currentState := by
  unfold flushCritical
  cases isQueue : rwlock.queue with
  | nil =>
    refine ⟨{ rwlock with queue := [] }, [], rfl, ?_, rfl, ?_⟩
    · show rwlock.numberOfReaders = 0
      exact none
    · show HeldAs _ rwlock.currentState
      rw [isUnlocked]
      exact ⟨rfl, rfl, rfl⟩
  | cons first rest =>
    unfold flushQueue flushFilter
    rw [isUnlocked]
    rcases @option_eq _ option first with isRead | isWrite
    · have passes : reads option first = true := decide_eq_true isRead
      have joins := @flushQueue_reading _ option { rwlock with
        currentState := .lockedForReading, numberOfReaders := 1 } rest rfl
          (show 1 < 2 ^ 32 by decide)
      have areReaders : (first :: rest.takeWhile (reads option)).filter (reads option) =
          first :: rest.takeWhile (reads option) := by
        refine List.filter_eq_self.mpr fun thread inside => ?_
        rcases List.mem_cons.mp inside with rfl | behind
        · exact passes
        · exact List.mem_takeWhile_imp behind
      have noWriters : (first :: rest.takeWhile (reads option)).filter (writes option) = [] := by
        refine List.filter_eq_nil_iff.mpr fun thread inside => ?_
        rw [← areReaders] at inside
        have isReader := of_decide_eq_true (List.mem_filter.mp inside).2
        unfold writes
        rw [isReader]
        decide
      rw [isRead]
      dsimp only
      rw [joins]
      refine ⟨_, _, rfl, ?_, ?_, ?_⟩
      · rw [areReaders, List.length_cons, Nat.add_comm]
      · rw [areReaders, List.takeWhile_cons_of_pos passes]
      · rw [areReaders, noWriters]
        exact ⟨List.cons_ne_nil _ _, rfl⟩
    · have fails : ¬ reads option first = true := by
        unfold reads
        rw [isWrite]
        decide
      have passes : writes option first = true := decide_eq_true isWrite
      have stops := @flushQueue_writing _ option { rwlock with
        currentState := .lockedForWriting } rest rfl
      rw [isWrite]
      dsimp only
      rw [stops]
      refine ⟨_, _, rfl, ?_, ?_, ?_⟩
      · rw [List.filter_cons_of_neg fails]
        exact none
      · rw [List.filter_cons_of_neg fails, List.takeWhile_cons_of_neg fails]
        rfl
      · rw [List.filter_cons_of_neg fails, List.filter_cons_of_pos passes]
        exact ⟨rfl, rfl⟩

variable [DecidableEq Thread]

/-- The counter has room for the readers that a call lets in: for the caller, or for the readers in
front of the queue when the last holder surrenders. -/
def CountsReaders (users : CoreRwlockUsers Thread) : CoreRwlockCall Thread → Prop
  | .seizeForReading _ _ =>
    users.rwlock.currentState = .lockedForReading → users.rwlock.queue = [] →
      users.readers.length + 1 < 2 ^ 32
  | .surrender _ =>
    users.readers.length + users.writers.length = 1 →
      (users.rwlock.queue.takeWhile (reads users.option)).length < 2 ^ 32
  | _ => True

omit [DecidableEq Thread] in
theorem RwlockKept.not_unlocked (kept : RwlockKept users)
    (holds : users.readers ≠ [] ∨ users.writers ≠ []) : users.rwlock.currentState ≠ .unlocked := by
  intro isUnlocked
  have held := kept.held
  rw [isUnlocked] at held
  exact holds.elim (fun reads => reads held.1) (fun writes => writes held.2.1)

omit [DecidableEq Thread] in
theorem RwlockKept.joinReaders (kept : RwlockKept users) (executing : Thread)
    (noWriters : users.writers = []) :
    (RwlockKept { users with
        rwlock := { users.rwlock with
          currentState := .lockedForReading
          numberOfReaders := (users.rwlock.numberOfReaders + 1) % 2 ^ 32 }
        readers := executing :: users.readers } ↔ users.readers.length + 1 < 2 ^ 32) ∧
      (¬ users.readers.length + 1 < 2 ^ 32 → ¬ RwlockSafe { users with
        rwlock := { users.rwlock with
          currentState := .lockedForReading
          numberOfReaders := (users.rwlock.numberOfReaders + 1) % 2 ^ 32 }
        readers := executing :: users.readers }) := by
  have counted := kept.counted
  have fits := kept.fits
  refine ⟨⟨fun after => ?_, fun room => ⟨⟨List.cons_ne_nil _ _, noWriters⟩, ?_, ?_⟩⟩,
    fun full safe => ?_⟩
  · have later := after.fits
    rw [List.length_cons] at later
    exact later
  · show (users.rwlock.numberOfReaders + 1) % 2 ^ 32 = (executing :: users.readers).length
    rw [List.length_cons]
    omega
  · show (executing :: users.readers).length < 2 ^ 32
    rw [List.length_cons]
    exact room
  · have later : (users.rwlock.numberOfReaders + 1) % 2 ^ 32 =
        (executing :: users.readers).length := safe.counted
    rw [List.length_cons] at later
    omega

structure RwlockDecides (after : CoreRwlockUsers Thread) (room : Prop) : Prop where
  keeps : room → RwlockKept after
  breaks : ¬ room → ¬ RwlockSafe after

omit [DecidableEq Thread] in
theorem RwlockKept.decides {room : Prop} (kept : RwlockKept users) (always : room) :
    RwlockDecides users room :=
  ⟨fun _ => kept, fun full => absurd always full⟩

theorem seizeForReading_blocks (wait : Bool)
    (locked : users.rwlock.currentState = .lockedForReading ∧ users.rwlock.queue ≠ [] ∨
      users.rwlock.currentState = .lockedForWriting) :
    users.seizeForReading executing wait =
      if wait then
        { users with
          rwlock := { users.rwlock with queue := users.rwlock.queue ++ [executing] }
          option := update users.option executing .waitingForRead }
      else users := by
  have blocks : users.rwlock.seizeForReading executing wait =
      if !wait then (users.rwlock, .unavailable)
      else ({ users.rwlock with queue := users.rwlock.queue ++ [executing] }, .waits) := by
    generalize users.rwlock = rwlock at locked
    obtain ⟨queue, state, readers⟩ := rwlock
    rcases locked with ⟨isReading, waiters⟩ | isWriting
    · cases isReading
      exact if_neg waiters
    · cases isWriting
      rfl
  unfold CoreRwlockUsers.seizeForReading
  rw [blocks]
  cases wait with
  | false => rfl
  | true => rfl

theorem seizeForReading_joins (wait : Bool) (free : users.rwlock.currentState = .unlocked ∨
      users.rwlock.currentState = .lockedForReading ∧ users.rwlock.queue = []) :
    users.seizeForReading executing wait =
      { users with
        rwlock := { users.rwlock with
          currentState := .lockedForReading
          numberOfReaders := (users.rwlock.numberOfReaders + 1) % 2 ^ 32 }
        readers := executing :: users.readers } := by
  have joins : users.rwlock.seizeForReading executing wait =
      ({ users.rwlock with
          currentState := .lockedForReading
          numberOfReaders := (users.rwlock.numberOfReaders + 1) % 2 ^ 32 }, .successful) := by
    generalize users.rwlock = rwlock at free
    obtain ⟨queue, state, readers⟩ := rwlock
    rcases free with isUnlocked | ⟨isReading, empty⟩
    · cases isUnlocked
      rfl
    · cases isReading
      exact if_pos empty
  unfold CoreRwlockUsers.seizeForReading
  rw [joins]

theorem RwlockKept.seizeForReading (kept : RwlockKept users) (executing : Thread) (wait : Bool) :
    RwlockDecides (users.seizeForReading executing wait)
      (CountsReaders users (.seizeForReading executing wait)) := by
  have held := kept.held
  have blocked : users.rwlock.currentState = .lockedForReading ∧ users.rwlock.queue ≠ [] ∨
      users.rwlock.currentState = .lockedForWriting →
        RwlockKept (users.seizeForReading executing wait) := by
    intro locked
    have notUnlocked : users.rwlock.currentState ≠ .unlocked := by
      rcases locked with ⟨isReading, -⟩ | isWriting
      · exact fun isUnlocked => nomatch isReading.symm.trans isUnlocked
      · exact fun isUnlocked => nomatch isWriting.symm.trans isUnlocked
    rw [seizeForReading_blocks wait locked]
    split
    next => exact kept.requeue notUnlocked _ _
    next => exact kept
  cases isState : users.rwlock.currentState with
  | unlocked =>
    rw [isState] at held
    obtain ⟨noReaders, noWriters, -⟩ := held
    have room : users.readers.length + 1 < 2 ^ 32 := by
      rw [noReaders, List.length_nil]
      decide
    rw [seizeForReading_joins wait (.inl isState)]
    exact ((kept.joinReaders executing noWriters).1.mpr room).decides
      fun isReading => nomatch isState.symm.trans isReading
  | lockedForReading =>
    rw [isState] at held
    have joins := kept.joinReaders executing held.2
    by_cases empty : users.rwlock.queue = []
    · rw [seizeForReading_joins wait (.inr ⟨isState, empty⟩)]
      exact ⟨fun room => joins.1.mpr (room isState empty), fun full =>
        joins.2 fun room => full fun _ _ => room⟩
    · exact (blocked (.inl ⟨isState, empty⟩)).decides fun _ isEmpty => absurd isEmpty empty
  | lockedForWriting =>
    exact (blocked (.inr isState)).decides fun isReading => nomatch isState.symm.trans isReading

theorem RwlockKept.seizeForWriting (kept : RwlockKept users) (executing : Thread) (wait : Bool) :
    RwlockKept (users.seizeForWriting executing wait) := by
  have held := kept.held
  by_cases isUnlocked : users.rwlock.currentState = .unlocked
  · have takes : users.seizeForWriting executing wait =
        { users with
          rwlock := { users.rwlock with currentState := .lockedForWriting }
          writers := executing :: users.writers } := by
      unfold CoreRwlockUsers.seizeForWriting CoreRwlock.seizeForWriting
      rw [isUnlocked]
    rw [isUnlocked] at held
    rw [takes]
    refine ⟨⟨held.1, ?_⟩, kept.counted, kept.fits⟩
    show (executing :: users.writers).length = 1
    rw [held.2.1]
    rfl
  · have blocks : users.seizeForWriting executing wait =
        if wait then
          { users with
            rwlock := { users.rwlock with queue := users.rwlock.queue ++ [executing] }
            option := update users.option executing .waitingForWrite }
        else users := by
      unfold CoreRwlockUsers.seizeForWriting CoreRwlock.seizeForWriting
      cases isState : users.rwlock.currentState with
      | unlocked => exact absurd isState isUnlocked
      | lockedForReading | lockedForWriting => cases wait <;> simp [← isState]
    rw [blocks]
    split
    next => exact kept.requeue isUnlocked _ _
    next => exact kept

theorem RwlockKept.timeout (kept : RwlockKept users) (thread : Thread) :
    RwlockKept (users.timeout thread) := by
  by_cases isUnlocked : users.rwlock.currentState = .unlocked
  · have held := kept.held
    rw [isUnlocked] at held
    have same : users.timeout thread = users := by
      unfold CoreRwlockUsers.timeout
      rw [held.2.2, List.erase_nil, ← held.2.2]
    rw [same]
    exact kept
  · exact kept.requeue isUnlocked _ _

omit [DecidableEq Thread] in
theorem handOver_decides {rwlock : CoreRwlock Thread} (option : Thread → CoreRwlockWaiting)
    (isUnlocked : rwlock.currentState = .unlocked) (none : rwlock.numberOfReaders = 0) :
    ∃ after unblock, rwlock.flushCritical option = (after, unblock) ∧
      RwlockDecides
        ⟨after, option, unblock.filter (reads option), unblock.filter (writes option)⟩
        ((rwlock.queue.takeWhile (reads option)).length < 2 ^ 32) := by
  obtain ⟨after, unblock, flushes, counted, admitted, held⟩ :=
    flushCritical_unlocked option isUnlocked none
  refine ⟨after, unblock, flushes, fun room => ⟨held, ?_, ?_⟩, fun full safe => ?_⟩
  · show after.numberOfReaders = (unblock.filter (reads option)).length
    omega
  · show (unblock.filter (reads option)).length < 2 ^ 32
    omega
  · have later : after.numberOfReaders = (unblock.filter (reads option)).length := safe.counted
    omega

theorem surrender_eq {after : CoreRwlock Thread} {unblock : List Thread}
    (surrenders : users.rwlock.surrender users.option = (after, unblock)) :
    users.surrender executing =
      { users with
        rwlock := after
        readers := users.readers.erase executing ++ unblock.filter (reads users.option)
        writers := users.writers.erase executing ++ unblock.filter (writes users.option) } := by
  unfold CoreRwlockUsers.surrender
  rw [surrenders]
  rfl

omit [DecidableEq Thread] in
theorem surrender_leaves (option : Thread → CoreRwlockWaiting)
    (isReading : rwlock.currentState = .lockedForReading) (fits : rwlock.numberOfReaders < 2 ^ 32)
    (several : 1 < rwlock.numberOfReaders) :
    rwlock.surrender option =
      ({ rwlock with numberOfReaders := rwlock.numberOfReaders - 1 }, []) := by
  obtain ⟨queue, state, readers⟩ := rwlock
  cases isReading
  dsimp only at fits several
  have left : (readers + 2 ^ 32 - 1) % 2 ^ 32 = readers - 1 := by omega
  have notLast : readers - 1 ≠ 0 := by omega
  unfold CoreRwlock.surrender
  dsimp only
  rw [left, if_pos notLast]

omit [DecidableEq Thread] in
theorem surrender_last (option : Thread → CoreRwlockWaiting)
    (isReading : rwlock.currentState = .lockedForReading) (last : rwlock.numberOfReaders = 1) :
    rwlock.surrender option =
      flushCritical { rwlock with currentState := .unlocked, numberOfReaders := 0 } option := by
  obtain ⟨queue, state, readers⟩ := rwlock
  cases isReading
  dsimp only at last
  have left : (readers + 2 ^ 32 - 1) % 2 ^ 32 = 0 := by omega
  unfold CoreRwlock.surrender
  dsimp only
  rw [left]
  exact if_neg (not_not.mpr rfl)

theorem RwlockKept.surrender (kept : RwlockKept users)
    (holds : executing ∈ users.readers ∨ executing ∈ users.writers) :
    RwlockDecides (users.surrender executing) (CountsReaders users (.surrender executing)) := by
  have held := kept.held
  have counted := kept.counted
  have fits := kept.fits
  cases isState : users.rwlock.currentState with
  | unlocked =>
    refine absurd isState (kept.not_unlocked ?_)
    exact holds.imp List.ne_nil_of_mem List.ne_nil_of_mem
  | lockedForReading =>
    rw [isState] at held
    obtain ⟨someReaders, noWriters⟩ := held
    have isReader : executing ∈ users.readers := by
      refine holds.resolve_right fun isWriter => ?_
      rw [noWriters] at isWriter
      exact List.not_mem_nil isWriter
    have positive := List.length_pos_of_mem isReader
    have erased := List.length_erase_of_mem isReader
    by_cases last : users.readers.length = 1
    · have noOther : users.readers.erase executing = [] :=
        List.eq_nil_of_length_eq_zero (by omega)
      obtain ⟨after, unblock, flushes, decides⟩ := @handOver_decides _
        { users.rwlock with currentState := .unlocked, numberOfReaders := 0 } users.option rfl rfl
      have surrenders := surrender_last users.option isState (counted.trans last)
      rw [surrender_eq (surrenders.trans flushes), noOther, noWriters, List.erase_nil]
      have single : users.readers.length + users.writers.length = 1 := by
        rw [noWriters]
        exact last
      exact ⟨fun room => decides.keeps (room single),
        fun full => decides.breaks fun room => full fun _ => room⟩
    · have left : users.rwlock.surrender users.option =
          ({ users.rwlock with numberOfReaders := users.rwlock.numberOfReaders - 1 }, []) := by
        refine surrender_leaves users.option isState ?_ ?_
        · omega
        · omega
      rw [surrender_eq left]
      refine RwlockKept.decides ⟨?_, ?_, ?_⟩ fun single => ?_
      · show HeldAs _ users.rwlock.currentState
        rw [isState]
        refine ⟨?_, ?_⟩
        · show users.readers.erase executing ++ [] ≠ []
          rw [List.append_nil]
          refine List.ne_nil_of_length_pos ?_
          omega
        · show users.writers.erase executing ++ [] = []
          rw [noWriters]
          rfl
      · show users.rwlock.numberOfReaders - 1 = (users.readers.erase executing ++ []).length
        rw [List.append_nil]
        omega
      · show (users.readers.erase executing ++ []).length < 2 ^ 32
        rw [List.append_nil]
        omega
      · rw [noWriters, List.length_nil] at single
        exact absurd single last
  | lockedForWriting =>
    rw [isState] at held
    obtain ⟨noReaders, oneWriter⟩ := held
    have isWriter : executing ∈ users.writers := by
      refine holds.resolve_left fun isReader => ?_
      rw [noReaders] at isReader
      exact List.not_mem_nil isReader
    have erased := List.length_erase_of_mem isWriter
    have noOther : users.writers.erase executing = [] :=
      List.eq_nil_of_length_eq_zero (by omega)
    have none : users.rwlock.numberOfReaders = 0 := by
      rw [counted, noReaders]
      rfl
    obtain ⟨after, unblock, flushes, decides⟩ := @handOver_decides _
      { users.rwlock with currentState := .unlocked } users.option rfl none
    have surrenders : users.rwlock.surrender users.option = (after, unblock) := by
      rw [← flushes]
      unfold CoreRwlock.surrender
      rw [isState]
    rw [surrender_eq surrenders, noOther, noReaders, List.erase_nil]
    have single : users.readers.length + users.writers.length = 1 := by
      rw [noReaders, oneWriter]
      rfl
    exact ⟨fun room => decides.keeps (room single),
      fun full => decides.breaks fun room => full fun _ => room⟩

theorem RwlockKept.perform (kept : RwlockKept users) {call : CoreRwlockCall Thread}
    (byHolder : call.ByHolder users) :
    RwlockDecides (call.perform users) (CountsReaders users call) := by
  cases call with
  | seizeForReading executing wait => exact kept.seizeForReading executing wait
  | seizeForWriting executing wait => exact (kept.seizeForWriting executing wait).decides trivial
  | surrender executing => exact kept.surrender (byHolder executing rfl)
  | timeout thread => exact (kept.timeout thread).decides trivial

omit [DecidableEq Thread] in
theorem CoreRwlockUsers.initial_kept : RwlockKept (initial : CoreRwlockUsers Thread) :=
  ⟨⟨rfl, rfl, rfl⟩, rfl, Nat.two_pow_pos 32⟩

/-- A lock that only holders surrender is safe in every state of a run exactly if its counter always
has room for the readers. -/
theorem rwlockRun_safe_iff {calls : List (CoreRwlockCall Thread)}
    (byHolders : Meets (fun users call => CoreRwlockCall.perform users call)
      (fun users call => call.ByHolder users) .initial calls) :
    Throughout (fun users call => CoreRwlockCall.perform users call) RwlockSafe .initial calls ↔
      Meets (fun users call => CoreRwlockCall.perform users call) CountsReaders .initial calls := by
  refine throughout_iff_meets RwlockKept CoreRwlockUsers.initial_kept byHolders ?_ ?_ ?_
  · exact fun users call kept byHolder room => (kept.perform byHolder).keeps room
  · exact fun users kept => kept.safe
  · exact fun users call kept byHolder full => (kept.perform byHolder).breaks full

instance {Thread : Type} [DecidableEq Thread] (users : CoreRwlockUsers Thread)
    (call : CoreRwlockCall Thread) : Decidable (call.ByHolder users) :=
  match call with
  | .surrender executing =>
    decidable_of_iff (executing ∈ users.readers ∨ executing ∈ users.writers)
      ⟨fun holds _ same => by cases same; exact holds, fun byHolder => byHolder executing rfl⟩
  | .seizeForReading _ _ | .seizeForWriting _ _ | .timeout _ => isTrue nofun

instance {Thread : Type} (users : CoreRwlockUsers Thread) (call : CoreRwlockCall Thread) :
    Decidable (CountsReaders users call) :=
  match call with
  | .seizeForReading _ _ =>
    inferInstanceAs (Decidable (users.rwlock.currentState = .lockedForReading →
      users.rwlock.queue = [] → users.readers.length + 1 < 2 ^ 32))
  | .surrender _ =>
    inferInstanceAs (Decidable (users.readers.length + users.writers.length = 1 →
      (users.rwlock.queue.takeWhile (reads users.option)).length < 2 ^ 32))
  | .seizeForWriting _ _ | .timeout _ => isTrue trivial

/-- Two readers, a writer behind them that gets the lock from the last one, and a reader behind the
writer that gives up. -/
theorem rwlockRun_writerAfterReaders :
    Throughout (fun users call => CoreRwlockCall.perform users call) RwlockSafe
      (.initial : CoreRwlockUsers Nat)
      [.seizeForReading 0 true, .seizeForReading 1 true, .seizeForWriting 2 true,
        .seizeForReading 3 true, .surrender 0, .surrender 1, .timeout 3, .surrender 2] := by
  exact (rwlockRun_safe_iff (by decide)).mpr (by decide)

theorem run_seizeForReading (thread : Thread) (count : Nat) (readers : List Thread)
    (number : Nat) (option : Thread → CoreRwlockWaiting) :
    run (fun users call => CoreRwlockCall.perform users call)
        ⟨⟨[], .lockedForReading, number % 2 ^ 32⟩, option, readers, []⟩
        (List.replicate count (.seizeForReading thread true)) =
      ⟨⟨[], .lockedForReading, (number + count) % 2 ^ 32⟩, option,
        List.replicate count thread ++ readers, []⟩ := by
  induction count generalizing readers number with
  | zero => rfl
  | succ count ih =>
    have joins : CoreRwlockCall.perform
        ⟨⟨[], .lockedForReading, number % 2 ^ 32⟩, option, readers, []⟩
          (.seizeForReading thread true) =
        ⟨⟨[], .lockedForReading, (number + 1) % 2 ^ 32⟩, option, thread :: readers, []⟩ := by
      have counts : (number % 2 ^ 32 + 1) % 2 ^ 32 = (number + 1) % 2 ^ 32 := by omega
      rw [← counts]
      rfl
    have shifts : number + 1 + count = number + (count + 1) := by omega
    have moves : List.replicate count thread ++ thread :: readers =
        List.replicate (count + 1) thread ++ readers := by
      rw [List.replicate_succ', List.append_assoc]
      rfl
    rw [List.replicate_succ, run_cons, joins, ih, shifts, moves]

theorem run_countsRound {reader writer : Thread} {holds : Nat}
    (round : (1 + holds) % 2 ^ 32 = 1) :
    run (fun users call => CoreRwlockCall.perform users call) .initial
        (.seizeForReading reader true :: (List.replicate holds (.seizeForReading reader true) ++
          [.surrender reader, .seizeForWriting writer true])) =
      ⟨⟨[], .lockedForWriting, 0⟩, fun _ => .waitingForRead, List.replicate holds reader,
        [writer]⟩ := by
  have first : CoreRwlockCall.perform .initial (.seizeForReading reader true) =
      ⟨⟨[], .lockedForReading, 1 % 2 ^ 32⟩, fun _ => .waitingForRead, [reader], []⟩ := rfl
  have isReaders : List.replicate holds reader ++ [reader] =
      reader :: List.replicate holds reader := List.replicate_succ'.symm.trans List.replicate_succ
  have unlocks : CoreRwlockCall.perform
      ⟨⟨[], .lockedForReading, 1⟩, fun _ => .waitingForRead, reader :: List.replicate holds reader,
        []⟩ (.surrender reader) =
      ⟨⟨[], .unlocked, 0⟩, fun _ => .waitingForRead, List.replicate holds reader, []⟩ := by
    have flushes : CoreRwlock.surrender ⟨[], .lockedForReading, 1⟩ (fun _ => .waitingForRead) =
        ((⟨[], .unlocked, 0⟩ : CoreRwlock Thread), []) := surrender_last _ rfl rfl
    unfold CoreRwlockCall.perform CoreRwlockUsers.surrender
    dsimp only
    rw [flushes]
    simp only [List.erase_cons_head, List.filter_nil, List.append_nil, List.erase_nil]
  rw [run_cons, first, run_append, run_seizeForReading, round, isReaders, run_cons, unlocks]
  rfl

/-- After 2 ^ 32 + 1 holds for reading one surrender unlocks the lock, and a writer gets it among the
readers. -/
theorem rwlockRun_countsRound :
    ¬ Throughout (fun users call => CoreRwlockCall.perform users call) RwlockSafe .initial
      (.seizeForReading false true :: (List.replicate (2 ^ 32) (.seizeForReading false true) ++
        [.surrender false, .seizeForWriting true true])) := by
  have round : (1 + 2 ^ 32) % 2 ^ 32 = 1 := by decide
  intro always
  have safe := always.final
  rw [run_countsRound round] at safe
  have noReaders : List.replicate (2 ^ 32) false = [] := safe.apart (List.cons_ne_nil _ _)
  have none := congrArg List.length noReaders
  rw [List.length_replicate] at none
  exact absurd none (by decide)

end RTContainer.Score
