import Mathlib.Logic.Basic

/-! The thread states of `statesimpl.h`, as words of state bits. The states in
which a thread waits for its cgroup are read one bit at a time. -/

set_option autoImplicit false

namespace RTContainer.Score

def statesReady : BitVec 32 := 0

def statesWaitingForMutex : BitVec 32 := 0x00000001#32
def statesWaitingForSemaphore : BitVec 32 := 0x00000002#32
def statesWaitingForEvent : BitVec 32 := 0x00000004#32
def statesWaitingForSystemEvent : BitVec 32 := 0x00000008#32
def statesWaitingForMessage : BitVec 32 := 0x00000010#32
def statesWaitingForConditionVariable : BitVec 32 := 0x00000020#32
def statesWaitingForFutex : BitVec 32 := 0x00000040#32
def statesWaitingForBsdWakeup : BitVec 32 := 0x00000080#32
def statesWaitingForTime : BitVec 32 := 0x00000100#32
def statesWaitingForPeriod : BitVec 32 := 0x00000200#32
def statesWaitingForSignal : BitVec 32 := 0x00000400#32
def statesWaitingForBarrier : BitVec 32 := 0x00000800#32
def statesWaitingForRwlock : BitVec 32 := 0x00001000#32
def statesWaitingForJoin : BitVec 32 := 0x00004000#32
def statesWaitingForSegment : BitVec 32 := 0x00010000#32
def statesWaitingForCgroupCpuQuota : BitVec 32 := 0x00040000#32
def statesWaitingForCgroupMemory : BitVec 32 := 0x00080000#32
def statesWaitingForCgroupBlkio : BitVec 32 := 0x00100000#32
def statesInterruptibleBySignal : BitVec 32 := 0x10000000#32
def statesWaitingForRpcReply : BitVec 32 := 0x20000000#32
def statesZombie : BitVec 32 := 0x40000000#32
def statesDormant : BitVec 32 := 0x80000000#32

def statesWaitingForCgroupResource : BitVec 32 :=
  statesWaitingForCgroupCpuQuota ||| statesWaitingForCgroupMemory ||| statesWaitingForCgroupBlkio

def statesLocallyBlocked : BitVec 32 :=
  statesWaitingForSegment ||| statesWaitingForMessage ||| statesWaitingForSemaphore |||
    statesWaitingForMutex ||| statesWaitingForConditionVariable ||| statesWaitingForJoin |||
    statesWaitingForSignal ||| statesWaitingForBarrier ||| statesWaitingForBsdWakeup |||
    statesWaitingForFutex ||| statesWaitingForRwlock

def statesBlocked : BitVec 32 :=
  statesLocallyBlocked ||| statesWaitingForTime ||| statesWaitingForPeriod |||
    statesWaitingForEvent ||| statesWaitingForRpcReply ||| statesWaitingForSystemEvent |||
    statesInterruptibleBySignal ||| statesWaitingForCgroupResource

def statesSet (statesToSet currentState : BitVec 32) : BitVec 32 := currentState ||| statesToSet

def statesClear (statesToClear currentState : BitVec 32) : BitVec 32 :=
  currentState &&& ~~~statesToClear

def statesIsReady (states : BitVec 32) : Bool := states = statesReady

/-- The resources of a cgroup that a thread can wait for. -/
inductive CgroupWait where
  | cpuQuota
  | memory
  | blkio
  deriving DecidableEq

namespace CgroupWait

def state : CgroupWait → BitVec 32
  | .cpuQuota => statesWaitingForCgroupCpuQuota
  | .memory => statesWaitingForCgroupMemory
  | .blkio => statesWaitingForCgroupBlkio

def In (wait : CgroupWait) (states : BitVec 32) : Prop := states &&& wait.state ≠ 0

instance (wait : CgroupWait) (states : BitVec 32) : Decidable (wait.In states) :=
  inferInstanceAs (Decidable (¬ states &&& wait.state = 0))

def position : CgroupWait → Nat
  | .cpuQuota => 18
  | .memory => 19
  | .blkio => 20

theorem state_eq_twoPow (wait : CgroupWait) : wait.state = BitVec.twoPow 32 wait.position := by
  cases wait <;> rfl

variable {wait : CgroupWait} {states : BitVec 32}

theorem in_iff : wait.In states ↔ states.getLsbD wait.position = true := by
  unfold In
  rw [state_eq_twoPow, BitVec.and_twoPow]
  cases bit : states.getLsbD wait.position with
  | false => simp
  | true => cases wait <;> decide

@[simp] theorem in_statesSet {wait : CgroupWait} {statesToSet states : BitVec 32} :
    wait.In (statesSet statesToSet states) ↔ wait.In states ∨ wait.In statesToSet := by
  simp [in_iff, statesSet, BitVec.getLsbD_or]

@[simp] theorem in_statesClear {wait : CgroupWait} {statesToClear states : BitVec 32} :
    wait.In (statesClear statesToClear states) ↔ wait.In states ∧ ¬ wait.In statesToClear := by
  have small : wait.position < 32 := by cases wait <;> decide
  simp [in_iff, statesClear, small]

theorem not_in_ready (wait : CgroupWait) : ¬ wait.In statesReady := by
  cases wait <;> decide

theorem not_in_of_and_eq_zero {other : BitVec 32} (apart : states &&& other = 0)
    (isIn : wait.In other) : ¬ wait.In states := by
  intro alsoIn
  have bit := congrArg (fun word => word.getLsbD wait.position) apart
  simp only [BitVec.getLsbD_and, in_iff.mp isIn, in_iff.mp alsoIn] at bit
  simp at bit

theorem not_in_of_not_blocked (ready : states &&& statesBlocked = 0) : ¬ wait.In states := by
  have blocking : wait.In statesBlocked := by cases wait <;> decide
  exact not_in_of_and_eq_zero ready blocking

end CgroupWait

end RTContainer.Score
