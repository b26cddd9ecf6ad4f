import Mathlib.Data.Fintype.Card
import RTContainer.Lib.Run

/-! The SMP barrier: every atomic operation of `_SMP_barrier_Wait` is one step, and
the processors take their steps in any order. -/

set_option autoImplicit false

namespace RTContainer.Score

open Function

/-- Where a processor is in `_SMP_barrier_Wait`: before it, in its loop, or before one of the
two stores of the release. -/
inductive SMPBarrierPoint where
  | outside
  | waiting
  | reset
  | release
deriving DecidableEq

/-- The barrier, the state of each processor, how many waits each has begun and ended, and how
many of these have returned that they performed the release. -/
structure SMPBarrier (Cpu : Type) where
  value : BitVec 32
  sense : BitVec 32
  state : Cpu → BitVec 32
  point : Cpu → SMPBarrierPoint
  begun : Cpu → Nat
  ended : Cpu → Nat
  releases : Nat

namespace SMPBarrier

variable {Cpu : Type} [DecidableEq Cpu]

def initial : SMPBarrier Cpu := ⟨0, 0, fun _ => 0, fun _ => .outside, fun _ => 0, fun _ => 0, 0⟩

def leave (barrier : SMPBarrier Cpu) (cpu : Cpu) : SMPBarrier Cpu :=
  { barrier with
    point := update barrier.point cpu .outside
    ended := update barrier.ended cpu (barrier.ended cpu + 1) }

/-- The next atomic operation of a processor that waits at the barrier again and again. -/
def wait (count : BitVec 32) (barrier : SMPBarrier Cpu) (cpu : Cpu) : SMPBarrier Cpu :=
  match barrier.point cpu with
  | .outside =>
    { barrier with
      value := barrier.value + 1
      state := update barrier.state cpu (~~~barrier.state cpu)
      point := update barrier.point cpu (if barrier.value + 1 = count then .reset else .waiting)
      begun := update barrier.begun cpu (barrier.begun cpu + 1) }
  | .waiting => if barrier.sense = barrier.state cpu then barrier.leave cpu else barrier
  | .reset => { barrier with value := 0, point := update barrier.point cpu .release }
  | .release =>
    { barrier with sense := barrier.state cpu, releases := barrier.releases + 1 }.leave cpu

/-- The sense of a processor that has begun so many waits. -/
def senseOf (waits : Nat) : BitVec 32 := if waits % 2 = 0 then 0 else ~~~0

theorem senseOf_succ (waits : Nat) : senseOf (waits + 1) = ~~~senseOf waits := by
  unfold senseOf
  rcases Nat.mod_two_eq_zero_or_one waits with even | odd
  · simp [even, Nat.add_mod]
  · simp [odd, Nat.add_mod]

private theorem senseOf_ne (waits : Nat) : senseOf waits ≠ senseOf (waits + 1) := by
  rw [senseOf_succ]
  unfold senseOf
  split <;> decide

variable [Fintype Cpu]

/-- The processors of a set have begun the round that comes after the released ones. -/
structure InRound (barrier : SMPBarrier Cpu) (late : Finset Cpu) : Prop where
  sense : barrier.sense = senseOf barrier.releases
  state : ∀ cpu, barrier.state cpu = senseOf (barrier.begun cpu)
  begun : ∀ cpu, barrier.begun cpu = if cpu ∈ late then barrier.releases + 1 else barrier.releases
  ended : ∀ cpu, barrier.begun cpu =
    barrier.ended cpu + if barrier.point cpu = .outside then 0 else 1
  inside : ∀ cpu ∈ late, barrier.point cpu ≠ .outside
  value : (∀ cpu, barrier.point cpu ≠ .release) → barrier.value.toNat = late.card
  cleared : ∀ cpu, barrier.point cpu = .release → barrier.value = 0
  last : ∀ cpu, barrier.point cpu = .reset ∨ barrier.point cpu = .release →
    late = Finset.univ ∧ ∀ other, other ≠ cpu → barrier.point other = .waiting
  pending : late = Finset.univ → ∃ cpu, barrier.point cpu = .reset ∨ barrier.point cpu = .release

variable {barrier : SMPBarrier Cpu} {late : Finset Cpu} {count : BitVec 32} {cpu : Cpu}

theorem InRound.arrive (inRound : barrier.InRound late)
    (all : count.toNat = Fintype.card Cpu) (outside : barrier.point cpu = .outside) :
    (barrier.wait count cpu).InRound (insert cpu late) := by
  have early : cpu ∉ late := fun isLate => inRound.inside cpu isLate outside
  have noLast : ∀ other, ¬ (barrier.point other = .reset ∨ barrier.point other = .release) :=
    fun other isLast => early ((inRound.last other isLast).1 ▸ Finset.mem_univ cpu)
  have counted : (barrier.value + 1).toNat = (insert cpu late).card := by
    have value := inRound.value fun other isRelease => noLast other (.inr isRelease)
    have room := Finset.card_le_univ (insert cpu late)
    have bounded := count.isLt
    rw [Finset.card_insert_of_notMem early] at room ⊢
    rw [BitVec.toNat_add, show (1 : BitVec 32).toNat = 1 from rfl]
    omega
  have isLast : barrier.value + 1 = count ↔ insert cpu late = Finset.univ := by
    rw [← BitVec.toNat_inj, counted, all, Finset.card_eq_iff_eq_univ]
  have waits : insert cpu late = Finset.univ → ∀ other, other ≠ cpu →
      barrier.point other = .waiting := by
    intro whole other different
    have isLate := Finset.mem_of_mem_insert_of_ne (whole ▸ Finset.mem_univ other) different
    cases point : barrier.point other with
    | outside => exact absurd point (inRound.inside other isLate)
    | waiting => rfl
    | reset => exact absurd (.inl point) (noLast other)
    | release => exact absurd (.inr point) (noLast other)
  obtain ⟨sense, state, begun, ended, inside, value, cleared, last, pending⟩ := inRound
  simp only [SMPBarrier.wait, outside, isLast]
  constructor
  case value => exact fun _ => counted
  case pending => exact fun whole => ⟨cpu, .inl (by simp only [update_self, if_pos whole])⟩
  all_goals grind [senseOf_succ]

theorem InRound.wait (inRound : barrier.InRound late)
    (all : count.toNat = Fintype.card Cpu) (cpu : Cpu) :
    ∃ after, (barrier.wait count cpu).InRound after := by
  have ⟨sense, state, begun, ended, inside, value, cleared, last, pending⟩ := inRound
  unfold SMPBarrier.wait
  cases point : barrier.point cpu with
  | outside =>
    have arrived := inRound.arrive all point
    rw [SMPBarrier.wait, point] at arrived
    exact ⟨_, arrived⟩
  | waiting =>
    by_cases released : barrier.sense = barrier.state cpu
    · have early : cpu ∉ late := fun isLate => senseOf_ne barrier.releases (by grind)
      refine ⟨late, ?_⟩
      simp only [released, ↓reduceIte, leave]
      constructor <;> grind
    · exact ⟨late, by simpa only [released, ↓reduceIte]⟩
  | reset =>
    have stored := update_self cpu SMPBarrierPoint.release barrier.point
    refine ⟨late, ?_⟩
    constructor <;> grind
  | release =>
    have whole := (last cpu (.inr point)).1
    refine ⟨∅, ?_⟩
    simp only [leave]
    constructor <;> grind

/-- A processor never gets ahead of one that has yet to arrive, exactly one wait of each round
returns that it performed the release, and never do all processors wait for it. -/
theorem barrierRun_synchronizes (all : count.toNat = Fintype.card Cpu) (calls : List Cpu) :
    let barrier := Machine.run (SMPBarrier.wait count) SMPBarrier.initial calls
    ∀ cpu, (barrier.ended cpu ≤ barrier.releases ∧ barrier.releases ≤ barrier.begun cpu) ∧
      ∃ other, ¬ (barrier.point other = .waiting ∧ barrier.sense ≠ barrier.state other) := by
  intro barrier cpu
  have start : (initial : SMPBarrier Cpu).InRound ∅ := by
    constructor <;> grind [initial, senseOf, Finset.mem_univ cpu]
  have always : Machine.Throughout (SMPBarrier.wait count)
      (fun barrier => ∃ late, barrier.InRound late) initial calls :=
    Machine.throughout_of_preserved ⟨∅, start⟩ (fun _ cpu ⟨_, inRound⟩ _ => inRound.wait all cpu)
      (Machine.meets_of_forall (fun _ _ => trivial) _ calls)
  obtain ⟨late, sense, state, begun, ended, inside, -, -, -, pending⟩ := always.final
  refine ⟨by grind, ?_⟩
  by_cases whole : late = Finset.univ
  · obtain ⟨other, isLast⟩ := pending whole
    exact ⟨other, by grind⟩
  · obtain ⟨other, early⟩ := not_forall.mp (mt Finset.eq_univ_iff_forall.mpr whole)
    exact ⟨other, by grind⟩

theorem barrierRun_synchronizes_two :
    let barrier := Machine.run (SMPBarrier.wait 2) SMPBarrier.initial [(0 : Fin 2), 1, 1, 1, 0, 0]
    ∀ cpu, (barrier.ended cpu ≤ barrier.releases ∧ barrier.releases ≤ barrier.begun cpu) ∧
      ∃ other, ¬ (barrier.point other = .waiting ∧ barrier.sense ≠ barrier.state other) :=
  barrierRun_synchronizes (by decide) [0, 1, 1, 1, 0, 0]

end SMPBarrier

end RTContainer.Score
