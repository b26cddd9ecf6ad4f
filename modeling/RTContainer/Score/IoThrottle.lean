import Mathlib.Tactic.Ring
import RTContainer.Lib.Run
import RTContainer.Score.IoCgroup

/-! The throttling of I/O requests. A request is admitted when the bytes of the
window and its own bytes, each divided by the elapsed ticks, stay within the
limit divided by the ticks of a second. The divisions are rounded separately. -/

set_option autoImplicit false

namespace RTContainer.Score

open RTContainer.Rtems Machine Function

/-- The other direction. -/
def IoCgroupRequestType.other : IoCgroupRequestType → IoCgroupRequestType
  | read => write
  | write => read

/-- An I/O cgroup at the time of its last request, with the bytes that have been
admitted in its current window. -/
structure ThrottledCgroup where
  control : IoCgroupControl
  now : BitVec 32
  admitted : IoCgroupRequestType → Nat

/-- A request, with the ticks since boot at which it is handled. -/
structure TimedRequest where
  request : IoCgroupRequest
  time : BitVec 32

namespace ThrottledCgroup

def atTime (state : ThrottledCgroup) (ticksPerSecond time : BitVec 32) : ThrottledCgroup where
  control := state.control.updateSlidingWindow ticksPerSecond time
  now := time
  admitted := if state.control.windowExpired ticksPerSecond time then fun _ => 0 else state.admitted

variable (ticksPerSecond : BitVec 32) (state : ThrottledCgroup)

def handle (timed : TimedRequest) : ThrottledCgroup :=
  let (control, status) :=
    state.control.handleRequest timed.request ticksPerSecond timed.time
  let admitted := (state.atTime ticksPerSecond timed.time).admitted
  { control := control
    now := timed.time
    admitted :=
      if status = .successful then
        update admitted timed.request.type (admitted timed.request.type + timed.request.size.toNat)
      else admitted }

def elapsed (state : ThrottledCgroup) : Nat := (state.control.elapsed state.now).toNat

/-- In both directions the bytes admitted in the window stay within the limit
times the time that has elapsed, in bytes and ticks. -/
def WithinLimits : Prop :=
  ∀ type, state.admitted type * ticksPerSecond.toNat ≤
    (state.control.limits.bpsLimit type).toNat * state.elapsed

/-- The window has begun, and its 64-bit counter holds the bytes of both
directions. -/
structure Accounted (state : ThrottledCgroup) : Prop where
  begun : state.control.stats.currentWindow.windowStart ≤ state.now
  bytes : state.control.stats.currentWindow.bytes.toNat =
    (state.admitted .read + state.admitted .write) % 2 ^ 64

def NotBefore (timed : TimedRequest) : Prop := state.now ≤ timed.time

instance (state : ThrottledCgroup) (timed : TimedRequest) : Decidable (state.NotBefore timed) :=
  inferInstanceAs (Decidable (state.now ≤ timed.time))

/-- The rate that the test sees, before it is reduced to 64 bits. -/
def seenRate (request : IoCgroupRequest) : Nat :=
  state.control.stats.currentWindow.bytes.toNat / state.elapsed + request.size.toNat / state.elapsed

/-- The bytes that the test does not see: what the two divisions cut off, and the
multiples of 2^64 that the counter and the sum of the rates lose. -/
def unseen (request : IoCgroupRequest) : Nat :=
  state.control.stats.currentWindow.bytes.toNat % state.elapsed +
    request.size.toNat % state.elapsed +
    (state.admitted .read + state.admitted .write - state.control.stats.currentWindow.bytes.toNat) +
    2 ^ 64 * (state.seenRate request / 2 ^ 64) * state.elapsed

/-- What the test leaves free: the whole units below the limit, the part of the
limit that its division cuts off, and the bytes of the other direction. -/
def room (request : IoCgroupRequest) : Nat :=
  let limit := (state.control.limits.bpsLimit request.type).toNat
  (limit / ticksPerSecond.toNat - state.seenRate request % 2 ^ 64) * ticksPerSecond.toNat *
      state.elapsed +
    limit % ticksPerSecond.toNat * state.elapsed +
    state.admitted request.type.other * ticksPerSecond.toNat

/-- The request is throttled, or the bytes that the test does not see fit in what
it leaves free. -/
def Rounds (timed : TimedRequest) : Prop :=
  let current := state.atTime ticksPerSecond timed.time
  current.control.exceeds timed.request ticksPerSecond timed.time = true ∨
    current.unseen timed.request * ticksPerSecond.toNat ≤ current.room ticksPerSecond timed.request

variable {ticksPerSecond} {time : BitVec 32} {state} {timed : TimedRequest}
variable {request : IoCgroupRequest}

theorem admitted_add_other (state : ThrottledCgroup) (type : IoCgroupRequestType) :
    state.admitted type + state.admitted type.other =
      state.admitted .read + state.admitted .write := by
  cases type with
  | read => rfl
  | write => exact Nat.add_comm ..

theorem elapsed_pos (state : ThrottledCgroup) : 0 < state.elapsed := by
  unfold elapsed IoCgroupControl.elapsed
  simp only
  split
  · decide
  · rename_i nonzero
    apply Nat.pos_of_ne_zero
    intro isZero
    exact nonzero (BitVec.eq_of_toNat_eq isZero)

theorem Accounted.elapsed_eq (accounted : state.Accounted) : state.elapsed =
    max 1 (state.now.toNat - state.control.stats.currentWindow.windowStart.toNat) := by
  have begun : state.control.stats.currentWindow.windowStart.toNat ≤ state.now.toNat :=
    accounted.begun
  have bound := state.now.isLt
  have difference : (state.now - state.control.stats.currentWindow.windowStart).toNat =
      state.now.toNat - state.control.stats.currentWindow.windowStart.toNat := by
    rw [BitVec.toNat_sub]
    omega
  have positive := state.elapsed_pos
  unfold elapsed IoCgroupControl.elapsed at positive ⊢
  simp only at positive ⊢
  split
  · rename_i isZero
    rw [isZero] at difference
    rw [← difference]
    rfl
  · rename_i nonzero
    rw [if_neg nonzero, difference] at positive
    rw [difference]
    omega

section Window

theorem Accounted.atTime (accounted : state.Accounted) (later : state.now ≤ time) :
    (state.atTime ticksPerSecond time).Accounted := by
  unfold ThrottledCgroup.atTime IoCgroupControl.updateSlidingWindow
  by_cases expired : state.control.windowExpired ticksPerSecond time = true
  · simp only [if_pos expired]
    exact { begun := BitVec.le_refl time, bytes := rfl }
  · simp only [if_neg expired]
    exact { begun := BitVec.le_trans accounted.begun later, bytes := accounted.bytes }

theorem atTime_limits :
    (state.atTime ticksPerSecond time).control.limits = state.control.limits := by
  unfold atTime IoCgroupControl.updateSlidingWindow
  by_cases expired : state.control.windowExpired ticksPerSecond time = true
  · simp only [if_pos expired]
  · simp only [if_neg expired]

theorem WithinLimits.atTime (within : state.WithinLimits ticksPerSecond)
    (accounted : state.Accounted) (later : state.now ≤ time) :
    (state.atTime ticksPerSecond time).WithinLimits ticksPerSecond := by
  intro type
  rw [atTime_limits]
  by_cases expired : state.control.windowExpired ticksPerSecond time = true
  · have none : (state.atTime ticksPerSecond time).admitted type = 0 := by
      simp only [ThrottledCgroup.atTime, if_pos expired]
    rw [none, Nat.zero_mul]
    exact Nat.zero_le _
  · have same : (state.atTime ticksPerSecond time).admitted = state.admitted := by
      simp only [ThrottledCgroup.atTime, if_neg expired]
    have sameWindow : (state.atTime ticksPerSecond time).control = state.control := by
      simp only [ThrottledCgroup.atTime, IoCgroupControl.updateSlidingWindow, if_neg expired]
    have longer : state.elapsed ≤ (state.atTime ticksPerSecond time).elapsed := by
      rw [accounted.elapsed_eq, (accounted.atTime later).elapsed_eq, sameWindow]
      have later : state.now.toNat ≤ time.toNat := later
      show _ ≤ max 1 (time.toNat - _)
      omega
    rw [same]
    exact (within type).trans (Nat.mul_le_mul_left _ longer)

end Window

section Request

def throttle (current : ThrottledCgroup) (request : IoCgroupRequest) : ThrottledCgroup :=
  { current with control := current.control.countThrottled request }

def grant (current : ThrottledCgroup) (request : IoCgroupRequest) : ThrottledCgroup where
  control := current.control.updateStats request
  now := current.now
  admitted := update current.admitted request.type
    (current.admitted request.type + request.size.toNat)

theorem handle_of_exceeds (exceeds : (state.atTime ticksPerSecond timed.time).control.exceeds
      timed.request ticksPerSecond timed.time = true) :
    handle ticksPerSecond state timed =
      (state.atTime ticksPerSecond timed.time).throttle timed.request := by
  simp only [atTime] at exceeds
  simp only [handle, IoCgroupControl.handleRequest, IoCgroupControl.checkThrottle, exceeds,
    if_true, atTime, throttle, reduceCtorEq, if_false]

theorem handle_of_not_exceeds (admitted : (state.atTime ticksPerSecond timed.time).control.exceeds
      timed.request ticksPerSecond timed.time = false) :
    handle ticksPerSecond state timed =
      (state.atTime ticksPerSecond timed.time).grant timed.request := by
  simp only [atTime] at admitted
  simp only [handle, IoCgroupControl.handleRequest, IoCgroupControl.checkThrottle, admitted,
    Bool.false_eq_true, if_false, atTime, grant, if_true]

@[simp] theorem throttle_currentWindow :
    (state.throttle request).control.stats.currentWindow = state.control.stats.currentWindow := by
  unfold throttle IoCgroupControl.countThrottled
  cases request.type with
  | read => rfl
  | write => rfl

@[simp] theorem grant_currentWindow :
    (state.grant request).control.stats.currentWindow =
      { state.control.stats.currentWindow with
        bytes := state.control.stats.currentWindow.bytes + request.size } := by
  unfold grant IoCgroupControl.updateStats
  cases request.type with
  | read => rfl
  | write => rfl

@[simp] theorem grant_limits : (state.grant request).control.limits = state.control.limits := rfl

@[simp] theorem throttle_elapsed : (state.throttle request).elapsed = state.elapsed := by
  unfold elapsed IoCgroupControl.elapsed
  rw [throttle_currentWindow]
  rfl

@[simp] theorem grant_elapsed : (state.grant request).elapsed = state.elapsed := by
  unfold elapsed IoCgroupControl.elapsed
  rw [grant_currentWindow]
  rfl

@[simp] theorem grant_admitted_self : (state.grant request).admitted request.type =
    state.admitted request.type + request.size.toNat := update_self ..

theorem grant_admitted_other {type : IoCgroupRequestType} (different : type ≠ request.type) :
    (state.grant request).admitted type = state.admitted type :=
  update_of_ne different ..

theorem grant_sum : (state.grant request).admitted .read + (state.grant request).admitted .write =
    state.admitted .read + state.admitted .write + request.size.toNat := by
  rw [← admitted_add_other (state.grant request) request.type,
    ← admitted_add_other state request.type, grant_admitted_self, grant_admitted_other]
  · omega
  · cases request.type <;> decide

theorem seenRate_le_of_not_exceeds
    (admitted : state.control.exceeds request ticksPerSecond state.now = false) :
    state.seenRate request % 2 ^ 64 ≤
      (state.control.limits.bpsLimit request.type).toNat / ticksPerSecond.toNat := by
  have elapsedBound := (state.control.elapsed state.now).isLt
  have ticksBound := ticksPerSecond.isLt
  have wide : ∀ word : BitVec 32, (word.setWidth 64).toNat = word.toNat := by
    intro word
    have bound := word.isLt
    rw [BitVec.toNat_setWidth]
    omega
  simp only [IoCgroupControl.exceeds, decide_eq_false_iff_not, gt_iff_lt, BitVec.not_lt] at admitted
  have rate : (state.control.stats.currentWindow.bytes /
        (state.control.elapsed state.now).setWidth 64 +
      request.size / (state.control.elapsed state.now).setWidth 64).toNat ≤
      (state.control.limits.bpsLimit request.type / ticksPerSecond.setWidth 64).toNat := admitted
  rw [BitVec.toNat_add, BitVec.toNat_udiv, BitVec.toNat_udiv, BitVec.toNat_udiv, wide, wide] at rate
  exact rate

theorem Accounted.bytes_eq (accounted : state.Accounted) (request : IoCgroupRequest) :
    state.admitted request.type + request.size.toNat + state.admitted request.type.other =
      state.unseen request + state.seenRate request % 2 ^ 64 * state.elapsed := by
  have both := admitted_add_other state request.type
  have counted : state.control.stats.currentWindow.bytes.toNat ≤
      state.admitted .read + state.admitted .write := accounted.bytes ▸ Nat.mod_le ..
  have ofWindow := Nat.div_add_mod' state.control.stats.currentWindow.bytes.toNat state.elapsed
  have ofRequest := Nat.div_add_mod' request.size.toNat state.elapsed
  have rate := Nat.div_add_mod (state.seenRate request) (2 ^ 64)
  have rates : state.control.stats.currentWindow.bytes.toNat / state.elapsed * state.elapsed +
      request.size.toNat / state.elapsed * state.elapsed =
        2 ^ 64 * (state.seenRate request / 2 ^ 64) * state.elapsed +
          state.seenRate request % 2 ^ 64 * state.elapsed := by
    rw [← Nat.add_mul, ← Nat.add_mul, rate]
    rfl
  unfold unseen
  omega

theorem Accounted.admits_iff (accounted : state.Accounted)
    (admitted : state.control.exceeds request ticksPerSecond state.now = false) :
    (state.admitted request.type + request.size.toNat) * ticksPerSecond.toNat ≤
        (state.control.limits.bpsLimit request.type).toNat * state.elapsed ↔
      state.unseen request * ticksPerSecond.toNat ≤ state.room ticksPerSecond request := by
  have bytes := accounted.bytes_eq request
  obtain ⟨free, units⟩ := Nat.exists_eq_add_of_le (seenRate_le_of_not_exceeds admitted)
  have limit := Nat.div_add_mod' (state.control.limits.bpsLimit request.type).toNat
    ticksPerSecond.toNat
  have scaledBytes : (state.admitted request.type + request.size.toNat) * ticksPerSecond.toNat +
      state.admitted request.type.other * ticksPerSecond.toNat =
        state.unseen request * ticksPerSecond.toNat +
          state.seenRate request % 2 ^ 64 * ticksPerSecond.toNat * state.elapsed := by
    rw [← Nat.add_mul, bytes]
    ring
  have scaledLimit : (state.control.limits.bpsLimit request.type).toNat * state.elapsed =
      state.seenRate request % 2 ^ 64 * ticksPerSecond.toNat * state.elapsed +
        free * ticksPerSecond.toNat * state.elapsed +
        (state.control.limits.bpsLimit request.type).toNat % ticksPerSecond.toNat *
          state.elapsed := by
    rw [← Nat.add_mul, ← Nat.add_mul, ← Nat.add_mul, ← units, limit]
  simp only [room, units, Nat.add_sub_cancel_left]
  omega

theorem Accounted.handle (accounted : state.Accounted) (later : state.NotBefore timed) :
    (state.handle ticksPerSecond timed).Accounted := by
  have current : (state.atTime ticksPerSecond timed.time).Accounted := accounted.atTime later
  cases throttled : (state.atTime ticksPerSecond timed.time).control.exceeds timed.request
      ticksPerSecond timed.time with
  | true =>
    rw [handle_of_exceeds throttled]
    exact {
      begun := by rw [throttle_currentWindow]; exact current.begun
      bytes := by rw [throttle_currentWindow]; exact current.bytes }
  | false =>
    rw [handle_of_not_exceeds throttled]
    exact {
      begun := by rw [grant_currentWindow]; exact current.begun
      bytes := by
        rw [grant_currentWindow, BitVec.toNat_add, current.bytes, Nat.mod_add_mod, grant_sum] }

theorem WithinLimits.handle_iff (within : state.WithinLimits ticksPerSecond)
    (accounted : state.Accounted) (later : state.NotBefore timed) :
    (state.handle ticksPerSecond timed).WithinLimits ticksPerSecond ↔
      state.Rounds ticksPerSecond timed := by
  have current : (state.atTime ticksPerSecond timed.time).Accounted := accounted.atTime later
  have before : (state.atTime ticksPerSecond timed.time).WithinLimits ticksPerSecond :=
    within.atTime accounted later
  unfold Rounds
  simp only
  cases throttled : (state.atTime ticksPerSecond timed.time).control.exceeds timed.request
      ticksPerSecond timed.time with
  | true =>
    rw [handle_of_exceeds throttled]
    apply iff_of_true _ (.inl rfl)
    intro type
    rw [throttle_elapsed]
    exact before type
  | false =>
    rw [handle_of_not_exceeds throttled, ← current.admits_iff throttled]
    constructor
    · intro after
      have own := after timed.request.type
      rw [grant_admitted_self, grant_elapsed] at own
      exact .inr own
    · intro fits type
      rw [grant_elapsed, grant_limits]
      by_cases same : type = timed.request.type
      · subst type
        rw [grant_admitted_self]
        exact fits.resolve_left (by simp)
      · rw [grant_admitted_other same]
        exact before type

end Request

end ThrottledCgroup

open ThrottledCgroup in
/-- In every run of requests the bytes of a window stay within the limits up to
the first request that the rounding admits wrongly. -/
theorem requestRun_withinLimits_iff (ticksPerSecond : BitVec 32) (state : ThrottledCgroup)
    (requests : List TimedRequest) (accounted : state.Accounted)
    (nondecreasing : Meets (handle ticksPerSecond) NotBefore state requests) :
    Throughout (handle ticksPerSecond) (WithinLimits ticksPerSecond) state requests ↔
      state.WithinLimits ticksPerSecond ∧
        Meets (handle ticksPerSecond) (Rounds ticksPerSecond) state requests := by
  apply throughout_iff_start_meets Accounted accounted nondecreasing
  · intro state timed accounted later
    exact accounted.handle later
  · intro state timed accounted later within
    exact within.handle_iff accounted later

/-- A cgroup that may read 100 bytes in a second, at the start of a window. -/
def hundredBytes : ThrottledCgroup where
  control := .initial 1 ⟨100, 100, 1000⟩ 0
  now := 0
  admitted := fun _ => 0

theorem hundredBytes_accounted : hundredBytes.Accounted := ⟨by decide, by decide⟩

theorem hundredBytes_within : hundredBytes.WithinLimits 100 := by
  intro type
  cases type <;> decide

/-- With 100 ticks in a second, one byte in one tick is within the limit. -/
theorem oneByte_within : Throughout (ThrottledCgroup.handle 100) (ThrottledCgroup.WithinLimits 100)
    hundredBytes [⟨⟨1, .read⟩, 1⟩] := by
  have nondecreasing : Meets (ThrottledCgroup.handle 100) ThrottledCgroup.NotBefore hundredBytes
      [⟨⟨1, .read⟩, 1⟩] := ⟨by decide, trivial⟩
  apply (requestRun_withinLimits_iff 100 hundredBytes _ hundredBytes_accounted nondecreasing).mpr
  refine ⟨hundredBytes_within, ?_, trivial⟩
  exact .inr (by decide)

/-- Three bytes are admitted after two ticks, where the limit allows two. -/
theorem threeBytes_admitted : ¬ ∀ (ticksPerSecond : BitVec 32) (state : ThrottledCgroup)
    (requests : List TimedRequest), state.Accounted →
      state.WithinLimits ticksPerSecond →
      Meets (ThrottledCgroup.handle ticksPerSecond) ThrottledCgroup.NotBefore state requests →
      Throughout (ThrottledCgroup.handle ticksPerSecond)
        (ThrottledCgroup.WithinLimits ticksPerSecond) state requests := by
  intro claim
  have always := claim 100 hundredBytes [⟨⟨3, .read⟩, 2⟩] hundredBytes_accounted
    hundredBytes_within ⟨by decide, trivial⟩
  exact absurd (always.final .read) (by decide)

end RTContainer.Score
