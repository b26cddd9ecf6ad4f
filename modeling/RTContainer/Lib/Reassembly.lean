import Mathlib.Data.List.Induction
import RTContainer.Lib.Run

/-! A stream which arrives in pieces and is handled in units. The unit which is
expected next, and its size, depend on the state left by the units before it. -/

set_option autoImplicit false

namespace Reassembly

variable {State Status Byte : Type}

/-- `deliver` handles a whole unit and says whether to go on; it may go wrong. -/
structure Reader (State Status Byte : Type) where
  size : State → Nat
  positive : ∀ state, 0 < size state
  success : Status
  stopped : State → Option Status
  deliver : State → List Byte → Option (Status × State)

/-- The beginning of a unit is kept until the rest of it arrives. -/
structure Pending (reader : Reader State Status Byte) where
  state : State
  bytes : List Byte
  short : bytes.length < reader.size state

variable (reader : Reader State Status Byte)

def fresh (state : State) : Pending reader := ⟨state, [], reader.positive state⟩

variable {reader}

namespace Pending

def todo (pending : Pending reader) : Nat := reader.size pending.state - pending.bytes.length

theorem todo_pos (pending : Pending reader) : 0 < pending.todo :=
  Nat.sub_pos_of_lt pending.short

def unit (pending : Pending reader) (buffer : List Byte) : List Byte :=
  pending.bytes ++ buffer.take pending.todo

def extend (pending : Pending reader) (buffer : List Byte)
    (part : buffer.length < pending.todo) : Pending reader :=
  { pending with
    bytes := pending.bytes ++ buffer
    short := by
      have short := pending.short
      rw [List.length_append]
      unfold todo at part
      omega }

@[simp] theorem todo_extend {pending : Pending reader} {buffer : List Byte}
    (part : buffer.length < pending.todo) :
    (pending.extend buffer part).todo = pending.todo - buffer.length := by
  simp only [extend, todo, List.length_append]
  omega

private theorem unit_extend {pending : Pending reader} {buffer rest : List Byte}
    (part : buffer.length < pending.todo) :
    (pending.extend buffer part).unit rest = pending.unit (buffer ++ rest) := by
  rw [unit, todo_extend, unit, List.take_append, List.take_of_length_le (Nat.le_of_lt part),
    ← List.append_assoc]
  rfl

end Pending

variable [DecidableEq Status]

def consume (pending : Pending reader) (buffer : List Byte) : Option (Status × Pending reader) :=
  if full : pending.todo ≤ buffer.length then
    match reader.deliver pending.state (pending.unit buffer) with
    | none => none
    | some (status, state) =>
      if status = reader.success then
        consume (fresh reader state) (buffer.drop pending.todo)
      else some (status, fresh reader state)
  else some (reader.success, pending.extend buffer (Nat.lt_of_not_le full))
termination_by buffer.length
decreasing_by
  have positive := pending.todo_pos
  rw [List.length_drop]
  omega

def run (pending : Pending reader) (buffer : List Byte) : Option (Status × Pending reader) :=
  match reader.stopped pending.state with
  | some status => some (status, pending)
  | none => consume pending buffer

/-- One run for each piece. The result is that of the last. -/
def runs (pending : Pending reader) (pieces : List (List Byte)) :
    Option (Status × Pending reader) :=
  pieces.foldlM (fun result piece => run result.2 piece) (reader.success, pending)

/-- A unit stops the reader exactly when its status says so, and the reader keeps that status. -/
def Settles (reader : Reader State Status Byte) : Prop :=
  ∀ state unit status after, reader.stopped state = none →
    reader.deliver state unit = some (status, after) →
    reader.stopped after = if status = reader.success then none else some status

variable {pending : Pending reader} {buffer : List Byte}

theorem consume_full (full : pending.todo ≤ buffer.length) :
    consume pending buffer = (reader.deliver pending.state (pending.unit buffer)).bind
      fun delivered => if delivered.1 = reader.success then
        consume (fresh reader delivered.2) (buffer.drop pending.todo)
      else some (delivered.1, fresh reader delivered.2) := by
  rw [consume, dif_pos full]
  cases reader.deliver pending.state (pending.unit buffer) <;> rfl

theorem consume_part (part : buffer.length < pending.todo) :
    consume pending buffer = some (reader.success, pending.extend buffer part) := by
  rw [consume, dif_neg (Nat.not_le_of_lt part)]

theorem run_of_stopped {status : Status} (stopped : reader.stopped pending.state = some status)
    (buffer : List Byte) : run pending buffer = some (status, pending) := by
  rw [run, stopped]

theorem run_of_open (going : reader.stopped pending.state = none) (buffer : List Byte) :
    run pending buffer = consume pending buffer := by
  rw [run, going]

omit [DecidableEq Status] in
theorem extend_nil (pending : Pending reader) (part : ([] : List Byte).length < pending.todo) :
    pending.extend [] part = pending := by
  cases pending
  simp [Pending.extend]

theorem consume_nil (pending : Pending reader) :
    consume pending [] = some (reader.success, pending) := by
  have part : ([] : List Byte).length < pending.todo := pending.todo_pos
  rw [consume_part part, extend_nil]

/-- What is left of the first piece is completed by the second. -/
theorem consume_extend {front : List Byte} (part : front.length < pending.todo) (back : List Byte) :
    consume (pending.extend front part) back = consume pending (front ++ back) := by
  rcases Nat.lt_or_ge back.length (pending.extend front part).todo with partial' | full
  · have joined : (front ++ back).length < pending.todo := by
      rw [Pending.todo_extend] at partial'
      rw [List.length_append]
      omega
    rw [consume_part partial', consume_part joined]
    simp [Pending.extend, List.append_assoc]
  · have joined : pending.todo ≤ (front ++ back).length := by
      rw [Pending.todo_extend] at full
      rw [List.length_append]
      omega
    rw [consume_full full, consume_full joined, Pending.unit_extend, Pending.todo_extend,
      List.drop_append, List.drop_eq_nil_of_le (Nat.le_of_lt part), List.nil_append]
    rfl

theorem consume_append (settles : Settles reader) (front : List Byte) :
    ∀ pending : Pending reader, reader.stopped pending.state = none → ∀ back,
      consume pending (front ++ back) =
        (consume pending front).bind fun result => run result.2 back := by
  induction length : front.length using Nat.strongRecOn generalizing front with
  | _ count ih =>
    intro pending going back
    rcases Nat.lt_or_ge front.length pending.todo with part | full
    · have still : reader.stopped (pending.extend front part).state = none := going
      rw [consume_part part, Option.bind_some, run_of_open still, consume_extend]
    · have joined : pending.todo ≤ (front ++ back).length := by
        rw [List.length_append]
        omega
      have unit : pending.unit (front ++ back) = pending.unit front := by
        rw [Pending.unit, List.take_append_of_le_length full, Pending.unit]
      rw [consume_full full, consume_full joined, unit, List.drop_append_of_le_length full]
      cases delivered : reader.deliver pending.state (pending.unit front) with
      | none => rfl
      | some result =>
        obtain ⟨status, after⟩ := result
        have stopped := settles _ _ _ _ going delivered
        simp only [Option.bind_some]
        split at stopped
        next success =>
          have positive := pending.todo_pos
          rw [if_pos success, if_pos success]
          refine ih (front.drop pending.todo).length ?_ _ rfl (fresh reader after) stopped back
          rw [List.length_drop]
          omega
        next failed =>
          have halted : reader.stopped (fresh reader after).state = some status := stopped
          rw [if_neg failed, if_neg failed, Option.bind_some, run_of_stopped halted]

theorem run_append (settles : Settles reader) (pending : Pending reader)
    (front back : List Byte) :
    run pending (front ++ back) = (run pending front).bind fun result => run result.2 back := by
  cases stopped : reader.stopped pending.state with
  | some status =>
    rw [run_of_stopped stopped, run_of_stopped stopped, Option.bind_some, run_of_stopped stopped]
  | none =>
    rw [run_of_open stopped, run_of_open stopped]
    exact consume_append settles front pending stopped back

/-- How the stream is cut makes no difference. -/
theorem runs_flatten (settles : Settles reader) (going : reader.stopped pending.state = none)
    (pieces : List (List Byte)) : runs pending pieces = run pending pieces.flatten := by
  induction pieces using List.reverseRecOn with
  | nil => rw [List.flatten_nil, run_of_open going, consume_nil]; rfl
  | append_singleton pieces piece ih =>
    rw [List.flatten_concat, run_append settles, ← ih, runs, List.foldlM_append]
    refine congrArg (Option.bind _) (funext fun result => ?_)
    exact bind_pure (run result.2 piece)

theorem consume_unit {state : State} {unit : List Byte}
    (sized : unit.length = reader.size state) (rest : List Byte) :
    consume (fresh reader state) (unit ++ rest) = (reader.deliver state unit).bind
      fun delivered => if delivered.1 = reader.success then
        consume (fresh reader delivered.2) rest
      else some (delivered.1, fresh reader delivered.2) := by
  have todo : (fresh reader state).todo = unit.length := sized.symm
  have full : (fresh reader state).todo ≤ (unit ++ rest).length := by
    rw [todo, List.length_append]
    exact Nat.le_add_right _ _
  have taken : (fresh reader state).unit (unit ++ rest) = unit := by
    rw [Pending.unit, todo, List.take_left]
    rfl
  rw [consume_full full, taken, todo, List.drop_left]
  rfl

/-- Each unit which a run delivers, with the state in which it does. -/
def visits (pending : Pending reader) (buffer : List Byte) : List (State × List Byte) :=
  if pending.todo ≤ buffer.length then
    (pending.state, pending.unit buffer) ::
      match reader.deliver pending.state (pending.unit buffer) with
      | none => []
      | some (status, state) =>
        if status = reader.success then
          visits (fresh reader state) (buffer.drop pending.todo)
        else []
  else []
termination_by buffer.length
decreasing_by
  have positive := pending.todo_pos
  rw [List.length_drop]
  omega

def visitsAll (pending : Pending reader) : List (List Byte) → List (State × List Byte)
  | [] => []
  | piece :: rest =>
    (match reader.stopped pending.state with
      | some _ => []
      | none => visits pending piece) ++
    match run pending piece with
    | none => []
    | some (_, after) => visitsAll after rest

section Invariant

variable {Ghost : Type} {next : Ghost → State × List Byte → Ghost}
variable {invariant : Ghost → State → Prop} {condition : Ghost → State × List Byte → Prop}

/-- A unit which meets the condition is delivered and keeps the invariant. A ghost, which the
reader does not have, goes on with every unit. -/
def Preserves (reader : Reader State Status Byte) (next : Ghost → State × List Byte → Ghost)
    (invariant : Ghost → State → Prop) (condition : Ghost → State × List Byte → Prop) : Prop :=
  ∀ ghost state unit, reader.stopped state = none → invariant ghost state →
    condition ghost (state, unit) →
    ∃ status after, reader.deliver state unit = some (status, after) ∧
      invariant (next ghost (state, unit)) after ∧
      (status = reader.success → reader.stopped after = none)

theorem consume_preserves (preserves : Preserves reader next invariant condition) (ghost : Ghost)
    (pending : Pending reader) (buffer : List Byte)
    (going : reader.stopped pending.state = none) (kept : invariant ghost pending.state)
    (met : Machine.Meets next condition ghost (visits pending buffer)) :
    (∃ status after, consume pending buffer = some (status, after) ∧
      invariant (Machine.run next ghost (visits pending buffer)) after.state) ∧
      ∀ visit ∈ visits pending buffer, reader.stopped visit.1 = none ∧
        ∃ ghost, invariant ghost visit.1 ∧ condition ghost visit := by
  induction length : buffer.length using Nat.strongRecOn generalizing ghost pending buffer with
  | _ count ih =>
    rw [visits] at met ⊢
    rcases Nat.lt_or_ge buffer.length pending.todo with part | full
    · rw [if_neg (Nat.not_le_of_lt part), consume_part part]
      exact ⟨⟨_, _, rfl, kept⟩, fun visit listed => absurd listed List.not_mem_nil⟩
    · rw [if_pos full] at met ⊢
      have first := met.1
      obtain ⟨status, after, delivered, keptAfter, goingAfter⟩ :=
        preserves _ _ _ going kept first
      rw [consume_full full]
      simp only [delivered, Option.bind_some, Machine.meets_cons, Machine.run_cons] at met ⊢
      split at met
      next success =>
        have positive := pending.todo_pos
        have shorter : (buffer.drop pending.todo).length < count := by
          rw [List.length_drop]
          omega
        have rest := ih _ shorter _ (fresh reader after) _ (goingAfter success) keptAfter met.2 rfl
        rw [if_pos success, if_pos success]
        exact ⟨rest.1, List.forall_mem_cons.2 ⟨⟨going, _, kept, first⟩, rest.2⟩⟩
      next failed =>
        rw [if_neg failed, if_neg failed]
        exact ⟨⟨_, _, rfl, keptAfter⟩, List.forall_mem_singleton.2 ⟨going, _, kept, first⟩⟩

/-- An invariant holds in whatever state a run of pieces ends and delivers a unit. -/
theorem runs_preserves (preserves : Preserves reader next invariant condition)
    (pieces : List (List Byte)) (ghost : Ghost) (pending : Pending reader)
    (kept : invariant ghost pending.state)
    (met : Machine.Meets next condition ghost (visitsAll pending pieces)) (status : Status) :
    (∃ status' after, pieces.foldlM (fun result piece => run result.2 piece) (status, pending) =
        some (status', after) ∧
      invariant (Machine.run next ghost (visitsAll pending pieces)) after.state) ∧
      ∀ visit ∈ visitsAll pending pieces, reader.stopped visit.1 = none ∧
        ∃ ghost, invariant ghost visit.1 ∧ condition ghost visit := by
  induction pieces generalizing ghost pending status with
  | nil => exact ⟨⟨_, _, rfl, kept⟩, fun visit listed => absurd listed List.not_mem_nil⟩
  | cons piece rest ih =>
    rw [visitsAll, Machine.meets_append] at met
    rw [List.foldlM_cons, visitsAll, List.forall_mem_append, Machine.run_append]
    cases stopped : reader.stopped pending.state with
    | some held =>
      simp only [stopped, run_of_stopped stopped, Machine.run_nil] at met ⊢
      have later := ih ghost pending kept met.2 held
      exact ⟨later.1, fun visit listed => absurd listed List.not_mem_nil, later.2⟩
    | none =>
      simp only [stopped] at met ⊢
      have now := consume_preserves preserves ghost pending piece stopped kept met.1
      obtain ⟨⟨status', after, consumed, keptAfter⟩, visited⟩ := now
      rw [← run_of_open stopped] at consumed
      simp only [consumed] at met ⊢
      have later := ih _ after keptAfter met.2 status'
      exact ⟨later.1, visited, later.2⟩

end Invariant

end Reassembly
