import Mathlib.Data.List.Basic
import Mathlib.Data.Nat.Bitwise

/-! Runs of a deterministic machine. A run is the list of its calls; the state
in which each call is made is the result of the calls before it. -/

set_option autoImplicit false

namespace Machine

/-- The numerals of small types of names that calls are given over. -/
instance (priority := high) neZero_two : NeZero 2 := ⟨by decide⟩

instance (priority := high) neZero_three : NeZero 3 := ⟨by decide⟩

variable {State Call : Type}

def run (step : State → Call → State) : State → List Call → State
  | state, [] => state
  | state, call :: rest => run step (step state call) rest

def Meets (step : State → Call → State) (condition : State → Call → Prop) :
    State → List Call → Prop
  | _, [] => True
  | state, call :: rest => condition state call ∧ Meets step condition (step state call) rest

/-- A property holds in every state reached, the first and the last included. -/
def Throughout (step : State → Call → State) (property : State → Prop) :
    State → List Call → Prop
  | state, [] => property state
  | state, call :: rest => property state ∧ Throughout step property (step state call) rest

def observe {Seen : Type} (step : State → Call → State) (sees : State → Call → Seen) :
    State → List Call → List Seen
  | _, [] => []
  | state, call :: rest => sees state call :: observe step sees (step state call) rest

variable {step : State → Call → State} {condition : State → Call → Prop}
variable {property invariant : State → Prop}

@[simp] theorem run_nil (state : State) : run step state [] = state := rfl

@[simp] theorem run_cons (state : State) (call : Call) (rest : List Call) :
    run step state (call :: rest) = run step (step state call) rest := rfl

@[simp] theorem meets_nil (state : State) : Meets step condition state [] := trivial

@[simp] theorem meets_cons {state : State} {call : Call} {rest : List Call} :
    Meets step condition state (call :: rest) ↔
      condition state call ∧ Meets step condition (step state call) rest := Iff.rfl

instance decidableMeets [∀ state call, Decidable (condition state call)] (state : State)
    (calls : List Call) : Decidable (Meets step condition state calls) :=
  match calls with
  | [] => isTrue trivial
  | call :: rest =>
    have := decidableMeets (step state call) rest
    inferInstanceAs (Decidable (condition state call ∧ Meets step condition _ rest))

theorem meets_of_forall (always : ∀ state call, condition state call) (state : State)
    (calls : List Call) : Meets step condition state calls := by
  induction calls generalizing state with
  | nil => exact meets_nil state
  | cons call rest ih => exact ⟨always state call, ih (step state call)⟩

variable {state : State} {calls : List Call}

theorem Throughout.start (always : Throughout step property state calls) : property state := by
  cases calls with
  | nil => exact always
  | cons call rest => exact always.1

theorem Throughout.final (always : Throughout step property state calls) :
    property (run step state calls) := by
  induction calls generalizing state with
  | nil => exact always
  | cons call rest ih => exact ih always.2

@[simp] theorem run_append (state : State) (before after : List Call) :
    run step state (before ++ after) = run step (run step state before) after := by
  induction before generalizing state with
  | nil => rfl
  | cons call rest ih => exact ih (step state call)

theorem meets_append {before after : List Call} :
    Meets step condition state (before ++ after) ↔
      Meets step condition state before ∧ Meets step condition (run step state before) after := by
  induction before generalizing state with
  | nil => simp
  | cons call rest ih => simp [ih, and_assoc]

/-- Events, some of which are calls of the machine. -/
theorem meets_filterMap {Event : Type} {chosen : Event → Option Call} {events : List Event} :
    Meets step condition state (events.filterMap chosen) ↔
      Meets (fun state event => (chosen event).elim state (step state))
        (fun state event => ∀ call, chosen event = some call → condition state call)
        state events := by
  induction events generalizing state with
  | nil => simp
  | cons event rest ih => cases found : chosen event <;> simp [found, ih]

theorem Meets.imp {weaker : State → Call → Prop} (met : Meets step condition state calls)
    (implies : ∀ state call, condition state call → weaker state call) :
    Meets step weaker state calls := by
  induction calls generalizing state with
  | nil => exact meets_nil state
  | cons call rest ih => exact ⟨implies state call met.1, ih met.2⟩

theorem Meets.and {second : State → Call → Prop} (met : Meets step condition state calls)
    (metSecond : Meets step second state calls) :
    Meets step (fun state call => condition state call ∧ second state call) state calls := by
  induction calls generalizing state with
  | nil => exact meets_nil state
  | cons call rest ih => exact ⟨⟨met.1, metSecond.1⟩, ih met.2 metSecond.2⟩

theorem Throughout.imp {weaker : State → Prop} (always : Throughout step property state calls)
    (implies : ∀ state, property state → weaker state) : Throughout step weaker state calls := by
  induction calls generalizing state with
  | nil => exact implies state always
  | cons call rest ih => exact ⟨implies state always.1, ih always.2⟩

/-- A ghost that goes along with the state changes nothing in it. -/
theorem Throughout.of_ghost {Ghost : Type} {ghost : Ghost}
    {ghostStep : State × Ghost → Call → State × Ghost}
    (always : Throughout ghostStep (fun state => property state.1) (state, ghost) calls)
    (same : ∀ state ghost call, (ghostStep (state, ghost) call).1 = step state call) :
    Throughout step property state calls := by
  induction calls generalizing state ghost with
  | nil => exact always
  | cons call rest ih =>
    refine ⟨always.1, @ih _ (ghostStep (state, ghost) call).2 ?_⟩
    rw [← same state ghost call]
    exact always.2

theorem throughout_of_preserved {state : State} {calls : List Call}
    (start : invariant state)
    (preserved : ∀ state call, invariant state → condition state call → invariant (step state call))
    (met : Meets step condition state calls) :
    Throughout step invariant state calls := by
  induction calls generalizing state with
  | nil => exact start
  | cons call rest ih => exact ⟨start, ih (preserved state call start met.1) met.2⟩

theorem meets_of_preserved (invariant : State → Prop) {property : State → Call → Prop}
    (start : invariant state) (preserved : ∀ state call, invariant state → condition state call →
      invariant (step state call))
    (gives : ∀ state call, invariant state → condition state call → property state call)
    (met : Meets step condition state calls) : Meets step property state calls := by
  induction calls generalizing state with
  | nil => exact meets_nil state
  | cons call rest ih =>
    exact ⟨gives state call start met.1, ih (preserved state call start met.1) met.2⟩

theorem throughout_iff_meets (invariant : State → Prop) {promised : State → Call → Prop}
    {state : State} {calls : List Call} (start : invariant state)
    (promises : Meets step promised state calls)
    (preserved : ∀ state call, invariant state → promised state call → condition state call →
      invariant (step state call))
    (sufficient : ∀ state, invariant state → property state)
    (necessary : ∀ state call, invariant state → promised state call → ¬ condition state call →
      ¬ property (step state call)) :
    Throughout step property state calls ↔ Meets step condition state calls := by
  constructor
  · intro always
    induction calls generalizing state with
    | nil => exact meets_nil state
    | cons call rest ih =>
      by_cases met : condition state call
      · exact ⟨met, ih (preserved state call start promises.1 met) promises.2 always.2⟩
      · exact absurd always.2.start (necessary state call start promises.1 met)
  · intro met
    induction calls generalizing state with
    | nil => exact sufficient state start
    | cons call rest ih =>
      exact ⟨sufficient state start,
        ih (preserved state call start promises.1 met.1) promises.2 met.2⟩

theorem throughout_and_meets_iff (invariant : State → Prop)
    {promised observed : State → Call → Prop} (start : invariant state)
    (promises : Meets step promised state calls)
    (preserved : ∀ state call, invariant state → promised state call → invariant (step state call))
    (agrees : ∀ state call, invariant state → promised state call → property state →
      (property (step state call) ∧ observed state call ↔ condition state call)) :
    Throughout step property state calls ∧ Meets step observed state calls ↔
      property state ∧ Meets step condition state calls := by
  induction calls generalizing state with
  | nil => exact ⟨fun given => ⟨given.1, trivial⟩, fun given => ⟨given.1, trivial⟩⟩
  | cons call rest ih =>
    have tail := ih (preserved state call start promises.1) promises.2
    constructor
    · intro given
      obtain ⟨always, observes⟩ := given
      have kept := (agrees state call start promises.1 always.1).mp ⟨always.2.start, observes.1⟩
      exact ⟨always.1, kept, (tail.mp ⟨always.2, observes.2⟩).2⟩
    · intro given
      have kept := (agrees state call start promises.1 given.1).mpr given.2.1
      have later := tail.mpr ⟨kept.1, given.2.2⟩
      exact ⟨⟨given.1, later.1⟩, kept.2, later.2⟩

theorem throughout_iff_start_meets (invariant : State → Prop) {promised : State → Call → Prop}
    (start : invariant state) (promises : Meets step promised state calls)
    (preserved : ∀ state call, invariant state → promised state call → invariant (step state call))
    (agrees : ∀ state call, invariant state → promised state call → property state →
      (property (step state call) ↔ condition state call)) :
    Throughout step property state calls ↔ property state ∧ Meets step condition state calls := by
  have observed : Meets step (fun _ _ => True) state calls :=
    meets_of_forall (fun _ _ => trivial) state calls
  have both : Throughout step property state calls ∧ Meets step (fun _ _ => True) state calls ↔
      property state ∧ Meets step condition state calls := by
    apply throughout_and_meets_iff invariant start promises preserved
    intro state call holds promised hasProperty
    rw [and_iff_left trivial]
    exact agrees state call holds promised hasProperty
  rw [← both, and_iff_left observed]

theorem meets_iff_meets (invariant : State → Prop) {promised property : State → Call → Prop}
    (start : invariant state) (promises : Meets step promised state calls)
    (preserved : ∀ state call, invariant state → promised state call → condition state call →
      invariant (step state call)) (agrees : ∀ state call, invariant state → promised state call →
      (property state call ↔ condition state call)) :
    Meets step property state calls ↔ Meets step condition state calls := by
  induction calls generalizing state with
  | nil => exact Iff.rfl
  | cons call rest ih =>
    have first := agrees state call start promises.1
    constructor
    · rintro ⟨has, hasRest⟩
      have met := first.mp has
      exact ⟨met, (ih (preserved state call start promises.1 met) promises.2).mp hasRest⟩
    · rintro ⟨met, metRest⟩
      exact ⟨first.mpr met, (ih (preserved state call start promises.1 met) promises.2).mpr metRest⟩

theorem observe_eq_of_related {Other Seen : Type} {otherStep : Other → Call → Other}
    {sees : State → Call → Seen} {otherSees : Other → Call → Seen} (related : State → Other → Prop)
    (shows : ∀ state other call, related state other → sees state call = otherSees other call)
    (stays : ∀ state other call, related state other →
      related (step state call) (otherStep other call)) {other : Other}
    (start : related state other) (calls : List Call) :
    observe step sees state calls = observe otherStep otherSees other calls := by
  induction calls generalizing state other with
  | nil => rfl
  | cons call rest ih =>
    have rests := ih (stays state other call start)
    simp only [observe, shows state other call start, rests]

end Machine
