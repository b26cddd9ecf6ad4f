import Mathlib.Order.WellFounded

/-! Graphs in which a node has at most one successor, and the walks along them. One
successor is changed at a time. -/

set_option autoImplicit false

namespace Walk

open Function

variable {Node : Type} (next : Node → Option Node)

def Step (source target : Node) : Prop := next source = some target

/-- The walk from one node comes to another one. -/
def Reaches : Node → Node → Prop := Relation.ReflTransGen (Step next)

/-- Every walk ends. -/
def Ends : Prop :=
  ∀ node, Acc (fun after before => Step next before after) node

def Acyclic : Prop :=
  ∀ node, ¬ Relation.TransGen (Step next) node node

variable {next}

theorem Reaches.refl (node : Node) : Reaches next node node := Relation.ReflTransGen.refl

variable {source target start : Node} {successor : Option Node}

theorem reaches_of_none (stops : next source = none) :
    Reaches next source target ↔ source = target := by
  constructor
  · intro reaches
    rcases Relation.ReflTransGen.cases_head reaches with same | ⟨middle, first, _⟩
    · exact same
    · cases first.symm.trans stops
  · rintro rfl
    exact Reaches.refl source

theorem reaches_of_some {middle : Node} (continues : next source = some middle) :
    Reaches next source target ↔ source = target ∨ Reaches next middle target := by
  constructor
  · intro reaches
    rcases Relation.ReflTransGen.cases_head reaches with same | ⟨other, first, rest⟩
    · exact .inl same
    · cases first.symm.trans continues
      exact .inr rest
  · rintro (rfl | rest)
    · exact Reaches.refl source
    · exact Relation.ReflTransGen.head continues rest

theorem Ends.acyclic (ends : Ends next) : Acyclic next := by
  intro node
  induction ends node with
  | intro node _ ih =>
    intro cycle
    obtain ⟨middle, first, rest⟩ := Relation.TransGen.head'_iff.mp cycle
    exact ih middle first (Relation.TransGen.tail' rest first)

theorem ends_of_none (stops : ∀ node, next node = none) : Ends next :=
  fun node => .intro node fun _ first => nomatch (stops node).symm.trans first

theorem Ends.induction (ends : Ends next) {property : Node → Prop}
    (step : ∀ node, (∀ later, Relation.TransGen (Step next) node later → property later) →
      property node) (node : Node) : property node := by
  have wellFounded : WellFounded fun after before => Step next before after := ⟨ends⟩
  induction wellFounded.transGen.apply node with
  | intro node _ ih =>
    exact step node fun later follows => ih later (Relation.transGen_swap.mpr follows)

variable [DecidableEq Node]

theorem step_update_of_ne (apart : source ≠ start) :
    Step (update next start successor) source target ↔ Step next source target := by
  unfold Step
  rw [update_of_ne apart]

private theorem Reaches.update (reaches : Reaches next source start) (successor : Option Node) :
    Reaches (update next start successor) source start := by
  induction reaches using Relation.ReflTransGen.head_induction_on with
  | refl => exact Reaches.refl start
  | @head source middle first _ ih =>
    by_cases same : source = start
    · exact same ▸ Reaches.refl source
    · exact Relation.ReflTransGen.head ((step_update_of_ne same).mpr first) ih

/-- How a node comes to `start` does not depend on where `start` leads. -/
private theorem reaches_update_iff (successor : Option Node) :
    Reaches (update next start successor) source start ↔ Reaches next source start := by
  refine ⟨fun reaches => ?_, fun reaches => reaches.update successor⟩
  have back := reaches.update (next start)
  rwa [update_idem, update_eq_self] at back

theorem Ends.update_none (ends : Ends next) (start : Node) : Ends (update next start none) := by
  intro node
  induction ends node with
  | intro node _ ih =>
    refine .intro node fun target first => ih target ?_
    by_cases same : node = start
    · subst same
      rw [Step, update_self] at first
      cases first
    · exact (step_update_of_ne same).mp first

theorem Ends.acc_of_avoids (ends : Ends next) (node : Node) (avoids : ¬ Reaches next node start) :
    Acc (fun after before => Step (update next start successor) before after) node := by
  induction ends node with
  | intro node _ ih =>
    refine .intro node fun target first => ?_
    have apart : node ≠ start := fun same => avoids (same ▸ Reaches.refl node)
    have before := (step_update_of_ne apart).mp first
    exact ih target before fun reaches => avoids (Relation.ReflTransGen.head before reaches)

/-- An edge whose end does not lead back to its start closes no cycle. -/
theorem Ends.update_some (ends : Ends next) (avoids : ¬ Reaches next target start) :
    Ends (update next start (some target)) := by
  have fromStart : Acc (fun after before =>
      Step (update next start (some target)) before after) start := by
    refine .intro start fun successor first => ?_
    rw [Step, update_self] at first
    obtain rfl := Option.some.inj first
    exact ends.acc_of_avoids _ avoids
  intro node
  induction ends node with
  | intro node _ ih =>
    by_cases same : node = start
    · subst same
      exact fromStart
    · exact .intro node fun successor first => ih successor ((step_update_of_ne same).mp first)

/-- An edge closes a cycle exactly when its end leads back to its start. -/
theorem Ends.acyclic_update_some_iff (ends : Ends next) :
    Acyclic (update next start (some target)) ↔ ¬ Reaches next target start := by
  constructor
  · intro acyclic reaches
    have first : Step (update next start (some target)) start target := by
      rw [Step, update_self]
    exact acyclic start (Relation.TransGen.head' first ((reaches_update_iff _).mpr reaches))
  · exact fun avoids => (ends.update_some avoids).acyclic

end Walk
