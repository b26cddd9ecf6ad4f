import RTContainer.Score.ThreadQueueRelease

/-! The changes of the own priorities of a thread, and whole runs of the operations on the
threads and their queues. -/

set_option autoImplicit false

namespace RTContainer.Score

open Walk Machine

namespace ThreadQueues

variable {Thread Queue Node : Type} [DecidableEq Thread] [DecidableEq Queue]
variable {state : ThreadQueues Thread Queue Node}

variable {thread : Thread} {aggregation : PriorityAggregation (PriorityContributor Queue Node)}
variable {node : Node}

omit [DecidableEq Queue] in
theorem Linked.setWaitPriority {leaving : Thread → Prop} (linked : state.Linked leaving)
    (queues : ∀ queue, .queue queue ∈ aggregation.contributors ↔
      .queue queue ∈ (state.waitPriority thread).contributors)
    (active : ∀ node other, other ≠ thread → .node node ∈ aggregation.contributors →
      .node node ∉ (state.waitPriority other).contributors)
    (real : ∃ node, .node node ∈ aggregation.contributors) :
    (state.setWaitPriority thread aggregation).Linked leaving where
  __ := linked
  contributes other queue := by
    refine Iff.trans ?_ (linked.contributes other queue)
    by_cases same : other = thread
    · subst same
      rw [setWaitPriority_self]
      exact queues queue
    · rw [setWaitPriority_of_ne state same]
  active {node first second} inside insideOther := by
    by_cases isFirst : first = thread
    · by_cases isSecond : second = thread
      · exact isFirst.trans isSecond.symm
      · subst isFirst
        rw [setWaitPriority_self] at inside
        rw [setWaitPriority_of_ne state isSecond] at insideOther
        exact absurd insideOther (active node second isSecond inside)
    · rw [setWaitPriority_of_ne state isFirst] at inside
      by_cases isSecond : second = thread
      · subst isSecond
        rw [setWaitPriority_self] at insideOther
        exact absurd inside (active node first isFirst insideOther)
      · rw [setWaitPriority_of_ne state isSecond] at insideOther
        exact linked.active inside insideOther
  real other := by
    by_cases same : other = thread
    · subst same
      rw [setWaitPriority_self]
      exact real
    · rw [setWaitPriority_of_ne state same]
      exact linked.real other

def setNodePriority [DecidableEq Node] (state : ThreadQueues Thread Queue Node) (node : Node)
    (priority : Nat) : ThreadQueues Thread Queue Node :=
  { state with nodePriority := Function.update state.nodePriority node priority }

variable [DecidableEq Node]

section

omit [DecidableEq Thread] [DecidableEq Queue]

theorem Linked.setNodePriority {leaving : Thread → Prop} (linked : state.Linked leaving)
    (node : Node) (priority : Nat) : (state.setNodePriority node priority).Linked leaving where
  __ := linked

theorem setNodePriority_contribution (node : Node) (priority : Nat)
    {contributor : PriorityContributor Queue Node} (apart : contributor ≠ .node node) :
    (state.setNodePriority node priority).contribution contributor =
      state.contribution contributor := by
  cases contributor with
  | node other => exact Function.update_of_ne (fun same => apart (congrArg _ same)) ..
  | queue queue => rfl

variable {node : Node}

theorem Ordered.setNodePriority (ordered : state.Ordered) {thread : Thread}
    (inactive : ∀ other, other ≠ thread → .node node ∉ (state.waitPriority other).contributors)
    (priority : Nat) : (state.setNodePriority node priority).OrderedExcept thread where
  threads {other} apart := (ordered.threads other).congr fun _ inside =>
    setNodePriority_contribution node priority fun same => inactive other apart (same ▸ inside)
  queues queue := (ordered.queues queue).congr rfl rfl fun _ _ => rfl

theorem Settled.setNodePriority (settled : state.Settled)
    (inactive : ∀ other, .node node ∉ (state.waitPriority other).contributors) (priority : Nat) :
    (state.setNodePriority node priority).Settled where
  linked := settled.linked.setNodePriority node priority
  ordered :=
    { threads := fun other => (settled.ordered.threads other).congr fun _ inside =>
        setNodePriority_contribution node priority fun same => inactive other (same ▸ inside)
      queues := fun queue => (settled.ordered.queues queue).congr rfl rfl fun _ _ => rfl }

end

theorem Acts.threadPriorityApply {changes : Option PriorityGroupOrder}
    (acts : state.Acts thread aggregation changes fun _ => False)
    {node : PriorityContributor Queue Node} {type : PriorityActionType}
    {groupOrder : PriorityGroupOrder}
    (first : state.actOn ⟨thread, node, type⟩ groupOrder = some (aggregation, changes)) :
    ∃ after enough, (∀ fuel ≥ enough,
      state.threadPriorityApply fuel thread node groupOrder type = some after) ∧ after.Settled := by
  obtain ⟨performed, next?, performs, same, ordered, carries⟩ := acts.doPerformActions first rfl
  have linked := acts.linked.ofSame same
  cases next? with
  | none =>
    refine ⟨performed, 0, fun fuel _ => ?_, linked, ordered rfl⟩
    simp only [ThreadQueues.threadPriorityApply, performs]
  | some next =>
    have carriesOn := carries next rfl
    obtain ⟨queue, waits, owns, _⟩ := carriesOn.owner
    obtain ⟨_, _, second, _, actsSecond⟩ := carriesOn.acts linked (fun left => left) .last
    obtain ⟨after, enough, ends, settled⟩ := actsSecond.settles second rfl
    have leads : (state.waitQueue thread).bind performed.owner = some next.aggregation := by
      have waited : performed.waitQueue thread = state.waitQueue thread :=
        congrFun same.waitQueue thread
      rw [← waited, waits]
      exact owns
    refine ⟨after, enough, fun fuel enough => ?_, settled⟩
    simp only [ThreadQueues.threadPriorityApply, performs, leads]
    exact ends fuel enough

theorem Settled.threadPriorityAdd (settled : state.Settled) (thread : Thread)
    (inactive : ∀ other, .node node ∉ (state.waitPriority other).contributors) (priority : Nat) :
    ∃ after enough, (∀ fuel ≥ enough,
      state.threadPriorityAdd fuel thread node priority = some after) ∧ after.Settled := by
  have prepared := settled.setNodePriority inactive priority
  obtain ⟨own, isOwn⟩ := settled.linked.real thread
  obtain ⟨exact, perm, kept⟩ := (prepared.ordered.threads thread).nonEmptyInsert
    (List.ne_nil_of_mem isOwn) (inactive thread)
  have acts : (state.setNodePriority node priority).Acts thread _ _ fun _ => False :=
    { except :=
        { threads := fun {other} _ => prepared.ordered.threads other
          queues := prepared.ordered.queues }
      exact := exact
      same := kept
      linked := by
        refine prepared.linked.setWaitPriority (fun queue => ?_) (fun other holder apart inside => ?_)
          ⟨own, perm.mem_iff.mpr (List.mem_cons_of_mem _ isOwn)⟩
        · rw [perm.mem_iff]
          simp
        · rcases List.mem_cons.mp (perm.mem_iff.mp inside) with same | before
          · cases same
            exact inactive holder
          · exact fun insideOther => apart (settled.linked.active insideOther before)
      stays := fun left => left }
  exact acts.threadPriorityApply rfl

theorem Settled.threadPriorityRemove (settled : state.Settled)
    (inside : .node node ∈ (state.waitPriority thread).contributors)
    (another : ∃ other, other ≠ node ∧ .node other ∈ (state.waitPriority thread).contributors) :
    ∃ after enough, (∀ fuel ≥ enough, state.threadPriorityRemove fuel thread node = some after) ∧
      after.Settled := by
  obtain ⟨other, apart, isOther⟩ := another
  have remains : .node other ∈ (state.waitPriority thread).contributors.erase (.node node) :=
    (List.mem_erase_of_ne (by simpa using apart)).mpr isOther
  obtain ⟨aggregation, changes, removes, exact, erased, kept⟩ :=
    (settled.ordered.threads thread).extractNonEmpty inside (List.ne_nil_of_mem remains)
  have acts : state.Acts thread aggregation changes fun _ => False :=
    { except :=
        { threads := fun {other} _ => settled.ordered.threads other
          queues := settled.ordered.queues }
      exact := exact
      same := kept
      linked := by
        refine settled.linked.setWaitPriority (fun queue => ?_)
          (fun held holder distinct isInside insideOther => ?_) ⟨other, erased ▸ remains⟩
        · rw [erased]
          exact List.mem_erase_of_ne (by simp)
        · rw [erased] at isInside
          exact distinct (settled.linked.active insideOther (List.mem_of_mem_erase isInside))
      stays := fun left => left }
  exact acts.threadPriorityApply removes

theorem Settled.threadPriorityChange (settled : state.Settled)
    (own : ∀ other, .node node ∈ (state.waitPriority other).contributors → other = thread)
    (newPriority : Nat) (groupOrder : PriorityGroupOrder) :
    ∃ after enough, (∀ fuel ≥ enough,
      state.threadPriorityChange fuel thread node newPriority groupOrder = some after) ∧
        after.Settled := by
  have elsewhere : ∀ other, other ≠ thread → .node node ∉ (state.waitPriority other).contributors :=
    fun other apart inside => apart (own other inside)
  by_cases inside : .node node ∈ (state.waitPriority thread).contributors
  · have linked := settled.linked.setNodePriority node newPriority
    have exactBefore := settled.ordered.threads thread
    have except : (state.waitPriority thread).ExactExcept
        (state.setNodePriority node newPriority).contribution (.node node) := by
      refine ⟨inside, exactBefore.nodup, ?_⟩
      have kept : ∀ contributor ∈ (state.waitPriority thread).contributors.erase (.node node),
          (state.setNodePriority node newPriority).contribution contributor =
            state.contribution contributor := by
        intro contributor isInside
        refine setNodePriority_contribution node newPriority ?_
        rintro rfl
        exact exactBefore.nodup.not_mem_erase isInside
      refine (exactBefore.sorted.sublist List.erase_sublist).imp_of_mem
        fun insideLeft insideRight le => ?_
      rw [kept _ insideLeft, kept _ insideRight]
      exact le
    obtain ⟨exact, perm, same⟩ := except.changed groupOrder
    have acts : (state.setNodePriority node newPriority).Acts thread _ _ fun _ => False :=
      { except := settled.ordered.setNodePriority elsewhere newPriority
        exact := exact
        same := same
        linked := linked.ofSame (.setWaitPriority _ perm)
        stays := fun left => left }
    have first : (state.setNodePriority node newPriority).actOn ⟨thread, .node node, .change⟩
        groupOrder = some _ := rfl
    obtain ⟨after, enough, ends, settledAfter⟩ := acts.threadPriorityApply first
    exact ⟨after, enough, fun fuel enough => (if_pos inside).trans (ends fuel enough), settledAfter⟩
  · have inactive : ∀ other, .node node ∉ (state.waitPriority other).contributors := by
      intro other isInside
      exact inside (own other isInside ▸ isInside)
    exact ⟨_, 0, fun _ _ => if_neg inside, settled.setNodePriority inactive newPriority⟩

end ThreadQueues

/-- What the callers of the operations keep to: a thread that seizes, enqueues or surrenders
is executing, a queue on which a thread blocks has an owner, and a node of a thread is in one
aggregation only, with another one left when it is removed. -/
def ThreadQueuesCall.Possible {Thread Queue Node : Type} (state : ThreadQueues Thread Queue Node) :
    ThreadQueuesCall Thread Queue Node → Prop
  | .seize thread queue => state.waitQueue thread = none ∧ state.owner queue = none
  | .enqueue thread queue => state.waitQueue thread = none ∧ state.owner queue ≠ none
  | .extract _ => True
  | .surrender executing _ => state.waitQueue executing = none
  | .priorityAdd _ node _ => ∀ other, .node node ∉ (state.waitPriority other).contributors
  | .priorityRemove thread node =>
    .node node ∈ (state.waitPriority thread).contributors ∧
      ∃ other, other ≠ node ∧ .node other ∈ (state.waitPriority thread).contributors
  | .priorityChange thread node _ _ =>
    ∀ other, .node node ∈ (state.waitPriority other).contributors → other = thread

variable {Thread Queue Node : Type} [DecidableEq Thread] [DecidableEq Queue] [DecidableEq Node]
variable {state : ThreadQueues Thread Queue Node}

theorem ThreadQueues.Settled.perform (settled : state.Settled)
    {call : ThreadQueuesCall Thread Queue Node} (possible : call.Possible state) :
    ∃ after enough, (∀ fuel ≥ enough, call.perform fuel state = some after) ∧ after.Settled := by
  cases call with
  | seize thread queue =>
    exact ⟨_, 0, fun _ _ => rfl, settled.seize possible.1 possible.2⟩
  | enqueue thread queue =>
    obtain ⟨owner, owns⟩ := Option.ne_none_iff_exists'.mp possible.2
    obtain ⟨after, _, enough, ends, kept, _⟩ := settled.threadQueueEnqueue possible.1 owns
    exact ⟨after, enough, fun fuel large => congrArg (Option.map _) (ends fuel large), kept⟩
  | extract thread => exact settled.threadWaitCancel thread
  | surrender executing queue =>
    obtain ⟨after, ends, kept⟩ := settled.coreMutexSurrender possible queue
    exact ⟨after, 0, fun _ _ => ends, kept⟩
  | priorityAdd thread node priority => exact settled.threadPriorityAdd thread possible priority
  | priorityRemove thread node => exact settled.threadPriorityRemove possible.1 possible.2
  | priorityChange thread node newPriority groupOrder =>
    exact settled.threadPriorityChange possible newPriority groupOrder

/-- Every run of possible calls keeps the queues settled. -/
theorem ThreadQueues.Settled.run (settled : state.Settled)
    (calls : List (ThreadQueuesCall Thread Queue Node)) :
    ∃ enough, ∀ fuel ≥ enough,
      Meets (threadQueuesStep fuel) (fun state call => ∀ reached ∈ state, call.Possible reached)
        (some state) calls →
      Throughout (threadQueuesStep fuel) (fun state => ∃ reached ∈ state, reached.Settled)
        (some state) calls := by
  induction calls generalizing state with
  | nil => exact ⟨0, fun _ _ _ => ⟨state, rfl, settled⟩⟩
  | cons call rest ih =>
    by_cases possible : call.Possible state
    · obtain ⟨after, enough, ends, settledAfter⟩ := settled.perform possible
      obtain ⟨enoughRest, always⟩ := ih settledAfter
      refine ⟨max enough enoughRest, fun fuel large met => ⟨⟨state, rfl, settled⟩, ?_⟩⟩
      have performs : threadQueuesStep fuel (some state) call = some after :=
        ends fuel ((Nat.le_max_left ..).trans large)
      have metRest := met.2
      rw [performs] at metRest ⊢
      exact always fuel ((Nat.le_max_right ..).trans large) metRest
    · exact ⟨0, fun _ _ met => absurd (met.1 state rfl) possible⟩

end RTContainer.Score
