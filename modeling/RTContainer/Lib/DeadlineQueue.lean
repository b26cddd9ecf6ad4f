import Mathlib.Data.List.Sort

/-! Queues of named deadlines and the loop that fires what is due. Firing may
change the queue: the loop returns when no firing makes anything due, and it
never returns while something due comes back. -/

set_option autoImplicit false

namespace Deadlines

/-- Names with their deadlines in the order of the deadlines, each name once. -/
structure Queue (Name : Type) where
  entries : List (Name × Nat)
  ordered : entries.Pairwise fun first second => first.2 ≤ second.2
  distinct : (entries.map Prod.fst).Nodup

variable {Name State : Type}

/-- The entry behind those that are not later than it. -/
def place (entry : Name × Nat) (entries : List (Name × Nat)) : List (Name × Nat) :=
  entries.orderedInsert (fun first second => first.2 < second.2) entry

theorem place_perm (entry : Name × Nat) (entries : List (Name × Nat)) :
    (place entry entries).Perm (entry :: entries) :=
  List.perm_orderedInsert _ entry entries

@[simp] theorem mem_place {entry other : Name × Nat} {entries : List (Name × Nat)} :
    other ∈ place entry entries ↔ other = entry ∨ other ∈ entries := by
  rw [(place_perm entry entries).mem_iff, List.mem_cons]

variable {entries before after : List (Name × Nat)} {entry : Name × Nat} {state : State}

theorem place_ordered (entry : Name × Nat)
    (ordered : entries.Pairwise fun first second => first.2 ≤ second.2) :
    (place entry entries).Pairwise fun first second => first.2 ≤ second.2 := by
  induction entries with
  | nil => exact List.pairwise_singleton _ entry
  | cons head rest ih =>
    rw [List.pairwise_cons] at ordered
    by_cases earlier : entry.2 < head.2
    · have placed : place entry (head :: rest) = entry :: head :: rest := by
        simp [place, earlier]
      rw [placed, List.pairwise_cons, List.pairwise_cons]
      refine ⟨?_, ordered⟩
      intro other member
      cases List.mem_cons.mp member with
      | inl isHead => exact isHead ▸ earlier.le
      | inr later => exact earlier.le.trans (ordered.1 other later)
    · have placed : place entry (head :: rest) = head :: place entry rest := by
        simp [place, earlier]
      rw [placed, List.pairwise_cons]
      refine ⟨?_, ih ordered.2⟩
      intro other member
      cases mem_place.mp member with
      | inl isEntry => exact isEntry ▸ not_lt.mp earlier
      | inr later => exact ordered.1 other later

theorem place_append_of_lt {later : Name × Nat} (earlier : entry.2 < later.2) :
    place entry (before ++ later :: after) = place entry before ++ later :: after := by
  induction before with
  | nil => simp [place, earlier]
  | cons head rest ih =>
    by_cases inFront : entry.2 < head.2
    · simp [place, inFront]
    · simpa [place, inFront] using ih

theorem place_append_of_le {middle : Name × Nat}
    (notLater : ∀ other ∈ before ++ [middle], other.2 ≤ entry.2) :
    place entry (before ++ middle :: after) = before ++ middle :: place entry after := by
  induction before with
  | nil =>
    have behind := notLater middle (by simp)
    simp [place, Nat.not_lt.mpr behind]
  | cons head rest ih =>
    have behind := notLater head (by simp)
    have tail := ih fun other member => notLater other (.tail _ member)
    simpa [place, Nat.not_lt.mpr behind] using tail

theorem head?_place (ordered : entries.Pairwise fun first second => first.2 ≤ second.2) :
    (place entry entries).head? =
      if ∀ other ∈ entries, entry.2 < other.2 then some entry else entries.head? := by
  cases entries with
  | nil => rfl
  | cons head rest =>
    by_cases earlier : entry.2 < head.2
    · have all : ∀ other ∈ head :: rest, entry.2 < other.2 := by
        intro other member
        cases List.mem_cons.mp member with
        | inl isHead => exact isHead ▸ earlier
        | inr later => exact earlier.trans_le ((List.pairwise_cons.mp ordered).1 other later)
      rw [if_pos all]
      simp [place, earlier]
    · have notAll : ¬ ∀ other ∈ head :: rest, entry.2 < other.2 :=
        fun all => earlier (all head List.mem_cons_self)
      rw [if_neg notAll]
      simp [place, earlier]

namespace Queue

/-- The entry with the earliest deadline. -/
def first (queue : Queue Name) : Option (Name × Nat) := queue.entries.head?

def Due (queue : Queue Name) (now : Nat) (name : Name) : Prop :=
  ∃ deadline ≤ now, (name, deadline) ∈ queue.entries

def due (queue : Queue Name) (now : Nat) : List Name :=
  (queue.entries.filter fun entry => entry.2 ≤ now).map Prod.fst

variable {queue : Queue Name} {now : Nat} {name other : Name} {deadline : Nat}

@[simp] theorem mem_due : name ∈ queue.due now ↔ queue.Due now name := by
  simp [due, Due, and_comm]

private theorem due_nodup (queue : Queue Name) (now : Nat) : (queue.due now).Nodup :=
  queue.distinct.sublist (List.filter_sublist.map Prod.fst)

variable {entry : Name × Nat}

section

variable (isFirst : queue.first = some entry)
include isFirst

theorem mem_of_first : entry ∈ queue.entries :=
  List.mem_of_mem_head? isFirst

theorem first_due (isDue : entry.2 ≤ now) : queue.Due now entry.1 :=
  ⟨entry.2, isDue, mem_of_first isFirst⟩

theorem first_le (member : (name, deadline) ∈ queue.entries) : entry.2 ≤ deadline := by
  cases entries : queue.entries with
  | nil => simp [entries] at member
  | cons head rest =>
    have isHead : head = entry := by simpa [first, entries] using isFirst
    have ordered := queue.ordered
    rw [entries, List.pairwise_cons] at ordered
    rw [entries, List.mem_cons] at member
    cases member with
    | inl isHeadToo => rw [← isHead, ← isHeadToo]
    | inr later => exact isHead ▸ ordered.1 _ later

end

theorem exists_first (isDue : queue.Due now name) :
    ∃ entry, queue.first = some entry ∧ entry.2 ≤ now := by
  obtain ⟨deadline, early, member⟩ := isDue
  cases isFirst : queue.first with
  | none =>
    have empty : queue.entries = [] := List.head?_eq_none_iff.mp isFirst
    simp [empty] at member
  | some entry => exact ⟨entry, rfl, (first_le isFirst member).trans early⟩

section Changes

variable [DecidableEq Name]

def remove (queue : Queue Name) (name : Name) : Queue Name where
  entries := queue.entries.filter fun entry => entry.1 ≠ name
  ordered := queue.ordered.sublist List.filter_sublist
  distinct := queue.distinct.sublist (List.filter_sublist.map Prod.fst)

@[simp] theorem mem_remove {entry : Name × Nat} :
    entry ∈ (queue.remove name).entries ↔ entry ∈ queue.entries ∧ entry.1 ≠ name := by
  simp [remove]

theorem remove_of_absent (absent : name ∉ queue.entries.map Prod.fst) :
    queue.remove name = queue := by
  have kept : queue.entries.filter (fun entry => entry.1 ≠ name) = queue.entries := by
    refine List.filter_eq_self.mpr fun entry member => ?_
    have different : entry.1 ≠ name := fun same => absent (same ▸ List.mem_map_of_mem member)
    simpa using different
  cases queue
  simp only [remove, mk.injEq]
  exact kept

/-- The name with a deadline, in place of the entry that it may have. -/
def insert (queue : Queue Name) (name : Name) (deadline : Nat) : Queue Name where
  entries := place (name, deadline) (queue.remove name).entries
  ordered := place_ordered (name, deadline) (queue.remove name).ordered
  distinct := by
    have names := (place_perm (name, deadline) (queue.remove name).entries).map Prod.fst
    rw [names.nodup_iff, List.map_cons, List.nodup_cons]
    refine ⟨?_, (queue.remove name).distinct⟩
    intro member
    obtain ⟨entry, isIn, isName⟩ := List.mem_map.mp member
    exact (mem_remove.mp isIn).2 isName

@[simp] theorem mem_insert {entry : Name × Nat} :
    entry ∈ (queue.insert name deadline).entries ↔
      entry = (name, deadline) ∨ entry ∈ queue.entries ∧ entry.1 ≠ name := by
  simp [insert]

theorem due_remove : (queue.remove name).Due now other ↔ queue.Due now other ∧ other ≠ name := by
  constructor
  · intro isDue
    obtain ⟨deadline, early, member⟩ := isDue
    rw [mem_remove] at member
    exact ⟨⟨deadline, early, member.1⟩, member.2⟩
  · intro given
    obtain ⟨⟨deadline, early, member⟩, different⟩ := given
    exact ⟨deadline, early, mem_remove.mpr ⟨member, different⟩⟩

theorem due_insert :
    (queue.insert name deadline).Due now other ↔
      other = name ∧ deadline ≤ now ∨ queue.Due now other ∧ other ≠ name := by
  constructor
  · intro isDue
    obtain ⟨found, early, member⟩ := isDue
    rw [mem_insert, Prod.mk.injEq] at member
    cases member with
    | inl isNew => exact .inl ⟨isNew.1, isNew.2 ▸ early⟩
    | inr old => exact .inr ⟨⟨found, early, old.1⟩, old.2⟩
  · intro given
    cases given with
    | inl isNew => exact ⟨deadline, isNew.2, mem_insert.mpr (.inl (by rw [isNew.1]))⟩
    | inr old =>
      obtain ⟨⟨found, early, member⟩, different⟩ := old
      exact ⟨found, early, mem_insert.mpr (.inr ⟨member, different⟩)⟩

end Changes

section Sorts

def Sorts (queue : Queue Name) (entries : List (Name × Nat)) : Prop :=
  ∀ deadline, queue.entries.filter (fun entry => entry.2 = deadline) =
    entries.filter fun entry => entry.2 = deadline

/-- The order of two entries of a list: by deadline, then by position. -/
def Precedes (entries : List (Name × Nat)) (first second : Name × Nat) : Prop :=
  first ∈ entries ∧ second ∈ entries ∧
    (first.2 < second.2 ∨ first.2 = second.2 ∧ [first, second].Sublist entries)

variable {entries : List (Name × Nat)}

variable {entry second : Name × Nat}

theorem Sorts.mem_iff (sorts : queue.Sorts entries) : entry ∈ queue.entries ↔ entry ∈ entries := by
  have same := sorts entry.2
  have left : entry ∈ queue.entries ↔
      entry ∈ queue.entries.filter fun other => other.2 = entry.2 := by simp
  rw [left, same]
  simp

/-- Among equal deadlines the new entry comes last. -/
theorem filter_place {entries : List (Name × Nat)} (deadline : Nat)
    (ordered : entries.Pairwise fun first second => first.2 ≤ second.2) :
    (place entry entries).filter (fun other => other.2 = deadline) =
      (entries ++ [entry]).filter fun other => other.2 = deadline := by
  induction entries with
  | nil => rfl
  | cons head rest ih =>
    obtain ⟨behind, restOrdered⟩ := List.pairwise_cons.mp ordered
    by_cases earlier : entry.2 < head.2
    · have placed : place entry (head :: rest) = entry :: head :: rest := by
        simp [place, earlier]
      rw [placed]
      by_cases isDeadline : entry.2 = deadline
      · have others : (head :: rest).filter (fun other => other.2 = deadline) = [] := by
          refine List.filter_eq_nil_iff.mpr fun other member => ?_
          have later : entry.2 < other.2 := by
            rcases List.mem_cons.mp member with rfl | inRest
            · exact earlier
            · exact earlier.trans_le (behind other inRest)
          simp only [decide_eq_true_eq]
          omega
        rw [List.filter_append, others]
        simp [isDeadline, others]
      · rw [List.filter_append]
        simp [isDeadline]
    · have placed : place entry (head :: rest) = head :: place entry rest := by
        simp [place, earlier]
      simp only [placed, List.filter_cons, List.cons_append, ih restOrdered]

variable [DecidableEq Name]

section

variable (sorts : queue.Sorts entries)
include sorts

theorem Sorts.insert (absent : name ∉ queue.entries.map Prod.fst) :
    (queue.insert name deadline).Sorts (entries ++ [(name, deadline)]) := by
  intro wanted
  simp only [Queue.insert, remove_of_absent absent]
  rw [filter_place wanted queue.ordered, List.filter_append, List.filter_append, sorts wanted]

theorem Sorts.remove : (queue.remove name).Sorts (entries.filter fun entry => entry.1 ≠ name) := by
  intro wanted
  simp only [Queue.remove]
  rw [List.filter_comm, sorts wanted, List.filter_comm]

omit [DecidableEq Name] in
theorem Sorts.not_precedes_first {first other : Name × Nat} (isFirst : queue.first = some first) :
    ¬ Precedes entries other first := by
  rintro ⟨otherIn, -, earlier | ⟨same, sublist⟩⟩
  · have le := first_le isFirst (sorts.mem_iff.mpr otherIn)
    omega
  · have filtered := (sublist.filter fun entry => entry.2 = first.2)
    rw [← sorts first.2] at filtered
    obtain ⟨rest, isEntries⟩ := List.head?_eq_some_iff.mp isFirst
    have distinct : queue.entries.Nodup := queue.distinct.of_map
    rw [isEntries] at filtered distinct
    simp only [List.filter_cons, same, decide_true, ↓reduceIte, List.filter_nil] at filtered
    have twice : [first].Sublist (rest.filter fun entry => entry.2 = first.2) := by
      cases filtered with
      | cons _ tail => exact (List.sublist_cons_self other [first]).trans tail
      | cons_cons _ tail => exact tail
    have again : first ∈ rest := List.mem_of_mem_filter (List.singleton_sublist.mp twice)
    exact (List.nodup_cons.mp distinct).1 again

end

omit [DecidableEq Name] in
theorem Precedes.append {first added : Name × Nat} (precedes : Precedes entries first second) :
    Precedes (entries ++ [added]) first second := by
  obtain ⟨firstIn, secondIn, order⟩ := precedes
  refine ⟨List.mem_append_left _ firstIn, List.mem_append_left _ secondIn, ?_⟩
  exact order.imp_right fun tied =>
    ⟨tied.1, tied.2.trans (List.sublist_append_left entries [added])⟩

theorem Precedes.filter {first : Name × Nat} (precedes : Precedes entries first second)
    (firstStays : first.1 ≠ name) (secondStays : second.1 ≠ name) :
    Precedes (entries.filter fun entry => entry.1 ≠ name) first second := by
  obtain ⟨firstIn, secondIn, order⟩ := precedes
  refine ⟨List.mem_filter.mpr ⟨firstIn, decide_eq_true firstStays⟩,
    List.mem_filter.mpr ⟨secondIn, decide_eq_true secondStays⟩, ?_⟩
  refine order.imp_right fun tied => ⟨tied.1, ?_⟩
  have kept := tied.2.filter fun entry => entry.1 ≠ name
  simpa [firstStays, secondStays] using kept

end Sorts

end Queue

variable (queue : State → Queue Name) (fire : State → Name → State) (now : Nat)

/-- Fire the first entry as long as it is due, with the names that were fired.
The fuel bounds the firings. -/
def expire : Nat → State → Option (State × List Name)
  | fuel, state =>
    match (queue state).first with
    | none => some (state, [])
    | some first =>
      if first.2 ≤ now then
        match fuel with
        | 0 => none
        | fuel + 1 =>
          (expire fuel (fire state first.1)).map fun result =>
            (result.1, first.1 :: result.2)
      else some (state, [])

variable {queue fire now}

theorem expire_settled (settled : ∀ name, ¬ (queue state).Due now name) (fuel : Nat) :
    expire queue fire now fuel state = some (state, []) := by
  cases isFirst : (queue state).first with
  | none => simp [expire, isFirst]
  | some first =>
    have later : ¬ first.2 ≤ now := fun early => settled _ (Queue.first_due isFirst early)
    simp [expire, isFirst, later]

theorem due_length_lt {first : Name × Nat} (isFirst : (queue state).first = some first)
    (early : first.2 ≤ now) (fewer : ∀ name, (queue (fire state first.1)).Due now name →
      (queue state).Due now name ∧ name ≠ first.1) :
    ((queue (fire state first.1)).due now).length < ((queue state).due now).length := by
  have apart : (first.1 :: (queue (fire state first.1)).due now).Nodup := by
    rw [List.nodup_cons]
    exact ⟨fun again => (fewer _ (Queue.mem_due.mp again)).2 rfl, Queue.due_nodup _ _⟩
  have within : first.1 :: (queue (fire state first.1)).due now ⊆ (queue state).due now := by
    intro name member
    cases List.mem_cons.mp member with
    | inl isName => exact Queue.mem_due.mpr (isName ▸ Queue.first_due isFirst early)
    | inr later => exact Queue.mem_due.mpr (fewer name (Queue.mem_due.mp later)).1
  exact (List.subperm_of_subset apart within).length_le

/-- Enough fuel is one turn for each entry that is due. -/
theorem expire_returns (invariant : State → Prop)
    (settles : ∀ state first, invariant state → (queue state).first = some first →
      first.2 ≤ now → invariant (fire state first.1) ∧
        ∀ name, (queue (fire state first.1)).Due now name →
          (queue state).Due now name ∧ name ≠ first.1) {fuel : Nat} (holds : invariant state)
    (enough : ((queue state).due now).length ≤ fuel) :
    ∃ result, expire queue fire now fuel state = some result ∧ result.2.Nodup ∧
      ∀ name ∈ result.2, (queue state).Due now name := by
  induction fuel generalizing state with
  | zero =>
    have empty : (queue state).due now = [] :=
      List.eq_nil_of_length_eq_zero (Nat.le_zero.mp enough)
    have settled : ∀ name, ¬ (queue state).Due now name := by
      intro name isDue
      simpa [empty] using Queue.mem_due.mpr isDue
    exact ⟨(state, []), expire_settled settled 0, List.nodup_nil, by simp⟩
  | succ fuel ih =>
    by_cases someDue : ∃ name, (queue state).Due now name
    · obtain ⟨name, isDue⟩ := someDue
      obtain ⟨first, isFirst, early⟩ := Queue.exists_first isDue
      obtain ⟨kept, fewer⟩ := settles state first holds isFirst early
      have shorter := due_length_lt isFirst early fewer
      obtain ⟨result, returns, once, wasDue⟩ :=
        ih kept (Nat.le_of_lt_succ (shorter.trans_le enough))
      have result_eq : expire queue fire now (fuel + 1) state =
          some (result.1, first.1 :: result.2) := by
        simp [expire, isFirst, early, returns]
      refine ⟨(result.1, first.1 :: result.2), result_eq, ?_, ?_⟩
      · rw [List.nodup_cons]
        exact ⟨fun again => (fewer _ (wasDue _ again)).2 rfl, once⟩
      · intro other member
        cases List.mem_cons.mp member with
        | inl isFirstToo => exact isFirstToo ▸ Queue.first_due isFirst early
        | inr later => exact (fewer other (wasDue other later)).1
    · have settled := not_exists.mp someDue
      exact ⟨(state, []), expire_settled settled (fuel + 1), List.nodup_nil, by simp⟩

/-- As long as every firing leaves something due, the loop does not return. -/
theorem expire_eq_none (pending : State → Prop)
    (isDue : ∀ state, pending state → ∃ name, (queue state).Due now name)
    (stays : ∀ state first, pending state → (queue state).first = some first →
      pending (fire state first.1)) (fuel : Nat) (start : pending state) :
    expire queue fire now fuel state = none := by
  obtain ⟨name, someDue⟩ := isDue state start
  obtain ⟨first, isFirst, early⟩ := Queue.exists_first someDue
  induction fuel generalizing state name first with
  | zero => simp [expire, isFirst, early]
  | succ fuel ih =>
    have later := stays state first start isFirst
    obtain ⟨next, nextDue⟩ := isDue _ later
    obtain ⟨second, isSecond, secondEarly⟩ := Queue.exists_first nextDue
    have rest := ih later next nextDue second isSecond secondEarly
    simp [expire, isFirst, early, rest]

end Deadlines
