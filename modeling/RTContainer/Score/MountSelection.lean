import RTContainer.Lib.Heaviest
import RTContainer.Score.MntContainer

/-! What `find_best_mount_for_path` selects. A target is above a path when its names are
the first names of the path. The search compares bytes, and an entry that is not valid
can stand in the way of those that are shorter. -/

set_option autoImplicit false

namespace RTContainer.Score

open RTContainer.Libcsupport Heaviest

variable {filesystem : Filesystem} {path target : Path}
variable {mounts order : List Nat} {address : Nat}

def components (path : Path) : List Path := (path.splitOn '/').filter fun name => name ≠ []

def isAbsolute (path : Path) : Bool := path.head? == some '/'

def IsAbove (target path : Path) : Prop :=
  target ≠ [] ∧ isAbsolute target = isAbsolute path ∧ components target <+: components path

instance (target path : Path) : Decidable (IsAbove target path) :=
  inferInstanceAs (Decidable (_ ∧ _ ∧ _))

theorem isBelow_iff : isBelow path target = true ↔
    path = target ∨ ∃ rest, path = target ++ '/' :: rest := by
  rw [isBelow, Bool.and_eq_true, List.isPrefixOf_iff_prefix]
  constructor
  · rintro ⟨⟨rest, rfl⟩, ends⟩
    rw [List.drop_left] at ends
    cases rest with
    | nil => exact .inl (List.append_nil target)
    | cons first rest =>
      have isSlash : first = '/' := by simpa using ends
      exact .inr ⟨rest, by rw [isSlash]⟩
  · rintro (rfl | ⟨rest, rfl⟩)
    · simp
    · simp

private theorem components_append (target rest : Path) :
    components (target ++ '/' :: rest) = components target ++ components rest := by
  simp only [components, List.splitOn_eq_splitOnP]
  rw [List.splitOnP_append_cons _ _ (by rfl), List.filter_append]

section

variable (below : isBelow path target = true)
include below

theorem components_of_below : components target <+: components path := by
  rcases isBelow_iff.mp below with rfl | ⟨rest, rfl⟩
  · exact List.prefix_refl _
  · rw [components_append]
    exact List.prefix_append ..

theorem isBelow_above (notEmpty : target ≠ []) : IsAbove target path := by
  refine ⟨notEmpty, ?_, components_of_below below⟩
  cases target with
  | nil => exact absurd rfl notEmpty
  | cons first rest =>
    rcases isBelow_iff.mp below with rfl | ⟨rest, rfl⟩
    · rfl
    · rfl

theorem isBelow_of_length {other : Path} (otherBelow : isBelow path other = true)
    (shorter : target.length ≤ other.length) : isBelow other target = true := by
  have targetPrefix : target <+: path := by
    rw [isBelow, Bool.and_eq_true, List.isPrefixOf_iff_prefix] at below
    exact below.1
  have otherPrefix : other <+: path := by
    rw [isBelow, Bool.and_eq_true, List.isPrefixOf_iff_prefix] at otherBelow
    exact otherBelow.1
  obtain ⟨rest, rfl⟩ := List.prefix_of_prefix_length_le targetPrefix otherPrefix shorter
  obtain ⟨behind, rfl⟩ := otherPrefix
  refine isBelow_iff.mpr ?_
  rw [List.append_assoc] at below
  cases rest with
  | nil => exact .inl (List.append_nil target)
  | cons first rest =>
    rcases isBelow_iff.mp below with same | ⟨later, isSplit⟩
    · exact absurd same (by simp)
    · rw [List.append_cancel_left_eq, List.cons_append, List.cons.injEq] at isSplit
      exact .inr ⟨rest, by rw [isSplit.1]⟩

end

def targetOf (filesystem : Filesystem) (address : Nat) : Option Path :=
  (filesystem.mountEntries address).bind MountTableEntry.target

/-- The entry is valid, as far as it can be read. -/
def isValid (filesystem : Filesystem) (address : Nat) : Bool :=
  ((filesystem.mountEntries address).bind (isMountEntryValid filesystem)).getD false

/-- The length of the target. -/
def size (filesystem : Filesystem) (address : Nat) : Nat :=
  (targetOf filesystem address).elim 0 List.length

def depth (filesystem : Filesystem) (address : Nat) : Nat :=
  (targetOf filesystem address).elim 0 fun target => (components target).length

def Above (filesystem : Filesystem) (path : Path) (address : Nat) : Prop :=
  ∃ target ∈ targetOf filesystem address, IsAbove target path

def matchesPath (filesystem : Filesystem) (path : Path) (address : Nat) : Bool :=
  (targetOf filesystem address).any fun target => isBelow path target && target ≠ []

/-- The entries of a list and their root locations can be read. -/
def Readable (filesystem : Filesystem) (mounts : List Nat) : Prop :=
  ∀ address ∈ mounts, ∃ entry valid, filesystem.mountEntries address = some entry ∧
    isMountEntryValid filesystem entry = some valid

structure Selects (filesystem : Filesystem) (mounts : List Nat) (path : Path)
    (result : Option Nat × Bool) : Prop where
  deepest : ∀ address ∈ mounts, isValid filesystem address = true →
    Above filesystem path address →
      ∃ best, result.1 = some best ∧ depth filesystem address ≤ depth filesystem best
  sound : ∀ best, result.1 = some best →
    best ∈ mounts ∧ isValid filesystem best = true ∧ Above filesystem path best
  absent : (∀ address ∈ mounts, ¬ Above filesystem path address) → result = (none, false)

def Apart (filesystem : Filesystem) (first second : Nat) : Prop :=
  targetOf filesystem first ≠ targetOf filesystem second

/-- The selection is as claimed, and is the same wherever entries with different targets
change places. -/
def LongestPrefix (filesystem : Filesystem) (mounts : List Nat) (path : Path) : Prop :=
  ∃ result, findBestMountForPath filesystem mounts path = some result ∧
    Selects filesystem mounts path result ∧
    ∀ order, Reorder (Apart filesystem) mounts order →
      findBestMountForPath filesystem order path = some result

/-- A valid entry that is above the path has no more names than one that matches the path
byte for byte; and of the entries that match it so, the first with its target is valid or
shorter than one that is valid. -/
structure Unobstructed (filesystem : Filesystem) (mounts : List Nat) (path : Path) :
    Prop where
  matched : ∀ address ∈ mounts, isValid filesystem address = true →
    Above filesystem path address → ∃ best ∈ mounts, isValid filesystem best = true ∧
      matchesPath filesystem path best = true ∧
      depth filesystem address ≤ depth filesystem best
  clear : ∀ before first after, mounts = before ++ first :: after →
    (∀ other ∈ before, Apart filesystem other first) →
    matchesPath filesystem path first = true → isValid filesystem first = false →
    ∀ address ∈ mounts, isValid filesystem address = true →
      matchesPath filesystem path address = true →
        ∃ best ∈ mounts, isValid filesystem best = true ∧
          matchesPath filesystem path best = true ∧ size filesystem first < size filesystem best

theorem matchesPath_iff : matchesPath filesystem path address = true ↔
    ∃ target, targetOf filesystem address = some target ∧ isBelow path target = true ∧
      target ≠ [] := by
  rw [matchesPath, Option.any_eq_true]
  simp only [Bool.and_eq_true, decide_eq_true_eq]

section

variable (isMatch : matchesPath filesystem path address = true)
include isMatch

theorem size_pos : 0 < size filesystem address := by
  obtain ⟨target, isTarget, -, notEmpty⟩ := matchesPath_iff.mp isMatch
  rw [size, isTarget]
  exact List.length_pos_iff.mpr notEmpty

theorem matchesPath_above : Above filesystem path address := by
  obtain ⟨target, isTarget, below, notEmpty⟩ := matchesPath_iff.mp isMatch
  exact ⟨target, isTarget, isBelow_above below notEmpty⟩

theorem depth_le_of_size {other : Nat} (otherMatch : matchesPath filesystem path other = true)
    (shorter : size filesystem address ≤ size filesystem other) :
    depth filesystem address ≤ depth filesystem other := by
  obtain ⟨target, isTarget, below, -⟩ := matchesPath_iff.mp isMatch
  obtain ⟨longer, isLonger, longerBelow, -⟩ := matchesPath_iff.mp otherMatch
  rw [size, size, isTarget, isLonger] at shorter
  rw [depth, depth, isTarget, isLonger]
  exact (components_of_below (isBelow_of_length below longerBelow shorter)).length_le

end

variable {first best bound : Nat} {rest : List Nat}

theorem size_ne_of_apart {second : Nat} (apart : Apart filesystem first second)
    (firstMatch : matchesPath filesystem path first = true)
    (secondMatch : matchesPath filesystem path second = true) :
    size filesystem first ≠ size filesystem second := by
  obtain ⟨target, isTarget, below, -⟩ := matchesPath_iff.mp firstMatch
  obtain ⟨other, isOther, otherBelow, -⟩ := matchesPath_iff.mp secondMatch
  intro same
  rw [size, size, isTarget, isOther] at same
  rw [isBelow, Bool.and_eq_true, List.isPrefixOf_iff_prefix] at below otherBelow
  obtain ⟨rest, isSplit⟩ := below.1
  obtain ⟨otherRest, isOtherSplit⟩ := otherBelow.1
  have equal := (List.append_inj (isSplit.trans isOtherSplit.symm) same).1
  exact apart (by rw [isTarget, isOther, equal])

def isCandidate (filesystem : Filesystem) (path : Path) (address : Nat) : Bool :=
  isValid filesystem address && matchesPath filesystem path address

namespace BestMount

def next (filesystem : Filesystem) (path : Path) (best : BestMount) (address : Nat) :
    BestMount :=
  if matchesPath filesystem path address = true ∧ best.bestMatchLen < size filesystem address then
    if isValid filesystem address then ⟨some address, size filesystem address, false⟩
    else if best.bestMatchLen = 0 then ⟨best.bestMatch, size filesystem address, true⟩
    else best
  else best

/-- A valid entry has been found. -/
def found (filesystem : Filesystem) (address : Nat) : BestMount :=
  ⟨some address, size filesystem address, false⟩

end BestMount

theorem findBestMount_eq (readable : Readable filesystem mounts) (best : BestMount) :
    findBestMount filesystem path mounts best =
      some (mounts.foldl (BestMount.next filesystem path) best) := by
  induction mounts generalizing best with
  | nil => rfl
  | cons first rest ih =>
    obtain ⟨entry, valid, isEntry, validity⟩ := readable first List.mem_cons_self
    have later := fun best => ih (fun address member =>
      readable address (List.mem_cons_of_mem first member)) best
    have isTarget : targetOf filesystem first = entry.target := by rw [targetOf, isEntry]; rfl
    have isValidity : isValid filesystem first = valid := by
      rw [isValid, isEntry, Option.bind_some, validity]
      rfl
    rw [findBestMount, isEntry, Option.bind_some, List.foldl_cons]
    cases hasTarget : entry.target with
    | none =>
      have noMatch : matchesPath filesystem path first = false := by
        rw [matchesPath, isTarget, hasTarget]
        rfl
      rw [BestMount.next, if_neg (by rw [noMatch]; exact fun both => nomatch both.1)]
      exact later best
    | some target =>
      have sizes : size filesystem first = target.length := by
        rw [size, isTarget, hasTarget]
        rfl
      rw [validity, BestMount.next, sizes, isValidity]
      dsimp only [Option.bind_some]
      by_cases candidate : isBelow path target = true ∧ best.bestMatchLen < target.length
      · have notEmpty : target ≠ [] := List.length_pos_iff.mp (Nat.zero_lt_of_lt candidate.2)
        have isMatch : matchesPath filesystem path first = true :=
          matchesPath_iff.mpr ⟨target, isTarget.trans hasTarget, candidate.1, notEmpty⟩
        have both : matchesPath filesystem path first = true ∧
            best.bestMatchLen < target.length := ⟨isMatch, candidate.2⟩
        rw [if_pos both, if_pos (by simpa using candidate)]
        exact later _
      · have notBoth : ¬ (matchesPath filesystem path first = true ∧
            best.bestMatchLen < target.length) := by
          rintro ⟨isMatch, longer⟩
          obtain ⟨other, isOther, below, -⟩ := matchesPath_iff.mp isMatch
          obtain rfl := Option.some.inj (isOther.symm.trans (isTarget.trans hasTarget))
          exact candidate ⟨below, longer⟩
        rw [if_neg notBoth, if_neg (by simpa using candidate)]
        exact later best

theorem foldl_found (path : Path) (mounts : List Nat) (positive : 0 < size filesystem best) :
    mounts.foldl (BestMount.next filesystem path) (.found filesystem best) =
      .found filesystem ((mounts.filter (isCandidate filesystem path)).foldl
        (heavier (size filesystem)) best) := by
  induction mounts generalizing best with
  | nil => rfl
  | cons first rest ih =>
    rw [List.foldl_cons, List.filter_cons]
    cases isCandidate : isCandidate filesystem path first with
    | true =>
      obtain ⟨valid, isMatch⟩ := Bool.and_eq_true_iff.mp isCandidate
      rw [if_pos rfl, List.foldl_cons, heavier, BestMount.next, isMatch, valid]
      by_cases longer : size filesystem best < size filesystem first
      · rw [if_pos longer, if_pos ⟨rfl, longer⟩, if_pos rfl]
        exact ih (Nat.zero_lt_of_lt longer)
      · rw [if_neg longer, if_neg fun both => longer both.2]
        exact ih positive
    | false =>
      have same : BestMount.next filesystem path (.found filesystem best) first =
          .found filesystem best := by
        rw [BestMount.next]
        split
        next longer =>
          have invalid : isValid filesystem first = false := by
            rw [Score.isCandidate, longer.1, Bool.and_true] at isCandidate
            exact isCandidate
          have some_length : (BestMount.found filesystem best).bestMatchLen ≠ 0 :=
            Nat.ne_of_gt positive
          rw [if_neg (by rw [invalid]; decide), if_neg some_length]
        next => rfl
      rw [same, if_neg Bool.false_ne_true]
      exact ih positive

def longest (filesystem : Filesystem) (path : Path) (mounts : List Nat) : Option Nat :=
  heaviest (size filesystem) (mounts.filter (isCandidate filesystem path))

theorem longest_size_pos (isLongest : longest filesystem path mounts = some best) :
    0 < size filesystem best := by
  have member := (List.mem_filter.mp (heaviest_spec isLongest).1).2
  exact size_pos (Bool.and_eq_true_iff.mp member).2

theorem longest_cons (mounts : List Nat) (address : Nat) :
    longest filesystem path (address :: mounts) =
      if isCandidate filesystem path address then
        some ((mounts.filter (isCandidate filesystem path)).foldl (heavier (size filesystem)) address)
      else longest filesystem path mounts := by
  rw [longest, List.filter_cons]
  split
  · exact foldl_take ..
  · rfl

def outcomeOver (filesystem : Filesystem) (path : Path) (bound : Nat)
    (mounts : List Nat) : BestMount :=
  match (longest filesystem path mounts).filter fun best => bound < size filesystem best with
  | some best => .found filesystem best
  | none => ⟨none, bound, true⟩

theorem foldl_blocked (filesystem : Filesystem) (path : Path) (positive : 0 < bound)
    (mounts : List Nat) :
    mounts.foldl (BestMount.next filesystem path) ⟨none, bound, true⟩ =
      outcomeOver filesystem path bound mounts := by
  induction mounts with
  | nil => rfl
  | cons first rest ih =>
    rw [List.foldl_cons, BestMount.next, outcomeOver, longest_cons]
    cases candidate : isCandidate filesystem path first with
    | true =>
      obtain ⟨valid, isMatch⟩ := Bool.and_eq_true_iff.mp candidate
      rw [if_pos rfl, isMatch, valid]
      have isLongest : longest filesystem path (first :: rest) = some _ :=
        (longest_cons rest first).trans (if_pos candidate)
      have atLeast := (heaviest_spec isLongest).2 first
        (List.mem_filter.mpr ⟨List.mem_cons_self, candidate⟩)
      by_cases longer : bound < size filesystem first
      · rw [if_pos ⟨rfl, longer⟩, if_pos rfl, Option.filter_some,
          if_pos (decide_eq_true (Nat.lt_of_lt_of_le longer atLeast))]
        exact foldl_found path rest (Nat.zero_lt_of_lt longer)
      · rw [if_neg fun both => longer both.2, ih, outcomeOver]
        -- both are the longest over the bound
        have same : (longest filesystem path (first :: rest)).filter
            (fun best => bound < size filesystem best) =
            (longest filesystem path rest).filter fun best => bound < size filesystem best := by
          rw [longest, longest, ← heaviest_filter, ← heaviest_filter, List.filter_cons,
            if_pos candidate, List.filter_cons, if_neg (by simpa using longer)]
        rw [← same, isLongest]
    | false =>
      rw [if_neg Bool.false_ne_true]
      split
      next longer =>
        have invalid : isValid filesystem first = false := by
          rw [isCandidate, longer.1, Bool.and_true] at candidate
          exact candidate
        rw [if_neg (by rw [invalid]; decide), if_neg (Nat.ne_of_gt positive), ih]
        rfl
      next => exact ih

def obstruction (filesystem : Filesystem) (first : Nat) : Nat :=
  if isValid filesystem first then 0 else size filesystem first

/-- What the search finds. -/
def outcome (filesystem : Filesystem) (path : Path) (mounts : List Nat) : Option Nat × Bool :=
  match mounts.filter (matchesPath filesystem path) with
  | [] => (none, false)
  | first :: _ =>
    let best := outcomeOver filesystem path (obstruction filesystem first) mounts
    (best.bestMatch, best.foundInvalid)

theorem findBestMountForPath_eq (readable : Readable filesystem mounts) (path : Path) :
    findBestMountForPath filesystem mounts path = some (outcome filesystem path mounts) := by
  rw [findBestMountForPath, findBestMount_eq readable, Option.map_some, Option.some.injEq]
  clear readable
  induction mounts with
  | nil => rfl
  | cons first rest ih =>
    rw [List.foldl_cons, outcome, List.filter_cons]
    cases isMatch : matchesPath filesystem path first with
    | false =>
      have skipped : BestMount.next filesystem path .initial first = .initial :=
        if_neg (by rw [isMatch]; exact fun both => nomatch both.1)
      have notCandidate : isCandidate filesystem path first = false := by
        rw [isCandidate, isMatch, Bool.and_false]
      rw [skipped, ih, outcome, if_neg Bool.false_ne_true]
      simp only [outcomeOver, longest_cons, notCandidate, Bool.false_eq_true, if_false]
    | true =>
      have longer : matchesPath filesystem path first = true ∧
          BestMount.initial.bestMatchLen < size filesystem first := ⟨isMatch, size_pos isMatch⟩
      rw [BestMount.next, if_pos longer, if_pos rfl]
      dsimp only
      rw [obstruction]
      cases valid : isValid filesystem first with
      | true =>
        have candidate : isCandidate filesystem path first = true := by
          rw [isCandidate, valid, isMatch]
          rfl
        have isLongest : longest filesystem path (first :: rest) = some _ :=
          (longest_cons rest first).trans (if_pos candidate)
        rw [if_pos rfl, if_pos rfl, outcomeOver, isLongest, Option.filter_some,
          if_pos (decide_eq_true (longest_size_pos isLongest))]
        have folded := foldl_found path rest (size_pos isMatch)
        rw [BestMount.found] at folded
        rw [folded]
      | false =>
        have notCandidate : isCandidate filesystem path first = false := by
          rw [isCandidate, valid, Bool.false_and]
        have unset : BestMount.initial.bestMatchLen = 0 := rfl
        rw [if_neg Bool.false_ne_true, if_neg Bool.false_ne_true, if_pos unset]
        have folded := foldl_blocked filesystem path (size_pos isMatch) rest
        have same : outcomeOver filesystem path (size filesystem first) (first :: rest) =
            outcomeOver filesystem path (size filesystem first) rest := by
          rw [outcomeOver, longest_cons, if_neg (by rw [notCandidate]; decide), outcomeOver]
        rw [same, ← folded]
        rfl

theorem longest_mem (isLongest : longest filesystem path mounts = some best) :
    best ∈ mounts ∧ isValid filesystem best = true ∧ matchesPath filesystem path best = true := by
  obtain ⟨member, candidate⟩ := List.mem_filter.mp (heaviest_spec isLongest).1
  exact ⟨member, Bool.and_eq_true_iff.mp candidate⟩

theorem size_le_longest (isLongest : longest filesystem path mounts = some best)
    (member : address ∈ mounts) (valid : isValid filesystem address = true)
    (isMatch : matchesPath filesystem path address = true) :
    size filesystem address ≤ size filesystem best :=
  (heaviest_spec isLongest).2 address
    (List.mem_filter.mpr ⟨member, Bool.and_eq_true_iff.mpr ⟨valid, isMatch⟩⟩)

theorem exists_longest (member : address ∈ mounts) (valid : isValid filesystem address = true)
    (isMatch : matchesPath filesystem path address = true) :
    ∃ best, longest filesystem path mounts = some best := by
  cases isLongest : longest filesystem path mounts with
  | some best => exact ⟨best, rfl⟩
  | none =>
    have listed : address ∈ mounts.filter (isCandidate filesystem path) :=
      List.mem_filter.mpr ⟨member, Bool.and_eq_true_iff.mpr ⟨valid, isMatch⟩⟩
    rw [heaviest_eq_none.mp isLongest] at listed
    exact absurd listed List.not_mem_nil

theorem longest_reorder (reorder : Reorder (Apart filesystem) mounts order) :
    longest filesystem path order = longest filesystem path mounts := by
  refine reorder.heaviest_eq fun first second apart isFirst isSecond => ?_
  exact size_ne_of_apart apart (Bool.and_eq_true_iff.mp isFirst).2
    (Bool.and_eq_true_iff.mp isSecond).2

/-- No entry before the first match has the same target. -/
theorem first_of_target (reorder : Reorder (Apart filesystem) mounts order)
    (isFirst : order.filter (matchesPath filesystem path) = first :: rest) :
    ∃ before after, mounts = before ++ first :: after ∧
      ∀ other ∈ before, Apart filesystem other first := by
  have isHead : order.find? (fun address => matchesPath filesystem path address) = some first := by
    rw [← List.head?_filter, isFirst]
    rfl
  obtain ⟨isMatch, ahead, behind, rfl, skipped⟩ := List.find?_eq_some_iff_append.mp isHead
  let same := fun address => decide (targetOf filesystem address = targetOf filesystem first)
  have kept := reorder.filter_eq same fun one other apart isSame => by
    simp only [same, decide_eq_true_eq, decide_eq_false_iff_not] at isSame ⊢
    exact fun isOther => apart (isSame.trans isOther.symm)
  have noneAhead : ahead.filter same = [] := by
    refine List.filter_eq_nil_iff.mpr fun other member isSame => ?_
    have notMatch := skipped other member
    simp only [same, decide_eq_true_eq] at isSame
    rw [matchesPath, isSame, ← matchesPath, isMatch] at notMatch
    exact nomatch notMatch
  rw [List.filter_append, noneAhead, List.nil_append, List.filter_cons,
    if_pos (decide_eq_true rfl)] at kept
  have found : mounts.find? same = some first := by
    rw [← List.head?_filter, ← kept]
    rfl
  obtain ⟨-, before, after, isSplit, apart⟩ := List.find?_eq_some_iff_append.mp found
  refine ⟨before, after, isSplit, fun other member => ?_⟩
  simpa [same, Apart] using apart other member

theorem Unobstructed.outcome (unobstructed : Unobstructed filesystem mounts path)
    (reorder : Reorder (Apart filesystem) mounts order)
    (isLongest : longest filesystem path mounts = some best) :
    Score.outcome filesystem path order = (some best, false) := by
  obtain ⟨member, valid, isMatch⟩ := longest_mem isLongest
  rw [Score.outcome]
  cases matching : order.filter (matchesPath filesystem path) with
  | nil =>
    have listed := List.mem_filter.mpr ⟨reorder.perm.mem_iff.mpr member, isMatch⟩
    rw [matching] at listed
    exact absurd listed List.not_mem_nil
  | cons first rest =>
    have exceeds : obstruction filesystem first < size filesystem best := by
      rw [obstruction]
      split
      next => exact size_pos isMatch
      next invalid =>
        obtain ⟨before, after, isSplit, apart⟩ := first_of_target reorder matching
        have firstMatch : matchesPath filesystem path first = true :=
          (List.mem_filter.mp (matching ▸ List.mem_cons_self)).2
        obtain ⟨longer, isMember, isValid, longerMatch, isLonger⟩ :=
          unobstructed.clear before first after isSplit apart firstMatch (by simpa using invalid)
            best member valid isMatch
        exact Nat.lt_of_lt_of_le isLonger (size_le_longest isLongest isMember isValid longerMatch)
    dsimp only
    rw [outcomeOver, longest_reorder reorder, isLongest, Option.filter_some,
      if_pos (decide_eq_true exceeds)]
    rfl

theorem outcomeOver_some
    (selected : (outcomeOver filesystem path bound mounts).bestMatch = some best) :
    longest filesystem path mounts = some best ∧ bound < size filesystem best := by
  rw [outcomeOver] at selected
  split at selected
  next found isFound =>
    obtain ⟨isLongest, exceeds⟩ := Option.filter_eq_some_iff.mp isFound
    obtain rfl := Option.some.inj selected
    exact ⟨isLongest, of_decide_eq_true exceeds⟩
  next => exact nomatch selected

theorem outcome_some (selected : (outcome filesystem path mounts).1 = some best) :
    longest filesystem path mounts = some best := by
  rw [outcome] at selected
  split at selected
  · exact nomatch selected
  · exact (outcomeOver_some selected).1

theorem outcome_some_cons (isMatch : matchesPath filesystem path first = true)
    (selected : (outcome filesystem path (first :: rest)).1 = some best) :
    obstruction filesystem first < size filesystem best := by
  rw [outcome, List.filter_cons, if_pos isMatch] at selected
  exact (outcomeOver_some selected).2

theorem Readable.reorder (readable : Readable filesystem mounts)
    (reorder : Reorder (Apart filesystem) mounts order) : Readable filesystem order :=
  fun address member => readable address (reorder.perm.mem_iff.mp member)

theorem outcome_none (reorder : Reorder (Apart filesystem) mounts order)
    (none : longest filesystem path mounts = none) :
    outcome filesystem path order =
      (Option.none, !(mounts.filter (matchesPath filesystem path)).isEmpty) := by
  have matching := reorder.perm.filter (matchesPath filesystem path)
  rw [outcome]
  cases isMatching : order.filter (matchesPath filesystem path) with
  | nil =>
    rw [isMatching] at matching
    rw [matching.nil_eq.symm]
    rfl
  | cons first rest =>
    have notEmpty : mounts.filter (matchesPath filesystem path) ≠ [] := by
      intro empty
      rw [isMatching, empty] at matching
      exact List.cons_ne_nil _ _ matching.eq_nil
    dsimp only
    rw [outcomeOver, longest_reorder reorder, none, List.isEmpty_eq_false_iff.mpr notEmpty]
    rfl

/-- The longest prefix is selected, whatever the order of the entries, exactly when it is
matched byte for byte and no entry that is not valid obstructs it. -/
theorem longestPrefix_iff (readable : Readable filesystem mounts) :
    LongestPrefix filesystem mounts path ↔ Unobstructed filesystem mounts path := by
  constructor
  · rintro ⟨result, found, selects, orders⟩
    have isOutcome : result = outcome filesystem path mounts :=
      Option.some.inj (found.symm.trans (findBestMountForPath_eq readable path))
    constructor
    · intro address member valid above
      obtain ⟨best, selected, deeper⟩ := selects.deepest address member valid above
      rw [isOutcome] at selected
      obtain ⟨isMember, isValid, isMatch⟩ := longest_mem (outcome_some selected)
      exact ⟨best, isMember, isValid, isMatch, deeper⟩
    · intro before first after isSplit apart isMatch invalid address member valid addressMatch
      obtain ⟨best, selected, -⟩ :=
        selects.deepest address member valid (matchesPath_above addressMatch)
      have reorder : Reorder (Apart filesystem) mounts (first :: (before ++ after)) :=
        isSplit ▸ Reorder.to_front after apart
      have isFront : result = outcome filesystem path (first :: (before ++ after)) :=
        Option.some.inj ((orders _ reorder).symm.trans
          (findBestMountForPath_eq (readable.reorder reorder) path))
      rw [isFront] at selected
      have longer := outcome_some_cons isMatch selected
      rw [obstruction, if_neg (by rw [invalid]; decide)] at longer
      have isLongest := (longest_reorder reorder).symm.trans (outcome_some selected)
      obtain ⟨isMember, isValid, bestMatch⟩ := longest_mem isLongest
      exact ⟨best, isMember, isValid, bestMatch, longer⟩
  · intro unobstructed
    cases isLongest : longest filesystem path mounts with
    | some best =>
      have result : ∀ order, Reorder (Apart filesystem) mounts order →
          findBestMountForPath filesystem order path = some (some best, false) := by
        intro order reorder
        rw [findBestMountForPath_eq (readable.reorder reorder)]
        exact congrArg some (unobstructed.outcome reorder isLongest)
      obtain ⟨isMember, isValid, isMatch⟩ := longest_mem isLongest
      refine ⟨(some best, false), result mounts .refl, ⟨?_, ?_, ?_⟩, result⟩
      · intro address member valid above
        obtain ⟨other, otherMember, otherValid, otherMatch, deeper⟩ :=
          unobstructed.matched address member valid above
        have shorter := size_le_longest isLongest otherMember otherValid otherMatch
        exact ⟨best, rfl, Nat.le_trans deeper (depth_le_of_size otherMatch isMatch shorter)⟩
      · intro other selected
        obtain rfl := Option.some.inj selected
        exact ⟨isMember, isValid, matchesPath_above isMatch⟩
      · exact fun noneAbove => absurd (matchesPath_above isMatch) (noneAbove best isMember)
    | none =>
      have result : ∀ order, Reorder (Apart filesystem) mounts order →
          findBestMountForPath filesystem order path =
            some (none, !(mounts.filter (matchesPath filesystem path)).isEmpty) := by
        intro order reorder
        rw [findBestMountForPath_eq (readable.reorder reorder)]
        exact congrArg some (outcome_none reorder isLongest)
      refine ⟨_, result mounts .refl, ⟨?_, (fun best selected => nomatch selected), ?_⟩, result⟩
      · intro address member valid above
        obtain ⟨other, otherMember, otherValid, otherMatch, -⟩ :=
          unobstructed.matched address member valid above
        obtain ⟨best, isSome⟩ := exists_longest otherMember otherValid otherMatch
        exact nomatch isLongest.symm.trans isSome
      · intro noneAbove
        have noMatch : mounts.filter (matchesPath filesystem path) = [] :=
          List.filter_eq_nil_iff.mpr fun address member isMatch =>
            noneAbove address member (matchesPath_above isMatch)
        rw [noMatch]
        rfl

/-- A file system whose entries at one and at two are for a directory and for one below
it; the second one can be unmounted. -/
def nestedMounts (mounted : Bool) : Filesystem where
  globalLocations _ := some ⟨⟨false, some 1⟩, 1, false⟩
  nullReferenceCount := 1
  mountEntries
    | 1 => some ⟨some ['/', 'a'], some 1, true⟩
    | 2 => some ⟨some ['/', 'a', '/', 'b'], some 1, mounted⟩
    | _ => none

theorem nestedMounts_readable (mounted : Bool) : Readable (nestedMounts mounted) [2, 1] := by
  intro address member
  rcases List.mem_cons.mp member with rfl | last
  · cases mounted <;> exact ⟨_, _, rfl, rfl⟩
  · rw [List.mem_singleton.mp last]
    exact ⟨_, _, rfl, rfl⟩

theorem nestedMounts_longestPrefix :
    LongestPrefix (nestedMounts true) [2, 1] ['/', 'a', '/', 'b', '/', 'c'] ↔
      Unobstructed (nestedMounts true) [2, 1] ['/', 'a', '/', 'b', '/', 'c'] :=
  longestPrefix_iff (nestedMounts_readable true)

/-- The entry that is not valid comes first, and the valid one is not found. -/
theorem nestedMounts_obstructed :
    Readable (nestedMounts false) [2, 1] ∧
      ¬ LongestPrefix (nestedMounts false) [2, 1] ['/', 'a', '/', 'b', '/', 'c'] := by
  refine ⟨nestedMounts_readable false, ?_⟩
  rintro ⟨result, found, selects, -⟩
  have isNone : findBestMountForPath (nestedMounts false) [2, 1] ['/', 'a', '/', 'b', '/', 'c'] =
      some (none, true) := by decide
  obtain rfl := Option.some.inj (found.symm.trans isNone)
  obtain ⟨best, selected, -⟩ := selects.deepest 1 (by decide) (by decide)
    ⟨['/', 'a'], by rfl, by decide +kernel⟩
  exact nomatch selected

end RTContainer.Score
