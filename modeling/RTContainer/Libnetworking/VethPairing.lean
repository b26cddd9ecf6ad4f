import RTContainer.Lib.Matching
import RTContainer.Lib.Run
import RTContainer.Libnetworking.Veth

/-! Pairing over the runs of `veth_create`, `veth_set_pair` and `veth_destroy`. It stays
symmetric as long as only interfaces without another partner are paired: `veth_set_pair`
does not look at the partners that it overwrites. -/

set_option autoImplicit false

namespace RTContainer.Libnetworking

open Matching Function

variable {width : Nat}

def peerOf (softcs : VethSoftcs width) : Partners Nat :=
  fun sc => (softcs sc).map VethSoftc.peer

inductive VethCall where
  | create (name : Option String) (allocated : Option Nat)
  | setPair (veth1 veth2 : Option Nat)
  | destroy (sc : Option Nat)

variable (state : Option (VethSoftcs width))

/-- The interfaces after a call; there are none once a call has used a freed record. -/
def vethStep (call : VethCall) : Option (VethSoftcs width) :=
  state.bind fun softcs =>
    match call with
    | .create name allocated => some (vethCreate softcs name allocated).2
    | .setPair veth1 veth2 => (vethSetPair softcs veth1 veth2).map Prod.snd
    | .destroy sc => (vethDestroy softcs sc).map Prod.fst

/-- What callers and `malloc()` keep to: the arguments are `NULL` or interfaces, and a new
record is not where an interface is. -/
def CallerKeeps (call : VethCall) : Prop :=
  ∀ softcs, state = some softcs →
    match call with
    | .create _ allocated => ∀ sc, allocated = some sc → softcs sc = none
    | .setPair veth1 veth2 => ∀ sc, veth1 = some sc ∨ veth2 = some sc → (softcs sc).isSome
    | .destroy sc => ∀ given, sc = some given → (softcs given).isSome

/-- Interfaces that are paired have no peer or are each other's peers already. -/
def Unattached (call : VethCall) : Prop :=
  ∀ softcs, state = some softcs →
    match call with
    | .setPair (some veth1) (some veth2) =>
      veth1 = veth2 ∨ Free (peerOf softcs) veth1 veth2 ∧ Free (peerOf softcs) veth2 veth1
    | _ => True

/-- No call has used a freed record, peers are each other's peers, and none of them is a
destroyed interface. -/
def Paired : Prop :=
  ∃ softcs, state = some softcs ∧ Symmetric (peerOf softcs)

variable {softcs after : VethSoftcs width} {veth1 veth2 sc : Nat} {softc : VethSoftc width}

theorem peerOf_isSome : (peerOf softcs sc).isSome = (softcs sc).isSome := Option.isSome_map

theorem peerOf_update (softcs : VethSoftcs width) (sc : Nat) (entry : Option (VethSoftc width)) :
    peerOf (update softcs sc entry) = update (peerOf softcs) sc (entry.map VethSoftc.peer) := by
  funext other
  unfold peerOf
  rcases eq_or_ne other sc with rfl | different
  · rw [update_self, update_self]
  · rw [update_of_ne different, update_of_ne different]

theorem writePeer_spec (live : (softcs sc).isSome) (peer : Option Nat) :
    ∃ after, writePeer softcs sc peer = some after ∧
      peerOf after = update (peerOf softcs) sc (some peer) := by
  obtain ⟨softc, found⟩ := Option.isSome_iff_exists.mp live
  refine ⟨_, by rw [writePeer, found]; rfl, ?_⟩
  rw [peerOf_update]
  rfl

theorem vethCreate_proper (proper : Proper (peerOf softcs)) (name : Option String)
    {allocated : Option Nat} (fresh : ∀ sc, allocated = some sc → softcs sc = none) :
    Proper (peerOf (vethCreate softcs name allocated).2) := by
  unfold vethCreate
  split
  · next sc =>
      have absent : peerOf softcs sc = none := by
        rw [peerOf, fresh sc rfl]
        rfl
      split
      · exact proper
      · rw [peerOf_update]
        exact proper.add absent
  · exact proper

private theorem vethSetPair_spec (live1 : (softcs veth1).isSome) (live2 : (softcs veth2).isSome)
    (distinct : veth1 ≠ veth2) :
    ∃ after, vethSetPair softcs (some veth1) (some veth2) = some (0, after) ∧
      peerOf after = join (peerOf softcs) veth1 veth2 := by
  obtain ⟨middle, first, peersMiddle⟩ := writePeer_spec live1 (some veth2)
  have liveMiddle : (middle veth2).isSome := by
    rw [← peerOf_isSome, peersMiddle, update_of_ne distinct.symm, peerOf_isSome]
    exact live2
  obtain ⟨after, second, peersAfter⟩ := writePeer_spec liveMiddle (some veth1)
  refine ⟨after, ?_, by rw [peersAfter, peersMiddle]; rfl⟩
  unfold vethSetPair
  simp only [if_neg distinct, first, second, bind, Option.bind, pure]

theorem vethDestroy_spec (proper : Proper (peerOf softcs)) (live : (softcs sc).isSome) :
    ∃ after, (vethDestroy softcs (some sc)).map Prod.fst = some after ∧
      peerOf after = remove (peerOf softcs) sc := by
  obtain ⟨softc, found⟩ := Option.isSome_iff_exists.mp live
  have peer : peerOf softcs sc = some softc.peer := by
    rw [peerOf, found]
    rfl
  let stopped := update softcs sc (some { softc with running := false, rxTaskId := 0 })
  have unchanged : peerOf stopped = peerOf softcs := by
    rw [peerOf_update, Option.map_some, ← peer, update_eq_self]
  have unfolds : vethDestroy softcs (some sc) =
      (breakPeer stopped sc softc.peer).bind fun softcs =>
        some (update softcs sc none, softc.rxQueue.destroy) := by
    simp only [vethDestroy, found]
    rfl
  rw [unfolds]
  cases partner : softc.peer with
  | none =>
    refine ⟨update stopped sc none, rfl, ?_⟩
    rw [peerOf_update, unchanged, remove_single]
    · rfl
    · rw [peer, partner]
      exact fun partner paired => nomatch paired
  | some other =>
    have paired : peerOf softcs sc = some (some other) := peer.trans (congrArg some partner)
    have distinct : other ≠ sc := by
      rintro rfl
      exact proper.irreflexive other paired
    have otherLive : (stopped other).isSome := by
      rw [← peerOf_isSome, unchanged]
      exact proper.present paired
    obtain ⟨left, first, peersLeft⟩ := writePeer_spec otherLive none
    have selfLive : (left sc).isSome := by
      rw [← peerOf_isSome, peersLeft, update_of_ne distinct.symm, unchanged, peer]
      rfl
    obtain ⟨single, second, peersSingle⟩ := writePeer_spec selfLive none
    refine ⟨update single sc none, ?_, ?_⟩
    · simp only [breakPeer, first, second, bind, Option.bind_some, Option.map_some]
    · rw [peerOf_update, peersSingle, peersLeft, unchanged, remove_paired paired, update_idem]
      rfl

def WellPaired (state : Option (VethSoftcs width)) : Prop :=
  ∃ softcs, state = some softcs ∧ Proper (peerOf softcs)

variable {state} {call : VethCall}

theorem WellPaired.step (paired : WellPaired state) (keeps : CallerKeeps state call)
    (unattached : Unattached state call) : WellPaired (vethStep state call) := by
  obtain ⟨softcs, rfl, proper⟩ := paired
  have keeps := keeps softcs rfl
  have unattached := unattached softcs rfl
  cases call with
  | create name allocated => exact ⟨_, rfl, vethCreate_proper proper name keeps⟩
  | setPair veth1 veth2 =>
    cases veth1 with
    | none => exact ⟨softcs, rfl, proper⟩
    | some veth1 =>
      cases veth2 with
      | none => exact ⟨softcs, rfl, proper⟩
      | some veth2 =>
        rcases eq_or_ne veth1 veth2 with rfl | distinct
        · refine ⟨softcs, ?_, proper⟩
          simp only [vethStep, Option.bind_some, vethSetPair, if_true, Option.map_some]
        · obtain ⟨after, sets, peers⟩ := vethSetPair_spec (keeps veth1 (.inl rfl))
            (keeps veth2 (.inr rfl)) distinct
          have free := unattached.resolve_left distinct
          refine ⟨after, ?_, ?_⟩
          · simp only [vethStep, Option.bind_some, sets, Option.map_some]
          · rw [peers]
            exact proper.join distinct free.1 free.2
  | destroy sc =>
    cases sc with
    | none => exact ⟨softcs, rfl, proper⟩
    | some sc =>
      obtain ⟨after, destroys, peers⟩ := vethDestroy_spec proper (keeps sc rfl)
      refine ⟨after, destroys, ?_⟩
      rw [peers]
      exact proper.remove sc

theorem WellPaired.broken (paired : WellPaired state) (keeps : CallerKeeps state call)
    (attached : ¬ Unattached state call) : ¬ Paired (vethStep state call) := by
  obtain ⟨softcs, rfl, proper⟩ := paired
  have keeps := keeps softcs rfl
  rintro ⟨after, reached, symmetric⟩
  refine attached fun given same => ?_
  cases same
  match call with
  | .setPair (some veth1) (some veth2) =>
    refine or_iff_not_imp_left.mpr fun distinct => ?_
    have live1 := keeps veth1 (.inl rfl)
    have live2 := keeps veth2 (.inr rfl)
    obtain ⟨joined, sets, peers⟩ := vethSetPair_spec live1 live2 distinct
    have same : joined = after := by
      simp only [vethStep, Option.bind_some, sets, Option.map_some] at reached
      exact Option.some.inj reached
    rw [← same, peers] at symmetric
    constructor
    · exact not_not.mp fun taken =>
        proper.not_symmetric_join distinct (peerOf_isSome.trans live1) taken symmetric
    · rw [join_comm _ distinct] at symmetric
      exact not_not.mp fun taken =>
        proper.not_symmetric_join (Ne.symm distinct) (peerOf_isSome.trans live2) taken symmetric
  | .setPair none _ | .setPair (some _) none | .create _ _ | .destroy _ => trivial

/-- No interface has been created. -/
def noInterfaces (width : Nat) : Option (VethSoftcs width) := some fun _ => none

/-- The peers are symmetric in every state of a run if and only if every pairing of the
run is one of interfaces that have no other partner. -/
theorem paired_throughout_iff {calls : List VethCall}
    (keeps : Machine.Meets vethStep CallerKeeps (noInterfaces width) calls) :
    Machine.Throughout vethStep Paired (noInterfaces width) calls ↔
      Machine.Meets vethStep Unattached (noInterfaces width) calls := by
  have start : WellPaired (noInterfaces width) := by
    refine ⟨_, rfl, .of_back ?_, ?_⟩
    · exact fun paired => nomatch paired
    · exact fun _ paired => nomatch paired
  exact Machine.throughout_iff_meets WellPaired start keeps
    (fun _ _ paired keeps unattached => paired.step keeps unattached)
    (fun _ paired => by
      obtain ⟨softcs, rfl, proper⟩ := paired
      exact ⟨softcs, rfl, proper.toSymmetric⟩)
    (fun _ _ paired keeps attached => paired.broken keeps attached)

/-- A pair of new interfaces. -/
theorem paired_throughout_two :
    Machine.Throughout vethStep Paired (noInterfaces 32)
      [.create (some "veth0") (some 0x100), .create (some "veth1") (some 0x200),
        .setPair (some 0x100) (some 0x200)] := by
  refine (paired_throughout_iff ?_).mpr ?_
  · refine ⟨?_, ?_, ?_, trivial⟩
    · intro softcs reached sc given
      cases Option.some.inj reached
      rfl
    · intro softcs reached sc given
      cases Option.some.inj reached
      cases Option.some.inj given
      rfl
    · intro softcs reached sc given
      cases Option.some.inj reached
      rcases given with given | given <;> (cases Option.some.inj given; rfl)
  · refine ⟨fun _ _ => trivial, fun _ _ => trivial, ?_, trivial⟩
    intro softcs reached
    cases Option.some.inj reached
    exact .inr ⟨.inl rfl, .inl rfl⟩

/-- The interface at 0x100 is paired with a second one and then with a third one. When it
is destroyed, the second one still has it for its peer. -/
theorem former_peer_dangles :
    let calls : List VethCall :=
      [.create (some "veth0") (some 0x100), .create (some "veth1") (some 0x200),
        .create (some "veth2") (some 0x300), .setPair (some 0x100) (some 0x200),
        .setPair (some 0x100) (some 0x300), .destroy (some 0x100)]
    Machine.Meets vethStep CallerKeeps (noInterfaces 32) calls ∧
      ¬ Machine.Throughout vethStep Paired (noInterfaces 32) calls := by
  refine ⟨⟨?_, ?_, ?_, ?_, ?_, ?_, trivial⟩, fun always => ?_⟩
  · intro softcs reached sc given
    cases Option.some.inj reached
    rfl
  · intro softcs reached sc given
    cases Option.some.inj reached
    cases Option.some.inj given
    rfl
  · intro softcs reached sc given
    cases Option.some.inj reached
    cases Option.some.inj given
    rfl
  · intro softcs reached sc given
    cases Option.some.inj reached
    rcases given with given | given <;> (cases Option.some.inj given; rfl)
  · intro softcs reached sc given
    cases Option.some.inj reached
    rcases given with given | given <;> (cases Option.some.inj given; rfl)
  · intro softcs reached sc given
    cases Option.some.inj reached
    cases Option.some.inj given
    rfl
  · obtain ⟨softcs, reached, symmetric⟩ := always.final
    cases Option.some.inj reached
    have dangling := symmetric.present (a := 0x200) (b := 0x100) rfl
    nomatch dangling

end RTContainer.Libnetworking
