import RTContainer.Score.CgroupSuspension

/-! The configurations of the cgroups. A control block points to a configuration
of the caller that created it; the operations on cgroups read it and leave it. -/

set_option autoImplicit false

namespace RTContainer.Score

variable {Thread : Type}

namespace CgroupSystem

structure SameConfigs (system after : CgroupSystem Thread) : Prop where
  opened : after.opened = system.opened
  config : ∀ block, (after.cgroups block).config = (system.cgroups block).config
  configs : after.configs = system.configs

variable {system : CgroupSystem Thread} {block : ObjectsId}

theorem SameConfigs.refl (system : CgroupSystem Thread) : system.SameConfigs system :=
  ⟨rfl, fun _ => rfl, rfl⟩

theorem SameConfigs.trans {after last : CgroupSystem Thread} (first : system.SameConfigs after)
    (second : after.SameConfigs last) : system.SameConfigs last where
  opened := second.opened.trans first.opened
  config := fun block => (second.config block).trans (first.config block)
  configs := second.configs.trans first.configs

variable {control : CoreCgroupControl Thread}

theorem store_config {other : ObjectsId} (same : control.config = (system.cgroups block).config) :
    ((system.store block control).cgroups other).config = (system.cgroups other).config := by
  by_cases isBlock : other = block
  · subst other
    simpa [store] using same
  · simp [store, isBlock]

theorem store_sameConfigs (same : control.config = (system.cgroups block).config) :
    system.SameConfigs (system.store block control) where
  opened := rfl
  config := fun _ => store_config same
  configs := rfl

theorem setState_sameConfigs (system : CgroupSystem Thread) (block : ObjectsId)
    (state : BitVec 32) :
    system.SameConfigs (system.setState block state) :=
  store_sameConfigs rfl

theorem setCpuResumeWatchdog_sameConfigs (system : CgroupSystem Thread) (block : ObjectsId) :
    system.SameConfigs (system.setCpuResumeWatchdog block) :=
  store_sameConfigs rfl

variable [DecidableEq Thread]

/-- A suspension changes no configuration. -/
theorem coreCgroupSuspend_sameConfigs (system : CgroupSystem Thread)
    (theCgroup : Option ObjectsId) (waitState : BitVec 32) :
    system.SameConfigs (system.coreCgroupSuspend theCgroup waitState).1 := by
  rcases system.coreCgroupSuspend_cases theCgroup waitState with
    ⟨block, -, -, result⟩ | ⟨-, -, same⟩
  · rw [result]
    have kept := system.setState_sameConfigs block (statesSet waitState (system.cgroups block).state)
    exact ⟨kept.opened, kept.config, kept.configs⟩
  · rw [same]
    exact SameConfigs.refl system

theorem coreCgroupResume_sameConfigs (system : CgroupSystem Thread)
    (theCgroup : Option ObjectsId) (waitState : BitVec 32) :
    system.SameConfigs (system.coreCgroupResume theCgroup waitState).1 := by
  rcases system.coreCgroupResume_cases theCgroup waitState with
    ⟨block, -, -, ⟨-, result⟩ | ⟨-, result⟩⟩ | ⟨-, -, same⟩
  · rw [result]
    have kept := system.setState_sameConfigs block
      (statesClear waitState (system.cgroups block).state)
    exact ⟨kept.opened, kept.config, kept.configs⟩
  · rw [result]
    exact system.setState_sameConfigs block _
  · rw [same]
    exact SameConfigs.refl system

theorem coreCgroupConsumeCpuQuota_sameConfigs (system : CgroupSystem Thread) (block : ObjectsId)
    (cpuTicksDelta : Nat) :
    system.SameConfigs (system.coreCgroupConsumeCpuQuota block cpuTicksDelta) := by
  simp only [coreCgroupConsumeCpuQuota]
  split
  · have emptied : system.SameConfigs
        (system.store block { system.cgroups block with cpuQuotaAvailable := 0 }) :=
      store_sameConfigs rfl
    exact emptied.trans (coreCgroupSuspend_sameConfigs _ _ _)
  · exact store_sameConfigs rfl

theorem cpuSuspendRoutine_sameConfigs (system : CgroupSystem Thread) (block : ObjectsId) :
    system.SameConfigs (system.cpuSuspendRoutine block) := by
  have cancelled : system.SameConfigs (system.cancelCpuSuspendWatchdog block) :=
    store_sameConfigs rfl
  exact cancelled.trans (coreCgroupSuspend_sameConfigs _ _ _)

theorem cpuResumeRoutine_sameConfigs (system : CgroupSystem Thread) (block : ObjectsId) :
    system.SameConfigs (system.cpuResumeRoutine block) := by
  have resumed := system.coreCgroupResume_sameConfigs (some block) statesWaitingForCgroupCpuQuota
  exact resumed.trans (setCpuResumeWatchdog_sameConfigs _ block)

theorem coreCgroupAddThread_sameConfigs (system : CgroupSystem Thread) (block : ObjectsId)
    (thread : Thread) : system.SameConfigs (system.coreCgroupAddThread block thread) where
  opened := rfl
  config := fun _ => store_config rfl
  configs := rfl

theorem coreCgroupRemoveThread_sameConfigs (system : CgroupSystem Thread) (block : ObjectsId)
    (thread : Thread) :
    system.SameConfigs ((system.coreCgroupRemoveThread block thread).getD system) := by
  simp only [coreCgroupRemoveThread]
  split
  · exact store_sameConfigs rfl
  · exact SameConfigs.refl system

theorem cpuResumeRoutine_quota (system : CgroupSystem Thread) (block : ObjectsId) :
    ((system.cpuResumeRoutine block).cgroups block).cpuQuotaAvailable =
      (system.configs (system.cgroups block).config).cpuQuota := by
  have resumed := system.coreCgroupResume_sameConfigs (some block) statesWaitingForCgroupCpuQuota
  simp [cpuResumeRoutine, setCpuResumeWatchdog, store, resumed.config, resumed.configs]

end CgroupSystem

end RTContainer.Score
