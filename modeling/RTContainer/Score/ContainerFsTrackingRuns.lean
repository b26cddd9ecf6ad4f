import RTContainer.Score.ContainerFsTracking

/-! The tracked identifiers over every run of writes to the control files and of
calls behind them. -/

set_option autoImplicit false

namespace RTContainer.Score

open RTContainer.Rtems CString Machine

variable {Thread : Type}

/-- The files, and the live cgroups and I/O cgroups that were created through them. -/
structure FileHistory (Thread : Type) where
  files : ControlFiles Thread
  created : List ObjectsId
  createdIo : List Nat

namespace FileHistory

/-- The history after a step that leaves the files in a new state. -/
def advance (history : FileHistory Thread) (write : Bool) (after : ControlFiles Thread) :
    FileHistory Thread where
  files := after
  created := survivors write history.files.cgroups.opened after.cgroups.opened history.created
  createdIo := survivors write history.files.ioCgroups.allocated after.ioCgroups.allocated
    history.createdIo

/-- The arrays hold exactly the identifiers of what was created through the files. -/
structure TracksExactly (history : FileHistory Thread) : Prop where
  cgroups : Tracked history.files.containerfsCgroupIds id history.created
  ioCgroups : Tracked history.files.containerfsIocgroupIds history.files.ioCgroups.idOf
    history.createdIo

structure Live (history : FileHistory Thread) : Prop where
  opened : history.files.cgroups.opened.Nodup
  allocated : history.files.ioCgroups.allocated.Nodup
  created : ∀ id ∈ history.created, id ∈ history.files.cgroups.opened
  createdIo : ∀ block ∈ history.createdIo, block ∈ history.files.ioCgroups.allocated

variable {history : FileHistory Thread} {after : ControlFiles Thread}

section

variable (live : history.Live) (exact : history.TracksExactly)
include live exact

theorem Live.cgroups_kept (same : ControlFiles.SameCgroups history.files after) (write : Bool) :
    Tracked after.containerfsCgroupIds id (history.advance write after).created := by
  rw [advance, same.1, same.2]
  exact (tracked_kept live.created fun _ _ => rfl).mpr exact.cgroups

theorem Live.ioCgroups_kept
    (allocated : after.ioCgroups.allocated = history.files.ioCgroups.allocated)
    (idOf : ∀ block ∈ history.files.ioCgroups.allocated,
      after.ioCgroups.idOf block = history.files.ioCgroups.idOf block)
    (ids : after.containerfsIocgroupIds = history.files.containerfsIocgroupIds) (write : Bool) :
    Tracked after.containerfsIocgroupIds after.ioCgroups.idOf
      (history.advance write after).createdIo := by
  rw [advance, allocated, ids]
  exact (tracked_kept live.createdIo idOf).mpr exact.ioCgroups

theorem Live.ioCgroups_same (same : ControlFiles.SameIoCgroups history.files after) (write : Bool) :
    Tracked after.containerfsIocgroupIds after.ioCgroups.idOf
      (history.advance write after).createdIo := by
  apply live.ioCgroups_kept exact (by rw [same.1]) _ same.2
  intro block _
  rw [same.1]

theorem Live.advance_kept (same : ControlFiles.SameCgroups history.files after)
    (allocated : after.ioCgroups.allocated = history.files.ioCgroups.allocated)
    (idOf : ∀ block ∈ history.files.ioCgroups.allocated,
      after.ioCgroups.idOf block = history.files.ioCgroups.idOf block)
    (ids : after.containerfsIocgroupIds = history.files.containerfsIocgroupIds) (write : Bool) :
    (history.advance write after).TracksExactly :=
  ⟨live.cgroups_kept exact same write, live.ioCgroups_kept exact allocated idOf ids write⟩

theorem Live.advance_same (same : ControlFiles.SameCgroups history.files after ∧
      ControlFiles.SameIoCgroups history.files after) (write : Bool) :
    (history.advance write after).TracksExactly :=
  ⟨live.cgroups_kept exact same.1 write, live.ioCgroups_same exact same.2 write⟩

variable {call : FileCall}

/-- A create tracks exactly if a slot is left for its identifier. -/
theorem Live.advance_createCgroup_iff {name : BitVec 32} (named : name ≠ 0)
    (config : CoreCgroupConfig)
    (fresh : ∀ id, call.allocated = some id → id ∉ history.files.cgroups.opened) :
    (history.advance true (history.files.createCgroup call name config).1).TracksExactly ↔
      (call.allocated ≠ none → history.files.containerfsCgroupIds.length < trackMax) := by
  obtain ⟨io, ioIds, opened, ids⟩ := ControlFiles.createCgroup_effect history.files call named config
  generalize (history.files.createCgroup call name config).1 = after at io ioIds opened ids ⊢
  have ioSide := live.ioCgroups_same exact ⟨io, ioIds⟩ true
  cases isAllocated : call.allocated with
  | none =>
    rw [isAllocated] at opened ids
    refine iff_of_true ⟨live.cgroups_kept exact ⟨opened, ids⟩ true, ioSide⟩ ?_
    exact fun allocated => absurd rfl allocated
  | some new =>
    rw [isAllocated] at opened ids
    have isFresh := fresh new isAllocated
    have unknown : new ∉ history.files.containerfsCgroupIds := by
      intro member
      obtain ⟨key, isCreated, rfl⟩ := (exact.cgroups.mem_iff new).mp member
      exact isFresh (live.created _ isCreated)
    have room := tracked_added_iff live.created isFresh (fun _ _ => rfl) exact.cgroups
    rw [id_eq, or_iff_right unknown] at room
    have cgroupSide : Tracked after.containerfsCgroupIds id
        (history.advance true after).created ↔
          history.files.containerfsCgroupIds.length < trackMax := by
      rw [advance, opened, ids]
      exact room
    constructor
    · intro tracks _
      exact cgroupSide.mp tracks.cgroups
    · intro hasRoom
      exact ⟨cgroupSide.mpr (hasRoom (Option.some_ne_none new)), ioSide⟩

theorem Live.advance_deleteCgroup (deleted : ObjectsId) :
    (history.advance true (history.files.deleteCgroup deleted).1).TracksExactly := by
  obtain ⟨io, ioIds, opened, ids⟩ := ControlFiles.deleteCgroup_effect history.files deleted
  generalize (history.files.deleteCgroup deleted).1 = after at io ioIds opened ids ⊢
  refine ⟨?_, live.ioCgroups_same exact ⟨io, ioIds⟩ true⟩
  dsimp only [advance]
  rw [opened, ids]
  split
  next =>
    refine (tracked_removed_iff deleted live.created live.opened (fun _ _ => rfl) exact.cgroups).mpr ?_
    exact fun other _ different => different
  next absent =>
    rw [List.erase_of_not_mem absent]
    exact (tracked_kept live.created fun _ _ => rfl).mpr exact.cgroups

/-- A create tracks exactly if its identifier is known or a slot is left. -/
theorem Live.ioctl_create_iff (weight : BitVec 32)
    (fresh : ∀ block, call.malloc = some block → block ∉ history.files.ioCgroups.allocated) :
    (history.advance true (history.files.ioctlPerform call (.create weight))).TracksExactly ↔
      ((history.files.ioCgroups.rtemsIoCgroupManagerCreate (1024 * 1024) (1024 * 1024)
          call.managerMalloc).1.Creates (weight.setWidth 16) (some ⟨0, 0, 1000⟩) true
          call.malloc call.buffer →
        history.files.ioCgroups.nextCgroupId ∈ history.files.containerfsIocgroupIds ∨
          history.files.containerfsIocgroupIds.length < trackMax) := by
  have allocated : (history.files.ioCgroups.rtemsIoCgroupManagerCreate (1024 * 1024) (1024 * 1024)
      call.managerMalloc).1.allocated = history.files.ioCgroups.allocated :=
    IoCgroupSystem.managerCreate_allocated _ _ _
  have sameId : ∀ other, (history.files.ioCgroups.rtemsIoCgroupManagerCreate (1024 * 1024)
      (1024 * 1024) call.managerMalloc).1.idOf other = history.files.ioCgroups.idOf other :=
    IoCgroupSystem.managerCreate_idOf _ _ _
  have nextId : (history.files.ioCgroups.rtemsIoCgroupManagerCreate (1024 * 1024) (1024 * 1024)
      call.managerMalloc).1.nextCgroupId = history.files.ioCgroups.nextCgroupId :=
    IoCgroupSystem.managerCreate_nextCgroupId _ _ _
  rw [ControlFiles.ioctlPerform]
  cases isManaged : history.files.ioCgroups.rtemsIoCgroupManagerCreate (1024 * 1024) (1024 * 1024)
      call.managerMalloc with
  | mk managed status =>
    rw [isManaged] at allocated sameId nextId
    dsimp only at allocated sameId nextId ⊢
    have isFresh : ∀ block, call.malloc = some block → block ∉ managed.allocated := by
      rw [allocated]
      exact fresh
    by_cases successful : status = .successful
    · subst successful
      dsimp only
      by_cases creates : managed.Creates (weight.setWidth 16) (some ⟨0, 0, 1000⟩) true
          call.malloc call.buffer
      · obtain ⟨block, _, notLive, made, isNext, ok, kept⟩ :=
          creates.created isFresh call.ticksSinceBoot
        generalize managed.rtemsIoCgroupCreate (weight.setWidth 16) (some ⟨0, 0, 1000⟩) true
          call.malloc call.buffer call.ticksSinceBoot = result at made isNext ok kept ⊢
        obtain ⟨created, status⟩ := result
        dsimp only at made isNext ok kept
        subst ok
        rw [allocated] at notLive made kept
        rw [nextId] at isNext ⊢
        have same : ∀ other ∈ history.files.ioCgroups.allocated,
            created.idOf other = history.files.ioCgroups.idOf other := by
          intro other member
          rw [kept other member, sameId]
        have room := tracked_added_iff live.createdIo notLive same exact.ioCgroups
        rw [isNext, ← made] at room
        rw [forall_prop_of_true creates, ← room]
        exact ⟨fun tracks => tracks.ioCgroups,
          fun tracked => ⟨live.cgroups_kept exact ⟨rfl, rfl⟩ true, tracked⟩⟩
      · obtain ⟨error, failed⟩ :=
          IoCgroupSystem.create_refused_error creates call.ticksSinceBoot
        obtain ⟨unmade, kept⟩ :=
          IoCgroupSystem.create_refused creates isFresh call.ticksSinceBoot
        generalize managed.rtemsIoCgroupCreate (weight.setWidth 16) (some ⟨0, 0, 1000⟩) true
          call.malloc call.buffer call.ticksSinceBoot = result at failed unmade kept ⊢
        obtain ⟨refused, status⟩ := result
        dsimp only at failed unmade kept
        subst failed
        rw [allocated] at unmade kept
        refine iff_of_true ?_ (fun creates' => absurd creates' creates)
        apply live.advance_kept exact
        · exact ⟨rfl, rfl⟩
        · exact unmade
        · intro other member
          exact (kept other member).trans (sameId other)
        · rfl
    · have failed : (history.files.ioCgroups.rtemsIoCgroupManagerCreate (1024 * 1024)
          (1024 * 1024) call.managerMalloc).2 ≠ .successful := by
        rw [isManaged]
        exact successful
      obtain ⟨unchanged, noManager⟩ := IoCgroupSystem.managerCreate_refused failed
      rw [isManaged] at unchanged
      dsimp only at unchanged
      subst unchanged
      have refused : ¬history.files.ioCgroups.Creates (weight.setWidth 16) (some ⟨0, 0, 1000⟩)
          true call.malloc call.buffer := by
        intro creates
        obtain ⟨manager, _, _, enrols⟩ := creates.enrols
        have configured := enrols.configured
        rw [noManager] at configured
        cases configured
      refine iff_of_true ?_ (fun creates => absurd creates refused)
      have same := live.advance_same exact ⟨⟨rfl, rfl⟩, rfl, rfl⟩ true
      cases status <;> first | exact same | exact absurd rfl successful

theorem Live.ioctl_delete_iff (id : BitVec 32) :
    (history.advance true (history.files.ioctlPerform call (.delete id))).TracksExactly ↔
      ∀ block, history.files.ioCgroups.rtemsIoCgroupGetById id = some block →
        ∀ other ∈ history.createdIo, other ≠ block → history.files.ioCgroups.idOf other ≠ id := by
  cases found : history.files.ioCgroups.rtemsIoCgroupGetById id with
  | none =>
    rw [ControlFiles.ioctlPerform, found]
    exact iff_of_true (live.advance_same exact ⟨⟨rfl, rfl⟩, rfl, rfl⟩ true) (by simp)
  | some block =>
    rw [ControlFiles.ioctlPerform, found]
    have isId := IoCgroupSystem.getById_idOf found
    subst isId
    have same : ∀ other ∈ history.files.ioCgroups.allocated,
        (history.files.ioCgroups.rtemsIoCgroupDelete block).idOf other =
          history.files.ioCgroups.idOf other :=
      fun other _ => IoCgroupSystem.delete_idOf block other
    have removed := tracked_removed_iff block live.createdIo live.allocated same exact.ioCgroups
    rw [← IoCgroupSystem.delete_allocated block] at removed
    constructor
    · intro tracks found' isFound
      cases isFound
      exact removed.mp tracks.ioCgroups
    · intro alone
      exact ⟨live.cgroups_kept exact ⟨rfl, rfl⟩ true, removed.mpr (alone block rfl)⟩

end

theorem create_turnover {ioCgroups : IoCgroupSystem} (ioCgroupWeight : BitVec 16)
    (limits : Option IoCgroupLimit) (cgroupId buffer : Bool) {malloc : Option Nat}
    (fresh : ∀ block, malloc = some block → block ∉ ioCgroups.allocated)
    (ticksSinceBoot : BitVec 32) :
    Turnover ioCgroups.allocated (ioCgroups.rtemsIoCgroupCreate ioCgroupWeight limits cgroupId
      malloc buffer ticksSinceBoot).1.allocated := by
  by_cases creates : ioCgroups.Creates ioCgroupWeight limits cgroupId malloc buffer
  · obtain ⟨block, _, notLive, made, _⟩ := creates.created fresh ticksSinceBoot
    rw [made]
    exact .added notLive
  · rw [(IoCgroupSystem.create_refused creates fresh ticksSinceBoot).1]
    exact .kept

theorem ioctl_turnover {files : ControlFiles Thread} {call : FileCall} (command : IoctlCommand)
    (fresh : ∀ block, call.malloc = some block → block ∉ files.ioCgroups.allocated) :
    Turnover files.ioCgroups.allocated (files.ioctlPerform call command).ioCgroups.allocated := by
  cases command with
  | create weight =>
    have allocated : (files.ioCgroups.rtemsIoCgroupManagerCreate (1024 * 1024) (1024 * 1024)
        call.managerMalloc).1.allocated = files.ioCgroups.allocated :=
      IoCgroupSystem.managerCreate_allocated _ _ _
    rw [ControlFiles.ioctlPerform]
    rw [← allocated] at fresh ⊢
    split
    next managed isManaged =>
      rw [isManaged] at fresh ⊢
      have turnover := create_turnover (weight.setWidth 16) (some ⟨0, 0, 1000⟩) true call.buffer
        fresh call.ticksSinceBoot
      split
      next created id isCreated =>
        rw [isCreated] at turnover
        exact turnover
      next refused error isRefused =>
        rw [isRefused] at turnover
        exact turnover
    next refused _ _ isRefused =>
      rw [isRefused]
      exact .kept
  | set id readBps writeBps windowMs =>
    rw [ControlFiles.ioctlPerform]
    split
    next block _ =>
      dsimp only
      rw [(IoCgroupSystem.setLimits_kept files.ioCgroups block _).1]
      exact .kept
    next => exact .kept
  | delete id =>
    rw [ControlFiles.ioctlPerform]
    split
    next block _ =>
      show Turnover _ (files.ioCgroups.rtemsIoCgroupDelete block).allocated
      rw [IoCgroupSystem.delete_allocated]
      exact .removed block
    next => exact .kept
  | list => exact .kept
  | refused => exact .kept

end FileHistory

/-- The command of a write, `none` when there is none. -/
def cpuctlCommandOf (call : FileCall) (buffer : List UInt8) : Option CpuctlCommand :=
  (containerfsCopyCommand 256 buffer).map (cpuctlParse call.overflow)

def memctlCommandOf (call : FileCall) (buffer : List UInt8) : Option MemctlCommand :=
  (containerfsCopyCommand 256 buffer).map (memctlParse call.overflow)

def ioctlCommandOf (call : FileCall) (buffer : List UInt8) : Option IoctlCommand :=
  (containerfsCopyCommand 256 buffer).map (ioctlParse call.overflow)

theorem memctlWrite_fst (files : ControlFiles Thread) (call : FileCall) (buffer : List UInt8) :
    (files.memctlWrite call buffer).1 =
      match memctlCommandOf call buffer with
      | none => files
      | some command => files.memctlPerform call command := by
  unfold ControlFiles.memctlWrite memctlCommandOf
  cases containerfsCopyCommand 256 buffer <;> rfl

theorem ioctlWrite_fst (files : ControlFiles Thread) (call : FileCall) (buffer : List UInt8) :
    (files.ioctlWrite call buffer).1 =
      match ioctlCommandOf call buffer with
      | none => files
      | some command => files.ioctlPerform call command := by
  unfold ControlFiles.ioctlWrite ioctlCommandOf
  cases containerfsCopyCommand 256 buffer <;> rfl

variable [DecidableEq Thread]

theorem cpuctlWrite_fst (files : ControlFiles Thread) (call : FileCall) (buffer : List UInt8) :
    (files.cpuctlWrite call buffer).1 =
      match cpuctlCommandOf call buffer with
      | none => files
      | some command => (files.cpuctlPerform call command).1 := by
  unfold ControlFiles.cpuctlWrite cpuctlCommandOf
  cases containerfsCopyCommand 256 buffer with
  | none => rfl
  | some cmd =>
    dsimp only [Option.map_some]
    split
    next written => rw [written]
    next written => rw [written]

/-- A write to a control file, or a call of a directive behind the files. -/
inductive FileStep where
  | cpuctl (call : FileCall) (buffer : List UInt8)
  | memctl (call : FileCall) (buffer : List UInt8)
  | ioctl (call : FileCall) (buffer : List UInt8)
  | cgroupCreate (name : BitVec 32) (id : Bool) (config : Nat) (allocated : Option ObjectsId)
  | cgroupDelete (id : ObjectsId)
  | ioCgroup (call : IoCgroupCall)

namespace FileStep

def isWrite : FileStep → Bool
  | cpuctl .. | memctl .. | ioctl .. => true
  | cgroupCreate .. | cgroupDelete .. | ioCgroup .. => false

def perform (files : ControlFiles Thread) : FileStep → ControlFiles Thread
  | cpuctl call buffer => (files.cpuctlWrite call buffer).1
  | memctl call buffer => (files.memctlWrite call buffer).1
  | ioctl call buffer => (files.ioctlWrite call buffer).1
  | cgroupCreate name id config allocated =>
    { files with cgroups := (rtemsCgroupCreate files.cgroups name id config allocated).1 }
  | cgroupDelete id => { files with cgroups := (rtemsCgroupDelete files.cgroups id).1 }
  | ioCgroup call => { files with ioCgroups := call.perform files.ioCgroups }

/-- The allocators hand out nothing that is in use, and the calls behind the
files get pointers to allocated I/O cgroups. -/
def Possible (files : ControlFiles Thread) : FileStep → Prop
  | cpuctl call _ | memctl call _ =>
    ∀ id, call.allocated = some id → id ∉ files.cgroups.opened
  | ioctl call _ => ∀ block, call.malloc = some block → block ∉ files.ioCgroups.allocated
  | cgroupCreate _ _ _ allocated => ∀ id, allocated = some id → id ∉ files.cgroups.opened
  | cgroupDelete _ => True
  | ioCgroup call => call.Possible files.ioCgroups

end FileStep

namespace FileHistory

variable {history : FileHistory Thread} {after : ControlFiles Thread}

def step (history : FileHistory Thread) (step : FileStep) : FileHistory Thread :=
  history.advance step.isWrite (step.perform history.files)

/-- A creation through a file finds room in its array, a deletion behind the
files does not take the last object of a tracked identifier, and a deletion
through `/ioctl` takes the only one of its identifier. -/
def Tracks (history : FileHistory Thread) : FileStep → Prop
  | .cpuctl call buffer =>
    match cpuctlCommandOf call buffer with
    | some (.create ..) =>
      call.allocated ≠ none → history.files.containerfsCgroupIds.length < trackMax
    | _ => True
  | .memctl call buffer =>
    match memctlCommandOf call buffer with
    | some (.create ..) =>
      call.allocated ≠ none → history.files.containerfsCgroupIds.length < trackMax
    | _ => True
  | .ioctl call buffer =>
    match ioctlCommandOf call buffer with
    | some (.create weight) =>
      (history.files.ioCgroups.rtemsIoCgroupManagerCreate (1024 * 1024) (1024 * 1024)
          call.managerMalloc).1.Creates (weight.setWidth 16) (some ⟨0, 0, 1000⟩) true
          call.malloc call.buffer →
        history.files.ioCgroups.nextCgroupId ∈ history.files.containerfsIocgroupIds ∨
          history.files.containerfsIocgroupIds.length < trackMax
    | some (.delete id) =>
      ∀ block, history.files.ioCgroups.rtemsIoCgroupGetById id = some block →
        ∀ other ∈ history.createdIo, other ≠ block → history.files.ioCgroups.idOf other ≠ id
    | _ => True
  | .cgroupCreate .. => True
  | .cgroupDelete id => id ∉ history.files.containerfsCgroupIds
  | .ioCgroup (.delete (some block)) =>
    block ∈ history.createdIo → ∃ other ∈ history.createdIo, other ≠ block ∧
      history.files.ioCgroups.idOf other = history.files.ioCgroups.idOf block
  | .ioCgroup _ => True

section

variable (live : history.Live) (exact : history.TracksExactly)
include live exact

variable {call : FileCall} {buffer : List UInt8}

theorem Live.cpuctl_iff (possible : (FileStep.cpuctl call buffer).Possible history.files) :
    (history.step (.cpuctl call buffer)).TracksExactly ↔ history.Tracks (.cpuctl call buffer) := by
  show (history.advance true (history.files.cpuctlWrite call buffer).1).TracksExactly ↔ _
  rw [cpuctlWrite_fst, Tracks]
  cases cpuctlCommandOf call buffer with
  | none => exact iff_of_true (live.advance_same exact ⟨⟨rfl, rfl⟩, rfl, rfl⟩ true) trivial
  | some command =>
    dsimp only
    cases command with
    | create quota period shares =>
      rw [ControlFiles.cpuctlPerform_create]
      exact live.advance_createCgroup_iff exact (ControlFiles.cpuctlName_ne_zero _) _ possible
    | delete id =>
      rw [ControlFiles.cpuctlPerform_delete]
      exact iff_of_true (live.advance_deleteCgroup exact id) trivial
    | set | pause | resume =>
      exact iff_of_true (live.advance_same exact
        (ControlFiles.cpuctlPerform_same (by simp) (by simp)) true) trivial
    | list | refused =>
      exact iff_of_true (live.advance_same exact ⟨⟨rfl, rfl⟩, rfl, rfl⟩ true) trivial

theorem Live.memctl_iff (possible : (FileStep.memctl call buffer).Possible history.files) :
    (history.step (.memctl call buffer)).TracksExactly ↔ history.Tracks (.memctl call buffer) := by
  show (history.advance true (history.files.memctlWrite call buffer).1).TracksExactly ↔ _
  rw [memctlWrite_fst, Tracks]
  cases memctlCommandOf call buffer with
  | none => exact iff_of_true (live.advance_same exact ⟨⟨rfl, rfl⟩, rfl, rfl⟩ true) trivial
  | some command =>
    dsimp only
    cases command with
    | create memoryLimit =>
      exact live.advance_createCgroup_iff exact (ControlFiles.memctlName_ne_zero _) _ possible
    | delete id => exact iff_of_true (live.advance_deleteCgroup exact id) trivial
    | set id memoryLimit =>
      exact iff_of_true (live.advance_same exact
        (ControlFiles.memctlPerform_same (by simp) (by simp)) true) trivial
    | list | refused =>
      exact iff_of_true (live.advance_same exact ⟨⟨rfl, rfl⟩, rfl, rfl⟩ true) trivial

theorem Live.ioctl_iff (possible : (FileStep.ioctl call buffer).Possible history.files) :
    (history.step (.ioctl call buffer)).TracksExactly ↔ history.Tracks (.ioctl call buffer) := by
  show (history.advance true (history.files.ioctlWrite call buffer).1).TracksExactly ↔ _
  rw [ioctlWrite_fst, Tracks]
  cases ioctlCommandOf call buffer with
  | none => exact iff_of_true (live.advance_same exact ⟨⟨rfl, rfl⟩, rfl, rfl⟩ true) trivial
  | some command =>
    dsimp only
    cases command with
    | create weight => exact live.ioctl_create_iff exact weight possible
    | delete id => exact live.ioctl_delete_iff exact id
    | set id readBps writeBps windowMs =>
      refine iff_of_true ?_ trivial
      rw [ControlFiles.ioctlPerform]
      split
      next block _ =>
        obtain ⟨allocated, same⟩ := IoCgroupSystem.setLimits_kept history.files.ioCgroups block
          (some ⟨readBps, writeBps, windowMs⟩)
        apply live.advance_kept exact
        · exact ⟨rfl, rfl⟩
        · exact allocated
        · intro other _
          exact same other
        · rfl
      next => exact live.advance_same exact ⟨⟨rfl, rfl⟩, rfl, rfl⟩ true
    | list | refused =>
      exact iff_of_true (live.advance_same exact ⟨⟨rfl, rfl⟩, rfl, rfl⟩ true) trivial

theorem Live.cgroupCreate_iff {name : BitVec 32} {id : Bool} {config : Nat}
    {allocated : Option ObjectsId}
    (possible : (FileStep.cgroupCreate name id config allocated).Possible history.files) :
    (history.step (.cgroupCreate name id config allocated)).TracksExactly ↔
      history.Tracks (.cgroupCreate name id config allocated) := by
  refine iff_of_true ⟨?_, live.ioCgroups_same exact ⟨rfl, rfl⟩ false⟩ trivial
  rcases rtemsCgroupCreate_cases history.files.cgroups name id config allocated with
    ⟨block, ⟨_, _, isBlock⟩, created⟩ | ⟨_, unchanged⟩
  · have fresh := possible block isBlock
    have unseen := tracked_unseen live.created fresh (fun _ _ => rfl) exact.cgroups
    have opened : (rtemsCgroupCreate history.files.cgroups name id config allocated).1.opened =
        block :: history.files.cgroups.opened := by
      rw [created]
      rfl
    rw [← opened] at unseen
    exact unseen
  · have opened : (rtemsCgroupCreate history.files.cgroups name id config allocated).1.opened =
        history.files.cgroups.opened := by
      rw [unchanged]
    apply live.cgroups_kept exact
    exact ⟨opened, rfl⟩

theorem Live.cgroupDelete_iff (deleted : ObjectsId) :
    (history.step (.cgroupDelete deleted)).TracksExactly ↔
      history.Tracks (.cgroupDelete deleted) := by
  have opened := (ControlFiles.rtemsCgroupDelete_effect history.files.cgroups deleted).1
  have kept := tracked_deleted_iff deleted live.created live.opened (fun _ _ => rfl) exact.cgroups
  rw [← opened] at kept
  have tracks : (history.step (.cgroupDelete deleted)).TracksExactly ↔
      (deleted ∈ history.created →
        ∃ other ∈ history.created, other ≠ deleted ∧ id other = id deleted) :=
    ⟨fun tracks => kept.mp tracks.cgroups,
      fun shared => ⟨kept.mpr shared, live.ioCgroups_same exact ⟨rfl, rfl⟩ false⟩⟩
  rw [tracks, Tracks, exact.cgroups.mem_iff]
  simp

theorem Live.ioCgroup_kept {call : IoCgroupCall}
    (kept : (call.perform history.files.ioCgroups).allocated =
        history.files.ioCgroups.allocated ∧
      ∀ other ∈ history.files.ioCgroups.allocated,
        (call.perform history.files.ioCgroups).idOf other = history.files.ioCgroups.idOf other) :
    (history.step (.ioCgroup call)).TracksExactly := by
  apply live.advance_kept exact
  · exact ⟨rfl, rfl⟩
  · exact kept.1
  · exact kept.2
  · rfl

theorem Live.ioCgroup_create {ioCgroupWeight : BitVec 16} {limits : Option IoCgroupLimit}
    {cgroupId buffer : Bool} {malloc : Option Nat} {ticksSinceBoot : BitVec 32}
    (fresh : ∀ block, malloc = some block → block ∉ history.files.ioCgroups.allocated) :
    (history.step (.ioCgroup
      (.create ioCgroupWeight limits cgroupId malloc buffer ticksSinceBoot))).TracksExactly := by
  by_cases creates : history.files.ioCgroups.Creates ioCgroupWeight limits cgroupId malloc buffer
  · obtain ⟨block, _, notLive, made, _, _, kept⟩ := creates.created fresh ticksSinceBoot
    have unseen := tracked_unseen live.createdIo notLive kept exact.ioCgroups
    rw [← made] at unseen
    exact ⟨live.cgroups_kept exact ⟨rfl, rfl⟩ false, unseen⟩
  · exact live.ioCgroup_kept exact (IoCgroupSystem.create_refused creates fresh ticksSinceBoot)

theorem Live.ioCgroup_delete_iff (block : Nat) :
    (history.step (.ioCgroup (.delete (some block)))).TracksExactly ↔
      history.Tracks (.ioCgroup (.delete (some block))) := by
  have same : ∀ other ∈ history.files.ioCgroups.allocated,
      (history.files.ioCgroups.rtemsIoCgroupDelete block).idOf other =
        history.files.ioCgroups.idOf other :=
    fun other _ => IoCgroupSystem.delete_idOf block other
  have deleted := tracked_deleted_iff block live.createdIo live.allocated same exact.ioCgroups
  rw [← IoCgroupSystem.delete_allocated block] at deleted
  exact ⟨fun tracks => deleted.mp tracks.ioCgroups,
    fun shared => ⟨live.cgroups_kept exact ⟨rfl, rfl⟩ false, deleted.mpr shared⟩⟩

theorem Live.ioCgroup_iff {call : IoCgroupCall}
    (possible : (FileStep.ioCgroup call).Possible history.files) :
    (history.step (.ioCgroup call)).TracksExactly ↔ history.Tracks (.ioCgroup call) := by
  have kept : call.Keeps → (history.step (.ioCgroup call)).TracksExactly := by
    intro keeps
    obtain ⟨allocated, same⟩ := IoCgroupCall.perform_kept keeps history.files.ioCgroups
    exact live.ioCgroup_kept exact ⟨allocated, fun other _ => same other⟩
  cases call with
  | create ioCgroupWeight limits cgroupId malloc buffer ticksSinceBoot =>
    refine iff_of_true (live.ioCgroup_create exact ?_) trivial
    rintro block rfl
    exact possible.2
  | delete ioCgroup =>
    cases ioCgroup with
    | none => exact iff_of_true (kept trivial) trivial
    | some block => exact live.ioCgroup_delete_iff exact block
  | _ => exact iff_of_true (kept trivial) trivial

theorem Live.step_iff {step : FileStep} (possible : step.Possible history.files) :
    (history.step step).TracksExactly ↔ history.Tracks step := by
  cases step with
  | cpuctl call buffer => exact live.cpuctl_iff exact possible
  | memctl call buffer => exact live.memctl_iff exact possible
  | ioctl call buffer => exact live.ioctl_iff exact possible
  | cgroupCreate name id config allocated => exact live.cgroupCreate_iff exact possible
  | cgroupDelete id => exact live.cgroupDelete_iff exact id
  | ioCgroup call => exact live.ioCgroup_iff exact possible

end

variable {files : ControlFiles Thread}

/-- A step creates or deletes at most one cgroup. -/
theorem opened_turnover {step : FileStep} (possible : step.Possible files) :
    Turnover files.cgroups.opened (step.perform files).cgroups.opened := by
  cases step with
  | cpuctl call buffer =>
    rw [FileStep.perform, cpuctlWrite_fst]
    cases cpuctlCommandOf call buffer with
    | none => exact .kept
    | some command =>
      by_cases creates : ∃ quota period shares, command = .create quota period shares
      · obtain ⟨quota, period, shares, rfl⟩ := creates
        dsimp only
        rw [ControlFiles.cpuctlPerform_create]
        exact ControlFiles.createCgroup_turnover files (ControlFiles.cpuctlName_ne_zero _) _ possible
      · by_cases deletes : ∃ id, command = .delete id
        · obtain ⟨id, rfl⟩ := deletes
          dsimp only
          rw [ControlFiles.cpuctlPerform_delete]
          exact ControlFiles.deleteCgroup_turnover files id
        · push Not at creates deletes
          exact ControlFiles.same_turnover (ControlFiles.cpuctlPerform_same creates deletes).1
  | memctl call buffer =>
    rw [FileStep.perform, memctlWrite_fst]
    cases memctlCommandOf call buffer with
    | none => exact .kept
    | some command =>
      cases command with
      | create memoryLimit =>
        exact ControlFiles.createCgroup_turnover files (ControlFiles.memctlName_ne_zero _) _ possible
      | delete id => exact ControlFiles.deleteCgroup_turnover files id
      | set id memoryLimit =>
        exact ControlFiles.same_turnover (ControlFiles.memctlPerform_same (by simp) (by simp)).1
      | list => exact .kept
      | refused => exact .kept
  | ioctl call buffer =>
    rw [FileStep.perform, ioctlWrite_fst]
    cases ioctlCommandOf call buffer with
    | none => exact .kept
    | some command =>
      dsimp only
      rw [ControlFiles.ioctl_opened]
      exact .kept
  | cgroupCreate name id config allocated =>
    rcases rtemsCgroupCreate_cases files.cgroups name id config allocated with
      ⟨block, ⟨_, _, isBlock⟩, created⟩ | ⟨_, unchanged⟩
    · rw [FileStep.perform, created]
      exact .added (possible block isBlock)
    · rw [FileStep.perform, unchanged]
      exact .kept
  | cgroupDelete id =>
    rw [FileStep.perform, (ControlFiles.rtemsCgroupDelete_effect files.cgroups id).1]
    exact .removed id
  | ioCgroup call => exact .kept

theorem allocated_turnover {step : FileStep} (possible : step.Possible files) :
    Turnover files.ioCgroups.allocated (step.perform files).ioCgroups.allocated := by
  cases step with
  | cpuctl call buffer =>
    rw [FileStep.perform, cpuctlWrite_fst]
    cases cpuctlCommandOf call buffer with
    | none => exact .kept
    | some command =>
      dsimp only
      rw [ControlFiles.cpuctlPerform_io]
      exact .kept
  | memctl call buffer =>
    rw [FileStep.perform, memctlWrite_fst]
    cases memctlCommandOf call buffer with
    | none => exact .kept
    | some command =>
      dsimp only
      rw [ControlFiles.memctlPerform_io]
      exact .kept
  | ioctl call buffer =>
    rw [FileStep.perform, ioctlWrite_fst]
    cases ioctlCommandOf call buffer with
    | none => exact .kept
    | some command => exact ioctl_turnover command possible
  | cgroupCreate name id config allocated => exact .kept
  | cgroupDelete id => exact .kept
  | ioCgroup call =>
    have kept : call.Keeps → Turnover files.ioCgroups.allocated
        (call.perform files.ioCgroups).allocated := by
      intro keeps
      rw [(IoCgroupCall.perform_kept keeps files.ioCgroups).1]
      exact .kept
    cases call with
    | create ioCgroupWeight limits cgroupId malloc buffer ticksSinceBoot =>
      refine create_turnover ioCgroupWeight limits cgroupId buffer ?_ ticksSinceBoot
      rintro block rfl
      exact possible.2
    | delete ioCgroup =>
      cases ioCgroup with
      | none => exact .kept
      | some block =>
        rw [FileStep.perform, IoCgroupCall.perform, IoCgroupSystem.delete_allocated]
        exact .removed block
    | _ => exact kept trivial

theorem Live.step (live : history.Live) {step : FileStep}
    (possible : step.Possible history.files) : (history.step step).Live where
  opened := (opened_turnover possible).nodup live.opened
  allocated := (allocated_turnover possible).nodup live.allocated
  created := by
    intro id isCreated
    rcases mem_survivors.mp isCreated with ⟨_, isOpen, _⟩ | ⟨_, isOpen⟩
    · exact isOpen
    · exact isOpen
  createdIo := by
    intro block isCreated
    rcases mem_survivors.mp isCreated with ⟨_, isAllocated, _⟩ | ⟨_, isAllocated⟩
    · exact isAllocated
    · exact isAllocated

variable (cgroups : CgroupSystem Thread)

/-- The files before any cgroup has been created. -/
def start : FileHistory Thread where
  files :=
    { cgroups := { cgroups with opened := [] }
      ioCgroups := .initial
      containerfsCgroupIds := []
      containerfsCgroupNameIndex := 0
      containerfsIocgroupIds := [] }
  created := []
  createdIo := []

omit [DecidableEq Thread] in
theorem start_live : (start cgroups).Live where
  opened := List.nodup_nil
  allocated := List.nodup_nil
  created := by simp [start]
  createdIo := by simp [start]

omit [DecidableEq Thread] in
theorem start_tracksExactly : (start cgroups).TracksExactly where
  cgroups := ⟨List.nodup_nil, by simp [start]⟩
  ioCgroups := ⟨List.nodup_nil, by simp [start]⟩

/-- In every run the arrays are exact in every state reached exactly when every
creation through a file finds room and every deletion keeps to what is tracked. -/
theorem tracksExactly_iff (steps : List FileStep)
    (possible : Meets step (fun history step => step.Possible history.files) (start cgroups)
      steps) :
    Throughout step TracksExactly (start cgroups) steps ↔ Meets step Tracks (start cgroups) steps := by
  have iff : Throughout step TracksExactly (start cgroups) steps ↔
      (start cgroups).TracksExactly ∧ Meets step Tracks (start cgroups) steps :=
    throughout_iff_start_meets Live (start_live cgroups) possible
      (fun _ _ live possible => live.step possible)
      (fun _ _ live possible exact => live.step_iff exact possible)
  rw [iff, and_iff_right (start_tracksExactly cgroups)]

/-! A cgroup that is created through `/cpuctl` and deleted again, through the file
or behind it. -/

def noCgroups : CgroupSystem Unit where
  opened := []
  cgroups := fun _ => ⟨statesReady, 0, [], 0, 0, 0, false, false, 0, false⟩
  configs := fun _ => ⟨0, 0, 0, 0, 0⟩
  cgroup := fun _ => none
  isAddedToCgroup := fun _ => false
  currentState := fun _ => statesReady
  lastCpuStartTimestamp := fun _ => 0

def firstBlock : FileCall where
  overflow := ⟨fun _ => 0, fun _ => 0, fun _ => 0⟩
  frame := 0x1000
  allocated := some 0x5a010001
  managerMalloc := true
  malloc := none
  buffer := true
  ticksSinceBoot := 0

def createAndDelete : List FileStep :=
  [.cpuctl firstBlock (bytes "create"),
    .cpuctl { firstBlock with allocated := none } (bytes "delete 1510014977")]

def createAndDeleteBehind : List FileStep :=
  [.cpuctl firstBlock (bytes "create"), .cgroupDelete 0x5a010001]

theorem createAndDelete_tracksExactly :
    Throughout step TracksExactly (start noCgroups) createAndDelete := by
  have possible : Meets step (fun history step => step.Possible history.files) (start noCgroups)
      createAndDelete := by
    refine ⟨?_, ?_, trivial⟩
    · rintro id ⟨⟩
      decide
    · rintro id ⟨⟩
  refine (tracksExactly_iff noCgroups createAndDelete possible).mpr ⟨?_, trivial, trivial⟩
  intro _
  decide

theorem createAndDeleteBehind_leaves :
    Meets step (fun history step => step.Possible history.files) (start noCgroups)
        createAndDeleteBehind ∧
      ¬Throughout step TracksExactly (start noCgroups) createAndDeleteBehind := by
  refine ⟨⟨?_, trivial, trivial⟩, ?_⟩
  · rintro id ⟨⟩
    decide
  · intro always
    have tracked := (always.final.cgroups.mem_iff 0x5a010001).mp (by decide)
    obtain ⟨key, isCreated, _⟩ := tracked
    have none : (run step (start noCgroups) createAndDeleteBehind).created = [] := by decide
    rw [none] at isCreated
    exact absurd isCreated List.not_mem_nil

end FileHistory

end RTContainer.Score
