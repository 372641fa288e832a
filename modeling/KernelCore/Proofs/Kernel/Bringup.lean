import KernelCore.Proofs.Kernel.Laps
import KernelCore.Proofs.Kernel.Masking
import KernelCore.Proofs.Paging.Shelter
import KernelCore.Proofs.Scheduler.Lookup

/-!
# Bring-up

Whether the kernel comes up depends on nothing but how many frames of memory there are: those below
the reserved end are set aside, and of the others one is needed for the kernel's directory and one
for each of its tables. `Kernel.BroughtUp` is what there is then: all tracked memory is mapped to
itself and nothing else is mapped, the frames that are not needed are free, and the idle process is
the only process. On the way the processor is told to load the kernel's directory, and only then to
turn paging on.
-/

namespace KernelCore

open ProcessTable

/-- How many frames are tracked of the memory that the boot loader reports. -/
def BootMemory.frames (memory : BootMemory) : Nat :=
  min memory.totalBytes Layout.maxPhysicalMemory / Layout.frameSize

theorem BootMemory.frames_le (memory : BootMemory) : memory.frames ≤ Layout.maxFrames :=
  Nat.div_le_div_right (Nat.min_le_right _ _)

namespace AddressSpaces

open Fallible

section Inactive

variable {Value : Type} {action : Fallible AddressSpaces MapError Value}

/-- No address space is active. -/
def Inactive (spaces : AddressSpaces) : Prop :=
  spaces.current = none

theorem calm_of_passive (silent : action.Silent) (passive : action.Passive current) :
    action.Calm Inactive fun _ => False := by
  refine Operation.Silent.calm silent ?_
  rintro before reply after ⟨effects, run⟩ inactive
  exact (passive before reply after effects run).1.trans inactive

/-- A page is to be dropped only if the address space is active. -/
theorem calm_mapIn_inactive (directory : Directory) (virtual : VirtAddr) (physical : PhysAddr)
    (flags : PageFlags) :
    (mapIn directory virtual physical flags).Calm Inactive fun _ => False := by
  refine calm_bind (calm_of_passive (silent_tableFor _ _ _) (passive_tableFor _ _ _))
    fun table => ?_
  refine calm_bind (calm_lift (Operation.calm_modify fun _ inactive => inactive)) fun _ => ?_
  refine calm_lift fun before value after effects run inactive => ?_
  have noCurrent : before.current = none := inactive
  rw [invalidateIn, Operation.get_bind_apply, noCurrent] at run
  cases run
  exact ⟨inactive, fun _ mem => absurd mem List.not_mem_nil⟩

/-- The kernel's directory is built without a word to the processor, if no address space is
active. -/
theorem calm_initKernelDirectory_inactive (past : UInt32) :
    (initKernelDirectory past).Calm Inactive fun _ => False := by
  refine calm_bind (calm_of_passive silent_createDirectory passive_createDirectory)
    fun directory => ?_
  refine calm_bind (calm_sweep (fun page => calm_mapIn_inactive _ _ _ _) _ _) fun _ => ?_
  refine calm_bind (calm_lift (Operation.calm_modify fun _ inactive => inactive)) fun _ => ?_
  exact calm_bind calm_log fun _ => calm_pure

end Inactive

end AddressSpaces

namespace Kernel

open AddressSpaces

variable {total : Nat}

/-- The kernel has come up on so many frames. -/
structure BroughtUp (kernel : Kernel) (root : Directory) (frames : Nat) (idleEntry : UInt32)
    (config : SchedulerConfig) : Prop where
  isKernel : kernel.spaces.kernel = some root
  active : kernel.currentDirectory = some root
  /-- All tracked memory is mapped to itself, and nothing else is mapped. -/
  translates : ∀ address : VirtAddr, kernel.translate address =
    if address.word.toNat < Layout.frameSize * frames then
      some (⟨address.word⟩, PageFlags.present.union .writable)
    else none
  /-- The reserved frames are used, one for the directory, and one for each 4 MiB or part of it. -/
  free : kernel.spaces.frames.freeFrames =
    frames - 2048 - 1 - (frames + (Layout.pageEntries - 1)) / Layout.pageEntries
  clock : kernel.dispatcher.scheduler = { config }
  idle : kernel.idle = ⟨1⟩
  nobody : kernel.currentPid = none
  /-- The idle process waits for the processor, and there is no other. -/
  only : ∃ home,
    (∃ next, kernel.table.process home =
      { ProcessRecord.fresh ⟨1⟩ "idle" idleEntry Layout.idlePriority config.timeSliceTicks
          { directory := some root } with next }) ∧
    ∀ slot, (kernel.table.process slot).isLive = true ↔ slot = home

theorem BroughtUp.withInterrupts {kernel : Kernel} {root : Directory} {frames : Nat}
    {idleEntry : UInt32} {config : SchedulerConfig}
    (broughtUp : kernel.BroughtUp root frames idleEntry config) (enabled : Bool) :
    (Maskable.withInterrupts enabled kernel).BroughtUp root frames idleEntry config :=
  ⟨broughtUp.isKernel, broughtUp.active, broughtUp.translates, broughtUp.free, broughtUp.clock,
    broughtUp.idle, broughtUp.nobody, broughtUp.only⟩

section Runs

variable {memory : BootMemory} {Value : Type}

/-- The kernel's directory is built on frames none of which was taken, if there are enough. -/
theorem kernelDirectory_built (blank : AddressSpaces) (most : total ≤ Layout.maxFrames)
    (untaken : blank.frames = .fresh total firstFrame) (noKernel : blank.kernel = none) :
    (total ≤ firstFrame + tablesFor total ∧ ∃ spaces,
      (initKernelDirectory (UInt32.ofNat (total * Layout.frameSize))).Yields blank
        (.error .frameAllocationFailed) spaces) ∨
      ∃ (root : Directory) (spaces : AddressSpaces),
        (initKernelDirectory (UInt32.ofNat (total * Layout.frameSize))).Yields blank (.ok root)
          { spaces with kernel := some root } ∧
        firstFrame + tablesFor total + 1 + spaces.frames.freeFrames = total ∧
        spaces.IdentityMapped root total := by
  have sheltered : blank.Sheltered [] :=
    ⟨(owned_of_fresh most untaken noKernel).wellFormed, List.nodup_nil,
      fun _ mem => absurd mem List.not_mem_nil, fun _ mem => absurd mem List.not_mem_nil⟩
  have built := sheltered.initKernelDirectory (UInt32.ofNat (total * Layout.frameSize))
  rw [pages_of_total most] at built
  rcases kernelDirectory_cases most untaken noKernel with
    ⟨cause, spaces, refused, short⟩ | ⟨root, spaces, made, free⟩
  · rcases built with ⟨after, failed, -⟩ | ⟨_, _, done, -⟩
    · exact Or.inl ⟨short, after, failed⟩
    · cases (refused.unique done).1
  · rcases built with ⟨after, failed, -⟩ | ⟨directory, after, done, -, mapped⟩
    · cases (failed.unique made).1
    · rcases done.unique made with ⟨same, rfl⟩
      cases same
      exact Or.inr ⟨root, spaces, made, free, mapped⟩

theorem distinct_of_only {table : ProcessTable} {home : Slot}
    (only : ∀ slot, (table.process slot).isLive = true → slot = home) : table.Distinct := by
  intro left right pid first second here there
  have leftLive := (ProcessRecord.identity_eq_some.mp here).1
  have rightLive := (ProcessRecord.identity_eq_some.mp there).1
  rw [only left leftLive, only right rightLive]

theorem silent_onSpaces {action : Operation AddressSpaces Value} (silent : action.Silent) :
    (onSpaces action).Silent :=
  Operation.silent_within silent

theorem silent_onFrames {action : Operation FrameBitmap Value} (silent : action.Silent) :
    (onFrames action).Silent :=
  silent_onSpaces (Operation.silent_within silent)

theorem silent_onHeap {action : Operation Heap Value} (silent : action.Silent) :
    (onHeap action).Silent :=
  Operation.silent_within silent

theorem silent_onDispatcher {action : Operation Dispatcher Value} (silent : action.Silent) :
    (onDispatcher action).Silent :=
  Operation.silent_within silent

theorem runs_onSpaces {action : Operation AddressSpaces Value} {before : Kernel} {value : Value}
    {spaces : AddressSpaces} {events : List Event}
    (run : action.Runs before.spaces value spaces events) :
    (onSpaces action).Runs before value { before with spaces } events :=
  Operation.runs_within run

theorem runs_forgetSpaces (kernel : Kernel) :
    forgetSpaces.Runs kernel ()
      { kernel with
        spaces := ⟨kernel.spaces.frames, kernel.spaces.memory, none, none⟩ } [] :=
  runs_onSpaces Operation.runs_modify

theorem runs_resetProcesses (config : SchedulerConfig) (kernel : Kernel) :
    (resetProcesses config).Runs kernel ()
      { kernel with dispatcher := ⟨.empty config.timeSliceTicks, { config }⟩ } [] := by
  rw [resetProcesses, onDispatcher]
  exact Operation.runs_within Operation.runs_set

theorem runs_switchTo (directory : Directory) (spaces : AddressSpaces) :
    (switchTo directory).Runs spaces () { spaces with current := some directory }
      [.loadDirectory directory] :=
  Operation.runs_bind Operation.runs_modify
    (Operation.runs_bind Operation.runs_signal Operation.runs_log)

/-- A kernel whose bitmap and heap were just set up, and which has no address spaces. -/
def prepared (start : Kernel) (frames : Nat) (heap : Heap) : Kernel :=
  { start with spaces := ⟨.fresh frames firstFrame, start.spaces.memory, none, none⟩, heap }

/-- The first steps of bring-up tell the processor nothing, and what is left is up to the rest. -/
theorem runs_prepared {start after : Kernel} {heap : Heap} {reply : Except KernelError Unit}
    {events : List Event} {rest : Kernel → Fallible Kernel KernelError Unit}
    (enough : firstFrame < memory.frames)
    (heaped : (Heap.reset Layout.kernelHeapStart Layout.kernelHeapEnd).Yields start.heap (.ok ())
      heap)
    (run : (rest (prepared start memory.frames heap)).Runs (prepared start memory.frames heap)
      reply after events) :
    Fallible.Runs (do
      log (.memoryReported memory.lowerKb memory.upperKb)
      Fallible.mapCause .frame
        (onFrames (FrameBitmap.reset memory.totalBytes Layout.reservedEnd))
      Fallible.mapCause .heap (onHeap (Heap.reset Layout.kernelHeapStart Layout.kernelHeapEnd))
      forgetSpaces
      rest (← get)) start reply after events := by
  let tracked : Kernel :=
    { start with spaces := { start.spaces with frames := .fresh memory.frames firstFrame } }
  have tracks : Fallible.Yields
      (onFrames (FrameBitmap.reset memory.totalBytes Layout.reservedEnd)) start (.ok ())
      tracked := by
    rcases FrameBitmap.reset_cases start.spaces.frames memory.totalBytes Layout.reservedEnd with
      ⟨-, done⟩ | ⟨short, -⟩
    · exact yields_onFrames.mpr ⟨_, done, rfl⟩
    · exact absurd enough (Nat.not_lt.mpr short)
  have lays : Fallible.Yields (onHeap (Heap.reset Layout.kernelHeapStart Layout.kernelHeapEnd))
      tracked (.ok ()) { tracked with heap } := yields_onHeap.mpr ⟨heap, heaped, rfl⟩
  refine Fallible.runs_bind Fallible.runs_log ?_
  refine Fallible.runs_bind (Fallible.runs_mapCause
    (Operation.Silent.runs (silent_onFrames (FrameBitmap.silent_reset _ _)) tracks)) ?_
  refine Fallible.runs_bind (Fallible.runs_mapCause
    (Operation.Silent.runs (silent_onHeap (Heap.silent_reset _ _)) lays)) ?_
  refine Fallible.runs_bind (Fallible.runs_lift (runs_forgetSpaces _)) ?_
  exact Fallible.runs_bind Fallible.runs_get run

/-- The stack of the idle process is prepared last. -/
theorem BroughtUp.runs_seedStack {kernel : Kernel} {root : Directory} {frames : Nat}
    {idleEntry : UInt32} {config : SchedulerConfig}
    (broughtUp : kernel.BroughtUp root frames idleEntry config) :
    (seedStack ⟨1⟩).Runs kernel () kernel
      [.prepareStack (ProcessRecord.initialContext ⟨1⟩ idleEntry).esp] := by
  rcases broughtUp.only with ⟨home, ⟨next, record⟩, only⟩
  have found : kernel.process ⟨1⟩ = some (kernel.table.process home) := by
    have known := find?_of_live (distinct_of_only fun slot => (only slot).mp) ((only home).mpr rfl)
    rw [record] at known ⊢
    exact known
  refine Operation.runs_bind Operation.runs_get ?_
  rw [found, record]
  exact Operation.runs_signal

theorem broughtUp_of_built (kernel : Kernel) {spaces : AddressSpaces} {root : Directory}
    {table : ProcessTable} {frames : Nat} {idleEntry : UInt32} {config : SchedulerConfig}
    {pid : Pid} (mapped : spaces.IdentityMapped root frames)
    (free : firstFrame + tablesFor frames + 1 + spaces.frames.freeFrames = frames)
    (created : (create "idle" idleEntry Layout.idlePriority { directory := root }).Yields
      (.empty config.timeSliceTicks) (.ok pid) table) :
    ({ kernel with
      spaces := { spaces with current := some root, kernel := some root }
      dispatcher := ⟨table, { config }⟩, idle := pid } : Kernel).BroughtUp root frames idleEntry
        config := by
  rcases create_on_empty created with ⟨given, -, noCurrent, home, ⟨link, record⟩, only⟩
  refine ⟨rfl, rfl, fun address => ?_, ?_, rfl, Except.ok.inj given, ?_, home, ⟨link, record⟩,
    fun slot => ⟨only slot, ?_⟩⟩
  · have below : address.word.toNat / Layout.frameSize < frames ↔
        address.word.toNat < Layout.frameSize * frames := by
      rw [Nat.div_lt_iff_lt_mul (by decide), Nat.mul_comm]
    exact (mapped address).trans (if_congr below rfl rfl)
  · have left : 2048 + (frames + 1023) / 1024 + 1 + spaces.frames.freeFrames = frames := free
    change spaces.frames.freeFrames = frames - 2048 - 1 - (frames + 1023) / 1024
    omega
  · change table.currentPid = none
    simp [ProcessTable.currentPid, currentProcess, noCurrent]
  · rintro rfl
    change (table.process slot).isLive = true
    rw [record]
    rfl

/-- The kernel comes up if there are enough frames. -/
theorem init_runs (before : Kernel) (memory : BootMemory) (idleEntry : UInt32)
    (config : SchedulerConfig) (enough : firstFrame + tablesFor memory.frames < memory.frames) :
    ∃ root after, (Kernel.init memory idleEntry config).Runs before (.ok ()) after
        (bracket (Maskable.interrupts before)
          [.loadDirectory root, .enablePaging,
            .prepareStack (ProcessRecord.initialContext ⟨1⟩ idleEntry).esp]) ∧
      after.BroughtUp root memory.frames idleEntry config := by
  let start := if Maskable.interrupts before then Maskable.withInterrupts false before else before
  have more : firstFrame < memory.frames := Nat.lt_of_le_of_lt (Nat.le_add_right _ _) enough
  rcases yields_heapReset start.heap with ⟨heap, heaped⟩
  rcases kernelDirectory_built (prepared start memory.frames heap).spaces memory.frames_le rfl
      rfl with ⟨short, -⟩ | ⟨root, spaces, made, free, mapped⟩
  · exact absurd enough (Nat.not_lt.mpr short)
  rcases yields_create_empty config.timeSliceTicks "idle" idleEntry Layout.idlePriority
    { directory := root } with ⟨idle, table, created⟩
  cases (create_on_empty created).1
  let active : Kernel :=
    { prepared start memory.frames heap with
      spaces := { spaces with current := some root, kernel := some root } }
  let ready : Kernel := { active with dispatcher := ⟨table, { config }⟩, idle := ⟨1⟩ }
  have broughtUp : ready.BroughtUp root memory.frames idleEntry config :=
    broughtUp_of_built (prepared start memory.frames heap) mapped free created
  have builds : (initKernelDirectory (UInt32.ofNat (memory.frames * Layout.frameSize))).Runs
      (prepared start memory.frames heap).spaces (.ok root)
      { spaces with kernel := some root } [] :=
    Operation.runs_of_calm (calm_initKernelDirectory_inactive _) rfl made
  have enters : Fallible.Yields (onDispatcher (Dispatcher.onTable (create "idle" idleEntry
      Layout.idlePriority { directory := root })))
      { active with dispatcher := ⟨.empty config.timeSliceTicks, { config }⟩ } (.ok ⟨1⟩)
      { active with dispatcher := ⟨table, { config }⟩ } := yields_onTable.mpr ⟨table, created, rfl⟩
  refine ⟨root, _, Operation.runs_masked
    (show Fallible.Runs _ start (.ok ()) ready _ from ?_), ?_⟩
  · refine runs_prepared more heaped ?_
    refine Fallible.runs_bind (Fallible.runs_mapCause (runs_onSpaces builds)) ?_
    refine Fallible.runs_bind (Fallible.runs_lift (runs_onSpaces (runs_switchTo root _))) ?_
    refine Fallible.runs_bind Fallible.runs_signal ?_
    refine Fallible.runs_bind Fallible.runs_log ?_
    refine Fallible.runs_bind (Fallible.runs_lift (runs_resetProcesses config active)) ?_
    refine Fallible.runs_bind (Fallible.runs_mapCause (Operation.Silent.runs
      (silent_onDispatcher (Dispatcher.silent_onTable (silent_create _ _ _ _))) enters)) ?_
    refine Fallible.runs_bind Fallible.runs_modify ?_
    exact Fallible.runs_lift broughtUp.runs_seedStack
  · split
    · exact broughtUp.withInterrupts true
    · exact broughtUp

/-- If there are no frames beside the reserved ones, the kernel does not come up. -/
theorem init_refused_untracked (before : Kernel) (memory : BootMemory) (idleEntry : UInt32)
    (config : SchedulerConfig) (short : memory.frames ≤ firstFrame) :
    ∃ after, (Kernel.init memory idleEntry config).Yields before
      (.error (.frame .insufficientMemory)) after := by
  let start := if Maskable.interrupts before then Maskable.withInterrupts false before else before
  rcases FrameBitmap.reset_cases start.spaces.frames memory.totalBytes Layout.reservedEnd with
    ⟨more, -⟩ | ⟨-, done⟩
  · exact absurd more (Nat.not_lt.mpr short)
  have refused : Fallible.Yields
      (onFrames (FrameBitmap.reset memory.totalBytes Layout.reservedEnd)) start
      (.error .insufficientMemory) start := yields_onFrames.mpr ⟨_, done, rfl⟩
  refine ⟨_, yields_masked.mpr ⟨start, ?_, rfl⟩⟩
  refine Fallible.yields_bind.mpr (Or.inr ⟨(), start, Fallible.yields_log.mpr ⟨rfl, rfl⟩, ?_⟩)
  exact Fallible.yields_bind.mpr
    (Or.inl ⟨_, Fallible.yields_mapCause_error.mpr ⟨_, refused, rfl⟩, rfl⟩)

/-- If there are frames, but too few for the kernel's directory, the kernel does not come up. -/
theorem init_refused_unmapped (before : Kernel) (memory : BootMemory) (idleEntry : UInt32)
    (config : SchedulerConfig) (more : firstFrame < memory.frames)
    (short : memory.frames ≤ firstFrame + tablesFor memory.frames) :
    ∃ after, (Kernel.init memory idleEntry config).Yields before
      (.error (.map .frameAllocationFailed)) after := by
  let start := if Maskable.interrupts before then Maskable.withInterrupts false before else before
  rcases yields_heapReset start.heap with ⟨heap, heaped⟩
  rcases kernelDirectory_built (prepared start memory.frames heap).spaces memory.frames_le rfl
      rfl with ⟨-, spaces, refused⟩ | ⟨root, spaces, -, free, -⟩
  · have stops : (initKernelDirectory (UInt32.ofNat (memory.frames * Layout.frameSize))).Runs
        (prepared start memory.frames heap).spaces (.error .frameAllocationFailed) spaces [] :=
      Operation.runs_of_calm (calm_initKernelDirectory_inactive _) rfl refused
    refine ⟨_, yields_masked.mpr ⟨{ prepared start memory.frames heap with spaces },
      Operation.Runs.yields (show Fallible.Runs _ start (.error _) _ [] from ?_), rfl⟩⟩
    refine runs_prepared more heaped ?_
    exact Fallible.runs_stop (Fallible.runs_mapCause (runs_onSpaces stops))
  · omega

end Runs

/-- Bring-up always answers, and the answer depends on the number of frames alone: it is refused if
none is left beside the reserved ones, or too few for the kernel's directory with its tables, and
else succeeds. -/
theorem bringup (before : Kernel) (memory : BootMemory) (idleEntry : UInt32)
    (config : SchedulerConfig) :
    ∃ reply after effects,
      (Kernel.init memory idleEntry config).result before = .ok ⟨reply, after, effects⟩ ∧
      (reply = .error (.frame .insufficientMemory) ↔ memory.frames ≤ 2048) ∧
      (reply = .error (.map .frameAllocationFailed) ↔
        2049 ≤ memory.frames ∧ memory.frames ≤ 2051) ∧
      (reply = .ok () ↔ 2052 ≤ memory.frames) ∧
      (reply = .ok () → ∃ root, after.BroughtUp root memory.frames idleEntry config ∧
        told effects = bracket (Maskable.interrupts before)
          [.loadDirectory root, .enablePaging,
            .prepareStack (ProcessRecord.initialContext ⟨1⟩ idleEntry).esp]) := by
  have reserved : firstFrame = 2048 := by decide
  have tables : tablesFor memory.frames = (memory.frames + 1023) / 1024 := rfl
  by_cases untracked : memory.frames ≤ 2048
  · rcases init_refused_untracked before memory idleEntry config (reserved ▸ untracked) with
      ⟨after, effects, run⟩
    refine ⟨_, after, effects, run, ?_, ?_, ?_, fun refuted => by cases refuted⟩
    · exact iff_of_true rfl untracked
    · exact iff_of_false (fun refuted => by cases refuted) (by omega)
    · exact iff_of_false (fun refuted => by cases refuted) (by omega)
  by_cases unmapped : memory.frames ≤ 2051
  · rcases init_refused_unmapped before memory idleEntry config (by omega) (by omega) with
      ⟨after, effects, run⟩
    refine ⟨_, after, effects, run, ?_, ?_, ?_, fun refuted => by cases refuted⟩
    · exact iff_of_false (fun refuted => by cases refuted) untracked
    · exact iff_of_true rfl ⟨Nat.lt_of_not_le untracked, unmapped⟩
    · exact iff_of_false (fun refuted => by cases refuted) (by omega)
  · rcases init_runs before memory idleEntry config (by omega) with
      ⟨root, after, ⟨effects, run, events⟩, broughtUp⟩
    refine ⟨_, after, effects, run, ?_, ?_, ?_, fun _ => ⟨root, broughtUp, events⟩⟩
    · exact iff_of_false (fun refuted => by cases refuted) untracked
    · exact iff_of_false (fun refuted => by cases refuted) fun few => unmapped few.2
    · exact iff_of_true rfl (Nat.lt_of_not_le unmapped)

/-- With 8208 KB there are just enough frames, and with 4 KB less there are not. -/
theorem bringup_at_the_limit :
    (∃ root after, (Kernel.init ⟨0, 8208⟩ 0x100000 {}).Yields (.new true) (.ok ()) after ∧
      after.BroughtUp root 2052 0x100000 {} ∧ after.spaces.frames.freeFrames = 0) ∧
    ∃ after, (Kernel.init ⟨0, 8204⟩ 0x100000 {}).Yields (.new true)
      (.error (.map .frameAllocationFailed)) after := by
  constructor
  · rcases bringup (.new true) ⟨0, 8208⟩ 0x100000 {} with
      ⟨reply, after, effects, run, -, -, accepted, ready⟩
    cases accepted.mpr (by decide)
    rcases ready rfl with ⟨root, broughtUp, -⟩
    exact ⟨root, after, ⟨effects, run⟩, broughtUp, broughtUp.free⟩
  · rcases bringup (.new true) ⟨0, 8204⟩ 0x100000 {} with
      ⟨reply, after, effects, run, -, refused, -⟩
    cases refused.mpr (by decide)
    exact ⟨after, effects, run⟩

end Kernel

end KernelCore
