import KernelCore.Proofs.Effects
import KernelCore.Proofs.Kernel.Reached

/-!
# A refused process leaves no trace

If a process cannot be created, for whatever reason, the kernel is as it was before, and the
processor has only been told to mask interrupts and to unmask them. If it can, the processor is also
told to put a return address onto the stack of the new process.
-/

namespace KernelCore

open ProcessTable

section Silence

open Fallible

theorem Heap.silent_grant (slot : BlockSlot) : (Heap.grant slot).Silent := by
  refine Operation.silent_bind Operation.silent_get fun _ => ?_
  refine Operation.silent_bind Operation.silent_liftM fun block => ?_
  refine Operation.silent_bind Operation.silent_get fun _ => ?_
  refine Operation.silent_bind Operation.silent_liftM fun usedBytes => ?_
  exact Operation.silent_bind Operation.silent_modify fun _ => Operation.silent_pure

theorem Heap.silent_allocate (size : UInt32) : Silent (Heap.allocate size) := by
  rw [Heap.allocate]
  split
  · refine silent_bind silent_get fun heap => ?_
    split
    · refine silent_bind silent_get fun _ => ?_
      refine silent_bind silent_liftM fun block => ?_
      split
      · refine silent_bind silent_get fun _ => ?_
        split
        · refine silent_bind silent_get fun _ => ?_
          refine silent_bind silent_liftM fun cut => ?_
          exact silent_bind silent_set fun _ => silent_lift (Heap.silent_grant _)
        · exact silent_bind silent_log fun _ => silent_lift (Heap.silent_grant _)
      · exact silent_lift (Heap.silent_grant _)
    · exact silent_bind silent_log fun _ => silent_throw
  · exact silent_throw

theorem Heap.silent_free (address : UInt32) : Silent (Heap.free address) := by
  rw [Heap.free]
  refine silent_bind silent_get fun heap => ?_
  refine silent_bind silent_liftM fun found => ?_
  split
  · refine silent_bind silent_get fun _ => ?_
    refine silent_bind silent_liftM fun block => ?_
    -- What follows the test of the mark is the same in both cases.
    extract_lets onward
    have silent : ∀ answer, Silent (onward answer) := by
      intro answer
      refine silent_bind silent_get fun _ => ?_
      refine silent_bind silent_liftM fun usedBytes => ?_
      refine silent_bind silent_modify fun _ => ?_
      refine silent_bind silent_get fun _ => ?_
      refine silent_bind silent_liftM fun merged => ?_
      exact silent_bind silent_liftM fun _ => silent_set
    split
    · exact silent_bind silent_throw silent
    · exact silent ()
  · exact silent_throw

theorem AddressSpaces.silent_modifyMemory (change : Memory → Memory) :
    (AddressSpaces.modifyMemory change).Silent := by
  rw [AddressSpaces.modifyMemory]
  exact Operation.silent_modify

theorem FrameBitmap.silent_allocate : FrameBitmap.allocate.Silent := by
  intro before value after effects run effect mem
  have nothing : effects = [] := by
    rw [FrameBitmap.allocate] at run
    split at run
    · simp only [Except.ok.injEq, Outcome.mk.injEq] at run
      exact run.2.2.symm
    · split at run
      · split at run
        · cases run
        · simp only [Except.ok.injEq, Outcome.mk.injEq] at run
          exact run.2.2.symm
      · simp only [Except.ok.injEq, Outcome.mk.injEq] at run
        exact run.2.2.symm
  rw [nothing] at mem
  exact absurd mem List.not_mem_nil

theorem FrameBitmap.silent_free (frame : Frame) : Silent (FrameBitmap.free frame) := by
  rw [FrameBitmap.free]
  extract_lets clear onward
  refine silent_bind silent_get fun bitmap => ?_
  have silent : ∀ answer, Silent (onward answer) := by
    intro answer
    refine silent_bind silent_get fun _ => ?_
    split
    · exact silent_bind silent_throw fun _ => silent_modify
    · exact silent_modify
  split
  · exact silent_bind silent_throw silent
  · exact silent ()

theorem AddressSpaces.silent_takeFrame : Silent AddressSpaces.takeFrame := by
  have allocate : (AddressSpaces.onFrames FrameBitmap.allocate).Silent :=
    Operation.silent_within FrameBitmap.silent_allocate
  refine silent_bind (silent_lift allocate) fun granted => ?_
  match granted with
  | none => exact silent_throw
  | some frame => exact silent_pure

theorem AddressSpaces.silent_readEntry (frame : Frame) (index : Fin Layout.pageEntries) :
    (AddressSpaces.readEntry frame index).Silent := by
  intro before
  change (Operation.modifyGet fun spaces => (spaces.memory.entry frame index, spaces)).Tells
    before _
  exact Operation.tells_modifyGet

theorem AddressSpaces.silent_writableTable (directory : Directory)
    (index : Fin Layout.pageEntries) :
    Silent (AddressSpaces.writableTable directory index) := by
  refine silent_bind (silent_lift (silent_readEntry _ _)) fun entry => ?_
  split
  · exact silent_pure
  · refine silent_bind silent_get fun _ => ?_
    split
    · refine silent_bind silent_takeFrame fun copy => ?_
      refine silent_bind (silent_lift (silent_modifyMemory _)) fun _ => ?_
      refine silent_bind (silent_lift (silent_readEntry _ _)) fun entry => ?_
      refine silent_bind (silent_lift (silent_modifyMemory _)) fun _ => ?_
      exact silent_bind silent_log fun _ => silent_pure
    · exact silent_pure

theorem AddressSpaces.silent_tableFor (directory : Directory)
    (index : Fin Layout.pageEntries) (flags : PageFlags) :
    Silent (AddressSpaces.tableFor directory index flags) := by
  refine silent_bind (silent_writableTable directory index) fun found => ?_
  split
  · split
    · refine silent_bind (silent_lift (silent_readEntry _ _)) fun entry => ?_
      exact silent_bind (silent_lift (silent_modifyMemory _)) fun _ => silent_pure
    · exact silent_pure
  · refine silent_bind silent_takeFrame fun table => ?_
    exact silent_bind (silent_lift (silent_modifyMemory _)) fun _ => silent_pure

theorem AddressSpaces.silent_createDirectory : Silent AddressSpaces.createDirectory := by
  refine silent_bind silent_takeFrame fun frame => ?_
  exact silent_bind (silent_lift (silent_modifyMemory _)) fun _ => silent_pure

theorem AddressSpaces.silent_createProcessDirectory :
    Silent AddressSpaces.createProcessDirectory := by
  refine silent_bind silent_createDirectory fun directory => ?_
  refine silent_bind silent_get fun spaces => ?_
  split
  · exact silent_bind (silent_lift (silent_modifyMemory _)) fun _ => silent_pure
  · exact silent_pure

theorem AddressSpaces.silent_releaseFrames (frames : List Frame) :
    (AddressSpaces.releaseFrames frames).Silent := by
  induction frames with
  | nil => exact Operation.silent_pure
  | cons frame rest ih =>
      have free : (AddressSpaces.onFrames (FrameBitmap.free frame).result).Silent :=
        Operation.silent_within (FrameBitmap.silent_free frame)
      refine Operation.silent_bind free fun first => ?_
      exact Operation.silent_bind ih fun others => Operation.silent_pure

theorem AddressSpaces.silent_destroyDirectory (directory : Directory) :
    Silent (AddressSpaces.destroyDirectory directory) := by
  refine silent_bind silent_get fun spaces => ?_
  refine silent_bind silent_modify fun _ => ?_
  exact silent_releaseFrames _

theorem ProcessTable.silent_create (name : String) (entry priority : UInt32)
    (resources : ProcessResources) :
    Silent (ProcessTable.create name entry priority resources) := by
  have allocate : allocatePid.Silent := by
    refine Operation.silent_bind Operation.silent_get fun _ => ?_
    refine Operation.silent_bind Operation.silent_get fun _ => ?_
    split
    · exact Operation.silent_bind Operation.silent_modify fun _ => Operation.silent_pure
    · exact Operation.silent_liftM
  rw [ProcessTable.create]
  refine silent_bind silent_get fun table => ?_
  split
  · refine silent_bind (silent_lift allocate) fun pid => ?_
    refine silent_bind silent_modify fun _ => ?_
    refine silent_bind silent_get fun _ => ?_
    exact silent_bind silent_log fun _ => silent_pure
  · exact silent_throw

theorem Kernel.silent_releaseHeap (address : UInt32) : (Kernel.releaseHeap address).Silent := by
  refine Operation.silent_bind (Operation.silent_within (Heap.silent_free address)) fun reply => ?_
  cases reply with
  | error cause => exact Operation.silent_log
  | ok _ => exact Operation.silent_pure

theorem Kernel.silent_releaseDirectory (directory : Directory) :
    (Kernel.releaseDirectory directory).Silent := by
  refine Operation.silent_bind Operation.silent_get fun kernel => ?_
  split
  · have destroy : (onSpaces (AddressSpaces.destroyDirectory directory).result).Silent :=
      Operation.silent_within (AddressSpaces.silent_destroyDirectory directory)
    refine Operation.silent_bind destroy fun reply => ?_
    cases reply with
    | error cause => exact Operation.silent_log
    | ok _ => exact Operation.silent_pure
  · exact Operation.silent_pure

theorem Kernel.silent_release (resources : ProcessResources) :
    (Kernel.release resources).Silent := by
  have heap : (if resources.heapStart < resources.heapEnd then
      Kernel.releaseHeap resources.heapStart else pure ()).Silent := by
    split
    · exact silent_releaseHeap _
    · exact Operation.silent_pure
  rw [Kernel.release]
  split
  · exact Operation.silent_bind (silent_releaseDirectory _) fun _ => heap
  · exact heap

end Silence

namespace Kernel

section Telling

variable {name : String} {entry priority : UInt32} {before : Kernel}

/-- What the processor may be told while a process is created: to mask interrupts, to unmask them,
and, if there is one, where the return address of the new process goes. -/
def Announced (reply : Except KernelError Pid) (effect : Effect) : Prop :=
  ∀ event, effect = .cpu event → event = .disableInterrupts ∨ event = .enableInterrupts ∨
    ∃ pid, reply = .ok pid ∧ event = .prepareStack (ProcessRecord.stackTopOf pid - 4)

/-- Where nothing is told, nothing wrong is told. -/
theorem announced_of_silent {State Value : Type} {action : Operation State Value} {start : State}
    (silent : action.Silent) (reply : Except KernelError Pid) :
    action.Tells start fun _ => Announced reply :=
  silent.tells fun _ _ quiet event told => absurd told (quiet event)

theorem seedStack_tells {pid : Pid}
    (context : ∀ process, before.process pid = some process →
      process.context = ProcessRecord.initialContext pid entry) :
    (seedStack pid).Tells before fun _ => Announced (.ok pid) := by
  refine Operation.tells_bind (fun _ => announced_of_silent Operation.silent_get _) ?_
  intro kernel between read
  rcases Operation.yields_get.mp read with ⟨rfl, rfl⟩
  split
  · rename_i process found
    rw [context process found]
    refine Operation.tells_signal ?_
    rintro event same
    cases same
    exact Or.inr (Or.inr ⟨pid, rfl, rfl⟩)
  · exact Operation.tells_pure

/-- The processor is told where the return address of the new process goes, and nothing else but to
mask interrupts and to unmask them. -/
theorem spawn_tells (before : Kernel) (name : String) (entry priority : UInt32) :
    (spawn name entry priority).Tells before Announced := by
  refine Operation.tells_masked ?_ ?_
  · intro reply
    refine ⟨?_, ?_⟩
    · rintro event same
      cases same
      exact Or.inl rfl
    · rintro event same
      cases same
      exact Or.inr (Or.inl rfl)
  · intro start
    refine Fallible.tells_bind (announced_of_silent Fallible.silent_get) ?_
    intro kernel between _
    extract_lets onward
    have told : ∀ answer start, Fallible.Tells (onward answer) start Announced := by
      intro answer start
      have allocate : Fallible.Silent (onHeap (Heap.allocate Layout.processHeapSize)) :=
        Operation.silent_within (Heap.silent_allocate _)
      refine Fallible.tells_bind (announced_of_silent (Fallible.silent_mapCause allocate)) ?_
      intro heapStart granted _
      have map : Fallible.Silent (onSpaces AddressSpaces.createProcessDirectory) :=
        Operation.silent_within AddressSpaces.silent_createProcessDirectory
      refine Fallible.tells_bind (announced_of_silent (Fallible.silent_tryCatch
        (Fallible.silent_mapCause map) fun cause => Fallible.silent_bind
          (Fallible.silent_lift (silent_releaseHeap _)) fun _ => Fallible.silent_throw)) ?_
      intro directory made _
      refine Fallible.tells_bind (announced_of_silent Fallible.silent_liftM) ?_
      intro heapEnd reach _
      extract_lets resources
      have enter : Fallible.Silent
          (onDispatcher (Dispatcher.onTable (create name entry priority resources))) :=
        Operation.silent_within (Operation.silent_within (ProcessTable.silent_create _ _ _ _))
      refine Fallible.tells_bind (announced_of_silent (Fallible.silent_tryCatch
        (Fallible.silent_mapCause enter) fun cause => Fallible.silent_bind
          (Fallible.silent_lift (silent_release _)) fun _ => Fallible.silent_throw)) ?_
      intro pid final entered
      simp at entered
      rcases yields_onTable.mp entered with ⟨table, created, rfl⟩
      exact Fallible.tells_before (seedStack_tells fun _ found => context_of_create created found)
    split
    · refine Fallible.tells_bind (announced_of_silent Fallible.silent_log) ?_
      intro _ logged _
      refine Fallible.tells_bind (announced_of_silent Fallible.silent_throw) ?_
      intro answer thrown _
      exact told answer thrown
    · exact told () between

end Telling

/-- If a process cannot be created, the kernel is as it was, with its heap, its processes and all
memory, and the processor has been told to mask interrupts and to unmask them, and nothing else. -/
theorem Reached.spawn_refused {kernel after : Kernel} (reached : kernel.Reached) {name : String}
    {entry priority : UInt32} {cause : KernelError} {effects : List Effect}
    (refused : (spawn name entry priority).result kernel = .ok ⟨.error cause, after, effects⟩) :
    after = kernel ∧
      ∀ event, .cpu event ∈ effects → event = .disableInterrupts ∨ event = .enableInterrupts := by
  constructor
  · have spawned := spawn_outcome reached.intact.heap ⟨effects, refused⟩
    cases spawned with
    | full isFull => rfl
    | noBlock none_there => rfl
    | noFrame none_free => rfl
  · intro event mem
    have told := spawn_tells kernel name entry priority _ _ _ refused _ mem event rfl
    rcases told with masks | unmasks | ⟨pid, created, -⟩
    · exact Or.inl masks
    · exact Or.inr unmasks
    · cases created

/-- On a machine with 8208 KB, the kernel's own tables take all frames that are not reserved. -/
theorem Reached.spawn_refused_without_frames :
    ∃ kernel cause effects, kernel.Reached ∧
      (spawn "late" 0x1000 1).result kernel = .ok ⟨.error cause, kernel, effects⟩ ∧
      ∀ event, .cpu event ∈ effects → event = .disableInterrupts ∨ event = .enableInterrupts := by
  have isTotal : min (BootMemory.totalBytes ⟨0, 8208⟩) Layout.maxPhysicalMemory /
      Layout.frameSize = 2052 := by decide
  rcases init_yields (.new true) 0x100000 {} isTotal (by decide) with ⟨kernel, begun, free⟩
  have noneFree : kernel.spaces.frames.freeFrames = 0 := by
    have least : firstFrame + AddressSpaces.tablesFor 2052 + 1 = 2052 := by decide
    omega
  rcases accounted_of_init begun with ⟨root, ready⟩
  rcases yields_spawn ready "late" 0x1000 1 with ⟨reply, after, effects, spawned⟩
  cases reply with
  | ok pid =>
      have outcome := spawn_outcome ready.heap ⟨effects, spawned⟩
      cases outcome with
      | created granted made reach entered =>
          rcases createProcessDirectory_outcome made with
            ⟨refuted, -⟩ | ⟨frame, frames, memory, -, -, taken⟩
          · cases refuted
          · rcases ready.owned.wellFormed.allocate with ⟨_, _, again, allocation, -⟩
            rcases taken.unique again with ⟨rfl, rfl⟩
            cases allocation with
            | taken tracked clear least bits fewer total reserved => omega
  | error cause =>
      have reached : kernel.Reached := .begun begun
      rcases reached.spawn_refused spawned with ⟨rfl, told⟩
      exact ⟨after, cause, effects, reached, spawned, told⟩

end Kernel

end KernelCore
