import KernelCore.Proofs.Kernel.Loads
import KernelCore.Proofs.Masking

/-!
# The kernel works with interrupts off

Each operation that changes the kernel turns interrupts off before it does anything, and leaves the
flag as it found it, whether it succeeds or is refused. The operations on parts of the kernel do not
know of the flag. The decisions of the scheduler and the end of a process tell the processor nothing
at all, so that nothing happens between a plan and its being carried out.
-/

namespace KernelCore

open ProcessTable

/-- The event does not turn interrupts off or on. -/
def Event.Plain (event : Event) : Prop :=
  event.masks = false

section Parts

open Fallible

theorem FrameBitmap.silent_reset (totalBytes : Nat) (reservedEnd : UInt32) :
    Silent (FrameBitmap.reset totalBytes reservedEnd) := by
  rw [FrameBitmap.reset]
  extract_lets total reserved bitmap ready
  have silent : ∀ answer, Silent (ready answer) := fun _ =>
    silent_bind silent_log fun _ => silent_set
  -- What follows the note about memory that is left out is the same in both cases.
  have rest : Silent (if total ≤ reserved then
      throw FrameError.insufficientMemory >>= ready else ready ()) := by
    split
    · exact silent_bind silent_throw silent
    · exact silent ()
  split
  · exact silent_bind silent_log fun _ => rest
  · exact rest

theorem Heap.silent_reset (first past : UInt32) : Silent (Heap.reset first past) := by
  refine silent_bind silent_liftM fun made => ?_
  split
  · exact silent_throw
  · exact silent_bind silent_set fun _ => silent_log

end Parts

namespace AddressSpaces

open Fallible

section Calm

theorem calm_switchTo (directory : Directory) :
    (switchTo directory).Calm (fun _ => True) Event.Plain := by
  refine Operation.calm_bind (Operation.calm_modify fun _ _ => trivial) fun _ => ?_
  exact Operation.calm_bind (Operation.calm_signal rfl) fun _ => Operation.calm_log

theorem calm_invalidateIn (directory : Directory) (address : VirtAddr) :
    (invalidateIn directory address).Calm (fun _ => True) Event.Plain := by
  refine Operation.calm_bind Operation.calm_get fun spaces => ?_
  split
  · exact Operation.calm_signal rfl
  · exact Operation.calm_pure

theorem calm_mapIn (directory : Directory) (virtual : VirtAddr) (physical : PhysAddr)
    (flags : PageFlags) :
    Calm (mapIn directory virtual physical flags) (fun _ => True) Event.Plain := by
  refine calm_bind (silent_tableFor _ _ _).calm_part fun table => ?_
  refine calm_bind (calm_lift (silent_modifyMemory _).calm_part) fun _ => ?_
  exact calm_lift (calm_invalidateIn _ _)

theorem calm_unmapIn (directory : Directory) (virtual : VirtAddr) :
    Calm (unmapIn directory virtual) (fun _ => True) Event.Plain := by
  refine calm_bind calm_get fun spaces => ?_
  split
  · refine calm_bind (silent_writableTable _ _).calm_part fun found => ?_
    split
    · refine calm_bind (calm_lift (silent_readEntry _ _).calm_part) fun entry => ?_
      refine calm_bind (calm_lift (silent_modifyMemory _).calm_part) fun _ => ?_
      exact calm_bind (calm_lift (calm_invalidateIn _ _)) fun _ => calm_pure
    · exact calm_throw
  · exact calm_throw

theorem calm_active : Calm active (fun _ => True) Event.Plain := by
  refine calm_bind calm_get fun spaces => ?_
  split
  · exact calm_pure
  · exact calm_throw

theorem calm_initKernelDirectory (past : UInt32) :
    Calm (initKernelDirectory past) (fun _ => True) Event.Plain := by
  refine calm_bind silent_createDirectory.calm_part fun directory => ?_
  refine calm_bind (calm_sweep (fun page => calm_mapIn _ _ _ _) _ _) fun _ => ?_
  refine calm_bind silent_modify.calm_part fun _ => ?_
  exact calm_bind calm_log fun _ => calm_pure

end Calm

end AddressSpaces

namespace Kernel

open Operation

/-- Interrupts are off. -/
def Masked (kernel : Kernel) : Prop :=
  Maskable.interrupts kernel = false

section Parts

variable {Value : Type} {allowed : Event → Prop}

theorem calm_onSpaces {action : Operation AddressSpaces Value}
    (calm : action.Calm (fun _ => True) allowed) : (onSpaces action).Calm Masked allowed :=
  calm_within calm fun _ _ masked => masked

theorem calm_onFrames {action : Operation FrameBitmap Value} (silent : action.Silent) :
    (onFrames action).Calm Masked allowed :=
  calm_onSpaces (calm_within silent.calm_part fun _ _ _ => trivial)

theorem calm_onHeap {action : Operation Heap Value} (silent : action.Silent) :
    (onHeap action).Calm Masked allowed :=
  calm_within silent.calm_part fun _ _ masked => masked

theorem calm_onDispatcher {action : Operation Dispatcher Value} (silent : action.Silent) :
    (onDispatcher action).Calm Masked allowed :=
  calm_within silent.calm_part fun _ _ masked => masked

theorem calm_track (plan : Option Switch) : (track plan).Calm Masked allowed := by
  rw [track]
  split
  · exact calm_bind (calm_onSpaces silent_modify.calm_part) fun _ => calm_pure
  · exact calm_pure

theorem calm_decision {decision : Operation Dispatcher (Option Switch)}
    (silent : decision.Silent) :
    (do track (← onDispatcher decision)).Calm Masked allowed :=
  calm_bind (calm_onDispatcher silent) calm_track

theorem calm_seedStack (pid : Pid) : (seedStack pid).Calm Masked Event.Plain := by
  refine calm_bind calm_get fun kernel => ?_
  split
  · exact calm_signal rfl
  · exact calm_pure

theorem calm_releaseHeap (address : UInt32) : (releaseHeap address).Calm Masked allowed := by
  refine calm_bind (calm_onHeap (Heap.silent_free address)) fun reply => ?_
  cases reply with
  | error cause => exact calm_log
  | ok _ => exact calm_pure

theorem calm_releaseDirectory (directory : Directory) :
    (releaseDirectory directory).Calm Masked allowed := by
  refine calm_bind calm_get fun kernel => ?_
  split
  · have silent := AddressSpaces.silent_destroyDirectory directory
    refine calm_bind (calm_onSpaces (Operation.Silent.calm_part silent)) fun reply => ?_
    cases reply with
    | error cause => exact calm_log
    | ok _ => exact calm_pure
  · exact calm_pure

theorem calm_release (resources : ProcessResources) :
    (release resources).Calm Masked allowed := by
  have heap : (if resources.heapStart < resources.heapEnd then
      releaseHeap resources.heapStart else pure ()).Calm Masked allowed := by
    split
    · exact calm_releaseHeap _
    · exact calm_pure
  rw [release]
  split
  · exact calm_bind (calm_releaseDirectory _) fun _ => heap
  · exact heap

end Parts

section Operations

variable {Value : Type} {allowed : Event → Prop}

/-- An operation of the kernel that leaves the flag alone is shielded once it is masked. -/
theorem shielded_of_calm {action : Operation Kernel Value} (calm : action.Calm Masked allowed)
    (plain : ∀ event, allowed event → event.Plain) : (masked action).Shielded allowed :=
  shielded_masked (fun _ _ => rfl) calm plain

theorem shielded_onSpaces {action : Operation AddressSpaces Value}
    (calm : action.Calm (fun _ => True) Event.Plain) :
    (masked (onSpaces action)).Shielded Event.Plain :=
  shielded_of_calm (calm_onSpaces calm) fun _ plain => plain

theorem shielded_decision {decision : Operation Dispatcher (Option Switch)}
    (silent : decision.Silent) (plain : ∀ event, allowed event → event.Plain) :
    (masked do track (← onDispatcher decision)).Shielded allowed :=
  shielded_of_calm (calm_decision silent) plain

theorem shielded_exit (code : Int32) (plain : ∀ event, allowed event → event.Plain) :
    (exit code).Shielded allowed := by
  refine shielded_of_calm ?_ plain
  refine calm_bind calm_get fun _ => ?_
  refine calm_bind calm_get fun _ => ?_
  split
  · exact calm_bind calm_log fun _ => calm_pure
  · have ending := Dispatcher.silent_onTable (ProcessTable.silent_exit code)
    refine calm_bind (calm_onDispatcher ending) fun ended => ?_
    split
    · exact calm_pure
    · refine calm_bind (calm_release _) fun _ => ?_
      exact calm_decision Dispatcher.silent_schedule

theorem shielded_syscall (request : Syscall) (plain : ∀ event, allowed event → event.Plain) :
    (syscall request).Shielded allowed := by
  refine shielded_of_calm ?_ plain
  cases request with
  | exit code => exact calm_bind (shielded_exit code plain).calm fun _ => calm_pure
  | getPid => exact calm_bind calm_get fun _ => calm_pure
  | sleep milliseconds =>
      have shielded := shielded_decision (Dispatcher.silent_sleep milliseconds) plain
      exact calm_bind shielded.calm fun _ => calm_pure
  | write stream bytes =>
      change (if stream = Layout.standardOutput then _ else _ : Operation Kernel _).Calm _ _
      split
      · exact calm_bind calm_print fun _ => calm_pure
      · exact calm_bind calm_log fun _ => calm_pure

/-- A system call that makes no sense is refused without the flag being touched. -/
theorem calm_dispatchSyscall (bytesAt : UInt64 → Nat → List UInt8) (raw : RawSyscall)
    (plain : ∀ event, allowed event → event.Plain) :
    (dispatchSyscall bytesAt raw).Calm Masked allowed := by
  rw [dispatchSyscall]
  split
  · exact (shielded_syscall _ plain).calm
  · exact calm_bind calm_log fun _ => calm_pure

theorem shielded_spawn (name : String) (entry priority : UInt32) :
    (spawn name entry priority).result.Shielded Event.Plain := by
  refine shielded_of_calm ?_ fun _ plain => plain
  refine Fallible.calm_bind Fallible.calm_get fun kernel => ?_
  extract_lets onward
  have calm : ∀ answer, Fallible.Calm (onward answer) Masked Event.Plain := by
    intro answer
    refine Fallible.calm_bind (Fallible.calm_mapCause (calm_onHeap (Heap.silent_allocate _)))
      fun heapStart => ?_
    have made := AddressSpaces.silent_createProcessDirectory
    refine Fallible.calm_bind (Fallible.calm_tryCatch
      (Fallible.calm_mapCause (calm_onSpaces (Operation.Silent.calm_part made))) fun cause =>
        Fallible.calm_bind (Fallible.calm_lift (calm_releaseHeap _)) fun _ => Fallible.calm_throw)
      fun directory => ?_
    refine Fallible.calm_bind Fallible.calm_liftM fun heapEnd => ?_
    extract_lets resources
    have entered := Dispatcher.silent_onTable (silent_create name entry priority resources)
    refine Fallible.calm_bind (Fallible.calm_tryCatch
      (Fallible.calm_mapCause (calm_onDispatcher entered)) fun cause =>
        Fallible.calm_bind (Fallible.calm_lift (calm_release _)) fun _ => Fallible.calm_throw)
      fun pid => ?_
    exact Fallible.calm_bind (Fallible.calm_lift (calm_seedStack _)) fun _ => Fallible.calm_pure
  split
  · refine Fallible.calm_bind Fallible.calm_log fun _ => ?_
    exact Fallible.calm_bind Fallible.calm_throw calm
  · exact calm ()

theorem shielded_init (memory : BootMemory) (idleEntry : UInt32) (config : SchedulerConfig) :
    (init memory idleEntry config).result.Shielded Event.Plain := by
  refine shielded_of_calm ?_ fun _ plain => plain
  refine Fallible.calm_bind Fallible.calm_log fun _ => ?_
  refine Fallible.calm_bind
    (Fallible.calm_mapCause (calm_onFrames (FrameBitmap.silent_reset _ _))) fun _ => ?_
  refine Fallible.calm_bind
    (Fallible.calm_mapCause (calm_onHeap (Heap.silent_reset _ _))) fun _ => ?_
  refine Fallible.calm_bind
    (Fallible.calm_lift (calm_onSpaces silent_modify.calm_part)) fun _ => ?_
  refine Fallible.calm_bind Fallible.calm_get fun kernel => ?_
  refine Fallible.calm_bind (Fallible.calm_mapCause
    (calm_onSpaces (AddressSpaces.calm_initKernelDirectory _))) fun directory => ?_
  refine Fallible.calm_bind
    (Fallible.calm_lift (calm_onSpaces (AddressSpaces.calm_switchTo directory))) fun _ => ?_
  refine Fallible.calm_bind (Fallible.calm_signal rfl) fun _ => ?_
  refine Fallible.calm_bind Fallible.calm_log fun _ => ?_
  refine Fallible.calm_bind (Fallible.calm_lift (calm_onDispatcher silent_set)) fun _ => ?_
  refine Fallible.calm_bind (Fallible.calm_mapCause
    (calm_onDispatcher (Dispatcher.silent_onTable (silent_create _ _ _ _)))) fun pid => ?_
  refine Fallible.calm_bind (Fallible.calm_lift (calm_modify fun _ masked => masked)) fun _ => ?_
  exact Fallible.calm_lift (calm_seedStack _)

/-- The operations that change the kernel are shielded, and are told nothing of interrupts while
they work. -/
structure OperationsShielded : Prop where
  init : ∀ memory idleEntry config, (init memory idleEntry config).result.Shielded Event.Plain
  spawn : ∀ name entry priority, (spawn name entry priority).result.Shielded Event.Plain
  start : start.Shielded Event.Plain
  exit : ∀ code, (exit code).Shielded Event.Plain
  tick : tick.Shielded Event.Plain
  yield : yield.Shielded Event.Plain
  sleep : ∀ milliseconds, (sleep milliseconds).Shielded Event.Plain
  allocateFrame : allocateFrame.Shielded Event.Plain
  freeFrame : ∀ frame, (freeFrame frame).result.Shielded Event.Plain
  kmalloc : ∀ size, (kmalloc size).result.Shielded Event.Plain
  kfree : ∀ address, (kfree address).result.Shielded Event.Plain
  createDirectory : createDirectory.result.Shielded Event.Plain
  switchAddressSpace : ∀ directory, (switchAddressSpace directory).Shielded Event.Plain
  map : ∀ virtual physical flags, (map virtual physical flags).result.Shielded Event.Plain
  unmap : ∀ virtual, (unmap virtual).result.Shielded Event.Plain
  syscall : ∀ request, (syscall request).Shielded Event.Plain

theorem operationsShielded : OperationsShielded := by
  have plain : ∀ event : Event, event.Plain → event.Plain := fun _ => id
  refine
    { init := shielded_init
      spawn := shielded_spawn
      start := shielded_decision Dispatcher.silent_schedule plain
      exit := fun code => shielded_exit code plain
      tick := shielded_decision Dispatcher.silent_tick plain
      yield := shielded_decision Dispatcher.silent_yield plain
      sleep := fun milliseconds => shielded_decision (Dispatcher.silent_sleep milliseconds) plain
      allocateFrame := shielded_of_calm (calm_onFrames FrameBitmap.silent_allocate) plain
      freeFrame := fun frame =>
        shielded_of_calm (calm_onFrames (FrameBitmap.silent_free frame)) plain
      kmalloc := fun size => shielded_of_calm (calm_onHeap (Heap.silent_allocate size)) plain
      kfree := fun address => shielded_of_calm (calm_onHeap (Heap.silent_free address)) plain
      createDirectory := ?_
      switchAddressSpace := fun directory =>
        shielded_onSpaces (AddressSpaces.calm_switchTo directory)
      map := fun virtual physical flags => shielded_onSpaces ?_
      unmap := fun virtual => shielded_onSpaces ?_
      syscall := fun request => shielded_syscall request plain }
  · exact shielded_onSpaces
      (Operation.Silent.calm_part AddressSpaces.silent_createProcessDirectory)
  · exact Fallible.calm_bind AddressSpaces.calm_active fun _ => AddressSpaces.calm_mapIn _ _ _ _
  · exact Fallible.calm_bind AddressSpaces.calm_active fun _ => AddressSpaces.calm_unmapIn _ _

end Operations

end Kernel

end KernelCore
