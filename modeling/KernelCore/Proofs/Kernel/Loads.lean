import KernelCore.Proofs.Loads
import KernelCore.Proofs.Kernel.Refusal

/-!
# Who loads address spaces

An address space is loaded when the kernel comes up, when somebody asks for it, and when a switch of
processes is carried out. The operations below load none. Those on memory also leave alone which
address space is active and all that concerns processes, which is what `Kernel.scene` looks at, and
those on processes never tell the processor anything.
-/

namespace KernelCore

open ProcessTable

namespace AddressSpaces

open Fallible

section Passive

variable {Value : Type} {action : Operation FrameBitmap Value}

theorem passive_onFrames (silent : action.Silent) : (onFrames action).Passive current :=
  Operation.passive_within silent.passive_unit fun _ _ _ => rfl

theorem passive_modifyMemory (change : Memory → Memory) : (modifyMemory change).Passive current :=
  Operation.passive_modify fun _ => rfl

theorem passive_readEntry (frame : Frame) (index : Fin Layout.pageEntries) :
    (readEntry frame index).Passive current := by
  change (Operation.modifyGet fun spaces => (spaces.memory.entry frame index, spaces)).Passive
    current
  exact Operation.passive_modifyGet fun _ => rfl

theorem passive_takeFrame : Passive takeFrame current := by
  refine passive_bind (passive_lift (passive_onFrames FrameBitmap.silent_allocate))
    fun granted => ?_
  match granted with
  | none => exact passive_throw
  | some frame => exact passive_pure

theorem passive_createDirectory : Passive createDirectory current := by
  refine passive_bind passive_takeFrame fun frame => ?_
  exact passive_bind (passive_lift (passive_modifyMemory _)) fun _ => passive_pure

theorem passive_createProcessDirectory : Passive createProcessDirectory current := by
  refine passive_bind passive_createDirectory fun directory => ?_
  refine passive_bind passive_get fun spaces => ?_
  split
  · exact passive_bind (passive_lift (passive_modifyMemory _)) fun _ => passive_pure
  · exact passive_pure

theorem passive_writableTable (directory : Directory) (index : Fin Layout.pageEntries) :
    Passive (writableTable directory index) current := by
  refine passive_bind (passive_lift (passive_readEntry _ _)) fun entry => ?_
  split
  · exact passive_pure
  · refine passive_bind passive_get fun spaces => ?_
    split
    · refine passive_bind passive_takeFrame fun copy => ?_
      refine passive_bind (passive_lift (passive_modifyMemory _)) fun _ => ?_
      refine passive_bind (passive_lift (passive_readEntry _ _)) fun entry => ?_
      refine passive_bind (passive_lift (passive_modifyMemory _)) fun _ => ?_
      exact passive_bind passive_log fun _ => passive_pure
    · exact passive_pure

theorem passive_tableFor (directory : Directory) (index : Fin Layout.pageEntries)
    (flags : PageFlags) : Passive (tableFor directory index flags) current := by
  refine passive_bind (passive_writableTable directory index) fun found => ?_
  split
  · split
    · refine passive_bind (passive_lift (passive_readEntry _ _)) fun entry => ?_
      exact passive_bind (passive_lift (passive_modifyMemory _)) fun _ => passive_pure
    · exact passive_pure
  · refine passive_bind passive_takeFrame fun table => ?_
    exact passive_bind (passive_lift (passive_modifyMemory _)) fun _ => passive_pure

theorem passive_invalidateIn (directory : Directory) (address : VirtAddr) :
    (invalidateIn directory address).Passive current := by
  refine Operation.passive_bind Operation.passive_get fun spaces => ?_
  split
  · exact Operation.passive_signal (by simp)
  · exact Operation.passive_pure

theorem passive_active : Passive active current := by
  refine passive_bind passive_get fun spaces => ?_
  split
  · exact passive_pure
  · exact passive_throw

theorem passive_mapIn (directory : Directory) (virtual : VirtAddr) (physical : PhysAddr)
    (flags : PageFlags) : Passive (mapIn directory virtual physical flags) current := by
  refine passive_bind (passive_tableFor _ _ _) fun table => ?_
  refine passive_bind (passive_lift (passive_modifyMemory _)) fun _ => ?_
  exact passive_lift (passive_invalidateIn _ _)

theorem passive_unmapIn (directory : Directory) (virtual : VirtAddr) :
    Passive (unmapIn directory virtual) current := by
  refine passive_bind passive_get fun spaces => ?_
  split
  · refine passive_bind (passive_writableTable _ _) fun found => ?_
    split
    · refine passive_bind (passive_lift (passive_readEntry _ _)) fun entry => ?_
      refine passive_bind (passive_lift (passive_modifyMemory _)) fun _ => ?_
      exact passive_bind (passive_lift (passive_invalidateIn _ _)) fun _ => passive_pure
    · exact passive_throw
  · exact passive_throw

theorem passive_map (virtual : VirtAddr) (physical : PhysAddr) (flags : PageFlags) :
    Passive (map virtual physical flags) current :=
  passive_bind passive_active fun _ => passive_mapIn _ virtual physical flags

theorem passive_unmap (virtual : VirtAddr) : Passive (unmap virtual) current :=
  passive_bind passive_active fun _ => passive_unmapIn _ virtual

end Passive

end AddressSpaces

section Silence

open Operation

variable {Value : Type}

theorem ProcessTable.silent_exit (code : Int32) : (ProcessTable.exit code).Silent := by
  refine silent_bind silent_get fun table => ?_
  split
  · exact silent_pure
  · refine silent_bind silent_modify fun _ => ?_
    refine silent_bind silent_get fun _ => ?_
    refine silent_bind silent_liftM fun _ => ?_
    refine silent_bind silent_set fun _ => ?_
    refine silent_bind silent_modify fun _ => ?_
    refine silent_bind silent_get fun _ => ?_
    exact silent_bind silent_log fun _ => silent_pure

theorem ProcessTable.silent_wakeSleepers (now : UInt64) :
    (ProcessTable.wakeSleepers now).Silent := by
  refine silent_bind silent_get fun table => ?_
  refine silent_bind silent_modify fun _ => ?_
  refine fun _ => tells_perform ?_
  intro effect mem event
  rcases List.mem_map.mp mem with ⟨process, -, rfl⟩
  exact Effect.noConfusion

namespace Dispatcher

theorem silent_onTable {action : Operation ProcessTable Value} (silent : action.Silent) :
    (onTable action).Silent :=
  silent_within silent

theorem silent_updateProcess (slot : Slot) (change : ProcessRecord → ProcessRecord) :
    (updateProcess slot change).Silent :=
  silent_modify

theorem silent_dispatch (slot : Slot) : (dispatch slot).Silent := by
  refine silent_bind silent_get fun before => ?_
  extract_lets table outgoing onward
  clear_value outgoing
  have silent : ∀ answer, (onward answer).Silent := by
    intro answer
    refine silent_bind silent_get fun _ => ?_
    refine silent_bind (silent_updateProcess _ _) fun _ => ?_
    refine silent_bind silent_modify fun _ => ?_
    refine silent_bind silent_get fun _ => ?_
    refine silent_bind silent_get fun _ => ?_
    exact silent_bind silent_log fun _ => silent_pure
  split
  · exact silent_bind (silent_updateProcess _ _) silent
  · exact silent ()

theorem silent_schedule : schedule.Silent := by
  refine silent_bind silent_get fun _ => ?_
  refine silent_bind silent_liftM fun chosen => ?_
  split
  · exact silent_bind silent_log fun _ => silent_pure
  · refine silent_bind silent_get fun _ => ?_
    split
    · exact silent_bind (silent_updateProcess _ _) fun _ => silent_pure
    · exact silent_bind (silent_dispatch _) fun _ => silent_pure

theorem silent_charge (slot : Slot) : (charge slot).Silent := by
  refine silent_bind silent_get fun _ => ?_
  refine silent_bind silent_liftM fun totalTicks => ?_
  split
  · exact silent_bind (silent_updateProcess _ _) fun _ => silent_pure
  · refine silent_bind silent_get fun _ => ?_
    exact silent_bind (silent_updateProcess _ _) fun _ => silent_pure

theorem silent_tick : tick.Silent := by
  refine silent_bind silent_get fun _ => ?_
  refine silent_bind silent_liftM fun ticks => ?_
  refine silent_bind silent_modify fun _ => ?_
  refine silent_bind (silent_onTable (ProcessTable.silent_wakeSleepers _)) fun _ => ?_
  refine silent_bind silent_get fun _ => ?_
  split
  · exact silent_pure
  · refine silent_bind (silent_charge _) fun last => ?_
    split
    · exact silent_bind (silent_updateProcess _ _) fun _ => silent_schedule
    · exact silent_pure

theorem silent_yield : Dispatcher.yield.Silent := by
  refine silent_bind silent_get fun _ => ?_
  split
  · exact silent_bind (silent_updateProcess _ _) fun _ => silent_schedule
  · exact silent_schedule

theorem silent_sleep (milliseconds : UInt32) : (Dispatcher.sleep milliseconds).Silent := by
  refine silent_bind silent_get fun _ => ?_
  extract_lets duration
  split
  · exact silent_yield
  · refine silent_bind silent_get fun _ => ?_
    refine silent_bind silent_liftM fun wakeAt => ?_
    refine silent_bind silent_get fun _ => ?_
    split
    · exact silent_pure
    · refine silent_bind (silent_updateProcess _ _) fun _ => ?_
      refine silent_bind silent_get fun _ => ?_
      exact silent_bind silent_log fun _ => silent_schedule

end Dispatcher

end Silence

namespace Kernel

/-- The processes, and which address space is active. -/
def scene (kernel : Kernel) : Dispatcher × Pid × Option Directory :=
  (kernel.dispatcher, kernel.idle, kernel.spaces.current)

section Memory

variable {Value : Type}

theorem passive_masked {action : Operation Kernel Value} (passive : action.Passive scene) :
    (masked action).Passive scene :=
  Operation.passive_masked (fun _ _ => rfl) passive

theorem passive_onSpaces {action : Operation AddressSpaces Value}
    (passive : action.Passive AddressSpaces.current) : (onSpaces action).Passive scene := by
  refine Operation.passive_within passive fun kernel spaces same => ?_
  exact congrArg (fun current => (kernel.dispatcher, kernel.idle, current)) same

theorem passive_onFrames {action : Operation FrameBitmap Value} (silent : action.Silent) :
    (onFrames action).Passive scene :=
  passive_onSpaces (AddressSpaces.passive_onFrames silent)

theorem passive_onHeap {action : Operation Heap Value} (silent : action.Silent) :
    (onHeap action).Passive scene :=
  Operation.passive_within silent.passive_unit fun _ _ _ => rfl

theorem passive_allocateFrame : allocateFrame.Passive scene :=
  passive_masked (passive_onFrames FrameBitmap.silent_allocate)

theorem passive_freeFrame (frame : Frame) : (freeFrame frame).Passive scene :=
  passive_masked (passive_onFrames (FrameBitmap.silent_free frame))

theorem passive_kmalloc (size : UInt32) : (kmalloc size).Passive scene :=
  passive_masked (passive_onHeap (Heap.silent_allocate size))

theorem passive_kfree (address : UInt32) : (kfree address).Passive scene :=
  passive_masked (passive_onHeap (Heap.silent_free address))

theorem passive_createDirectory : createDirectory.Passive scene :=
  passive_masked (passive_onSpaces AddressSpaces.passive_createProcessDirectory)

theorem passive_map (virtual : VirtAddr) (physical : PhysAddr) (flags : PageFlags) :
    (map virtual physical flags).Passive scene :=
  passive_masked (passive_onSpaces (AddressSpaces.passive_map virtual physical flags))

theorem passive_unmap (virtual : VirtAddr) : (unmap virtual).Passive scene :=
  passive_masked (passive_onSpaces (AddressSpaces.passive_unmap virtual))

end Memory

section Processes

variable {Value : Type} {decision : Operation Dispatcher (Option Switch)}

/-- An operation that is silent but for masking interrupts loads nothing. -/
theorem passive_of_silent {action : Operation Kernel Value} (silent : action.Silent) :
    (masked action).Passive fun _ => () :=
  Operation.passive_masked (fun _ _ => rfl) silent.passive_unit

theorem silent_track (plan : Option Switch) : (track plan).Silent := by
  rw [track]
  split
  · refine Operation.silent_bind (Operation.silent_within ?_) fun _ => Operation.silent_pure
    exact Operation.silent_modify
  · exact Operation.silent_pure

theorem passive_decision (silent : decision.Silent) :
    (masked do track (← onDispatcher decision)).Passive fun _ => () :=
  passive_of_silent (Operation.silent_bind (Operation.silent_within silent) silent_track)

theorem passive_sleep (milliseconds : UInt32) : (sleep milliseconds).Passive fun _ => () :=
  passive_decision (Dispatcher.silent_sleep milliseconds)

theorem passive_exit (code : Int32) : (exit code).Passive fun _ => () := by
  refine passive_of_silent ?_
  refine Operation.silent_bind Operation.silent_get fun _ => ?_
  refine Operation.silent_bind Operation.silent_get fun _ => ?_
  split
  · exact Operation.silent_bind Operation.silent_log fun _ => Operation.silent_pure
  · have ending : (onDispatcher (Dispatcher.onTable (ProcessTable.exit code))).Silent :=
      Operation.silent_within (Dispatcher.silent_onTable (ProcessTable.silent_exit code))
    refine Operation.silent_bind ending fun ended => ?_
    split
    · exact Operation.silent_pure
    · refine Operation.silent_bind (silent_release _) fun _ => ?_
      exact Operation.silent_bind (Operation.silent_within Dispatcher.silent_schedule) silent_track

theorem passive_spawn (name : String) (entry priority : UInt32) :
    (spawn name entry priority).Passive fun _ => () := by
  intro before reply after effects run
  refine ⟨rfl, fun directory mem => ?_⟩
  have told := spawn_tells before name entry priority reply after effects run _ mem _ rfl
  rcases told with masks | unmasks | ⟨pid, -, seeds⟩
  · cases masks
  · cases unmasks
  · cases seeds

theorem passive_rejectSyscall {View : Type} (view : Kernel → View) (cause : SyscallError) :
    (rejectSyscall cause).Passive view :=
  Operation.passive_bind Operation.passive_log fun _ => Operation.passive_pure

theorem passive_syscall (request : Syscall) : (syscall request).Passive fun _ => () := by
  refine Operation.passive_masked (fun _ _ => rfl) ?_
  cases request with
  | exit code => exact Operation.passive_bind (passive_exit code) fun _ => Operation.passive_pure
  | getPid => exact Operation.passive_bind Operation.passive_get fun _ => Operation.passive_pure
  | sleep milliseconds =>
      exact Operation.passive_bind (passive_sleep milliseconds) fun _ => Operation.passive_pure
  | write stream bytes =>
      change (if stream = Layout.standardOutput then _ else _ : Operation Kernel _).Passive _
      split
      · exact Operation.passive_bind Operation.passive_print fun _ => Operation.passive_pure
      · exact passive_rejectSyscall _ _

theorem passive_dispatchSyscall (bytesAt : UInt64 → Nat → List UInt8) (raw : RawSyscall) :
    (dispatchSyscall bytesAt raw).Passive fun _ => () := by
  rw [dispatchSyscall]
  split
  · exact passive_syscall _
  · exact passive_rejectSyscall _ _

end Processes

end Kernel

end KernelCore
