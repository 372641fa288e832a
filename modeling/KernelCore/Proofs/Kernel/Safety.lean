import KernelCore.Proofs.Heap.Walks
import KernelCore.Proofs.Kernel.Outcomes
import KernelCore.Proofs.Paging.Safety
import KernelCore.Proofs.Scheduler.Clock

/-!
# The kernel cannot fault

Whatever is asked of the kernel, before it has come up, after it has failed to come up or later on,
it answers. `Kernel.Sturdy` is the invariant: the bitmap, the heap and the processes are as they
should be, and the clock shows no more ticks than have been counted. Each operation is safe for it,
a tick apart, which moves the clock. What memory holds has no part in this, nor who is entitled to
what is given back.
-/

namespace KernelCore

open ProcessTable

namespace Kernel

/-- All parts of the kernel are as they should be after at most so many ticks. -/
structure Sturdy (limit : Nat) (kernel : Kernel) : Prop where
  founded : kernel.spaces.Founded
  whole : kernel.heap.Whole
  running : kernel.dispatcher.Running limit

section Parts

variable {limit : Nat} {Value : Type}

theorem sturdy_newOn (cpu : Cpu) (memory : Memory) : (newOn cpu memory).Sturdy limit where
  founded := FrameBitmap.wellFormed_empty
  whole := ⟨[], Heap.sound_empty⟩
  running := Dispatcher.running_empty _ _

theorem Sturdy.withCpu {kernel : Kernel} (sturdy : kernel.Sturdy limit) (cpu : Cpu) :
    ({ kernel with cpu } : Kernel).Sturdy limit :=
  ⟨sturdy.founded, sturdy.whole, sturdy.running⟩

/-- A masked operation is safe, since the processor has no part in the invariant. -/
theorem safe_of_masked {action : Operation Kernel Value} (safe : action.Safe (Sturdy limit)) :
    (masked action).Safe (Sturdy limit) :=
  Operation.safe_masked safe fun _ _ sturdy => sturdy.withCpu _

theorem safe_onSpaces {action : Operation AddressSpaces Value}
    (safe : action.Safe AddressSpaces.Founded) : (onSpaces action).Safe (Sturdy limit) :=
  Operation.safe_within safe (fun _ sturdy => sturdy.founded)
    fun _ _ sturdy founded => ⟨founded, sturdy.whole, sturdy.running⟩

theorem safe_onFrames {action : Operation FrameBitmap Value}
    (safe : action.Safe FrameBitmap.WellFormed) : (onFrames action).Safe (Sturdy limit) :=
  safe_onSpaces (AddressSpaces.safe_onFrames safe)

theorem safe_onHeap {action : Operation Heap Value} (safe : action.Safe Heap.Whole) :
    (onHeap action).Safe (Sturdy limit) :=
  Operation.safe_within safe (fun _ sturdy => sturdy.whole)
    fun _ _ sturdy whole => ⟨sturdy.founded, whole, sturdy.running⟩

theorem safe_onDispatcher {action : Operation Dispatcher Value}
    (safe : action.Safe (Dispatcher.Running limit)) : (onDispatcher action).Safe (Sturdy limit) :=
  Operation.safe_within safe (fun _ sturdy => sturdy.running)
    fun _ _ sturdy running => ⟨sturdy.founded, sturdy.whole, running⟩

theorem safe_track (plan : Option Switch) : (track plan).Safe (Sturdy limit) := by
  rw [track]
  split
  · refine Operation.safe_bind (safe_onSpaces ?_) fun _ => Operation.safe_pure
    exact Operation.safe_modify fun _ founded => founded
  · exact Operation.safe_pure

theorem safe_decision {decision : Operation Dispatcher (Option Switch)}
    (safe : decision.Safe (Dispatcher.Running limit)) :
    (do track (← onDispatcher decision)).Safe (Sturdy limit) :=
  Operation.safe_bind (safe_onDispatcher safe) safe_track

theorem safe_seedStack (pid : Pid) : (seedStack pid).Safe (Sturdy limit) := by
  refine Operation.safe_bind Operation.safe_get fun kernel => ?_
  split
  · exact Operation.safe_perform
  · exact Operation.safe_pure

theorem safe_releaseHeap (address : UInt32) : (releaseHeap address).Safe (Sturdy limit) := by
  refine Operation.safe_bind (safe_onHeap (Heap.safe_free address)) fun reply => ?_
  cases reply with
  | error cause => exact Operation.safe_perform
  | ok _ => exact Operation.safe_pure

theorem safe_releaseDirectory (directory : Directory) :
    (releaseDirectory directory).Safe (Sturdy limit) := by
  refine Operation.safe_bind Operation.safe_get fun kernel => ?_
  split
  · refine Operation.safe_bind (safe_onSpaces (AddressSpaces.safe_destroyDirectory directory))
      fun reply => ?_
    cases reply with
    | error cause => exact Operation.safe_perform
    | ok _ => exact Operation.safe_pure
  · exact Operation.safe_pure

theorem safe_release (resources : ProcessResources) : (release resources).Safe (Sturdy limit) := by
  have heap : (if resources.heapStart < resources.heapEnd then
      releaseHeap resources.heapStart else pure ()).Safe (Sturdy limit) := by
    split
    · exact safe_releaseHeap _
    · exact Operation.safe_pure
  rw [release]
  split
  · exact Operation.safe_bind (safe_releaseDirectory _) fun _ => heap
  · exact heap

end Parts

section Operations

variable {limit : Nat}

theorem safe_init (memory : BootMemory) (idleEntry : UInt32) (config : SchedulerConfig) :
    (init memory idleEntry config).Safe (Sturdy limit) := by
  refine safe_of_masked ?_
  refine Fallible.safe_bind Fallible.safe_perform fun _ => ?_
  refine Fallible.safe_bind
    (Fallible.safe_mapCause (safe_onFrames (FrameBitmap.safe_reset _ _))) fun _ => ?_
  refine Fallible.safe_bind
    (Fallible.safe_mapCause (safe_onHeap (Heap.safe_reset _ _))) fun _ => ?_
  refine Fallible.safe_bind (Fallible.safe_lift
    (safe_onSpaces (Operation.safe_modify fun _ founded => founded))) fun _ => ?_
  refine Fallible.safe_bind Fallible.safe_get fun kernel => ?_
  refine Fallible.safe_bind (Fallible.safe_mapCause
    (safe_onSpaces (AddressSpaces.safe_initKernelDirectory _))) fun directory => ?_
  refine Fallible.safe_bind
    (Fallible.safe_lift (safe_onSpaces (AddressSpaces.safe_switchTo directory))) fun _ => ?_
  refine Fallible.safe_bind Fallible.safe_perform fun _ => ?_
  refine Fallible.safe_bind Fallible.safe_perform fun _ => ?_
  refine Fallible.safe_bind (Fallible.safe_lift (safe_onDispatcher
    (Operation.safe_set (Dispatcher.running_empty _ _)))) fun _ => ?_
  refine Fallible.safe_bind (Fallible.safe_mapCause
    (safe_onDispatcher (Dispatcher.safe_create _ _ _ _))) fun pid => ?_
  refine Fallible.safe_bind (Fallible.safe_lift (Operation.safe_modify fun _ sturdy =>
    ⟨sturdy.founded, sturdy.whole, sturdy.running⟩)) fun _ => ?_
  exact Fallible.safe_lift (safe_seedStack pid)

/-- The block that a new process gets ends where a word still tells. -/
theorem processHeap_fits (before : Kernel) (sturdy : before.Sturdy limit) :
    ∃ reply between,
      (Fallible.mapCause KernelError.heap
        (onHeap (Heap.allocate Layout.processHeapSize))).Yields before reply between ∧
      between.Sturdy limit ∧ ∀ start, reply = .ok start →
        start.toNat + Layout.processHeapSize.toNat < 2 ^ 32 := by
  rcases sturdy.whole with ⟨entries, sound⟩
  rcases sound.allocate Layout.processHeapSize with ⟨reply, heap, result, run, -, stays, -⟩
  refine ⟨reply.mapError .heap, { before with heap },
    Fallible.yields_mapCause.mpr ⟨reply, yields_onHeap.mpr ⟨heap, run, rfl⟩, rfl⟩,
    ⟨sturdy.founded, ⟨result, stays⟩, sturdy.running⟩, ?_⟩
  intro start granted
  cases reply with
  | error cause => cases granted
  | ok address =>
      cases granted
      exact Nat.lt_of_le_of_lt (sound.allocate_inside run) before.heap.regionEnd.toNat_lt

theorem safe_spawn (name : String) (entry priority : UInt32) :
    (spawn name entry priority).Safe (Sturdy limit) := by
  refine safe_of_masked ?_
  refine Fallible.safe_bind Fallible.safe_get fun kernel => ?_
  extract_lets onward
  have safe : ∀ answer, (onward answer).Safe (Sturdy limit) := by
    intro answer
    refine Fallible.safe_bind_of _ processHeap_fits fun heapStart fits => ?_
    refine Fallible.safe_bind (Fallible.safe_tryCatch
      (Fallible.safe_mapCause (safe_onSpaces AddressSpaces.safe_createProcessDirectory))
        fun cause => Fallible.safe_bind (Fallible.safe_lift (safe_releaseHeap _))
          fun _ => Fallible.safe_throw) fun directory => ?_
    refine Fallible.safe_bind (Fallible.safe_liftM (Checked.add32_of_lt fits)) fun heapEnd => ?_
    extract_lets resources
    refine Fallible.safe_bind (Fallible.safe_tryCatch
      (Fallible.safe_mapCause (safe_onDispatcher (Dispatcher.safe_create _ _ _ _)))
        fun cause => Fallible.safe_bind (Fallible.safe_lift (safe_release _))
          fun _ => Fallible.safe_throw) fun pid => ?_
    exact Fallible.safe_bind (Fallible.safe_lift (safe_seedStack _)) fun _ => Fallible.safe_pure
  split
  · refine Fallible.safe_bind Fallible.safe_perform fun _ => ?_
    exact Fallible.safe_bind Fallible.safe_throw safe
  · exact safe ()

theorem safe_exit (code : Int32) : (exit code).Safe (Sturdy limit) := by
  refine safe_of_masked ?_
  refine Operation.safe_bind Operation.safe_get fun _ => ?_
  refine Operation.safe_bind Operation.safe_get fun _ => ?_
  split
  · exact Operation.safe_bind Operation.safe_perform fun _ => Operation.safe_pure
  · refine Operation.safe_bind (safe_onDispatcher (Dispatcher.safe_exit code)) fun ended => ?_
    split
    · exact Operation.safe_pure
    · refine Operation.safe_bind (safe_release _) fun _ => ?_
      exact safe_decision Dispatcher.safe_schedule

theorem safe_sleep (room : limit < 2 ^ 63) (milliseconds : UInt32) :
    (sleep milliseconds).Safe (Sturdy limit) :=
  safe_of_masked (safe_decision (Dispatcher.safe_sleep room milliseconds))

theorem safe_perform (switch : Switch) : (perform switch).Safe (Sturdy limit) := by
  refine Operation.safe_bind (Operation.safe_modifyGet fun kernel sturdy => ?_)
    fun _ => Operation.safe_perform
  exact ⟨sturdy.founded, sturdy.whole, sturdy.running.apply switch kernel.cpu.registers⟩

theorem safe_syscall (room : limit < 2 ^ 63) (request : Syscall) :
    (syscall request).Safe (Sturdy limit) := by
  refine safe_of_masked ?_
  cases request with
  | exit code => exact Operation.safe_bind (safe_exit code) fun _ => Operation.safe_pure
  | getPid => exact Operation.safe_bind Operation.safe_get fun _ => Operation.safe_pure
  | sleep milliseconds =>
      exact Operation.safe_bind (safe_sleep room milliseconds) fun _ => Operation.safe_pure
  | write stream bytes =>
      change (if stream = Layout.standardOutput then _ else _ : Operation Kernel _).Safe _
      split
      · exact Operation.safe_bind Operation.safe_perform fun _ => Operation.safe_pure
      · exact Operation.safe_bind Operation.safe_perform fun _ => Operation.safe_pure

theorem safe_dispatchSyscall (room : limit < 2 ^ 63) (bytesAt : UInt64 → Nat → List UInt8)
    (raw : RawSyscall) : (dispatchSyscall bytesAt raw).Safe (Sturdy limit) := by
  rw [dispatchSyscall]
  split
  · exact safe_syscall room _
  · exact Operation.safe_bind Operation.safe_perform fun _ => Operation.safe_pure

/-- A tick moves the clock on by one. -/
theorem Sturdy.tick {before : Kernel} (sturdy : before.Sturdy limit) (room : limit < 2 ^ 63) :
    ∃ plan after, Kernel.tick.Yields before plan after ∧ after.Sturdy (limit + 1) := by
  rcases sturdy.running.tick room with ⟨plan, dispatcher, counted, running⟩
  rcases yields_decision ⟨plan, dispatcher, counted⟩ with ⟨answer, after, run⟩
  refine ⟨answer, after, run, ?_⟩
  rcases decides_of_masked run with ⟨again, current, decided, rfl⟩
  rcases decided.unique counted with ⟨-, rfl⟩
  exact ⟨sturdy.founded, sturdy.whole, running⟩

end Operations

end Kernel

end KernelCore
