import KernelCore.Proofs.Kernel.Outcomes
import KernelCore.Proofs.Scheduler.Stacks

/-!
# The states of a running kernel

`Kernel.Reached` are the states that a kernel can be in once it has come up, whatever is asked of it
and in whatever order: users may give back frames that they never had, and bring-up may be tried
again. `Kernel.Served` tells what a call can come to, and from it follows what holds in all these
states: the heap is sound, processes are orderly, and live processes have their own stacks.
-/

namespace KernelCore

open ProcessTable

namespace Custody

/-- How long the caller is to sleep, if the call is one to sleep. -/
def Call.nap : Call → Option UInt32
  | .sleep milliseconds => some milliseconds
  | .syscall (.sleep milliseconds) => some milliseconds
  | .dispatchSyscall bytesAt raw =>
      match Syscall.decode bytesAt raw with
      | .ok (.sleep milliseconds) => some milliseconds
      | _ => none
  | _ => none

end Custody

namespace Kernel

section Bringup

variable {before after : Kernel} {memory : BootMemory} {idleEntry : UInt32}
  {config : SchedulerConfig}

/-- What bring-up comes to, for the heap and the processes. -/
inductive Begun (idleEntry : UInt32) (config : SchedulerConfig) (before : Kernel) :
    Except KernelError Unit → Kernel → Prop where
  | refused {cause : KernelError} {after : Kernel}
      (heap : after.heap = before.heap ∨
        (Heap.reset Layout.kernelHeapStart Layout.kernelHeapEnd).Yields before.heap (.ok ())
          after.heap)
      (dispatcher : after.dispatcher = before.dispatcher) :
      Begun idleEntry config before (.error cause) after
  | ready {after : Kernel} {root : Directory} {table : ProcessTable}
      (heap : (Heap.reset Layout.kernelHeapStart Layout.kernelHeapEnd).Yields before.heap (.ok ())
        after.heap)
      (created : (create "idle" idleEntry Layout.idlePriority { directory := root }).Yields
        (.empty config.timeSliceTicks) (.ok after.idle) table)
      (dispatcher : after.dispatcher = ⟨table, { config }⟩) :
      Begun idleEntry config before (.ok ()) after

theorem init_outcome {reply : Except KernelError Unit}
    (run : (Kernel.init memory idleEntry config).Yields before reply after) :
    Begun idleEntry config before reply after := by
  rcases unmasked run with ⟨cpu, final, restored, done, rfl, -⟩
  simp [and_assoc] at done
  rcases done with ⟨_, setUp, rfl⟩ | ⟨_, _, setUp, done⟩
  · rcases yields_onFrames.mp setUp with ⟨frames, -, rfl⟩
    exact .refused (Or.inl rfl) rfl
  rcases yields_onFrames.mp setUp with ⟨frames, -, rfl⟩
  rcases done with ⟨_, laid, rfl⟩ | ⟨_, _, laid, _, ⟨_, forgetting⟩, done⟩
  · rcases yields_onHeap.mp laid with ⟨heap, reset, rfl⟩
    rcases yields_heapReset before.heap with ⟨_, accepted⟩
    cases (Operation.Yields.unique reset accepted).1
  rcases yields_onHeap.mp laid with ⟨heap, reset, rfl⟩
  simp [forgetSpaces, yields_onSpaces] at forgetting
  subst forgetting
  rcases done with ⟨_, mapped, rfl⟩ |
    ⟨root, _, mapped, _, ⟨_, switching⟩, _, ⟨_, emptying⟩, done⟩
  · rcases yields_onSpaces.mp mapped with ⟨spaces, -, rfl⟩
    exact .refused (Or.inr reset) rfl
  rcases yields_onSpaces.mp mapped with ⟨spaces, -, rfl⟩
  rcases yields_onSpaces.mp switching with ⟨active, -, rfl⟩
  simp [resetProcesses, yields_onDispatcher] at emptying
  subst emptying
  rcases done with ⟨_, entered, -⟩ | ⟨idle, _, entered, rfl, _, rfl⟩
  · rcases yields_onTable.mp entered with ⟨table, created, -⟩
    rcases yields_create_empty config.timeSliceTicks "idle" idleEntry Layout.idlePriority
      { directory := root } with ⟨_, _, accepted⟩
    cases (Operation.Yields.unique created accepted).1
  · rcases yields_onTable.mp entered with ⟨table, created, rfl⟩
    exact .ready reset created rfl

/-- What bring-up comes to, for the address spaces. -/
inductive Spaced (memory : BootMemory) (before : Kernel) :
    Except KernelError Unit → AddressSpaces → Prop where
  | untracked {cause : FrameError} {frames : FrameBitmap}
      (refused : (FrameBitmap.reset memory.totalBytes Layout.reservedEnd).Yields
        before.spaces.frames (.error cause) frames) :
      Spaced memory before (.error (.frame cause)) { before.spaces with frames }
  | unmapped {cause : MapError} {frames : FrameBitmap} {spaces : AddressSpaces}
      (reset : (FrameBitmap.reset memory.totalBytes Layout.reservedEnd).Yields
        before.spaces.frames (.ok ()) frames)
      (refused : (AddressSpaces.initKernelDirectory
        (UInt32.ofNat (frames.totalFrames * Layout.frameSize))).Yields
          ⟨frames, before.spaces.memory, none, none⟩ (.error cause) spaces) :
      Spaced memory before (.error (.map cause)) spaces
  | ready {root : Directory} {frames : FrameBitmap} {spaces : AddressSpaces}
      (reset : (FrameBitmap.reset memory.totalBytes Layout.reservedEnd).Yields
        before.spaces.frames (.ok ()) frames)
      (built : (AddressSpaces.initKernelDirectory
        (UInt32.ofNat (frames.totalFrames * Layout.frameSize))).Yields
          ⟨frames, before.spaces.memory, none, none⟩ (.ok root) spaces) :
      Spaced memory before (.ok ()) { spaces with current := some root }

theorem spaced_of_init {reply : Except KernelError Unit}
    (run : (Kernel.init memory idleEntry config).Yields before reply after) :
    Spaced memory before reply after.spaces := by
  rcases unmasked run with ⟨cpu, final, restored, done, rfl, -⟩
  simp [and_assoc] at done
  rcases done with ⟨cause, setUp, rfl⟩ | ⟨_, _, setUp, done⟩
  · rcases yields_onFrames.mp setUp with ⟨frames, refused, rfl⟩
    exact .untracked refused
  rcases yields_onFrames.mp setUp with ⟨frames, reset, rfl⟩
  rcases done with ⟨_, laid, rfl⟩ | ⟨_, _, laid, _, ⟨_, forgetting⟩, done⟩
  · rcases yields_onHeap.mp laid with ⟨heap, refused, rfl⟩
    rcases yields_heapReset before.heap with ⟨_, accepted⟩
    cases (Operation.Yields.unique refused accepted).1
  rcases yields_onHeap.mp laid with ⟨heap, -, rfl⟩
  simp [forgetSpaces, yields_onSpaces] at forgetting
  subst forgetting
  rcases done with ⟨_, mapped, rfl⟩ |
    ⟨root, _, mapped, _, ⟨_, switching⟩, _, ⟨_, emptying⟩, done⟩
  · rcases yields_onSpaces.mp mapped with ⟨spaces, refused, rfl⟩
    rw [← UInt32.ofNat_mul] at refused
    exact .unmapped reset refused
  rcases yields_onSpaces.mp mapped with ⟨spaces, built, rfl⟩
  simp [AddressSpaces.switchTo, yields_onSpaces] at switching
  subst switching
  simp [resetProcesses, yields_onDispatcher] at emptying
  subst emptying
  rcases done with ⟨_, entered, -⟩ | ⟨idle, _, entered, rfl, _, rfl⟩
  · rcases yields_onTable.mp entered with ⟨table, created, -⟩
    rcases yields_create_empty config.timeSliceTicks "idle" idleEntry Layout.idlePriority
      { directory := root } with ⟨_, _, accepted⟩
    cases (Operation.Yields.unique created accepted).1
  · rcases yields_onTable.mp entered with ⟨table, -, rfl⟩
    rw [← UInt32.ofNat_mul] at built
    exact .ready reset built

end Bringup

/-- What a call can come to, for the heap and the processes. -/
inductive Served (before : Kernel) : Custody.Call → Kernel → Prop where
  | spawned {name : String} {entry priority : UInt32} {reply : Except KernelError Pid}
      {after : Kernel} (outcome : Spawned name entry priority before reply after) :
      Served before (.spawn name entry priority) after
  | started {plan : Option Switch} {after : Kernel}
      (decides : Decides Dispatcher.schedule before plan after) : Served before .start after
  | ticked {plan : Option Switch} {after : Kernel}
      (decides : Decides Dispatcher.tick before plan after) : Served before .tick after
  | yielded {plan : Option Switch} {after : Kernel}
      (decides : Decides Dispatcher.yield before plan after) : Served before .yield after
  | slept {call : Custody.Call} {milliseconds : UInt32} {plan : Option Switch} {after : Kernel}
      (nap : call.nap = some milliseconds)
      (decides : Decides (Dispatcher.sleep milliseconds) before plan after) :
      Served before call after
  | exited {call : Custody.Call} {code : Int32} {plan : Option Switch} {after : Kernel}
      (outcome : Exited code before plan after) : Served before call after
  | performed {switch : Switch} (cpu : Cpu) :
      Served before (.perform switch)
        { before with
          cpu
          dispatcher := { before.dispatcher with
            table := (switch.apply before.cpu.registers before.table).2 } }
  | elsewhere {call : Custody.Call} (spaces : AddressSpaces) {heap : Heap}
      (sound : (∃ entries, before.heap.Sound entries) → ∃ entries, heap.Sound entries) :
      Served before call { before with spaces, heap }

section Serving

variable {Value : Type} {before after : Kernel} {call : Custody.Call}

theorem served_of_onSpaces {action : Operation AddressSpaces Value} {value : Value}
    (run : (masked (onSpaces action)).Yields before value after) : Served before call after := by
  rcases unmasked run with ⟨cpu, final, restored, done, rfl, same⟩
  rcases yields_onSpaces.mp done with ⟨spaces, -, rfl⟩
  rw [same rfl]
  exact .elsewhere spaces id

theorem served_of_onHeap {action : Operation Heap Value} {value : Value} (request : Heap.Call)
    (act : request.act = discard action)
    (run : (masked (onHeap action)).Yields before value after) : Served before call after := by
  rcases unmasked run with ⟨cpu, final, restored, done, rfl, same⟩
  have sound := (sameAccounts_of_onHeap request act done).heap
  rcases yields_onHeap.mp done with ⟨heap, -, rfl⟩
  rw [same rfl]
  exact .elsewhere before.spaces sound

theorem served_of_syscall {request : Syscall} {answer : SyscallReturn}
    (nap : ∀ milliseconds, request = .sleep milliseconds → call.nap = some milliseconds)
    (run : (syscall request).Yields before answer after) : Served before call after := by
  rcases unmasked run with ⟨cpu, final, restored, done, rfl, same⟩
  cases request with
  | exit code =>
      rcases Operation.yields_bind.mp done with ⟨plan, _, exits, ended⟩
      rcases Operation.yields_pure.mp ended with ⟨-, rfl⟩
      have exited := exit_outcome exits
      rw [same exited.cpu]
      exact .exited (exited.withCpu before.cpu)
  | getPid =>
      simp at done
      rcases done with ⟨rfl, -⟩
      rw [same rfl]
      exact .elsewhere before.spaces id
  | sleep milliseconds =>
      rcases Operation.yields_bind.mp done with ⟨plan, _, sleeps, ended⟩
      rcases Operation.yields_pure.mp ended with ⟨-, rfl⟩
      have decides := decides_of_masked sleeps
      rw [same decides.cpu]
      exact .slept (nap milliseconds rfl) (decides.withCpu before.cpu)
  | write stream bytes =>
      by_cases output : stream = Layout.standardOutput
      · simp [output] at done
        rcases done with ⟨rfl, -⟩
        rw [same rfl]
        exact .elsewhere before.spaces id
      · simp [output, rejectSyscall] at done
        rcases done with ⟨rfl, -⟩
        rw [same rfl]
        exact .elsewhere before.spaces id

theorem served_of_dispatchSyscall {bytesAt : UInt64 → Nat → List UInt8} {raw : RawSyscall}
    {answer : SyscallReturn} (run : (dispatchSyscall bytesAt raw).Yields before answer after) :
    Served before (.dispatchSyscall bytesAt raw) after := by
  rw [dispatchSyscall] at run
  cases decoded : Syscall.decode bytesAt raw with
  | ok request =>
      rw [decoded] at run
      refine served_of_syscall ?_ run
      rintro milliseconds rfl
      simp [Custody.Call.nap, decoded]
  | error cause =>
      simp [decoded, rejectSyscall] at run
      rcases run with ⟨rfl, -⟩
      exact .elsewhere after.spaces id

theorem served_of_perform {switch : Switch} {value : Unit}
    (run : (perform switch).Yields before value after) : Served before (.perform switch) after := by
  simp [perform] at run
  rcases run with ⟨registers, _, ⟨rfl, rfl⟩, rfl⟩
  exact .performed _

theorem served_of_discard {custody final : Custody} {action : Operation Kernel Value}
    (serves : ∀ value kernel, action.Yields custody.kernel value kernel →
      Served custody.kernel call kernel)
    (step : (discard (Custody.onKernel action)).Yields custody () final) :
    Served custody.kernel call final.kernel := by
  rcases Operation.yields_map.mp step with ⟨value, done, -⟩
  rcases Custody.yields_onKernel.mp done with ⟨kernel, run, rfl⟩
  exact serves value kernel run

/-- Whatever is kept of what a call answers, the kernel has served it. -/
theorem served_of_keep {custody final : Custody} {action : Operation Kernel Value}
    {keep : Value → Operation Custody Unit}
    (keeps : ∀ value between final, (keep value).Yields between () final →
      final.kernel = between.kernel)
    (serves : ∀ value kernel, action.Yields custody.kernel value kernel →
      Served custody.kernel call kernel)
    (step : (Custody.onKernel action >>= keep).Yields custody () final) :
    Served custody.kernel call final.kernel := by
  rcases Operation.yields_bind.mp step with ⟨value, between, done, kept⟩
  rcases Custody.yields_onKernel.mp done with ⟨kernel, run, rfl⟩
  rw [keeps value _ final kept]
  exact serves value kernel run

/-- Every call is served in one of these ways. -/
theorem served_of_act {custody final : Custody}
    (heap : ∃ entries, custody.kernel.heap.Sound entries)
    (step : call.act.Yields custody () final) : Served custody.kernel call final.kernel := by
  cases call with
  | spawn name entry priority =>
      exact served_of_discard (fun _ _ run => .spawned (spawn_outcome heap run)) step
  | start => exact served_of_discard (fun _ _ run => .started (decides_of_masked run)) step
  | tick => exact served_of_discard (fun _ _ run => .ticked (decides_of_masked run)) step
  | yield => exact served_of_discard (fun _ _ run => .yielded (decides_of_masked run)) step
  | sleep milliseconds =>
      exact served_of_discard (fun _ _ run => .slept rfl (decides_of_masked run)) step
  | exit code => exact served_of_discard (fun _ _ run => .exited (exit_outcome run)) step
  | perform switch =>
      rcases Custody.yields_onKernel.mp step with ⟨kernel, run, rfl⟩
      exact served_of_perform run
  | syscall request =>
      refine served_of_discard (fun _ _ run => served_of_syscall ?_ run) step
      rintro milliseconds rfl
      rfl
  | dispatchSyscall bytesAt raw =>
      exact served_of_discard (fun _ _ run => served_of_dispatchSyscall run) step
  | map virtual physical flags =>
      exact served_of_discard (fun _ _ run => served_of_onSpaces run) step
  | unmap virtual => exact served_of_discard (fun _ _ run => served_of_onSpaces run) step
  | allocateFrame =>
      refine served_of_keep ?_ (fun _ _ run => served_of_onSpaces run) step
      rintro (_ | frame) between final kept
      · rw [(Operation.yields_pure.mp kept).2]
      · rw [Operation.yields_modify.mp kept]
  | freeFrame frame =>
      refine served_of_keep ?_ (fun _ _ run => served_of_onSpaces run) step
      rintro (_ | _) between final kept
      · rw [(Operation.yields_pure.mp kept).2]
      · rw [Operation.yields_modify.mp kept]
  | createDirectory =>
      refine served_of_keep ?_ (fun _ _ run => served_of_onSpaces run) step
      rintro (_ | directory) between final kept
      · rw [(Operation.yields_pure.mp kept).2]
      · rw [Operation.yields_modify.mp kept]
  | switchAddressSpace directory =>
      rcases Custody.yields_onKernel.mp step with ⟨kernel, run, rfl⟩
      exact served_of_onSpaces run
  | kmalloc size =>
      exact served_of_discard
        (fun _ _ run => served_of_onHeap (.request (.allocate size)) rfl run) step
  | kfree address =>
      exact served_of_discard
        (fun _ _ run => served_of_onHeap (.request (.free address)) rfl run) step

end Serving

/-- The heap is sound, and so are the processes. -/
structure Intact (kernel : Kernel) : Prop where
  heap : ∃ entries, kernel.heap.Sound entries
  housed : kernel.dispatcher.Housed

section Intact

variable {before after : Kernel} {call : Custody.Call}

theorem Intact.ask (intact : before.Intact) (request : Dispatcher.Call) {plan : Option Switch}
    {dispatcher : Dispatcher} (step : request.act.Yields before.dispatcher plan dispatcher) :
    ({ before with dispatcher } : Kernel).Intact where
  heap := intact.heap
  housed := request.act_housed intact.housed step

theorem Intact.decides (intact : before.Intact) (request : Dispatcher.Call) {plan : Option Switch}
    (decides : Decides request.act before plan after) : after.Intact := by
  rcases decides with ⟨dispatcher, current, decided, rfl⟩
  have kept := intact.ask request decided
  exact ⟨kept.heap, kept.housed⟩

theorem sound_of_heapCall {heap : Heap} {Value : Type} {action : Operation Heap Value}
    {value : Value} (request : Heap.Call) (act : request.act = discard action)
    (run : action.Yields before.heap value heap)
    (sound : ∃ entries, before.heap.Sound entries) : ∃ entries, heap.Sound entries :=
  (sameAccounts_of_onHeap request act (yields_onHeap.mpr ⟨heap, run, rfl⟩)).heap sound

theorem Intact.spawned (intact : before.Intact) {name : String} {entry priority : UInt32}
    {reply : Except KernelError Pid} (spawned : Spawned name entry priority before reply after) :
    after.Intact := by
  cases spawned with
  | full isFull => exact intact
  | noBlock refused => exact intact
  | noFrame refused => exact intact
  | @created pid heapStart heapEnd heap directory spaces table granted made reach entered =>
      have kept := intact.ask (.create name entry priority ⟨directory, heapStart, heapEnd⟩)
        (Dispatcher.yields_unplanned.mpr ⟨rfl, _, table, entered, rfl⟩)
      exact ⟨sound_of_heapCall (.request (.allocate _)) rfl granted intact.heap, kept.housed⟩

theorem Intact.exited (intact : before.Intact) {code : Int32} {plan : Option Switch}
    (exited : Exited code before plan after) : after.Intact := by
  cases exited with
  | ignored isIdle => exact intact
  | nobody noCurrent => exact intact
  | @ended process table freed _ _ other ending returned decided =>
      have left := intact.ask (.exit code)
        (Dispatcher.yields_unplanned.mpr ⟨rfl, _, table, ending, rfl⟩)
      have kept : freed.Intact := by
        rcases returned with ⟨⟨spaces, heap, rfl⟩, -, released, noHeap⟩
        refine ⟨?_, left.housed⟩
        by_cases had : process.resources.heapStart < process.resources.heapEnd
        · rcases released had with ⟨reply, done⟩
          exact sound_of_heapCall (.request (.free _)) rfl done left.heap
        · rw [noHeap had]
          exact left.heap
      exact kept.decides .schedule decided

theorem Intact.served (intact : before.Intact) (served : Served before call after) :
    after.Intact := by
  cases served with
  | spawned outcome => exact intact.spawned outcome
  | started decides => exact intact.decides .schedule decides
  | ticked decides => exact intact.decides .tick decides
  | yielded decides => exact intact.decides .yield decides
  | @slept _ milliseconds _ _ nap decides => exact intact.decides (.sleep milliseconds) decides
  | exited outcome => exact intact.exited outcome
  | @performed switch cpu =>
      have kept := intact.ask (.perform switch before.cpu.registers)
        (Dispatcher.yields_unplanned.mpr ⟨rfl, (), _, Operation.yields_modify.mpr rfl, rfl⟩)
      exact ⟨kept.heap, kept.housed⟩
  | elsewhere spaces sound => exact ⟨sound intact.heap, intact.housed⟩

theorem sound_of_reset {heap : Heap}
    (reset : (Heap.reset Layout.kernelHeapStart Layout.kernelHeapEnd).Yields before.heap (.ok ())
      heap) : ∃ entries, heap.Sound entries := by
  rcases Heap.reset_cases before.heap Layout.kernelHeapStart Layout.kernelHeapEnd with
    ⟨other, entries, again, sound, -⟩ | ⟨-, refused⟩
  · exact ⟨entries, (reset.unique again).2 ▸ sound⟩
  · cases (reset.unique refused).1

theorem intact_of_ready {idleEntry : UInt32} {config : SchedulerConfig}
    (begun : Begun idleEntry config before (.ok ()) after) : after.Intact := by
  cases begun with
  | @ready _ root table heap created dispatcher =>
      refine ⟨sound_of_reset heap, ?_⟩
      rw [dispatcher]
      exact Dispatcher.Call.act_housed
        (.create "idle" idleEntry Layout.idlePriority { directory := root })
        (Dispatcher.housed_empty config.timeSliceTicks { config })
        (Dispatcher.yields_unplanned.mpr ⟨rfl, _, table, created, rfl⟩)

theorem Intact.begun (intact : before.Intact) {idleEntry : UInt32} {config : SchedulerConfig}
    {reply : Except KernelError Unit} (begun : Begun idleEntry config before reply after) :
    after.Intact := by
  cases reply with
  | ok _ => exact intact_of_ready begun
  | error cause =>
      cases begun with
      | refused heap dispatcher =>
          refine ⟨?_, dispatcher ▸ intact.housed⟩
          rcases heap with same | reset
          · rw [same]
            exact intact.heap
          · exact sound_of_reset reset

end Intact

/-- The states that a kernel can be in once it has come up. Between calls, the processor may do
whatever it likes. -/
inductive Reached : Kernel → Prop where
  | begun {before after : Kernel} {memory : BootMemory} {idleEntry : UInt32}
      {config : SchedulerConfig}
      (run : (Kernel.init memory idleEntry config).Yields before (.ok ()) after) : Reached after
  | again {before after : Kernel} {memory : BootMemory} {idleEntry : UInt32}
      {config : SchedulerConfig} {reply : Except KernelError Unit} (reached : Reached before)
      (run : (Kernel.init memory idleEntry config).Yields before reply after) : Reached after
  | ran {kernel : Kernel} (reached : Reached kernel) (cpu : Cpu) : Reached { kernel with cpu }
  | served {custody final : Custody} {call : Custody.Call} (reached : Reached custody.kernel)
      (step : call.act.Yields custody () final) : Reached final.kernel

theorem Reached.run {custody final : Custody} {calls : List Custody.Call}
    (reached : Reached custody.kernel)
    (run : (calls.forM Custody.Call.act).Yields custody () final) : Reached final.kernel := by
  have keeps : ∀ (call : Custody.Call) (before after : Custody), Reached before.kernel →
      call.act.Yields before () after → Reached after.kernel :=
    fun _ _ _ reached step => .served reached step
  exact run.keeps keeps reached

/-- In all these states the heap and the processes are sound. -/
theorem Reached.intact {kernel : Kernel} (reached : Reached kernel) : kernel.Intact := by
  induction reached with
  | begun run => exact intact_of_ready (init_outcome run)
  | again _ run ih => exact ih.begun (init_outcome run)
  | ran _ cpu ih => exact ⟨ih.heap, ih.housed⟩
  | served _ step ih => exact ih.served (served_of_act ih.heap step)

end Kernel

end KernelCore
