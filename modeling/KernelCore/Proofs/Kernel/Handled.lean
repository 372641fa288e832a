import KernelCore.Proofs.Kernel.Prompt

/-!
# How a call is handled

`Kernel.Handled` tells in full what a call does to the heap and the processes, and with what plan:
it creates a process, or it asks the scheduler for a decision, or it ends a process, or it saves
registers, or it takes a block from the heap or gives one back, or it does none of that. A call that
asks for a decision asks for one of the scheduler's, and a call that ends a process says so.
-/

namespace KernelCore

open ProcessTable

namespace Custody

/-- The code with which the caller is to end, if the call is one to end. -/
def Call.quit : Call → Option Int32
  | .exit code => some code
  | .syscall (.exit code) => some code
  | .dispatchSyscall bytesAt raw =>
      match Syscall.decode bytesAt raw with
      | .ok (.exit code) => some code
      | _ => none
  | _ => none

/-- The decision that the call asks the scheduler for, if it is one to ask for a decision. -/
def Call.request : Call → Option Dispatcher.Call
  | .start => some .schedule
  | .tick => some .tick
  | .yield => some .yield
  | call => call.nap.map .sleep

theorem Call.request_of_nap {call : Call} {milliseconds : UInt32}
    (nap : call.nap = some milliseconds) : call.request = some (.sleep milliseconds) := by
  cases call with
  | start | tick | yield => cases nap
  | _ => simp [request, nap]

theorem Call.request_cases {call : Call} {request : Dispatcher.Call}
    (asks : call.request = some request) :
    request = .schedule ∨ request = .tick ∨ request = .yield ∨
      ∃ milliseconds, call.nap = some milliseconds ∧ request = .sleep milliseconds := by
  cases call with
  | start | tick | yield =>
      cases asks
      simp
  | _ =>
      simp only [Call.request, Option.map_eq_some_iff] at asks
      rcases asks with ⟨milliseconds, nap, rfl⟩
      exact Or.inr (Or.inr (Or.inr ⟨milliseconds, nap, rfl⟩))

end Custody

namespace Kernel

open Custody

/-- What a call does to the heap and the processes, and its answer. -/
inductive Handled (before : Kernel) : Call → Answer → Kernel → Prop where
  | spawned {name : String} {entry priority : UInt32} {reply : Except KernelError Pid}
      {after : Kernel} (outcome : Spawned name entry priority before reply after) :
      Handled before (.spawn name entry priority)
        { began := reply.toOption.map fun pid => (pid, entry) } after
  | decided {call : Call} {request : Dispatcher.Call} {plan : Option Switch} {after : Kernel}
      (asks : call.request = some request) (decides : Decides request.act before plan after) :
      Handled before call { plan } after
  | exited {call : Call} {code : Int32} {plan : Option Switch} {after : Kernel}
      (quits : call.quit = some code) (outcome : Exited code before plan after) :
      Handled before call { plan } after
  | performed {switch : Switch} (cpu : Cpu) :
      Handled before (.perform switch) {}
        { before with
          cpu
          dispatcher := { before.dispatcher with
            table := (switch.apply before.cpu.registers before.table).2 } }
  | allocated {size : UInt32} {reply : Except HeapError UInt32} {heap : Heap}
      (done : (Heap.allocate size).Yields before.heap reply heap) :
      Handled before (.kmalloc size) {} { before with heap }
  | freed {address : UInt32} {reply : Except HeapError Unit} {heap : Heap}
      (done : (Heap.free address).Yields before.heap reply heap) :
      Handled before (.kfree address) {} { before with heap }
  | elsewhere {call : Call} (spaces : AddressSpaces) :
      Handled before call {} { before with spaces }

section Handling

variable {Value : Type} {before after : Kernel} {call : Call}

theorem yields_masked_onSpaces {action : Operation AddressSpaces Value} {value : Value} :
    (masked (onSpaces action)).Yields before value after ↔
      ∃ spaces, action.Yields before.spaces value spaces ∧ after = { before with spaces } := by
  have inverse : ∀ {value after}, (masked (onSpaces action)).Yields before value after →
      ∃ spaces, action.Yields before.spaces value spaces ∧ after = { before with spaces } := by
    intro value after run
    rcases unmasked run with ⟨cpu, final, restored, done, rfl, same⟩
    rcases yields_onSpaces.mp done with ⟨spaces, asked, rfl⟩
    rw [same rfl]
    exact ⟨spaces, asked, rfl⟩
  constructor
  · exact inverse
  · rintro ⟨spaces, asked, rfl⟩
    have runs : ∃ other final, (masked (onSpaces action)).Yields before other final :=
      yields_of_unmasked fun cpu =>
        ⟨value, { before with cpu, spaces }, yields_onSpaces.mpr ⟨spaces, asked, rfl⟩⟩
    rcases runs with ⟨other, final, run⟩
    rcases inverse run with ⟨_, again, rfl⟩
    rcases asked.unique again with ⟨rfl, rfl⟩
    exact run

theorem handled_of_onSpaces {action : Operation AddressSpaces Value} {value : Value}
    (run : (masked (onSpaces action)).Yields before value after) :
    Handled before call {} after := by
  rcases yields_masked_onSpaces.mp run with ⟨spaces, -, rfl⟩
  exact .elsewhere spaces

theorem yields_masked_onHeap {action : Operation Heap Value} {value : Value} :
    (masked (onHeap action)).Yields before value after ↔
      ∃ heap, action.Yields before.heap value heap ∧ after = { before with heap } := by
  have inverse : ∀ {value after}, (masked (onHeap action)).Yields before value after →
      ∃ heap, action.Yields before.heap value heap ∧ after = { before with heap } := by
    intro value after run
    rcases unmasked run with ⟨cpu, final, restored, done, rfl, same⟩
    rcases yields_onHeap.mp done with ⟨heap, asked, rfl⟩
    rw [same rfl]
    exact ⟨heap, asked, rfl⟩
  constructor
  · exact inverse
  · rintro ⟨heap, asked, rfl⟩
    have runs : ∃ other final, (masked (onHeap action)).Yields before other final :=
      yields_of_unmasked fun cpu =>
        ⟨value, { before with cpu, heap }, yields_onHeap.mpr ⟨heap, asked, rfl⟩⟩
    rcases runs with ⟨other, final, run⟩
    rcases inverse run with ⟨_, again, rfl⟩
    rcases asked.unique again with ⟨rfl, rfl⟩
    exact run

theorem handled_of_syscall {request : Syscall} {returned : SyscallReturn}
    (nap : ∀ milliseconds, request = .sleep milliseconds → call.nap = some milliseconds)
    (quit : ∀ code, request = .exit code → call.quit = some code)
    (run : (syscall request).Yields before returned after) :
    Handled before call { plan := returned.plan } after := by
  rcases unmasked run with ⟨cpu, final, restored, done, rfl, same⟩
  cases request with
  | exit code =>
      rcases Operation.yields_bind.mp done with ⟨plan, _, exits, ended⟩
      rcases Operation.yields_pure.mp ended with ⟨rfl, rfl⟩
      have exited := exit_outcome exits
      rw [same exited.cpu]
      exact .exited (quit code rfl) (exited.withCpu before.cpu)
  | sleep milliseconds =>
      rcases Operation.yields_bind.mp done with ⟨plan, _, sleeps, ended⟩
      rcases Operation.yields_pure.mp ended with ⟨rfl, rfl⟩
      have decides := decides_of_masked sleeps
      rw [same decides.cpu]
      exact .decided (Call.request_of_nap (nap milliseconds rfl)) (decides.withCpu before.cpu)
  | getPid =>
      simp at done
      rcases done with ⟨rfl, rfl⟩
      rw [same rfl]
      exact .elsewhere before.spaces
  | write stream bytes =>
      by_cases output : stream = Layout.standardOutput
      · simp [output] at done
        rcases done with ⟨rfl, rfl⟩
        rw [same rfl]
        exact .elsewhere before.spaces
      · simp [output, rejectSyscall] at done
        rcases done with ⟨rfl, rfl⟩
        rw [same rfl]
        exact .elsewhere before.spaces

theorem handled_of_dispatchSyscall {bytesAt : UInt64 → Nat → List UInt8} {raw : RawSyscall}
    {returned : SyscallReturn} (run : (dispatchSyscall bytesAt raw).Yields before returned after) :
    Handled before (.dispatchSyscall bytesAt raw) { plan := returned.plan } after := by
  rw [dispatchSyscall] at run
  cases decoded : Syscall.decode bytesAt raw with
  | ok request =>
      rw [decoded] at run
      refine handled_of_syscall ?_ ?_ run
      · rintro milliseconds rfl
        simp [Call.nap, decoded]
      · rintro code rfl
        simp [Call.quit, decoded]
  | error cause =>
      simp [decoded, rejectSyscall] at run
      rcases run with ⟨rfl, rfl⟩
      exact .elsewhere after.spaces

theorem handled_of_perform {switch : Switch} {value : Unit}
    (run : (perform switch).Yields before value after) :
    Handled before (.perform switch) {} after := by
  rw [perform_outcome run]
  exact .performed _

/-- A decision that a call asks for leaves everybody in place. -/
theorem scheduled_of_decides {request : Dispatcher.Call} {plan : Option Switch}
    (asks : call.request = some request) (live : CurrentLive before.table)
    (decides : Decides request.act before plan after) :
    Dispatcher.Scheduled before.dispatcher after.dispatcher plan := by
  rcases decides with ⟨dispatcher, current, decided, rfl⟩
  rcases Call.request_cases asks with rfl | rfl | rfl | ⟨milliseconds, nap, rfl⟩
  · exact Dispatcher.schedule_scheduled live decided
  · exact Dispatcher.tick_scheduled live decided
  · exact Dispatcher.yield_scheduled live decided
  · exact Dispatcher.sleep_scheduled live decided

/-- What no request to the processes and the scheduler changes, short of starting over, no call
changes. -/
theorem Handled.keeps {holds : Dispatcher → Prop}
    (keeps : ∀ (request : Dispatcher.Call) (start : Dispatcher) (plan : Option Switch)
      (final : Dispatcher), (∀ timeSlice, request ≠ .reset timeSlice) → holds start →
      request.act.Yields start plan final → holds final)
    (handled : Handled before call answer after) (begins : holds before.dispatcher) :
    holds after.dispatcher := by
  cases handled with
  | spawned outcome =>
      cases outcome with
      | full isFull => exact begins
      | noBlock refused => exact begins
      | noFrame refused => exact begins
      | @created pid heapStart heapEnd heap directory spaces table granted made reach entered =>
          exact keeps (.create _ _ _ _) _ none _ (by simp) begins
            (Dispatcher.yields_unplanned.mpr ⟨rfl, _, table, entered, rfl⟩)
  | @decided _ request plan _ asks decides =>
      rcases decides with ⟨dispatcher, current, decided, rfl⟩
      refine keeps request _ plan _ ?_ begins decided
      rcases Call.request_cases asks with rfl | rfl | rfl | ⟨milliseconds, -, rfl⟩
      all_goals simp
  | exited quits outcome =>
      cases outcome with
      | ignored isIdle => exact begins
      | nobody noCurrent => exact begins
      | @ended process table freed _ _ other ending returned decided =>
          have left := keeps (.exit _) _ none _ (by simp) begins
            (Dispatcher.yields_unplanned.mpr ⟨rfl, _, table, ending, rfl⟩)
          rcases returned.parts with ⟨spaces, heap, rfl⟩
          rcases decided with ⟨dispatcher, current, decided, rfl⟩
          exact keeps .schedule _ _ _ (by simp) left decided
  | @performed switch cpu =>
      exact keeps (.perform switch before.cpu.registers) _ none _ (by simp) begins
        (Dispatcher.yields_unplanned.mpr ⟨rfl, (), _, Operation.yields_modify.mpr rfl, rfl⟩)
  | allocated done => exact begins
  | freed done => exact begins
  | elsewhere spaces => exact begins

end Handling

section Calls

variable {Value : Type} {custody final : Custody} {call : Call} {answer : Answer}
  {action : Operation Kernel Value}

theorem yields_of_discard (step : (discard (onKernel action)).Yields custody () final) :
    ∃ value, action.Yields custody.kernel value final.kernel := by
  rcases Operation.yields_map.mp step with ⟨value, done, -⟩
  rcases yields_onKernel.mp done with ⟨kernel, run, rfl⟩
  exact ⟨value, run⟩

/-- What is kept of what a call answers makes no difference to the kernel. -/
theorem yields_of_keep {keep : Value → Operation Custody Unit}
    (keeps : ∀ value between final, (keep value).Yields between () final →
      final.kernel = between.kernel)
    (step : (onKernel action >>= keep).Yields custody () final) :
    ∃ value, action.Yields custody.kernel value final.kernel := by
  rcases Operation.yields_bind.mp step with ⟨value, between, done, kept⟩
  rcases yields_onKernel.mp done with ⟨kernel, run, rfl⟩
  rw [keeps value _ final kept]
  exact ⟨value, run⟩

theorem handled_of_kept {keep : Value → Answer}
    (handles : ∀ value kernel, action.Yields custody.kernel value kernel →
      Handled custody.kernel call (keep value) kernel)
    (step : (do return keep (← onKernel action)).Yields custody answer final) :
    Handled custody.kernel call answer final.kernel := by
  rcases Operation.yields_bind.mp step with ⟨value, between, done, ended⟩
  rcases Operation.yields_pure.mp ended with ⟨rfl, rfl⟩
  rcases yields_onKernel.mp done with ⟨kernel, run, rfl⟩
  exact handles value kernel run

/-- A call that is about memory leaves the processes alone. -/
theorem handled_of_memory (memory : call.onMemory = true)
    (step : call.act.Yields custody () final) :
    Handled custody.kernel call {} final.kernel := by
  cases call with
  | map virtual physical flags =>
      rcases yields_of_discard step with ⟨_, run⟩
      exact handled_of_onSpaces run
  | unmap virtual =>
      rcases yields_of_discard step with ⟨_, run⟩
      exact handled_of_onSpaces run
  | allocateFrame =>
      refine (yields_of_keep ?_ step).elim fun _ run => handled_of_onSpaces run
      rintro (_ | frame) between final kept
      · rw [(Operation.yields_pure.mp kept).2]
      · rw [Operation.yields_modify.mp kept]
  | freeFrame frame =>
      refine (yields_of_keep ?_ step).elim fun _ run => handled_of_onSpaces run
      rintro (_ | _) between final kept
      · rw [(Operation.yields_pure.mp kept).2]
      · rw [Operation.yields_modify.mp kept]
  | createDirectory =>
      refine (yields_of_keep ?_ step).elim fun _ run => handled_of_onSpaces run
      rintro (_ | directory) between final kept
      · rw [(Operation.yields_pure.mp kept).2]
      · rw [Operation.yields_modify.mp kept]
  | kmalloc size =>
      rcases yields_of_discard step with ⟨_, run⟩
      rcases yields_masked_onHeap.mp run with ⟨heap, done, same⟩
      rw [same]
      exact .allocated done
  | kfree address =>
      rcases yields_of_discard step with ⟨_, run⟩
      rcases yields_masked_onHeap.mp run with ⟨heap, done, same⟩
      rw [same]
      exact .freed done
  | _ => cases memory

/-- Every call is handled in one of these ways. -/
theorem handled_of_answer (heap : ∃ entries, custody.kernel.heap.Sound entries)
    (step : call.answer.Yields custody answer final) :
    Handled custody.kernel call answer final.kernel := by
  cases call with
  | spawn name entry priority =>
      exact handled_of_kept (fun _ _ run => .spawned (spawn_outcome heap run)) step
  | start => exact handled_of_kept (fun _ _ run => .decided rfl (decides_of_masked run)) step
  | tick => exact handled_of_kept (fun _ _ run => .decided rfl (decides_of_masked run)) step
  | yield => exact handled_of_kept (fun _ _ run => .decided rfl (decides_of_masked run)) step
  | sleep milliseconds =>
      exact handled_of_kept (fun _ _ run => .decided rfl (decides_of_masked run)) step
  | exit code => exact handled_of_kept (fun _ _ run => .exited rfl (exit_outcome run)) step
  | perform switch =>
      rcases Operation.yields_bind.mp step with ⟨⟨⟩, between, done, ended⟩
      rcases Operation.yields_pure.mp ended with ⟨rfl, rfl⟩
      rcases yields_onKernel.mp done with ⟨kernel, run, rfl⟩
      exact handled_of_perform run
  | syscall request =>
      refine handled_of_kept (fun _ _ run => handled_of_syscall ?_ ?_ run) step
      · rintro milliseconds rfl
        rfl
      · rintro code rfl
        rfl
  | dispatchSyscall bytesAt raw =>
      exact handled_of_kept (fun _ _ run => handled_of_dispatchSyscall run) step
  | switchAddressSpace directory =>
      rcases Operation.yields_bind.mp step with ⟨⟨⟩, between, done, ended⟩
      rcases Operation.yields_pure.mp ended with ⟨rfl, rfl⟩
      rcases yields_onKernel.mp done with ⟨kernel, run, rfl⟩
      exact handled_of_onSpaces run
  | map | unmap | allocateFrame | freeFrame | createDirectory | kmalloc | kfree =>
      rcases Operation.yields_bind.mp step with ⟨⟨⟩, between, done, ended⟩
      rcases Operation.yields_pure.mp ended with ⟨rfl, rfl⟩
      exact handled_of_memory rfl done

theorem answer_of_discard {keep : Value → Answer}
    (step : (discard (onKernel action)).Yields custody () final) :
    ∃ answer, (do return keep (← onKernel action)).Yields custody answer final := by
  rcases Operation.yields_map.mp step with ⟨value, done, -⟩
  exact ⟨keep value, Operation.yields_bind.mpr
    ⟨value, final, done, Operation.yields_pure.mpr ⟨rfl, rfl⟩⟩⟩

/-- Every call has an answer that can be kept. -/
theorem answer_of_act (step : call.act.Yields custody () final) :
    ∃ answer, call.answer.Yields custody answer final := by
  cases call with
  | spawn | start | tick | yield | sleep | exit | syscall | dispatchSyscall =>
      exact answer_of_discard step
  | _ =>
      exact ⟨{}, Operation.yields_bind.mpr
        ⟨(), final, step, Operation.yields_pure.mpr ⟨rfl, rfl⟩⟩⟩

end Calls

end Kernel

end KernelCore
