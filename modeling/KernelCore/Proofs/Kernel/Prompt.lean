import KernelCore.Proofs.Kernel.Loads
import KernelCore.Proofs.Scheduler.Plans

/-!
# Plans that are carried out at once

A call only plans a switch of processes, and `Custody.Call.act` drops the plan. `Call.answer` does
the same and keeps it, so that `carryOut` can follow at once. `Kernel.Answered` tells what an answer
can come with: a process begins, a switch is planned, a process ends and then a switch is planned,
or nothing happens to processes.
-/

namespace KernelCore

open ProcessTable

namespace Custody

/-- What comes of a call for processes. -/
structure Answer where
  /-- The process that has been created, and where it starts. -/
  began : Option (Pid × UInt32) := none
  /-- The switch that is planned. -/
  plan : Option Switch := none

/-- Does what is called for, and keeps what comes of it for processes. -/
def Call.answer : Call → Operation Custody Answer
  | .spawn name entry priority => do
      let reply ← onKernel (Kernel.spawn name entry priority).result
      return { began := reply.toOption.map fun pid => (pid, entry) }
  | .start => return { plan := ← onKernel Kernel.start }
  | .tick => return { plan := ← onKernel Kernel.tick }
  | .yield => return { plan := ← onKernel Kernel.yield }
  | .sleep milliseconds => return { plan := ← onKernel (Kernel.sleep milliseconds) }
  | .exit code => return { plan := ← onKernel (Kernel.exit code) }
  | .syscall call => return { plan := (← onKernel (Kernel.syscall call)).plan }
  | .dispatchSyscall bytesAt raw =>
      return { plan := (← onKernel (Kernel.dispatchSyscall bytesAt raw)).plan }
  | call => do
      call.act
      return {}

/-- Carries a plan out, if there is one. -/
def carryOut : Option Switch → Operation Custody Unit
  | none => return ()
  | some switch => onKernel (Kernel.perform switch)

/-- Whether the call is about memory only, and does not make another address space active. -/
def Call.onMemory : Call → Bool
  | .map .. | .unmap .. | .allocateFrame | .freeFrame .. | .createDirectory | .kmalloc ..
  | .kfree .. => true
  | _ => false

end Custody

namespace Kernel

open Custody

/-- What may come of a call. -/
inductive Answered (before : Kernel) : Call → Answer → Kernel → Prop where
  | spawned {name : String} {entry priority : UInt32} {reply : Except KernelError Pid}
      {after : Kernel} (outcome : Spawned name entry priority before reply after) :
      Answered before (.spawn name entry priority)
        { began := reply.toOption.map fun pid => (pid, entry) } after
  /-- The scheduler has decided, and the address space of its plan counts as active. -/
  | decided {call : Call} {plan : Option Switch} {after : Kernel}
      (planned : before.dispatcher.Planned after.dispatcher plan) (idle : after.idle = before.idle)
      (noted : after.spaces.current = (plan.bind Switch.directory).or before.spaces.current) :
      Answered before call { plan } after
  | exited {call : Call} {code : Int32} {plan : Option Switch} {after : Kernel}
      (outcome : Exited code before plan after)
      (noted : ∀ directory, plan.bind Switch.directory = some directory →
        after.spaces.current = some directory) :
      Answered before call { plan } after
  /-- Processes have no part in it. -/
  | elsewhere {call : Call} {after : Kernel} (dispatcher : after.dispatcher = before.dispatcher)
      (idle : after.idle = before.idle)
      (current : (∀ directory, call ≠ .switchAddressSpace directory) →
        after.spaces.current = before.spaces.current) :
      Answered before call {} after

section Outcomes

variable {before after : Kernel} {call : Call} {plan reply : Option Switch}
  {decision : Operation Dispatcher (Option Switch)}

/-- A process that is created is new, and it has the registers that it begins with. -/
theorem Spawned.entered {name : String} {entry priority : UInt32} {reply : Except KernelError Pid}
    (spawned : Spawned name entry priority before reply after) :
    (reply.toOption = none ∧ after = before) ∨
      ∃ pid slot resources, reply = .ok pid ∧
        Entered before.table after.table slot pid resources ∧
        (after.table.process slot).context = ProcessRecord.initialContext pid entry ∧
        ∀ other, other ≠ slot →
          (after.table.process other).context = (before.table.process other).context := by
  cases spawned with
  | full isFull => exact Or.inl ⟨rfl, rfl⟩
  | noBlock refused => exact Or.inl ⟨rfl, rfl⟩
  | noFrame refused => exact Or.inl ⟨rfl, rfl⟩
  | created granted made reach created =>
      rcases create_contexts created with ⟨slot, entered, begins, others⟩
      exact Or.inr ⟨_, slot, _, rfl, entered, begins, others⟩

/-- If a process ends, the processor goes to another one after it has left. -/
theorem Exited.left {code : Int32} (live : CurrentLive before.table)
    (exited : Exited code before plan after) :
    (plan = none ∧ after = before) ∨
      ∃ slot process, ∃ between : Dispatcher, Left before.table between.table slot process ∧
        SameContexts before.table between.table ∧
        between.Planned after.dispatcher plan := by
  cases exited with
  | ignored isIdle => exact Or.inl ⟨rfl, rfl⟩
  | nobody noCurrent => exact Or.inl ⟨rfl, rfl⟩
  | @ended process table freed _ _ other ending returned decided =>
      rcases exit_cases live ending with ⟨refuted, -⟩ | ⟨slot, _, same, left⟩
      · cases refuted
      cases same
      rcases returned.parts with ⟨spaces, heap, rfl⟩
      rcases decided with ⟨dispatcher, current, decided, rfl⟩
      exact Or.inr ⟨slot, process, ⟨table, before.dispatcher.scheduler⟩, left,
        exit_contexts ending, Dispatcher.schedule_planned left.currentLive decided⟩

theorem perform_outcome {switch : Switch} {value : Unit}
    (run : (perform switch).Yields before value after) :
    after = { before with
      cpu := { before.cpu with
        registers := (switch.apply before.cpu.registers before.table).1 }
      dispatcher := { before.dispatcher with
        table := (switch.apply before.cpu.registers before.table).2 } } := by
  simp [perform] at run
  rcases run with ⟨registers, _, ⟨rfl, rfl⟩, rfl⟩
  rfl

theorem current_of_track (run : (track plan).Yields before reply after) :
    after.spaces.current = (plan.bind Switch.directory).or before.spaces.current := by
  cases planned : plan.bind Switch.directory with
  | none =>
      simp [track, planned] at run
      rw [run.2]
      rfl
  | some directory =>
      simp [track, planned, yields_onSpaces, AddressSpaces.recordLoaded] at run
      rw [run.1]
      rfl

theorem current_of_decision (run : (masked do track (← onDispatcher decision)).Yields before plan
    after) : after.spaces.current = (plan.bind Switch.directory).or before.spaces.current := by
  rcases unmasked run with ⟨cpu, final, restored, done, rfl, -⟩
  rcases Operation.yields_bind.mp done with ⟨plan, between, asked, tracked⟩
  rcases yields_onDispatcher.mp asked with ⟨dispatcher, decided, rfl⟩
  have noted := current_of_track tracked
  rw [(track_outcome tracked).1]
  exact noted

theorem answered_of_decides (live : CurrentLive before.table)
    (planned : ∀ {before after : Dispatcher} {plan : Option Switch}, CurrentLive before.table →
      decision.Yields before plan after → before.Planned after plan)
    (decides : Decides decision before plan after)
    (noted : after.spaces.current = (plan.bind Switch.directory).or before.spaces.current) :
    Answered before call { plan } after := by
  rcases decides with ⟨dispatcher, current, decided, rfl⟩
  exact .decided (planned live decided) rfl noted

theorem answered_of_decision (live : CurrentLive before.table)
    (planned : ∀ {before after : Dispatcher} {plan : Option Switch}, CurrentLive before.table →
      decision.Yields before plan after → before.Planned after plan)
    (run : (masked do track (← onDispatcher decision)).Yields before plan after) :
    Answered before call { plan } after :=
  answered_of_decides live planned (decides_of_masked run) (current_of_decision run)

theorem current_of_exit {code : Int32} (run : (exit code).Yields before plan after)
    {directory : Directory} (planned : plan.bind Switch.directory = some directory) :
    after.spaces.current = some directory := by
  rcases unmasked run with ⟨cpu, final, restored, done, rfl, -⟩
  have pid : ({ before with cpu } : Kernel).currentPid = before.currentPid := rfl
  by_cases isIdle : before.currentPid = some before.idle
  · simp [pid, isIdle] at done
    rw [done.2] at planned
    cases planned
  · simp [pid, isIdle] at done
    rcases done with ⟨ended, between, exited, done⟩
    cases ended with
    | none =>
        rw [(Operation.yields_pure.mp done).1] at planned
        cases planned
    | some process =>
        rcases Operation.yields_bind.mp done with ⟨_, freed, -, done⟩
        rcases Operation.yields_bind.mp done with ⟨decided, _, -, tracked⟩
        have noted := current_of_track tracked
        rw [(track_outcome tracked).1] at planned
        rw [planned] at noted
        exact noted

theorem answered_of_exit {code : Int32} (run : (exit code).Yields before plan after) :
    Answered before call { plan } after :=
  .exited (exit_outcome run) fun _ => current_of_exit run

theorem answered_of_scene (same : after.scene = before.scene) : Answered before call {} after := by
  rw [scene, scene, Prod.mk.injEq, Prod.mk.injEq] at same
  exact .elsewhere same.1 same.2.1 fun _ => same.2.2

theorem answered_of_syscall {request : Syscall} {returned : SyscallReturn}
    (live : CurrentLive before.table) (run : (syscall request).Yields before returned after) :
    Answered before call { plan := returned.plan } after := by
  cases request with
  | exit code =>
      rcases unmasked run with ⟨cpu, final, restored, done, rfl, same⟩
      rcases Operation.yields_bind.mp done with ⟨plan, _, exits, ended⟩
      rcases Operation.yields_pure.mp ended with ⟨rfl, rfl⟩
      have exited := exit_outcome exits
      rw [same exited.cpu]
      exact .exited (exited.withCpu before.cpu) fun _ => current_of_exit exits
  | sleep milliseconds =>
      rcases unmasked run with ⟨cpu, final, restored, done, rfl, same⟩
      rcases Operation.yields_bind.mp done with ⟨plan, _, sleeps, ended⟩
      rcases Operation.yields_pure.mp ended with ⟨rfl, rfl⟩
      have decides := decides_of_masked sleeps
      have noted := current_of_decision sleeps
      rw [same decides.cpu]
      exact answered_of_decides live Dispatcher.sleep_planned (decides.withCpu before.cpu) noted
  | getPid =>
      rcases unmasked run with ⟨cpu, final, restored, done, rfl, -⟩
      rcases Operation.yields_bind.mp done with ⟨kernel, _, asked, ended⟩
      rcases Operation.yields_get.mp asked with ⟨rfl, rfl⟩
      rcases Operation.yields_pure.mp ended with ⟨rfl, rfl⟩
      exact answered_of_scene rfl
  | write stream bytes =>
      rcases unmasked run with ⟨cpu, final, restored, done, rfl, -⟩
      by_cases output : stream = Layout.standardOutput
      · simp [output] at done
        rcases done with ⟨rfl, rfl⟩
        exact answered_of_scene rfl
      · simp [output, rejectSyscall] at done
        rcases done with ⟨rfl, rfl⟩
        exact answered_of_scene rfl

theorem answered_of_dispatchSyscall {bytesAt : UInt64 → Nat → List UInt8} {raw : RawSyscall}
    {returned : SyscallReturn} (live : CurrentLive before.table)
    (run : (dispatchSyscall bytesAt raw).Yields before returned after) :
    Answered before call { plan := returned.plan } after := by
  rw [dispatchSyscall] at run
  split at run
  · exact answered_of_syscall live run
  · simp [rejectSyscall] at run
    rcases run with ⟨rfl, rfl⟩
    exact answered_of_scene rfl

end Outcomes

end Kernel

namespace Custody

section Answers

variable {Value View : Type} {custody final : Custody} {call : Call} {answer : Answer}
  {action : Operation Kernel Value}

theorem carryOut_cases {plan : Option Switch} {value : Unit}
    (performed : (carryOut plan).Yields custody value final) :
    (plan = none ∧ final = custody) ∨
      ∃ switch kernel, plan = some switch ∧
        (Kernel.perform switch).Yields custody.kernel () kernel ∧
        final = { custody with kernel } := by
  cases plan with
  | none =>
      rcases Operation.yields_pure.mp performed with ⟨-, rfl⟩
      exact Or.inl ⟨rfl, rfl⟩
  | some switch =>
      rcases yields_onKernel.mp performed with ⟨kernel, run, rfl⟩
      exact Or.inr ⟨switch, kernel, rfl, run, rfl⟩

theorem passive_onKernel {view : Kernel → View} (passive : action.Passive view) :
    (onKernel action).Passive fun custody => view custody.kernel :=
  Operation.passive_within passive fun _ _ same => same

theorem passive_discard {view : Kernel → View} (passive : action.Passive view) :
    (discard (onKernel action)).Passive fun custody => view custody.kernel :=
  Operation.passive_map (passive_onKernel passive) _

/-- A call that is about memory changes nothing about processes, and loads nothing. -/
theorem Call.passive_act (call : Call) (memory : call.onMemory = true) :
    call.act.Passive fun custody => custody.kernel.scene := by
  cases call with
  | map virtual physical flags =>
      exact passive_discard (Kernel.passive_map virtual physical flags)
  | unmap virtual => exact passive_discard (Kernel.passive_unmap virtual)
  | kmalloc size => exact passive_discard (Kernel.passive_kmalloc size)
  | kfree address => exact passive_discard (Kernel.passive_kfree address)
  | allocateFrame =>
      refine Operation.passive_bind (passive_onKernel Kernel.passive_allocateFrame)
        fun granted => ?_
      cases granted with
      | none => exact Operation.passive_pure
      | some frame => exact Operation.passive_modify fun _ => rfl
  | freeFrame frame =>
      refine Operation.passive_bind (passive_onKernel (Kernel.passive_freeFrame frame))
        fun reply => ?_
      rcases reply with cause | ⟨⟩
      · exact Operation.passive_pure
      · exact Operation.passive_modify fun _ => rfl
  | createDirectory =>
      refine Operation.passive_bind (passive_onKernel Kernel.passive_createDirectory)
        fun reply => ?_
      cases reply with
      | error cause => exact Operation.passive_pure
      | ok directory => exact Operation.passive_modify fun _ => rfl
  | _ => cases memory

theorem passive_kept {keep : Value → Answer} (passive : action.Passive fun _ => ()) :
    (do return keep (← onKernel action)).Passive fun _ => () :=
  Operation.passive_bind (passive_onKernel passive) fun _ => Operation.passive_pure

/-- No call loads an address space, unless it asks for that. -/
theorem Call.passive_answer (call : Call) (notPerform : ∀ switch, call ≠ .perform switch)
    (notSwitch : ∀ directory, call ≠ .switchAddressSpace directory) :
    call.answer.Passive fun _ => () := by
  cases call with
  | spawn name entry priority => exact passive_kept (Kernel.passive_spawn name entry priority)
  | start => exact passive_kept (Kernel.passive_decision Dispatcher.silent_schedule)
  | tick => exact passive_kept (Kernel.passive_decision Dispatcher.silent_tick)
  | yield => exact passive_kept (Kernel.passive_decision Dispatcher.silent_yield)
  | sleep milliseconds => exact passive_kept (Kernel.passive_sleep milliseconds)
  | exit code => exact passive_kept (Kernel.passive_exit code)
  | perform switch => exact absurd rfl (notPerform switch)
  | syscall request => exact passive_kept (Kernel.passive_syscall request)
  | dispatchSyscall bytesAt raw => exact passive_kept (Kernel.passive_dispatchSyscall bytesAt raw)
  | switchAddressSpace directory => exact absurd rfl (notSwitch directory)
  | map | unmap | allocateFrame | freeFrame | createDirectory | kmalloc | kfree =>
      exact Operation.passive_bind (Call.passive_act _ rfl).unit fun _ => Operation.passive_pure

theorem act_of_kept {keep : Value → Answer}
    (step : (do return keep (← onKernel action)).Yields custody answer final) :
    (discard (onKernel action)).Yields custody () final := by
  rcases Operation.yields_bind.mp step with ⟨value, between, done, ended⟩
  rcases Operation.yields_pure.mp ended with ⟨-, rfl⟩
  exact Operation.yields_discard done

/-- Keeping what comes of a call makes no difference to what it does. -/
theorem act_of_answer (step : call.answer.Yields custody answer final) :
    call.act.Yields custody () final := by
  cases call with
  | spawn | start | tick | yield | sleep | exit | syscall | dispatchSyscall =>
      exact act_of_kept step
  | _ =>
      rcases Operation.yields_bind.mp step with ⟨⟨⟩, between, done, ended⟩
      rcases Operation.yields_pure.mp ended with ⟨-, rfl⟩
      exact done

theorem answered_of_kept {keep : Value → Answer}
    (answers : ∀ value kernel, action.Yields custody.kernel value kernel →
      custody.kernel.Answered call (keep value) kernel)
    (step : (do return keep (← onKernel action)).Yields custody answer final) :
    custody.kernel.Answered call answer final.kernel := by
  rcases Operation.yields_bind.mp step with ⟨value, between, done, ended⟩
  rcases Operation.yields_pure.mp ended with ⟨rfl, rfl⟩
  rcases yields_onKernel.mp done with ⟨kernel, run, rfl⟩
  exact answers value kernel run

theorem answered_of_memory (memory : call.onMemory = true)
    (step : call.act.Yields custody () final) : custody.kernel.Answered call {} final.kernel := by
  rcases step with ⟨effects, run⟩
  exact Kernel.answered_of_scene (call.passive_act memory custody () final effects run).1

/-- Every call is answered in one of these ways. -/
theorem answered_of_answer (intact : custody.kernel.Intact)
    (other : ∀ switch, call ≠ .perform switch)
    (step : call.answer.Yields custody answer final) :
    custody.kernel.Answered call answer final.kernel := by
  have live := intact.housed.toSound.currentLive
  cases call with
  | spawn name entry priority =>
      exact answered_of_kept (fun _ _ run => .spawned (Kernel.spawn_outcome intact.heap run)) step
  | start =>
      exact answered_of_kept
        (fun _ _ run => Kernel.answered_of_decision live Dispatcher.schedule_planned run) step
  | tick =>
      exact answered_of_kept
        (fun _ _ run => Kernel.answered_of_decision live Dispatcher.tick_planned run) step
  | yield =>
      exact answered_of_kept
        (fun _ _ run => Kernel.answered_of_decision live Dispatcher.yield_planned run) step
  | sleep milliseconds =>
      exact answered_of_kept
        (fun _ _ run => Kernel.answered_of_decision live Dispatcher.sleep_planned run) step
  | exit code => exact answered_of_kept (fun _ _ run => Kernel.answered_of_exit run) step
  | perform switch => exact absurd rfl (other switch)
  | syscall request =>
      exact answered_of_kept (fun _ _ run => Kernel.answered_of_syscall live run) step
  | dispatchSyscall bytesAt raw =>
      exact answered_of_kept (fun _ _ run => Kernel.answered_of_dispatchSyscall live run) step
  | switchAddressSpace directory =>
      rcases Operation.yields_bind.mp step with ⟨⟨⟩, between, done, ended⟩
      rcases Operation.yields_pure.mp ended with ⟨rfl, rfl⟩
      rcases yields_onKernel.mp done with ⟨kernel, run, rfl⟩
      rcases Kernel.unmasked run with ⟨cpu, _, restored, switched, rfl, -⟩
      rcases Kernel.yields_onSpaces.mp switched with ⟨spaces, -, rfl⟩
      exact .elsewhere rfl rfl fun no => absurd rfl (no directory)
  | map | unmap | allocateFrame | freeFrame | createDirectory | kmalloc | kfree =>
      rcases Operation.yields_bind.mp step with ⟨⟨⟩, between, done, ended⟩
      rcases Operation.yields_pure.mp ended with ⟨rfl, rfl⟩
      exact answered_of_memory rfl done

end Answers

end Custody

end KernelCore
