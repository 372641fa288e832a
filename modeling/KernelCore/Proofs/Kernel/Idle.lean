import KernelCore.Proofs.Kernel.Laps
import KernelCore.Proofs.Scheduler.Attended

/-!
# The idle process

The idle process never ends. If it is never put to sleep either, there is always somebody to run:
it is ready or running in every state after bring-up, and once a process has the processor, every
call ends with a process that has it and runs.

Nothing keeps the idle process from being put to sleep, though. If it has the processor and there is
nobody else, it keeps it and is blocked.
-/

namespace KernelCore

open ProcessTable

namespace Kernel

/-- Whoever had the processor, there is still somebody to run. -/
structure Attends (before after : Kernel) : Prop where
  idle : after.idle = before.idle
  attended : after.dispatcher.Attended before.idle
  onward : before.dispatcher.Onward after.dispatcher

section Attendance

variable {before after : Kernel} {plan : Option Switch} {call : Custody.Call}

theorem Attends.of_same (attended : after.dispatcher.Attended before.idle)
    (idle : after.idle = before.idle) (current : after.table.current = before.table.current) :
    Attends before after where
  idle := idle
  attended := attended
  onward := by
    rcases attended.manned with noCurrent | busy
    · exact Or.inr ⟨current.symm.trans noCurrent, noCurrent⟩
    · exact Or.inl busy

theorem attends_of_decides {decision : Operation Dispatcher (Option Switch)}
    (kept : ∀ {final : Dispatcher}, decision.Yields before.dispatcher plan final →
      final.Attended before.idle ∧ before.dispatcher.Onward final)
    (decides : Decides decision before plan after) : Attends before after := by
  rcases decides with ⟨dispatcher, current, decided, rfl⟩
  exact ⟨rfl, (kept decided).1, (kept decided).2⟩

/-- Whatever a call comes to, there is still somebody to run, if the idle process is not put to
sleep. -/
theorem attends_of_served (attended : before.dispatcher.Attended before.idle)
    (spares : ∀ milliseconds, call.nap = some milliseconds →
      before.dispatcher.Spares (· = before.idle) milliseconds)
    (served : Served before call after) : Attends before after := by
  cases served with
  | spawned outcome =>
      cases outcome with
      | full isFull => exact .of_same attended rfl rfl
      | noBlock refused => exact .of_same attended rfl rfl
      | noFrame refused => exact .of_same attended rfl rfl
      | created granted made reach entered =>
          rcases attended.create entered with ⟨kept, current⟩
          exact .of_same kept rfl current
  | started decides => exact attends_of_decides attended.schedule decides
  | ticked decides => exact attends_of_decides attended.tick decides
  | yielded decides => exact attends_of_decides attended.yield decides
  | slept nap decides => exact attends_of_decides (attended.sleep (spares _ nap)) decides
  | exited outcome =>
      cases outcome with
      | ignored isIdle => exact .of_same attended rfl rfl
      | nobody noCurrent => exact .of_same attended rfl rfl
      | ended other ending returned decided =>
          rcases returned.parts with ⟨spaces, heap, rfl⟩
          rcases decided with ⟨dispatcher, current, decided, rfl⟩
          have left := attended.exit other ending
          exact ⟨rfl, (left.schedule decided).1, Or.inl (left.schedule_busy decided)⟩
  | performed cpu => exact .of_same (attended.apply _ _) rfl (Dispatcher.steady_apply _ _ _).current
  | elsewhere spaces sound => exact .of_same attended rfl rfl

theorem attended_of_begun {idleEntry : UInt32} {config : SchedulerConfig}
    (begun : Begun idleEntry config before (.ok ()) after) :
    after.dispatcher.Attended after.idle := by
  rcases lonely_of_begun begun with ⟨-, home, lonely, noCurrent, ready⟩
  refine ⟨(intact_of_ready begun).housed.toSound, ?_, ?_, Or.inl noCurrent⟩
  · have here := Dispatcher.occupant_of_ready ready
    rw [lonely.pid] at here
    exact ⟨home, _, here⟩
  · intro slot live _
    rw [Dispatcher.standing, lonely.alone slot live]
    exact Or.inl ready

end Attendance

end Kernel

namespace Custody

/-- The call does not put the idle process to sleep for a tick or more. -/
def SparesIdle (custody : Custody) (call : Call) : Prop :=
  ∀ milliseconds, call.nap = some milliseconds →
    custody.kernel.currentPid = some custody.kernel.idle →
      custody.kernel.dispatcher.scheduler.ticksOfMilliseconds milliseconds = 0

/-- The idle process is ready or running, and whoever has the processor runs. A call that lets the
scheduler decide comes to an end, if the clock can reach the end of the sleep that it asks for; and
if somebody had the processor before a call, somebody has it afterwards and runs, unless the call
puts the idle process to sleep. -/
structure Lively (custody : Custody) : Prop where
  awake : ∃ process, custody.kernel.process custody.kernel.idle = some process ∧
    (process.state = .ready ∨ process.state = .running)
  running : custody.kernel.table.current ≠ none → custody.kernel.table.Busy
  starts : ∃ final, Call.start.act.Yields custody () final
  yields : ∃ final, Call.yield.act.Yields custody () final
  exits : ∀ code, ∃ final, (Call.exit code).act.Yields custody () final
  sleeps : ∀ milliseconds, custody.kernel.dispatcher.scheduler.ticks.toNat +
      (custody.kernel.dispatcher.scheduler.ticksOfMilliseconds milliseconds).toNat < UInt64.size →
    ∃ final, (Call.sleep milliseconds).act.Yields custody () final
  onward : ∀ call final, custody.SparesIdle call → custody.kernel.table.current ≠ none →
    call.act.Yields custody () final → final.kernel.table.Busy

/-- Where a sequence of permitted calls leads that never put the idle process to sleep. Between
calls, the processor may do whatever it likes. -/
inductive Sparing : Custody → List Call → Custody → Prop where
  | nil {custody : Custody} : Sparing custody [] custody
  | ran {start final : Custody} {rest : List Call} (cpu : Cpu)
      (onward : Sparing { start with kernel := { start.kernel with cpu } } rest final) :
      Sparing start rest final
  | cons {start between final : Custody} {call : Call} {rest : List Call}
      (permitted : start.Permitted call) (spares : start.SparesIdle call)
      (step : call.act.Yields start () between) (onward : Sparing between rest final) :
      Sparing start (call :: rest) final

section Sparing

variable {start final custody : Custody} {calls : List Call} {call : Call} {root : Directory}

theorem Sparing.accounted (sparing : Sparing start calls final)
    (accounted : start.Accounted root) : final.Accounted root := by
  induction sparing with
  | nil => exact accounted
  | ran cpu onward ih => exact ih (Kernel.Accounted.congr accounted ⟨rfl, rfl, rfl, id⟩)
  | cons permitted spares step onward ih =>
      exact ih (Call.act_accounted _ accounted permitted step)

theorem attends_of_act (reached : start.kernel.Reached)
    (attended : start.kernel.dispatcher.Attended start.kernel.idle) (spares : start.SparesIdle call)
    (step : call.act.Yields start () final) : start.kernel.Attends final.kernel := by
  refine Kernel.attends_of_served attended ?_ (Kernel.served_of_act reached.intact.heap step)
  rintro milliseconds nap pid isCurrent rfl
  exact spares milliseconds nap isCurrent

theorem Sparing.attended (sparing : Sparing start calls final) (reached : start.kernel.Reached)
    (attended : start.kernel.dispatcher.Attended start.kernel.idle) :
    final.kernel.Reached ∧ final.kernel.dispatcher.Attended start.kernel.idle ∧
      final.kernel.idle = start.kernel.idle := by
  induction sparing with
  | nil => exact ⟨reached, attended, rfl⟩
  | ran cpu onward ih => exact ih (.ran reached cpu) attended
  | cons permitted spares step onward ih =>
      have attends := attends_of_act reached attended spares step
      rcases ih (.served reached step) (attends.idle ▸ attends.attended) with
        ⟨reachedFinal, kept, idle⟩
      exact ⟨reachedFinal, attends.idle ▸ kept, idle.trans attends.idle⟩

/-- As long as the idle process is not put to sleep, there is somebody to run in every state that
the kernel gets into after bring-up. -/
theorem Sparing.lively {before started : Kernel} {memory : BootMemory} {idleEntry : UInt32}
    {config : SchedulerConfig}
    (begun : (Kernel.init memory idleEntry config).Yields before (.ok ()) started)
    (sparing : Sparing (ofKernel started) calls custody) :
    custody.kernel.idle = started.idle ∧ custody.Lively := by
  rcases Kernel.accounted_of_init begun with ⟨root, ready⟩
  have accounted : custody.Accounted root := sparing.accounted ready
  have begins : (ofKernel started).kernel.dispatcher.Attended started.idle :=
    Kernel.attended_of_begun (Kernel.init_outcome begun)
  rcases sparing.attended (.begun begun) begins with ⟨reached, attended, idle⟩
  rw [← idle] at attended
  rcases attended.queued with ⟨slots, queued⟩
  have running : custody.kernel.table.current ≠ none → custody.kernel.table.Busy :=
    attended.manned.resolve_left
  refine ⟨idle, attended.awake_process, running, ?_, ?_, ?_, ?_, ?_⟩
  · rcases Kernel.yields_decision (Dispatcher.yields_schedule queued.toLinked) with
      ⟨plan, after, run⟩
    exact ⟨_, step_of_yields run⟩
  · rcases Kernel.yields_decision (Dispatcher.yields_yield queued.toLinked) with
      ⟨plan, after, run⟩
    exact ⟨_, step_of_yields run⟩
  · intro code
    rcases Kernel.Accounted.yields_exit accounted code with ⟨plan, after, run, -⟩
    exact ⟨_, step_of_yields run⟩
  · intro milliseconds fits
    rcases Kernel.yields_decision (Dispatcher.yields_sleep queued.toLinked fits) with
      ⟨plan, after, run⟩
    exact ⟨_, step_of_yields run⟩
  · intro call final spares someone step
    rcases (attends_of_act reached attended spares step).onward with busy | ⟨noCurrent, -⟩
    · exact busy
    · exact absurd noCurrent someone

/-- The idle process gets the processor and yields it to a new process. -/
theorem Sparing.lively_after_yield :
    ∃ started custody,
      (Kernel.init ⟨640, 15360⟩ 0x100000 {}).Yields (.new true) (.ok ()) started ∧
      Sparing (ofKernel started) [.start, .spawn "p" 0x108000 1, .yield] custody ∧
      custody.Lively := by
  rcases Kernel.rested_with_16000 {} with
    ⟨started, plan, kernel, root, home, begun, run, -, -, rested⟩
  rcases rested.spawn (by decide) "p" 0x108000 1 with ⟨pid, after, away, spawned, hosting, -⟩
  rcases hosting.accounted.queued with ⟨slots, queued⟩
  rcases Kernel.yields_decision (Dispatcher.yields_yield queued.toLinked) with
    ⟨other, final, yielded⟩
  have sparing : Sparing (ofKernel started) [.start, .spawn "p" 0x108000 1, .yield]
      (ofKernel final) := by
    refine .cons trivial (by simp [SparesIdle, Call.nap]) (step_of_yields run) ?_
    refine .cons trivial (by simp [SparesIdle, Call.nap]) (step_of_yields spawned) ?_
    exact .cons trivial (by simp [SparesIdle, Call.nap]) (step_of_yields yielded) .nil
  exact ⟨started, _, begun, sparing, (sparing.lively begun).2⟩

/-- The idle process is put to sleep when nobody else is there. It keeps the processor, but is
blocked. -/
theorem idle_sleeps_on_processor :
    ∃ started custody process,
      (Kernel.init ⟨640, 15360⟩ 0x100000 {}).Yields (.new true) (.ok ()) started ∧
      (([.start, .sleep 1000] : List Call).forM Call.act).Yields (ofKernel started) () custody ∧
      custody.kernel.table.currentProcess = some process ∧
      process.pid = custody.kernel.idle ∧ process.state = .blocked := by
  rcases Kernel.rested_with_16000 {} with
    ⟨started, plan, kernel, root, home, begun, run, -, scheduler, rested⟩
  rcases rested.accounted.queued with ⟨slots, queued⟩
  have fits : kernel.dispatcher.scheduler.ticks.toNat +
      (kernel.dispatcher.scheduler.ticksOfMilliseconds 1000).toNat < UInt64.size := by
    rw [scheduler]
    decide
  have long : kernel.dispatcher.scheduler.ticksOfMilliseconds 1000 ≠ 0 := by
    rw [scheduler]
    decide
  rcases Kernel.yields_decision (Dispatcher.yields_sleep queued.toLinked fits) with
    ⟨other, final, slept⟩
  have calls : (([.start, .sleep 1000] : List Call).forM Call.act).Yields (ofKernel started) ()
      (ofKernel final) := by
    refine Operation.yields_bind.mpr ⟨(), _, step_of_yields run, ?_⟩
    refine Operation.yields_bind.mpr ⟨(), _, step_of_yields slept, ?_⟩
    exact Operation.yields_pure.mpr ⟨rfl, rfl⟩
  rcases Kernel.decides_of_masked slept with ⟨dispatcher, current, decided, rfl⟩
  rcases Dispatcher.sleep_alone rested.table.current rested.table.alone long decided with
    ⟨isCurrent, blocked, pid⟩
  refine ⟨started, _, dispatcher.table.process home, begun, calls, ?_, ?_, blocked⟩
  · change dispatcher.table.current.map dispatcher.table.process = _
    rw [isCurrent, Option.map_some]
  · rw [pid]
    exact rested.table.pid

end Sparing

end Custody

end KernelCore
