import KernelCore.Proofs.Kernel.Handled
import KernelCore.Proofs.Kernel.Registers
import KernelCore.Proofs.Scheduler.Sleep

/-!
# When a sleeping process wakes up

A process of a running kernel that goes to sleep is blocked until the tick that its milliseconds
come to, and not a tick longer. `Custody.Onward` is whatever may happen in the meantime: any calls,
between which the processor may do what it likes, but none by which the process itself ends or goes
to sleep again.
-/

namespace KernelCore

open ProcessTable

namespace Custody

/-- If the process has the processor, the call neither ends it nor puts it to sleep for a tick or
more. -/
def Leaves (custody : Custody) (pid : Pid) (call : Call) : Prop :=
  custody.kernel.currentPid = some pid →
    call.quit = none ∧ ∀ milliseconds, call.nap = some milliseconds →
      custody.kernel.dispatcher.scheduler.ticksOfMilliseconds milliseconds = 0

/-- What may happen while a process neither ends nor goes to sleep. -/
inductive Onward (pid : Pid) (start : Custody) : Custody → Prop where
  | begin : Onward pid start start
  | ran {custody : Custody} (onward : Onward pid start custody) (cpu : Cpu) :
      Onward pid start { custody with kernel := { custody.kernel with cpu } }
  | called {custody final : Custody} {call : Call} {answer : Answer}
      (onward : Onward pid start custody) (leaves : custody.Leaves pid call)
      (step : call.answer.Yields custody answer final) : Onward pid start final

end Custody

namespace Kernel

open Custody

section Sleep

variable {kernel before after : Kernel} {call : Call} {answer : Answer} {slot : Slot} {pid : Pid}
  {wakeAt : UInt64} {plan : Option Switch}

/-- Going to sleep for less than a tick is giving the turn up. -/
theorem sleep_eq_yield {milliseconds : UInt32}
    (short : kernel.dispatcher.scheduler.ticksOfMilliseconds milliseconds = 0) :
    Kernel.sleep milliseconds kernel = Kernel.yield kernel := by
  refine masked_congr fun start place => ?_
  have same : start.dispatcher = kernel.dispatcher := by
    rcases place with rfl | rfl
    · rfl
    · rfl
  have decided : onDispatcher (Dispatcher.sleep milliseconds) start =
      onDispatcher Dispatcher.yield start := by
    simp only [onDispatcher, Operation.within]
    rw [same, Dispatcher.sleep_eq_yield short]
  rw [Operation.bind_apply, Operation.bind_apply, decided]

/-- Whatever the call, the process sleeps as long as it was to, unless it ends or goes to sleep
itself. -/
theorem Handled.sleeper (handled : Handled before call answer after)
    (leaves : before.currentPid = some pid → call.quit = none ∧
      ∀ milliseconds, call.nap = some milliseconds →
        before.dispatcher.scheduler.ticksOfMilliseconds milliseconds = 0)
    (sleeper : before.dispatcher.Sleeper slot pid wakeAt) :
    after.dispatcher.Sleeper slot pid wakeAt := by
  cases handled with
  | spawned outcome =>
      cases outcome with
      | full isFull => exact sleeper
      | noBlock refused => exact sleeper
      | noFrame refused => exact sleeper
      | created granted made reach entered => exact sleeper.create entered
  | decided asks decides =>
      rcases decides with ⟨dispatcher, current, decided, rfl⟩
      rcases Call.request_cases asks with rfl | rfl | rfl | ⟨milliseconds, nap, rfl⟩
      · exact sleeper.schedule decided
      · exact sleeper.tick decided
      · exact sleeper.yield decided
      · refine sleeper.sleep ?_ decided
        rintro _ isCurrent rfl
        exact (leaves isCurrent).2 milliseconds nap
  | exited quits outcome =>
      cases outcome with
      | ignored isIdle => exact sleeper
      | nobody noCurrent => exact sleeper
      | ended other ending returned decided =>
          have others : before.currentPid ≠ some pid := by
            intro isCurrent
            rw [quits] at leaves
            cases (leaves isCurrent).1
          rcases returned.parts with ⟨spaces, heap, rfl⟩
          rcases decided with ⟨dispatcher, current, decided, rfl⟩
          exact (sleeper.exit others ending).schedule decided
  | performed cpu => exact sleeper.perform _ _
  | allocated done => exact sleeper
  | freed done => exact sleeper
  | elsewhere spaces => exact sleeper

/-- Whoever a call gives the processor to is running afterwards. -/
theorem Handled.runs {switch : Switch} (handled : Handled before call answer after)
    (planned : answer.plan = some switch) :
    (after.table.process switch.incoming.2).state = .running ∧
      (after.table.process switch.incoming.2).pid = switch.incoming.1 := by
  cases handled with
  | @decided _ request plan _ asks decides =>
      change plan = some switch at planned
      subst planned
      rcases decides with ⟨dispatcher, current, decided, rfl⟩
      have hands := Dispatcher.Call.act_hands _ decided
      exact ⟨hands.running, hands.pid⟩
  | @exited _ code plan _ quits outcome =>
      change plan = some switch at planned
      subst planned
      cases outcome with
      | ended other ending returned decided =>
          rcases decided with ⟨dispatcher, current, decided, rfl⟩
          have hands := Dispatcher.Call.act_hands .schedule decided
          exact ⟨hands.running, hands.pid⟩
  | _ => cases planned

/-- A process that sleeps is not the one that gets the processor. -/
theorem Handled.spares {switch : Switch} (handled : Handled before call answer after)
    (planned : answer.plan = some switch) (distinct : after.table.Distinct)
    (sleeper : after.dispatcher.Sleeper slot pid wakeAt)
    (early : after.dispatcher.scheduler.ticks < wakeAt) : switch.incoming.1 ≠ pid := by
  rintro rfl
  rcases handled.runs planned with ⟨running, same⟩
  have here := find?_of_live distinct (ProcessRecord.live_of_running running)
  have there := find?_of_live distinct sleeper.sleeps.live
  have samePid : (after.table.process slot).pid = switch.incoming.1 := sleeper.pid
  have blocked : (after.table.process slot).state = .blocked :=
    sleeper.sleeps.blocked_iff.mpr early
  change after.table.find? (after.table.process slot).pid = some (after.table.process slot) at there
  rw [same] at here
  rw [samePid, here, Option.some.injEq] at there
  rw [there, blocked] at running
  cases running

end Sleep

/-- The ticks since the kernel has come up. -/
def uptime (kernel : Kernel) : Nat :=
  kernel.dispatcher.scheduler.ticks.toNat

end Kernel

namespace Custody

section Onward

variable {start final : Custody} {pid : Pid} {slot : Slot} {wakeAt : UInt64}

theorem Onward.reached (onward : Onward pid start final) (reached : start.kernel.Reached) :
    final.kernel.Reached := by
  induction onward with
  | begin => exact reached
  | ran onward cpu ih => exact .ran ih cpu
  | called onward leaves step ih => exact .served ih (act_of_answer step)

/-- However it goes on, the process sleeps as long as it was to. -/
theorem Onward.sleeper (onward : Onward pid start final) (reached : start.kernel.Reached)
    (sleeper : start.kernel.dispatcher.Sleeper slot pid wakeAt) :
    final.kernel.dispatcher.Sleeper slot pid wakeAt := by
  induction onward with
  | begin => exact sleeper
  | ran onward cpu ih => exact ih
  | called onward leaves step ih =>
      have heap := (onward.reached reached).intact.heap
      exact (Kernel.handled_of_answer heap step).sleeper leaves ih

end Onward

end Custody

namespace Kernel

section Naps

variable {kernel after : Kernel} {pid : Pid} {slot : Slot} {wakeAt : UInt64}
  {plan : Option Switch} {milliseconds : UInt32}

theorem process_of_sleeper (housed : kernel.dispatcher.Housed)
    (sleeper : kernel.dispatcher.Sleeper slot pid wakeAt) :
    ∃ process, kernel.process pid = some process ∧
      (process.state = .blocked ↔ kernel.uptime < wakeAt.toNat) := by
  have found := find?_of_live housed.distinct sleeper.sleeps.live
  rw [sleeper.pid] at found
  exact ⟨_, found, sleeper.sleeps.blocked_iff.trans UInt64.lt_iff_toNat_lt⟩

/-- Whoever goes to sleep for a tick or more is asleep then. -/
theorem sleeper_of_sleep (reached : kernel.Reached) (isCurrent : kernel.currentPid = some pid)
    (long : kernel.dispatcher.scheduler.ticksOfMilliseconds milliseconds ≠ 0)
    (decides : Decides (Dispatcher.sleep milliseconds) kernel plan after) :
    ∃ slot wakeAt, after.dispatcher.Sleeper slot pid wakeAt ∧ wakeAt.toNat = kernel.uptime +
      (kernel.dispatcher.scheduler.ticksOfMilliseconds milliseconds).toNat := by
  rcases decides with ⟨dispatcher, noted, decided, rfl⟩
  rcases occupant_of_currentPid reached.intact.housed.currentLive isCurrent with
    ⟨slot, resources, current, here⟩
  rw [Dispatcher.yields_sleep_iff, if_neg long] at decided
  rcases decided with ⟨wakeAt, sum, decided⟩
  have reach := Checked.add64_eq_ok_iff.mp sum
  have positive := mt UInt64.toNat_inj.mp long
  have later : kernel.dispatcher.scheduler.ticks < wakeAt := by
    rw [UInt64.lt_iff_toNat_lt, reach]
    exact Nat.lt_add_of_pos_right (Nat.pos_of_ne_zero positive)
  have samePid := (ProcessRecord.identity_eq_some.mp here).2.1
  have dozes : Dispatcher.Sleeper { kernel.dispatcher with
      table := kernel.dispatcher.table.update slot fun process => process.doze wakeAt }
      slot pid wakeAt := by
    constructor
    · simp only [process_update, if_true]
      exact samePid
    · simp only [process_update, if_true]
      exact ProcessRecord.sleepsUntil_doze later
  change kernel.dispatcher.table.current = some slot at current
  rw [current] at decided
  exact ⟨slot, wakeAt, dozes.schedule decided, reach⟩

/-- Going to sleep changes nothing about other processes, but for the one that gets the
processor. -/
theorem others_of_sleep (reached : kernel.Reached) (isCurrent : kernel.currentPid = some pid)
    (decides : Decides (Dispatcher.sleep milliseconds) kernel plan after) {other : Pid}
    {process : ProcessRecord} (found : kernel.process other = some process)
    (differs : other ≠ pid) :
    after.process other = some
      (if plan.map (fun switch => switch.incoming.1) = some other then
        { process with
          state := .running
          timeSlice := kernel.dispatcher.scheduler.config.timeSliceTicks }
      else process) := by
  have distinct := (reached.intact.decides (.sleep milliseconds) decides).housed.distinct
  have asleep : Handled kernel (.sleep milliseconds) { plan } after := .decided rfl decides
  rcases decides with ⟨dispatcher, noted, decided, rfl⟩
  rcases occupant_of_find? found with ⟨place, rfl, there⟩
  have waits : kernel.table.current ≠ some place := by
    intro isPlace
    have same := currentPid_of_occupant isPlace there
    rw [← currentPid, isCurrent] at same
    exact differs (Option.some.inj same).symm
  have record := Dispatcher.sleep_others waits decided
  rcases ProcessRecord.identity_eq_some.mp there with ⟨live, samePid, -⟩
  have stays : dispatcher.table.occupant place =
      some (other, (kernel.table.process place).resources) := by
    rw [occupant, record]
    split
    · exact ProcessRecord.identity_eq_some.mpr ⟨rfl, samePid, rfl⟩
    · exact there
  have chosen : plan.map (fun switch => switch.incoming.2) = some place ↔
      plan.map (fun switch => switch.incoming.1) = some other := by
    cases plan with
    | none => simp
    | some switch =>
        rcases asleep.runs rfl with ⟨running, runner⟩
        have lives : dispatcher.table.occupant switch.incoming.2 =
            some (switch.incoming.1, (dispatcher.table.process switch.incoming.2).resources) :=
          ProcessRecord.identity_eq_some.mpr
            ⟨ProcessRecord.live_of_running running, runner, rfl⟩
        simp only [Option.map_some, Option.some.injEq]
        constructor
        · rintro rfl
          rw [stays, Option.some.injEq, Prod.mk.injEq] at lives
          exact lives.1.symm
        · intro same
          rw [same] at lives
          exact distinct _ _ _ _ _ lives stays
  have after := find?_of_occupant distinct stays
  rw [record] at after
  simp only [← chosen]
  exact after

/-- Let the process that has the processor go to sleep, for milliseconds that come to so many ticks,
and let there be time for them. If they are none, it gives its turn up and nothing else. In any case
it goes to sleep, and about another process nothing changes, unless it is the one that gets the
processor. If they are one or more, the process is blocked from then on as long as fewer ticks have
passed, and it is there and not blocked when as many have passed, whatever happens in the meantime,
unless the process itself ends or goes to sleep again; and as long as fewer ticks have passed, no
plan gives it the processor. -/
theorem Reached.sleep_exact (reached : kernel.Reached) (isCurrent : kernel.currentPid = some pid)
    (milliseconds : UInt32) {count : Nat}
    (least : IsLeast {ticks | milliseconds.toNat *
      kernel.dispatcher.scheduler.config.timerFrequency.toNat ≤ ticks * 1000} count)
    (fits : kernel.uptime + count < UInt64.size) :
    (count = 0 → Kernel.sleep milliseconds kernel = Kernel.yield kernel) ∧
    ∃ plan after, (Kernel.sleep milliseconds).Yields kernel plan after ∧
      (∀ other process, kernel.process other = some process → other ≠ pid →
        after.process other = some
          (if plan.map (fun switch => switch.incoming.1) = some other then
            { process with
              state := .running
              timeSlice := kernel.dispatcher.scheduler.config.timeSliceTicks }
          else process)) ∧
      (1 ≤ count →
        (∀ switch, plan = some switch → switch.incoming.1 ≠ pid) ∧
        ∀ held created final, Custody.Onward pid ⟨after, held, created⟩ final →
          (∃ process, final.kernel.process pid = some process ∧
            (process.state = .blocked ↔ final.kernel.uptime < kernel.uptime + count)) ∧
          ∀ call answer next switch, final.Leaves pid call →
            call.answer.Yields final answer next → next.kernel.uptime < kernel.uptime + count →
            answer.plan = some switch → switch.incoming.1 ≠ pid) := by
  have isLeast := Scheduler.isLeast_ticksOfMilliseconds kernel.dispatcher.scheduler milliseconds
  obtain rfl := least.unique isLeast
  refine ⟨?_, ?_⟩
  · intro none
    exact sleep_eq_yield (UInt64.toNat_inj.mp none)
  rcases reached.intact.housed.queued with ⟨slots, queued⟩
  rcases yields_decision (Dispatcher.yields_sleep queued.toLinked fits) with ⟨plan, after, run⟩
  have decides := decides_of_masked run
  refine ⟨plan, after, run, ?_, ?_⟩
  · intro other process found differs
    exact others_of_sleep reached isCurrent decides found differs
  intro some
  have long : kernel.dispatcher.scheduler.ticksOfMilliseconds milliseconds ≠ 0 := by
    intro short
    rw [short] at some
    exact absurd some (by decide)
  rcases sleeper_of_sleep reached isCurrent long decides with ⟨slot, wakeAt, sleeper, reach⟩
  rw [← reach]
  have asleep : Handled kernel (.sleep milliseconds) { plan } after := .decided rfl decides
  have reachedAfter : after.Reached := by
    have before : (Custody.ofKernel kernel).kernel.Reached := reached
    have step : (Custody.Call.sleep milliseconds).act.Yields (Custody.ofKernel kernel) ()
        (Custody.ofKernel after) := Custody.step_of_yields run
    exact .served before step
  have clock : after.dispatcher.scheduler = kernel.dispatcher.scheduler := by
    rcases decides with ⟨dispatcher, noted, decided, rfl⟩
    exact Dispatcher.scheduler_of_sleep decided
  refine ⟨?_, ?_⟩
  · intro switch planned
    refine asleep.spares planned reachedAfter.intact.housed.distinct sleeper ?_
    rw [clock, UInt64.lt_iff_toNat_lt, reach]
    exact Nat.lt_add_of_pos_right some
  · intro held created final onward
    have reachedFinal := onward.reached reachedAfter
    have sleeperFinal := onward.sleeper reachedAfter sleeper
    refine ⟨process_of_sleeper reachedFinal.intact.housed sleeperFinal, ?_⟩
    intro call answer next switch leaves step early planned
    have handled := handled_of_answer reachedFinal.intact.heap step
    have reachedNext : next.kernel.Reached := .served reachedFinal (Custody.act_of_answer step)
    exact handled.spares planned reachedNext.intact.housed.distinct
      (handled.sleeper leaves sleeperFinal) (UInt64.lt_iff_toNat_lt.mpr early)

/-- A process that has been created after the idle process, and sleeps for five ticks. -/
theorem Reached.sleep_exact_for_five_ticks :
    ∃ kernel pid plan after process, kernel.Reached ∧ kernel.currentPid = some pid ∧
      IsLeast {ticks | (5 : UInt32).toNat *
        kernel.dispatcher.scheduler.config.timerFrequency.toNat ≤ ticks * 1000} 5 ∧
      kernel.uptime + 5 < UInt64.size ∧ (Kernel.sleep 5).Yields kernel plan after ∧
      after.process pid = some process ∧ process.state = .blocked := by
  rcases rested_with_16000 {} with
    ⟨started, _, rests, root, home, begun, start, -, clock, rested⟩
  rcases rested.spawn (by decide) "p" 0x108000 1 with
    ⟨_, created, away, spawn, hosting, -, isCurrent, running, ready⟩
  rcases hosting.start isCurrent running ready with ⟨_, kernel, begins, hosting, gained, -⟩
  have steps : (([.start, .spawn "p" 0x108000 1, .start] : List Custody.Call).forM
      Custody.Call.act).Yields (Custody.ofKernel started) () (Custody.ofKernel kernel) :=
    Operation.yields_bind.mpr ⟨(), Custody.ofKernel rests, Custody.step_of_yields start,
      Operation.yields_bind.mpr ⟨(), Custody.ofKernel created, Custody.step_of_yields spawn,
        Operation.yields_bind.mpr ⟨(), _, Custody.step_of_yields begins,
          Operation.yields_pure.mpr ⟨rfl, rfl⟩⟩⟩⟩
  have reachedStarted : (Custody.ofKernel started).kernel.Reached := .begun begun
  have reached : kernel.Reached := reachedStarted.run steps
  have scheduler : kernel.dispatcher.scheduler = {} := by
    have createdClock : created.dispatcher.scheduler = rests.dispatcher.scheduler := by
      have outcome := spawn_outcome rested.accounted.heap spawn
      cases outcome with
      | created granted made reach entered => rfl
    rcases decides_of_masked begins with ⟨dispatcher, _, decided, rfl⟩
    rw [← clock, ← createdClock]
    exact (Dispatcher.decision_of_schedule decided).scheduler
  have isPid : kernel.currentPid = some (kernel.table.process away).pid :=
    currentPid_of_current gained
  have least : IsLeast {ticks | (5 : UInt32).toNat *
      kernel.dispatcher.scheduler.config.timerFrequency.toNat ≤ ticks * 1000} 5 := by
    have five : (({} : Scheduler).ticksOfMilliseconds 5).toNat = 5 := by decide
    have isLeast := Scheduler.isLeast_ticksOfMilliseconds {} 5
    rw [five] at isLeast
    rwa [scheduler]
  have fits : kernel.uptime + 5 < UInt64.size := by
    rw [uptime, scheduler]
    decide
  rcases reached.sleep_exact isPid 5 least fits with ⟨-, plan, after, run, -, sleeps⟩
  rcases (sleeps (by decide)).2 [] [] _ .begin with ⟨⟨process, found, blocked⟩, -⟩
  have clockAfter : after.uptime = kernel.uptime := by
    rcases decides_of_masked run with ⟨dispatcher, _, decided, rfl⟩
    rw [uptime, Dispatcher.scheduler_of_sleep decided, uptime]
  refine ⟨kernel, _, plan, after, process, reached, isPid, least, fits, run, found, ?_⟩
  rw [blocked, clockAfter]
  exact Nat.lt_add_of_pos_right (by decide)

end Naps

end Kernel

end KernelCore
