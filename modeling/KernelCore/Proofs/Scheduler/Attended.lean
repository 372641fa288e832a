import KernelCore.Proofs.Scheduler.States

/-!
# Somebody to run

As long as one process, the idle process, never sleeps and never ends, there is always somebody to
run: the idle process is ready whenever it has not got the processor, so no decision comes out
empty, and once somebody has the processor there is always somebody who has it and runs.
-/

namespace KernelCore

open ProcessTable

namespace Standing

/-- If it is the idle process, it is ready or running. -/
def Awake (idle : Pid) (standing : Standing) : Prop :=
  standing.process.isLive = true → standing.process.pid = idle →
    standing.process.state = .ready ∨ standing.process.state = .running

end Standing

/-- The idle process stays awake if it is not put to sleep. -/
theorem Move.awake {idle : Pid} {start final : Standing} (move : Move (· = idle) start final)
    (awake : start.Awake idle) : final.Awake idle := by
  cases move with
  | clear =>
      intro live
      cases live
  | create vacant pid name entry priority timeSlice resources => exact fun _ _ => Or.inl rfl
  | relink next => exact awake
  | save context => exact awake
  | charge totalTicks timeSlice => exact awake
  | @demote now current process =>
      by_cases running : process.state = .running
      · simp [Standing.Awake, ProcessRecord.demote, running]
      · simp only [ProcessRecord.demote, running, if_false]
        exact awake
  | lose stopped => exact awake
  | gain ready timeSlice => exact fun _ _ => Or.inr rfl
  | block sleepy later => exact fun _ isIdle => absurd isIdle sleepy
  | close =>
      intro live
      cases live
  | wait onward early => exact awake
  | wake onward due => exact fun _ _ => Or.inl rfl

namespace ProcessTable

/-- Somebody has the processor and runs. -/
def Busy (table : ProcessTable) : Prop :=
  ∃ slot, table.current = some slot ∧ (table.process slot).state = .running

end ProcessTable

namespace Dispatcher

/-- The idle process is live and awake, and whoever has the processor runs. -/
structure Attended (idle : Pid) (dispatcher : Dispatcher) : Prop extends Sound dispatcher where
  home : ∃ slot resources, dispatcher.table.occupant slot = some (idle, resources)
  awake : ∀ slot, (dispatcher.standing slot).Awake idle
  manned : dispatcher.table.current = none ∨ dispatcher.table.Busy

section Attended

variable {idle : Pid} {before between after dispatcher : Dispatcher} {plan : Option Switch}
  {slot : Slot} {slots : List Slot}

/-- A decision for which somebody is ready does not come out empty. -/
theorem Decision.busy (decision : Decision before plan after) (queued : before.table.Queued slots)
    (someone : before.table.Busy ∨ ∃ slot, (before.table.process slot).state = .ready) :
    after.table.Busy := by
  cases decision with
  | nobody noneChosen =>
      rcases someone with busy | ⟨slot, ready⟩
      · exact busy
      · have listed : slot ∈ slots := by
          rw [queued.live, occupant_of_ready ready]
          exact Option.some_ne_none _
        exact absurd ready (unready_of_select queued.toLinked noneChosen listed)
  | @again slot chosen isCurrent =>
      refine ⟨slot, isCurrent, ?_⟩
      rw [process_update, if_pos rfl]
  | @other slot _ chosen notCurrent incoming =>
      refine ⟨slot, rfl, ?_⟩
      rw [process_grant_self notCurrent]

/-- The idle process is ready whenever it has not got the processor. -/
theorem Attended.ready_home (attended : Attended idle dispatcher) :
    ∃ home, (dispatcher.table.process home).pid = idle ∧
      (dispatcher.table.current ≠ some home → (dispatcher.table.process home).state = .ready) := by
  rcases attended.home with ⟨home, resources, here⟩
  rcases ProcessRecord.identity_eq_some.mp here with ⟨live, pid, -⟩
  refine ⟨home, pid, ?_⟩
  intro notCurrent
  rcases attended.awake home live pid with ready | running
  · exact ready
  · exact absurd (eq_of_beq ((attended.standing home).running running)) notCurrent

theorem Attended.awake_process (attended : Attended idle dispatcher) :
    ∃ process, dispatcher.table.find? idle = some process ∧
      (process.state = .ready ∨ process.state = .running) := by
  rcases attended.home with ⟨home, resources, here⟩
  cases found : dispatcher.table.slotOf idle with
  | none => exact absurd here (occupant_ne_of_slotOf found home resources)
  | some slot =>
      have passed := process_of_findFinIdx? found
      simp only [Bool.and_eq_true, beq_iff_eq] at passed
      refine ⟨dispatcher.table.process slot, ?_, attended.awake slot passed.1 passed.2⟩
      rw [find?, found, Option.map_some]

theorem Attended.schedule_busy (attended : Attended idle before)
    (run : Dispatcher.schedule.Yields before plan after) : after.table.Busy := by
  rcases attended.queued with ⟨slots, queued⟩
  refine (decision_of_schedule run).busy queued ?_
  rcases attended.manned with noCurrent | busy
  · rcases attended.ready_home with ⟨home, -, ready⟩
    exact Or.inr ⟨home, ready (by simp [noCurrent])⟩
  · exact Or.inl busy

theorem busy_after_steady (queued : before.table.Queued slots)
    (steady : Steady before.table between.table)
    (someone : ∃ slot, (between.table.process slot).state = .ready)
    (run : Dispatcher.schedule.Yields between plan after) : after.table.Busy :=
  (decision_of_schedule run).busy (queued.congr steady.toSameQueue steady.occupant)
    (Or.inr someone)

/-- Whoever gives up the processor is ready, so that the decision does not come out empty. -/
theorem busy_after_demote (queued : before.table.Queued slots)
    (running : (before.table.process slot).state = .running)
    (run : Dispatcher.schedule.Yields
      { before with table := before.table.update slot ProcessRecord.demote } plan after) :
    after.table.Busy := by
  have demoted := steady_update before.table slot ProcessRecord.demote
    (ProcessRecord.identity_demote _) (ProcessRecord.next_demote _)
  refine busy_after_steady queued demoted ⟨slot, ?_⟩ run
  rw [process_update, if_pos rfl, ProcessRecord.demote, if_pos running]

theorem Attended.yield_busy (attended : Attended idle before)
    (run : Dispatcher.yield.Yields before plan after) : after.table.Busy := by
  rcases attended.manned with noCurrent | ⟨slot, isCurrent, running⟩
  · simp [Dispatcher.yield, and_assoc, noCurrent] at run
    exact attended.schedule_busy run
  · simp [Dispatcher.yield, and_assoc, isCurrent] at run
    rcases attended.queued with ⟨slots, queued⟩
    exact busy_after_demote queued running run

/-- Somebody runs afterwards, or nobody has had the processor, and nobody has got it. -/
def Onward (before after : Dispatcher) : Prop :=
  after.table.Busy ∨ before.table.current = none ∧ after.table.current = none

theorem Attended.sleep_onward (attended : Attended idle before) {milliseconds : UInt32}
    (spares : before.Spares (· = idle) milliseconds)
    (run : (Dispatcher.sleep milliseconds).Yields before plan after) : Onward before after := by
  by_cases short : before.scheduler.ticksOfMilliseconds milliseconds = 0
  · simp [Dispatcher.sleep, and_assoc, short] at run
    exact Or.inl (attended.yield_busy run)
  · cases current : before.table.current with
    | none =>
        simp [Dispatcher.sleep, and_assoc, short, current] at run
        rcases run with ⟨-, rfl, rfl⟩
        exact Or.inr ⟨current, current⟩
    | some slot =>
        simp [Dispatcher.sleep, and_assoc, short, current] at run
        rcases run with ⟨wakeAt, -, run⟩
        rcases attended.queued with ⟨slots, queued⟩
        rcases attended.ready_home with ⟨home, pid, ready⟩
        -- The one that goes to sleep is not the idle process.
        have differs : slot ≠ home := by
          rintro rfl
          exact short (spares idle (by simp [currentPid, currentProcess, current, pid]) rfl)
        have blocked := steady_setState (attended.currentLive slot current)
          (fun process => { process with state := .blocked, wakeAt := some wakeAt })
          fun _ => ⟨rfl, rfl, rfl, rfl⟩
        left
        refine busy_after_steady queued blocked ⟨home, ?_⟩ run
        rw [process_update, if_neg differs]
        apply ready
        rw [current]
        simpa using differs

theorem Attended.tick_onward (attended : Attended idle before)
    (run : Dispatcher.tick.Yields before plan after) : Onward before after := by
  simp [Dispatcher.tick, and_assoc] at run
  rcases run with ⟨ticks, -, _, between, waking, run⟩
  rcases yields_onTable.mp waking with ⟨table, woken, rfl⟩
  rcases process_wakeSleepers woken with ⟨sameCurrent, processes⟩
  rcases attended.manned with noCurrent | ⟨slot, isCurrent, running⟩
  · rw [noCurrent] at sameCurrent
    simp [sameCurrent] at run
    rcases run with ⟨rfl, rfl⟩
    exact Or.inr ⟨noCurrent, sameCurrent⟩
  · rw [isCurrent] at sameCurrent
    have stillRunning : (table.process slot).state = .running := by
      have early : (before.table.process slot).isDue ticks = false := by
        simp [ProcessRecord.isDue, running]
      rw [processes, early]
      exact running
    simp [sameCurrent] at run
    left
    rcases run with ⟨charging, rfl⟩ | ⟨charged, charging, run⟩
    · rcases charge_update charging with ⟨change, rfl, state⟩
      refine ⟨slot, sameCurrent, ?_⟩
      rw [process_update, if_pos rfl, state]
      exact stillRunning
    · rcases attended.queued with ⟨slots, queued⟩
      have awake := (steady_wakeSleepers woken).trans (steady_charge charging)
      rcases charge_update charging with ⟨change, rfl, state⟩
      refine busy_after_demote (queued.congr awake.toSameQueue awake.occupant) ?_ run
      rw [process_update, if_pos rfl, state]
      exact stillRunning

/-- If no other process is ready, whoever goes to sleep keeps the processor. -/
theorem sleep_alone {milliseconds : UInt32} (isCurrent : before.table.current = some slot)
    (alone : ∀ other, (before.table.process other).isLive = true → other = slot)
    (long : before.scheduler.ticksOfMilliseconds milliseconds ≠ 0)
    (run : (Dispatcher.sleep milliseconds).Yields before plan after) :
    after.table.current = some slot ∧ (after.table.process slot).state = .blocked ∧
      (after.table.process slot).pid = (before.table.process slot).pid := by
  simp [Dispatcher.sleep, and_assoc, long, isCurrent] at run
  rcases run with ⟨wakeAt, -, run⟩
  have unready : ∀ other, ((before.table.update slot fun process =>
      { process with state := .blocked, wakeAt := some wakeAt }).process other).state ≠ .ready := by
    intro other
    rw [process_update]
    split
    · simp
    · rename_i elsewhere
      intro ready
      exact elsewhere (alone other (by simp [ProcessRecord.isLive, ready])).symm
  rw [(decision_of_schedule run).idles unready]
  have record := process_update before.table slot slot fun process =>
    { process with state := .blocked, wakeAt := some wakeAt }
  rw [if_pos rfl] at record
  refine ⟨isCurrent, ?_, ?_⟩
  · rw [record]
  · rw [record]

theorem Attended.step (attended : Attended idle before) (call : Call)
    (spares : ∀ milliseconds, call = .sleep milliseconds → before.Spares (· = idle) milliseconds)
    (run : call.act.Yields before plan after)
    (home : ∀ slot resources, before.table.occupant slot = some (idle, resources) →
      after.table.occupant slot = some (idle, resources))
    (manned : after.table.current = none ∨ after.table.Busy) : Attended idle after where
  toSound := call.act_sound attended.toSound run
  home := by
    rcases attended.home with ⟨slot, resources, here⟩
    exact ⟨slot, resources, home slot resources here⟩
  awake := (call.act_evolves (fun _ => attended.live) spares run).keeps Move.awake attended.awake
  manned := manned

theorem Attended.decide (attended : Attended idle before) (call : Call)
    (spares : ∀ milliseconds, call = .sleep milliseconds → before.Spares (· = idle) milliseconds)
    (run : call.act.Yields before plan after) (scheduled : Scheduled before after plan)
    (onward : Onward before after) : Attended idle after ∧ Onward before after := by
  refine ⟨attended.step call spares run ?_ ?_, onward⟩
  · intro slot resources here
    rw [scheduled.occupant slot]
    exact here
  · rcases onward with busy | ⟨-, noCurrent⟩
    · exact Or.inr busy
    · exact Or.inl noCurrent

theorem Attended.schedule (attended : Attended idle before)
    (run : Dispatcher.schedule.Yields before plan after) :
    Attended idle after ∧ Onward before after :=
  attended.decide .schedule (by simp) run (schedule_scheduled attended.currentLive run)
    (Or.inl (attended.schedule_busy run))

theorem Attended.tick (attended : Attended idle before)
    (run : Dispatcher.tick.Yields before plan after) :
    Attended idle after ∧ Onward before after :=
  attended.decide .tick (by simp) run (tick_scheduled attended.currentLive run)
    (attended.tick_onward run)

theorem Attended.yield (attended : Attended idle before)
    (run : Dispatcher.yield.Yields before plan after) :
    Attended idle after ∧ Onward before after :=
  attended.decide .yield (by simp) run (yield_scheduled attended.currentLive run)
    (Or.inl (attended.yield_busy run))

theorem Attended.sleep (attended : Attended idle before) {milliseconds : UInt32}
    (spares : before.Spares (· = idle) milliseconds)
    (run : (Dispatcher.sleep milliseconds).Yields before plan after) :
    Attended idle after ∧ Onward before after := by
  refine attended.decide (.sleep milliseconds) ?_ run (sleep_scheduled attended.currentLive run)
    (attended.sleep_onward spares run)
  rintro _ ⟨⟩
  exact spares

theorem Attended.create (attended : Attended idle before) {name : String}
    {entry priority : UInt32} {resources : ProcessResources} {reply : Except ProcessError Pid}
    {table : ProcessTable}
    (run : (create name entry priority resources).Yields before.table reply table) :
    Attended idle { before with table } ∧ table.current = before.table.current := by
  have act : (Call.create name entry priority resources).act.Yields before none
      { before with table } :=
    yields_unplanned.mpr ⟨rfl, _, table, run, rfl⟩
  rcases create_cases run with ⟨-, -, rfl⟩ | ⟨place, entrant, rfl, entered⟩
  · exact ⟨attended, rfl⟩
  refine ⟨attended.step _ (by simp) act ?_ ?_, entered.current⟩
  · intro home provided here
    change table.occupant home = _
    rw [entered.others home]
    · exact here
    · rintro rfl
      rw [entered.vacant] at here
      cases here
  · rcases attended.manned with noCurrent | ⟨slot, isCurrent, running⟩
    · exact Or.inl (entered.current.trans noCurrent)
    · right
      refine ⟨slot, entered.current.trans isCurrent, ?_⟩
      rcases create_records run with ⟨refuted, -⟩ | ⟨vacated, _, _, -, vacant, -, rethreaded⟩
      · cases refuted
      have apart : vacated ≠ slot := by
        rintro rfl
        simp [ProcessRecord.isLive, running] at vacant
      rcases rethreaded.process_elsewhere apart with ⟨link, record⟩
      change (table.process slot).state = .running
      rw [record]
      exact running

theorem Attended.exit (attended : Attended idle before)
    (other : before.table.currentPid ≠ some idle) {code : Int32} {process : ProcessRecord}
    {table : ProcessTable} (run : (exit code).Yields before.table (some process) table) :
    Attended idle { before with table } := by
  rcases exit_cases attended.currentLive run with ⟨refuted, -⟩ | ⟨slot, found, -, left⟩
  · cases refuted
  refine attended.step (.exit code) (by simp)
    (yields_unplanned.mpr ⟨rfl, _, table, run, rfl⟩) ?_ (Or.inl left.idle)
  intro home resources here
  change table.occupant home = _
  rw [left.others home]
  · exact here
  · rintro rfl
    rcases ProcessRecord.identity_eq_some.mp here with ⟨-, pid, -⟩
    apply other
    rw [currentPid, currentProcess, left.current]
    exact congrArg some pid

theorem process_apply (switch : Switch) (registers : Context) (table : ProcessTable)
    (slot : Slot) : ∃ context,
      (switch.apply registers table).2.process slot = { table.process slot with context } := by
  rcases switch with ⟨_ | ⟨pid, place⟩, incoming, target⟩
  · exact ⟨_, rfl⟩
  · change ∃ context, (table.update place fun process =>
      { process with context := registers }).process slot = { table.process slot with context }
    rw [process_update]
    split
    · rename_i here
      exact ⟨registers, by rw [here]⟩
    · exact ⟨_, rfl⟩

theorem Attended.apply (attended : Attended idle before) (switch : Switch) (registers : Context) :
    Attended idle { before with table := (switch.apply registers before.table).2 } := by
  have steady := steady_apply switch registers before.table
  have act : (Call.perform switch registers).act.Yields before none
      { before with table := (switch.apply registers before.table).2 } :=
    yields_unplanned.mpr ⟨rfl, (), _, Operation.yields_modify.mpr rfl, rfl⟩
  refine attended.step _ (by simp) act ?_ ?_
  · intro home resources here
    exact (steady.occupant home).trans here
  · rcases attended.manned with noCurrent | ⟨slot, isCurrent, running⟩
    · exact Or.inl (steady.current.trans noCurrent)
    · right
      refine ⟨slot, steady.current.trans isCurrent, ?_⟩
      rcases process_apply switch registers before.table slot with ⟨context, record⟩
      change ((switch.apply registers before.table).2.process slot).state = .running
      rw [record]
      exact running

end Attended

end Dispatcher

end KernelCore
