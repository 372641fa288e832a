import KernelCore.Proofs.Scheduler.Moves

/-!
# What processes may be doing

Whatever is asked of the processes and the scheduler, and in whatever order: only the process that
has the processor is running, and it is live; those that are blocked are those that sleep, and their
sleep ends in the future. The processor is only ever handed to a process that was ready, or that a
tick has just woken. Nothing stops the kernel but a clock that has come to its end.
-/

namespace KernelCore

open ProcessTable

namespace Standing

/-- What a process does agrees with what is known of it. -/
structure Orderly (standing : Standing) : Prop where
  running : standing.process.state = .running → standing.current = true
  live : standing.current = true → standing.process.isLive = true
  blocked : standing.process.state = .blocked ↔ ∃ wakeAt, standing.process.wakeAt = some wakeAt
  later : ∀ wakeAt, standing.process.wakeAt = some wakeAt → standing.now < wakeAt

end Standing

section Orderly

variable {wakeful : Pid → Prop} {start final : Standing}

theorem ProcessRecord.state_of_isDue {process : ProcessRecord} {now : UInt64}
    (due : process.isDue now = true) : process.state = .blocked := by
  simp only [isDue, Bool.and_eq_true, decide_eq_true_eq] at due
  exact due.1

theorem ProcessRecord.lt_of_not_isDue {process : ProcessRecord} {now wakeAt : UInt64}
    (early : process.isDue now = false) (blocked : process.state = .blocked)
    (sleeps : process.wakeAt = some wakeAt) : now < wakeAt := by
  simpa [isDue, blocked, sleeps] using early

theorem Move.orderly (move : Move wakeful start final) (orderly : start.Orderly) :
    final.Orderly := by
  rcases orderly with ⟨running, live, blocked, later⟩
  cases move with
  | clear => exact ⟨by simp [ProcessRecord.vacant], by simp, by simp [ProcessRecord.vacant],
      by simp [ProcessRecord.vacant]⟩
  | create vacant pid name entry priority timeSlice resources =>
      exact ⟨by simp [ProcessRecord.fresh], by simp, by simp [ProcessRecord.fresh],
        by simp [ProcessRecord.fresh]⟩
  | relink next => exact ⟨running, live, blocked, later⟩
  | save context => exact ⟨running, live, blocked, later⟩
  | charge totalTicks timeSlice => exact ⟨running, live, blocked, later⟩
  | @demote now current process =>
      by_cases wasRunning : process.state = .running
      · simp only [wasRunning, reduceCtorEq, false_iff] at blocked
        simp only [ProcessRecord.demote, wasRunning, if_true]
        exact ⟨by simp, by simp [ProcessRecord.isLive], by simpa using blocked, later⟩
      · simp only [ProcessRecord.demote, wasRunning, if_false]
        exact ⟨running, live, blocked, later⟩
  | lose stopped => exact ⟨fun isRunning => absurd isRunning stopped, by simp, blocked, later⟩
  | gain ready timeSlice =>
      simp only [ready, reduceCtorEq, false_iff] at blocked
      exact ⟨by simp, by simp [ProcessRecord.isLive], by simpa using blocked, later⟩
  | block sleepy inFuture =>
      exact ⟨by simp, by simp [ProcessRecord.isLive], by simp, by simpa using inFuture⟩
  | close =>
      exact ⟨by simp [ProcessTable.close], by simp, by simp [ProcessTable.close],
        by simp [ProcessTable.close]⟩
  | wait onward early =>
      refine ⟨running, live, blocked, ?_⟩
      intro wakeAt sleeps
      exact ProcessRecord.lt_of_not_isDue early (blocked.mpr ⟨wakeAt, sleeps⟩) sleeps
  | wake onward due =>
      exact ⟨by simp [ProcessRecord.wake], by simp [ProcessRecord.wake, ProcessRecord.isLive],
        by simp [ProcessRecord.wake], by simp [ProcessRecord.wake]⟩

end Orderly

namespace ProcessTable

/-- The ways in which it can change who lives where. -/
inductive Population (before : ProcessTable) : ProcessTable → Prop where
  | steady {after : ProcessTable} (same : ∀ slot, after.occupant slot = before.occupant slot)
      (queue : SameQueue before after) : Population before after
  | entered {after : ProcessTable} {slot : Slot} {pid : Pid} {resources : ProcessResources}
      (entered : Entered before after slot pid resources) : Population before after
  | left {after : ProcessTable} {slot : Slot} {process : ProcessRecord}
      (left : Left before after slot process) : Population before after
  | cleared (timeSlice : UInt32) : Population before (.empty timeSlice)

/-- However it changes who lives where, the queue holds the live processes. -/
theorem Population.queued {before after : ProcessTable} (population : Population before after)
    (queued : ∃ slots, before.Queued slots) : ∃ slots, after.Queued slots := by
  rcases queued with ⟨slots, queued⟩
  cases population with
  | steady same queue => exact ⟨slots, queued.congr queue same⟩
  | entered entered => exact ⟨_, entered.queued queued⟩
  | left left => exact ⟨_, left.queued queued⟩
  | cleared timeSlice => exact ⟨[], queued_empty timeSlice⟩

end ProcessTable

namespace Dispatcher

/-- What may be asked of the processes and the scheduler. -/
inductive Call where
  | create (name : String) (entry priority : UInt32) (resources : ProcessResources)
  | exit (code : Int32)
  | reset (timeSlice : UInt32)
  | schedule
  | tick
  | yield
  | sleep (milliseconds : UInt32)
  | perform (switch : Switch) (registers : Context)

/-- Does an operation on the process table, after which no switch is due. -/
def unplanned {Value : Type} (action : Operation ProcessTable Value) :
    Operation Dispatcher (Option Switch) := do
  let _ ← onTable action
  return none

/-- Does what is called for, and answers with the switch that is planned. -/
def Call.act : Call → Operation Dispatcher (Option Switch)
  | .create name entry priority resources =>
      unplanned (ProcessTable.create name entry priority resources).result
  | .exit code => unplanned (ProcessTable.exit code)
  | .reset timeSlice => unplanned (set (ProcessTable.empty timeSlice))
  | .schedule => Dispatcher.schedule
  | .tick => Dispatcher.tick
  | .yield => Dispatcher.yield
  | .sleep milliseconds => Dispatcher.sleep milliseconds
  | .perform switch registers =>
      unplanned (modify fun table => (switch.apply registers table).2)

/-- What processes do agrees with what is known of them. -/
structure Orderly (dispatcher : Dispatcher) : Prop where
  /-- At most one process is running. -/
  alone : ∀ slot other, (dispatcher.table.process slot).state = .running →
    (dispatcher.table.process other).state = .running → slot = other
  /-- It is the one that has the processor. -/
  running : ∀ slot, (dispatcher.table.process slot).state = .running →
    dispatcher.table.current = some slot
  /-- The one that has the processor is live. -/
  live : ∀ slot, dispatcher.table.current = some slot →
    (dispatcher.table.process slot).isLive = true
  /-- Those that are blocked are those that sleep. -/
  blocked : ∀ slot, (dispatcher.table.process slot).state = .blocked ↔
    ∃ wakeAt, (dispatcher.table.process slot).wakeAt = some wakeAt
  /-- Sleep ends in the future. -/
  later : ∀ slot wakeAt, (dispatcher.table.process slot).wakeAt = some wakeAt →
    dispatcher.scheduler.ticks < wakeAt

/-- A call hands the processor to a process that was ready, or that it has just woken. -/
structure Call.Hands (call : Call) (before : Dispatcher) (switch : Switch) (after : Dispatcher) :
    Prop where
  ready : (before.table.process switch.incoming.2).state = .ready ∨
    call = .tick ∧
      (before.table.process switch.incoming.2).isDue after.scheduler.ticks = true
  current : after.table.current = some switch.incoming.2
  running : (after.table.process switch.incoming.2).state = .running
  pid : (after.table.process switch.incoming.2).pid = switch.incoming.1

/-- All processes are orderly, and the live ones are on the queue. -/
structure Sound (dispatcher : Dispatcher) : Prop where
  standing : ∀ slot, (dispatcher.standing slot).Orderly
  queued : ∃ slots, dispatcher.table.Queued slots

section Calls

variable {wakeful : Pid → Prop} {before after dispatcher : Dispatcher}
  {plan : Option Switch} {switch : Switch} {slot : Slot}

theorem yields_unplanned {Value : Type} {action : Operation ProcessTable Value} :
    (unplanned action).Yields before plan after ↔
      plan = none ∧ ∃ value table, action.Yields before.table value table ∧
        after = { before with table } := by
  simp only [unplanned, Operation.yields_bind, Operation.yields_pure, yields_onTable]
  constructor
  · rintro ⟨value, _, ⟨table, done, rfl⟩, rfl, rfl⟩
    exact ⟨rfl, value, table, done, rfl⟩
  · rintro ⟨rfl, value, table, done, rfl⟩
    exact ⟨value, _, ⟨table, done, rfl⟩, rfl, rfl⟩

theorem Sound.live (sound : dispatcher.Sound) (isCurrent : dispatcher.table.current = some slot) :
    (dispatcher.table.process slot).isLive = true :=
  (sound.standing slot).live (by simp [Dispatcher.standing, isCurrent])

theorem Sound.currentLive (sound : dispatcher.Sound) : CurrentLive dispatcher.table := by
  intro slot isCurrent vacant
  have ended := ProcessRecord.identity_eq_none.mp vacant
  exact Bool.false_ne_true (ended.symm.trans (sound.live isCurrent))

theorem Sound.orderly (sound : dispatcher.Sound) : dispatcher.Orderly := by
  have running : ∀ slot, (dispatcher.table.process slot).state = .running →
      dispatcher.table.current = some slot :=
    fun slot isRunning => eq_of_beq ((sound.standing slot).running isRunning)
  refine ⟨?_, running, fun _ => sound.live, fun slot => (sound.standing slot).blocked,
    fun slot => (sound.standing slot).later⟩
  intro slot other first second
  exact Option.some.inj ((running slot first).symm.trans (running other second))

theorem sound_empty (timeSlice : UInt32) (scheduler : Scheduler) :
    Sound ⟨.empty timeSlice, scheduler⟩ where
  standing slot := by
    simp only [Dispatcher.standing, process_empty]
    exact ⟨by simp [ProcessRecord.vacant], by simp [ProcessTable.empty],
      by simp [ProcessRecord.vacant], by simp [ProcessRecord.vacant]⟩
  queued := ⟨[], queued_empty timeSlice⟩

/-- Every call takes all processes through steps, in which those that are spared do not sleep. -/
theorem Call.act_evolves (call : Call)
    (live : ∀ slot, before.table.current = some slot → (before.table.process slot).isLive = true)
    (spares : ∀ milliseconds, call = .sleep milliseconds → before.Spares wakeful milliseconds)
    (run : call.act.Yields before plan after) : Evolves wakeful before after := by
  cases call with
  | create name entry priority resources =>
      rcases yields_unplanned.mp run with ⟨-, reply, table, created, rfl⟩
      exact create_evolves live created
  | exit code =>
      rcases yields_unplanned.mp run with ⟨-, reply, table, exited, rfl⟩
      exact exit_evolves exited
  | reset timeSlice =>
      rcases yields_unplanned.mp run with ⟨-, _, table, emptied, rfl⟩
      rcases Operation.yields_set.mp emptied with rfl
      exact evolves_empty before timeSlice
  | schedule => exact schedule_evolves run
  | tick => exact tick_evolves run
  | yield => exact yield_evolves run
  | sleep milliseconds => exact sleep_evolves (spares milliseconds rfl) run
  | perform switch registers =>
      rcases yields_unplanned.mp run with ⟨-, _, table, saved, rfl⟩
      rcases Operation.yields_modify.mp saved with rfl
      exact evolves_apply before switch registers

theorem Scheduled.population (scheduled : Scheduled before after plan) :
    Population before.table after.table :=
  .steady scheduled.occupant scheduled.queue

/-- Whatever is called for, who lives where changes in one of these ways. -/
theorem Call.act_population (call : Call) (live : CurrentLive before.table)
    (run : call.act.Yields before plan after) : Population before.table after.table := by
  cases call with
  | create name entry priority resources =>
      rcases yields_unplanned.mp run with ⟨-, reply, table, created, rfl⟩
      rcases create_cases created with ⟨-, -, rfl⟩ | ⟨slot, pid, -, entered⟩
      · exact .steady (fun _ => rfl) (SameQueue.refl _)
      · exact .entered entered
  | exit code =>
      rcases yields_unplanned.mp run with ⟨-, reply, table, exited, rfl⟩
      rcases exit_cases live exited with ⟨-, -, rfl⟩ | ⟨slot, process, -, left⟩
      · exact .steady (fun _ => rfl) (SameQueue.refl _)
      · exact .left left
  | reset timeSlice =>
      rcases yields_unplanned.mp run with ⟨-, _, table, emptied, rfl⟩
      rcases Operation.yields_set.mp emptied with rfl
      exact .cleared timeSlice
  | schedule => exact (schedule_scheduled live run).population
  | tick => exact (tick_scheduled live run).population
  | yield => exact (yield_scheduled live run).population
  | sleep milliseconds => exact (sleep_scheduled live run).population
  | perform switch registers =>
      rcases yields_unplanned.mp run with ⟨-, _, table, saved, rfl⟩
      rcases Operation.yields_modify.mp saved with rfl
      have steady := steady_apply switch registers before.table
      exact .steady steady.occupant steady.toSameQueue

theorem Call.act_sound (call : Call) (sound : before.Sound)
    (run : call.act.Yields before plan after) : after.Sound where
  standing := by
    have spares : ∀ milliseconds, call = .sleep milliseconds →
        before.Spares (fun _ => False) milliseconds :=
      fun _ _ _ _ nobody => nobody.elim
    exact (call.act_evolves (fun _ => sound.live) spares run).keeps Move.orderly sound.standing
  queued := (call.act_population sound.currentLive run).queued sound.queued

end Calls

section Handover

variable {before between after : Dispatcher} {switch : Switch} {slot : Slot}

theorem Decision.hands (decision : Decision before (some switch) after) :
    before.table.current ≠ some switch.incoming.2 ∧ Call.schedule.Hands before switch after := by
  cases decision with
  | @other slot _ chosen notCurrent incoming =>
      have running := process_grant_self notCurrent before.scheduler.config.timeSliceTicks
      simp only [incoming]
      refine ⟨notCurrent, ⟨Or.inl ?_, ?_, ?_, ?_⟩⟩
      · rw [incoming]
        exact ready_of_select chosen
      · rw [incoming]
        rfl
      · rw [incoming, running]
      · rw [incoming, running]

/-- Whatever the one that has the processor goes through before a decision, the one that gets it was
ready before that. -/
theorem hands_after_update {call : Call} {change : ProcessRecord → ProcessRecord}
    (isCurrent : before.table.current = some slot)
    (decision : Decision { before with table := before.table.update slot change } (some switch)
      after) : call.Hands before switch after := by
  rcases decision.hands with ⟨notCurrent, ready, current, running, pid⟩
  have elsewhere : slot ≠ switch.incoming.2 := by
    rintro rfl
    exact notCurrent isCurrent
  refine ⟨Or.inl ?_, current, running, pid⟩
  rcases ready with ready | ⟨notTick, -⟩
  · simpa only [process_update, if_neg elsewhere] using ready
  · cases notTick

theorem yield_hands {call : Call} (run : Dispatcher.yield.Yields before (some switch) after) :
    call.Hands before switch after := by
  cases current : before.table.current with
  | none =>
      simp [Dispatcher.yield, and_assoc, current] at run
      rcases (decision_of_schedule run).hands with ⟨-, ready | ⟨notTick, -⟩, current, running, pid⟩
      · exact ⟨Or.inl ready, current, running, pid⟩
      · cases notTick
  | some slot =>
      simp [Dispatcher.yield, and_assoc, current] at run
      exact hands_after_update current (decision_of_schedule run)

theorem sleep_hands {call : Call} {milliseconds : UInt32}
    (run : (Dispatcher.sleep milliseconds).Yields before (some switch) after) :
    call.Hands before switch after := by
  by_cases short : before.scheduler.ticksOfMilliseconds milliseconds = 0
  · simp [Dispatcher.sleep, and_assoc, short] at run
    exact yield_hands run
  · cases current : before.table.current with
    | none => simp [Dispatcher.sleep, and_assoc, short, current] at run
    | some slot =>
        simp [Dispatcher.sleep, and_assoc, short, current] at run
        rcases run with ⟨wakeAt, -, run⟩
        exact hands_after_update current (decision_of_schedule run)

theorem charge_update {last : Bool} (run : (charge slot).Yields before last after) :
    ∃ change : ProcessRecord → ProcessRecord,
      after = { before with table := before.table.update slot change } ∧
      ∀ process, (change process).state = process.state := by
  by_cases more : 1 < (before.table.process slot).timeSlice
  · simp [charge, and_assoc, more] at run
    rcases run with ⟨totalTicks, -, rfl, -⟩
    exact ⟨_, rfl, fun _ => rfl⟩
  · simp [charge, and_assoc, more] at run
    rcases run with ⟨totalTicks, -, rfl, -⟩
    exact ⟨_, rfl, fun _ => rfl⟩

theorem update_update (table : ProcessTable) (slot : Slot)
    (first second : ProcessRecord → ProcessRecord) :
    (table.update slot first).update slot second =
      table.update slot fun process => second (first process) := by
  simp [update, process]

theorem tick_hands (run : Dispatcher.tick.Yields before (some switch) after) :
    Call.tick.Hands before switch after := by
  simp [Dispatcher.tick, and_assoc] at run
  rcases run with ⟨ticks, -, _, between, waking, run⟩
  rcases yields_onTable.mp waking with ⟨table, woken, rfl⟩
  cases current : table.current with
  | none => simp [current] at run
  | some slot =>
      simp [current] at run
      rcases run with ⟨charged, charging, run⟩
      rcases charge_update charging with ⟨change, rfl, -⟩
      simp only [update_update] at run
      have clock : after.scheduler.ticks = ticks := by
        cases decision_of_schedule run with
        | other chosen notCurrent incoming => rfl
      have handed : Call.schedule.Hands ⟨table, { before.scheduler with ticks }⟩ switch after :=
        hands_after_update current (decision_of_schedule run)
      rcases handed with ⟨ready | ⟨notTick, -⟩, granted, running, pid⟩
      · refine ⟨?_, granted, running, pid⟩
        rw [clock]
        change (table.process switch.incoming.2).state = .ready at ready
        rw [(process_wakeSleepers woken).2] at ready
        split at ready
        · rename_i due
          exact Or.inr ⟨rfl, due⟩
        · exact Or.inl ready
      · cases notTick

/-- A call hands the processor only to a process that was ready, or that it has just woken. -/
theorem Call.act_hands (call : Call) (run : call.act.Yields before (some switch) after) :
    call.Hands before switch after := by
  cases call with
  | create name entry priority resources => cases (yields_unplanned.mp run).1
  | exit code => cases (yields_unplanned.mp run).1
  | reset timeSlice => cases (yields_unplanned.mp run).1
  | schedule => exact (decision_of_schedule run).hands.2
  | tick => exact tick_hands run
  | yield => exact yield_hands run
  | sleep milliseconds => exact sleep_hands run
  | perform switch registers => cases (yields_unplanned.mp run).1

end Handover

section Totality

variable {before : Dispatcher} {slot : Slot} {slots : List Slot}

/-- A decision can also be made after a process has changed, if its link has not. -/
theorem yields_schedule_update (linked : before.table.Linked slots)
    {change : ProcessRecord → ProcessRecord}
    (same : (change (before.table.process slot)).next = (before.table.process slot).next) :
    ∃ plan after,
      schedule.Yields { before with table := before.table.update slot change } plan after := by
  apply yields_schedule
  exact linked.sameQueue (sameQueue_update before.table slot change same)

theorem yields_yield (linked : before.table.Linked slots) :
    ∃ plan after, Dispatcher.yield.Yields before plan after := by
  cases current : before.table.current with
  | none =>
      rcases yields_schedule linked with ⟨plan, after, run⟩
      exact ⟨plan, after, by simp [Dispatcher.yield, current, run]⟩
  | some slot =>
      rcases yields_schedule_update linked (ProcessRecord.next_demote (before.table.process slot))
        with ⟨plan, after, run⟩
      exact ⟨plan, after, by simp [Dispatcher.yield, current, run]⟩

/-- Going to sleep ends if the clock can reach the end of the sleep. -/
theorem yields_sleep (linked : before.table.Linked slots) {milliseconds : UInt32}
    (fits : before.scheduler.ticks.toNat +
      (before.scheduler.ticksOfMilliseconds milliseconds).toNat < UInt64.size) :
    ∃ plan after, (Dispatcher.sleep milliseconds).Yields before plan after := by
  by_cases short : before.scheduler.ticksOfMilliseconds milliseconds = 0
  · rcases yields_yield linked with ⟨plan, after, run⟩
    exact ⟨plan, after, by simp [Dispatcher.sleep, short, run]⟩
  · let wakeAt := before.scheduler.ticks + before.scheduler.ticksOfMilliseconds milliseconds
    have summed : Checked.add64 before.scheduler.ticks
        (before.scheduler.ticksOfMilliseconds milliseconds) = .ok wakeAt := if_pos fits
    cases current : before.table.current with
    | none => exact ⟨none, before, by simp [Dispatcher.sleep, short, summed, current]⟩
    | some slot =>
        let doze : ProcessRecord → ProcessRecord := fun process =>
          { process with state := .blocked, wakeAt := some wakeAt }
        have same : (doze (before.table.process slot)).next = (before.table.process slot).next :=
          rfl
        rcases yields_schedule_update linked same with ⟨plan, after, run⟩
        exact ⟨plan, after, by simp [Dispatcher.sleep, short, summed, current, doze, run]⟩

theorem ends_sleep (linked : before.table.Linked slots) (milliseconds : UInt32) :
    (Dispatcher.sleep milliseconds).Ends before := by
  by_cases fits : before.scheduler.ticks.toNat +
      (before.scheduler.ticksOfMilliseconds milliseconds).toNat < UInt64.size
  · exact Or.inl (yields_sleep linked fits)
  · have long : before.scheduler.ticksOfMilliseconds milliseconds ≠ 0 := by
      intro short
      rw [short] at fits
      exact fits before.scheduler.ticks.toNat_lt
    refine Operation.ends_bind (Or.inl (by simp)) ?_
    intro _ start begun
    rcases Operation.yields_get.mp begun with ⟨rfl, rfl⟩
    simp only [if_neg long]
    refine Operation.ends_bind (Or.inl (by simp)) ?_
    intro _ between seen
    rcases Operation.yields_get.mp seen with ⟨rfl, rfl⟩
    refine Operation.ends_bind (Operation.ends_add64 _ _ _) ?_
    intro wakeAt final summed
    exact absurd (Operation.yields_liftM.mp summed).1 (by simp [Checked.add64, fits])

theorem ends_charge (before : Dispatcher) (slot : Slot) : (charge slot).Ends before := by
  refine Operation.ends_bind (Or.inl (by simp)) ?_
  intro _ start begun
  rcases Operation.yields_get.mp begun with ⟨rfl, rfl⟩
  refine Operation.ends_bind (Operation.ends_add64 _ _ _) ?_
  intro totalTicks between summed
  rcases Operation.yields_liftM.mp summed with ⟨-, rfl⟩
  split
  · exact Or.inl (by simp)
  · exact Or.inl (by simp)

theorem ends_tick (linked : before.table.Linked slots) : Dispatcher.tick.Ends before := by
  refine Operation.ends_bind (Or.inl (by simp)) ?_
  intro _ start begun
  rcases Operation.yields_get.mp begun with ⟨rfl, rfl⟩
  refine Operation.ends_bind (Operation.ends_add64 _ _ _) ?_
  intro ticks between summed
  rcases Operation.yields_liftM.mp summed with ⟨-, rfl⟩
  refine Operation.ends_bind (Or.inl (by simp)) ?_
  intro _ counted counting
  rcases Operation.yields_modify.mp counting with rfl
  refine Operation.ends_bind (Or.inl ?_) ?_
  · simp [yields_onTable, wakeSleepers]
  intro _ awake waking
  rcases yields_onTable.mp waking with ⟨table, woken, rfl⟩
  have linkedAwake := linked.sameQueue (steady_wakeSleepers woken).toSameQueue
  refine Operation.ends_bind (Or.inl (by simp)) ?_
  intro _ between seen
  rcases Operation.yields_get.mp seen with ⟨rfl, rfl⟩
  cases current : table.current with
  | none => exact Or.inl (by simp)
  | some slot =>
      simp only []
      refine Operation.ends_bind (ends_charge _ slot) ?_
      intro last charged charging
      have linkedCharged := linkedAwake.sameQueue (steady_charge charging).toSameQueue
      cases last with
      | false => exact Or.inl (by simp)
      | true =>
          rcases yields_schedule_update linkedCharged
            (ProcessRecord.next_demote (charged.table.process slot)) with ⟨plan, after, run⟩
          exact Or.inl ⟨plan, after, by simp [run]⟩

/-- Every call ends, unless the clock or the time that a process has had is at its end. -/
theorem Call.act_ends (call : Call) (sound : before.Sound) : call.act.Ends before := by
  rcases sound.queued with ⟨slots, queued⟩
  cases call with
  | create name entry priority resources =>
      rcases yields_create before.table name entry priority resources with ⟨reply, table, created⟩
      exact Or.inl ⟨none, _, yields_unplanned.mpr ⟨rfl, reply, table, created, rfl⟩⟩
  | exit code =>
      rcases queued.yields_exit sound.currentLive code with ⟨reply, table, exited⟩
      exact Or.inl ⟨none, _, yields_unplanned.mpr ⟨rfl, reply, table, exited, rfl⟩⟩
  | reset timeSlice =>
      exact Or.inl ⟨none, _, yields_unplanned.mpr
        ⟨rfl, (), _, Operation.yields_set.mpr rfl, rfl⟩⟩
  | schedule => exact Or.inl (yields_schedule queued.toLinked)
  | tick => exact ends_tick queued.toLinked
  | yield => exact Or.inl (yields_yield queued.toLinked)
  | sleep milliseconds => exact ends_sleep queued.toLinked milliseconds
  | perform switch registers =>
      exact Or.inl ⟨none, _, yields_unplanned.mpr
        ⟨rfl, (), _, Operation.yields_modify.mpr rfl, rfl⟩⟩

end Totality

/-- Every run that ends leaves a sound dispatcher. -/
theorem sound_of_calls {timeSlice : UInt32} {scheduler : Scheduler} {calls : List Call}
    {final : Dispatcher}
    (run : (calls.forM fun call => discard call.act).Yields ⟨.empty timeSlice, scheduler⟩ ()
      final) : final.Sound := by
  refine run.keeps ?_ (sound_empty timeSlice scheduler)
  intro call before after sound step
  rcases Operation.yields_map.mp step with ⟨plan, done, -⟩
  exact call.act_sound sound done

/-- From an empty table on, and whatever is called for: at most one process is running, namely the
one that has the processor, and that one is live; those that are blocked are those that sleep, until
a tick in the future; the next call, whatever it is, hands the processor only to a process that was
ready or that it has just woken, and it stops the kernel only if a sum of ticks does not fit. -/
theorem orderly_of_calls {timeSlice : UInt32} {scheduler : Scheduler} {calls : List Call}
    {final : Dispatcher}
    (run : (calls.forM fun call => discard call.act).Yields ⟨.empty timeSlice, scheduler⟩ ()
      final) :
    final.Orderly ∧
      (∀ (call : Call) (switch : Switch) (after : Dispatcher),
        call.act.Yields final (some switch) after → call.Hands final switch after) ∧
      ∀ (call : Call) (fault : Fault), call.act final = .error fault → fault = .addOverflow := by
  have sound := sound_of_calls run
  refine ⟨sound.orderly, ?_, ?_⟩
  · intro call switch after step
    exact call.act_hands step
  · intro call fault stopped
    exact (call.act_ends sound).fault stopped

/-- A process that is alone and has gone to sleep. -/
theorem orderly_after_sleep :
    ∃ final,
      (([.create "only" 0x1000 1 {}, .schedule, .sleep 5, .tick] : List Call).forM fun call =>
        discard call.act).Yields ⟨.empty 10, {}⟩ () final ∧
      (final.table.process 0).state = .blocked ∧ final.Orderly := by
  rcases Operation.yields_of_evaluation
      (([.create "only" 0x1000 1 {}, .schedule, .sleep 5, .tick] : List Call).forM fun call =>
        discard call.act)
      ⟨.empty 10, {}⟩ (fun _ final => (final.table.process 0).state = .blocked)
      (by decide +kernel) with
    ⟨_, final, run, blocked⟩
  exact ⟨final, run, of_decide_eq_true blocked, (orderly_of_calls run).1⟩

end Dispatcher

end KernelCore
