import KernelCore.Proofs.Scheduler.Clock
import KernelCore.Proofs.Scheduler.Selection

/-!
# How long a turn is

A process that is created has a whole turn ahead of it, and so has one that gets the processor. Each
tick that it is charged with takes one off, and with the last one the turn is renewed before a
decision is made. So nobody ever has more than a whole turn ahead, and nobody has nothing ahead if a
turn lasts for a tick or more: `Dispatcher.Sliced`.

A tick in the middle of a turn does no more than `Dispatcher.spend`, and the last one of a turn is a
decision after `Dispatcher.renew`.
-/

namespace KernelCore

open ProcessTable

namespace Checked

theorem add64_one {word : UInt64} (fits : word.toNat + 1 < UInt64.size) :
    add64 word 1 = .ok (word + 1) :=
  if_pos fits

theorem toNat_add_one {word : UInt64} (fits : word.toNat + 1 < UInt64.size) :
    (word + 1).toNat = word.toNat + 1 :=
  add64_eq_ok_iff.mp (add64_one fits)

end Checked

/-- What may be left of a turn: not more than a whole one, and at least a tick if a turn lasts for
one. -/
def WithinTurn (turn left : UInt32) : Prop :=
  left ≤ turn ∧ (1 ≤ turn → 1 ≤ left)

theorem withinTurn_whole (turn : UInt32) : WithinTurn turn turn :=
  ⟨UInt32.le_refl turn, id⟩

theorem WithinTurn.charge {turn left : UInt32} (within : WithinTurn turn left) (more : 1 < left) :
    WithinTurn turn (left - 1) := by
  have one : (1 : UInt32).toNat = 1 := rfl
  have atLeast : 1 ≤ left := UInt32.le_of_lt more
  have taken := UInt32.toNat_sub_of_le left 1 atLeast
  rcases within with ⟨most, -⟩
  simp only [WithinTurn, UInt32.le_iff_toNat_le, UInt32.lt_iff_toNat_lt] at *
  omega

namespace ProcessRecord

/-- The process is ready, or it is running already. -/
def Runnable (process : ProcessRecord) : Prop :=
  process.state = .ready ∨ process.state = .running

theorem timeSlice_demote (process : ProcessRecord) :
    process.demote.timeSlice = process.timeSlice :=
  same_demote timeSlice (fun _ _ => rfl) process

theorem priority_demote (process : ProcessRecord) : process.demote.priority = process.priority :=
  same_demote priority (fun _ _ => rfl) process

theorem timeSlice_rouse (process : ProcessRecord) (now : UInt64) :
    (process.rouse now).timeSlice = process.timeSlice :=
  same_rouse timeSlice (fun _ _ _ => rfl) process now

/-- Whoever can run is ready once the turn is renewed. -/
theorem ready_demote_iff (process : ProcessRecord) :
    process.demote.state = .ready ↔ process.Runnable := by
  by_cases running : process.state = .running
  · simp [demote, Runnable, running]
  · simp [demote, Runnable, running]

theorem Runnable.isLive {process : ProcessRecord} (runnable : process.Runnable) :
    process.isLive = true := by
  rcases runnable with ready | running
  · simp [ProcessRecord.isLive, ready]
  · simp [ProcessRecord.isLive, running]

theorem Runnable.rouse {process : ProcessRecord} (runnable : process.Runnable) (now : UInt64) :
    (process.rouse now).Runnable := by
  rw [ProcessRecord.rouse]
  split
  · exact Or.inl rfl
  · exact runnable

theorem isLive_rouse (process : ProcessRecord) (now : UInt64) :
    (process.rouse now).isLive = process.isLive := by
  rw [rouse]
  split
  · rename_i due
    simp [wake, isLive, state_of_isDue due]
  · rfl

theorem running_of_rouse {process : ProcessRecord} {now : UInt64}
    (running : (process.rouse now).state = .running) : process.state = .running := by
  rw [rouse] at running
  split at running
  · cases running
  · exact running

end ProcessRecord

namespace Dispatcher

/-- What is left of turns stays within bounds. -/
structure Paced (turn : UInt32) (before after : Dispatcher) : Prop where
  left : ∀ slot, WithinTurn turn (before.table.process slot).timeSlice →
    WithinTurn turn (after.table.process slot).timeSlice
  timeSlice : after.table.timeSlice = before.table.timeSlice
  config : after.scheduler.config = before.scheduler.config

/-- Turns are as long as the settings say, and what live processes have left of theirs is within
bounds. -/
structure Sliced (turn : UInt32) (dispatcher : Dispatcher) : Prop where
  config : dispatcher.scheduler.config.timeSliceTicks = turn
  timeSlice : dispatcher.table.timeSlice = turn
  left : ∀ slot, (dispatcher.table.process slot).isLive = true →
    WithinTurn turn (dispatcher.table.process slot).timeSlice

/-- The clock shows another tick, and whoever was to sleep until then is awake. -/
def awake (dispatcher : Dispatcher) : Dispatcher :=
  dispatcher.roused (dispatcher.scheduler.ticks + 1)

/-- A tick in the middle of a turn: all that happens besides is that the process in the slot is
charged. -/
def spend (dispatcher : Dispatcher) (slot : Slot) : Dispatcher :=
  { dispatcher.awake with
    table := dispatcher.awake.table.update slot fun process =>
      { process with
        totalTicks := process.totalTicks + 1
        timeSlice := process.timeSlice - 1 } }

/-- The last tick of a turn, as far as the decision that it leads to: the process in the slot has a
whole turn again, and waits for it if it was running. -/
def renew (dispatcher : Dispatcher) (slot : Slot) : Dispatcher :=
  { dispatcher.awake with
    table := dispatcher.awake.table.update slot fun process => ProcessRecord.demote
      { process with
        totalTicks := process.totalTicks + 1
        timeSlice := dispatcher.scheduler.config.timeSliceTicks } }

section Paced

variable {turn : UInt32} {before between after : Dispatcher} {plan : Option Switch} {slot : Slot}

theorem Paced.refl (turn : UInt32) (dispatcher : Dispatcher) : Paced turn dispatcher dispatcher :=
  ⟨fun _ => id, rfl, rfl⟩

theorem Paced.trans (first : Paced turn before between) (second : Paced turn between after) :
    Paced turn before after where
  left slot within := second.left slot (first.left slot within)
  timeSlice := second.timeSlice.trans first.timeSlice
  config := second.config.trans first.config

theorem paced_update (before : Dispatcher) {change : ProcessRecord → ProcessRecord}
    (keeps : WithinTurn turn (before.table.process slot).timeSlice →
      WithinTurn turn (change (before.table.process slot)).timeSlice) :
    Paced turn before { before with table := before.table.update slot change } where
  left other within := by
    rw [process_update]
    split
    · rename_i here
      subst here
      exact keeps within
    · exact within
  timeSlice := rfl
  config := rfl

theorem paced_relieve (turn : UInt32) (before : Dispatcher) :
    Paced turn before { before with table := before.table.relieve } := by
  rw [relieve]
  split
  · apply paced_update
    rw [ProcessRecord.timeSlice_demote]
    exact id
  · exact .refl turn before

theorem paced_roused (turn : UInt32) (before : Dispatcher) (ticks : UInt64) :
    Paced turn before (before.roused ticks) where
  left slot within := by
    rw [process_roused, ProcessRecord.timeSlice_rouse]
    exact within
  timeSlice := rfl
  config := rfl

theorem paced_schedule (whole : before.scheduler.config.timeSliceTicks = turn)
    (run : schedule.Yields before plan after) : Paced turn before after := by
  cases decision_of_schedule run with
  | nobody noneChosen => exact .refl turn before
  | again chosen isCurrent => exact paced_update before id
  | @other slot switch chosen notCurrent incoming =>
      have granted : Paced turn { before with table := before.table.relieve }
          { before with
            table := before.table.relieve.update slot fun process =>
              { process with
                state := .running
                timeSlice := before.scheduler.config.timeSliceTicks } } := by
        apply paced_update
        intro _
        rw [whole]
        exact withinTurn_whole turn
      have passed := (paced_relieve turn before).trans granted
      exact ⟨passed.left, passed.timeSlice, rfl⟩

theorem paced_yield (whole : before.scheduler.config.timeSliceTicks = turn)
    (run : Dispatcher.yield.Yields before plan after) : Paced turn before after :=
  (paced_relieve turn before).trans (paced_schedule whole (yields_yield_iff.mp run))

theorem paced_sleep (whole : before.scheduler.config.timeSliceTicks = turn) {milliseconds : UInt32}
    (run : (Dispatcher.sleep milliseconds).Yields before plan after) : Paced turn before after := by
  rw [yields_sleep_iff] at run
  split at run
  · exact paced_yield whole run
  · rcases run with ⟨wakeAt, -, run⟩
    split at run
    · rw [run.2]
      exact .refl turn before
    · rename_i slot isCurrent
      have dozes : Paced turn before
          { before with table := before.table.update slot fun process => process.doze wakeAt } :=
        paced_update before id
      exact dozes.trans (paced_schedule whole run)

theorem paced_tick (whole : before.scheduler.config.timeSliceTicks = turn)
    (run : Dispatcher.tick.Yields before plan after) : Paced turn before after := by
  rcases yields_tick_iff.mp run with ⟨ticks, -, run⟩
  refine (paced_roused turn before ticks).trans ?_
  rw [Charges] at run
  split at run
  · rw [run.2]
    exact .refl turn _
  · rcases run with ⟨totalTicks, -, run⟩
    split at run
    · rename_i more
      rw [run.2]
      exact paced_update _ fun within => within.charge more
    · refine Paced.trans (paced_update _ ?_) (paced_schedule whole run)
      intro _
      rw [ProcessRecord.timeSlice_demote]
      change WithinTurn turn before.scheduler.config.timeSliceTicks
      rw [whole]
      exact withinTurn_whole turn

end Paced

section Sliced

variable {turn : UInt32} {before after : Dispatcher} {plan : Option Switch} {slot : Slot}

theorem sliced_empty (config : SchedulerConfig) :
    Sliced config.timeSliceTicks ⟨.empty config.timeSliceTicks, { config }⟩ where
  config := rfl
  timeSlice := rfl
  left slot live := by
    rw [process_empty] at live
    cases live

theorem Sliced.paced (sliced : before.Sliced turn) (paced : Paced turn before after)
    (live : ∀ slot, (after.table.process slot).isLive = true →
      (before.table.process slot).isLive = true) : after.Sliced turn where
  config := (congrArg SchedulerConfig.timeSliceTicks paced.config).trans sliced.config
  timeSlice := paced.timeSlice.trans sliced.timeSlice
  left slot isLive := paced.left slot (sliced.left slot (live slot isLive))

theorem Sliced.rethreaded {table : ProcessTable} (sliced : before.Sliced turn)
    (rethreaded : Rethreaded before.table table) : Sliced turn { before with table } where
  config := sliced.config
  timeSlice := rethreaded.timeSlice.trans sliced.timeSlice
  left slot live := by
    rcases rethreaded.process slot with ⟨next, same⟩
    rw [same] at live ⊢
    exact sliced.left slot live

/-- A process that is created has a whole turn ahead. -/
theorem Sliced.create (sliced : before.Sliced turn) {name : String} {entry priority : UInt32}
    {resources : ProcessResources} {reply : Except ProcessError Pid} {table : ProcessTable}
    (run : (ProcessTable.create name entry priority resources).Yields before.table reply table) :
    Sliced turn { before with table } := by
  rcases create_records run with ⟨-, -, rfl⟩ | ⟨place, pid, next, -, -, -, rethreaded⟩
  · exact sliced
  · let counted : ProcessTable := { before.table with nextPid := next }
    let entered := counted.update place fun _ =>
      .fresh pid name entry priority before.table.timeSlice resources
    have enters : Sliced turn { before with table := entered } := by
      refine ⟨sliced.config, sliced.timeSlice, fun slot live => ?_⟩
      simp only [entered, counted, process_update] at live ⊢
      split
      · change WithinTurn turn before.table.timeSlice
        rw [sliced.timeSlice]
        exact withinTurn_whole turn
      · rename_i elsewhere
        rw [if_neg elsewhere] at live
        exact sliced.left slot live
    exact enters.rethreaded rethreaded

theorem Sliced.exit (sliced : before.Sliced turn) {code : Int32} {reply : Option ProcessRecord}
    {table : ProcessTable} (run : (ProcessTable.exit code).Yields before.table reply table) :
    Sliced turn { before with table } := by
  rcases exit_records run with ⟨-, -, rfl⟩ | ⟨place, between, -, rethreaded, rfl, -⟩
  · exact sliced
  · have idle : Sliced turn { before with table := { before.table with current := none } } :=
      ⟨sliced.config, sliced.timeSlice, sliced.left⟩
    refine (idle.rethreaded rethreaded).paced (paced_update _ id) fun slot live => ?_
    rw [process_update] at live
    split at live
    · cases live
    · exact live

theorem Sliced.scheduled (sliced : before.Sliced turn) (paced : Paced turn before after)
    (scheduled : Scheduled before after plan) : after.Sliced turn := by
  refine sliced.paced paced fun slot live => ?_
  have same := scheduled.occupant slot
  apply Bool.of_not_eq_false
  intro ended
  have vacant := ProcessRecord.identity_eq_none.mpr ended
  rw [occupant, occupant, vacant, ProcessRecord.identity_eq_none] at same
  rw [same] at live
  cases live

/-- Whatever is called for short of starting over, turns stay within bounds. -/
theorem Call.act_sliced (call : Call) (onward : ∀ timeSlice, call ≠ .reset timeSlice)
    (live : CurrentLive before.table) (sliced : before.Sliced turn)
    (run : call.act.Yields before plan after) : after.Sliced turn := by
  cases call with
  | create name entry priority resources =>
      rcases yields_unplanned.mp run with ⟨-, reply, table, created, rfl⟩
      exact sliced.create created
  | exit code =>
      rcases yields_unplanned.mp run with ⟨-, reply, table, exited, rfl⟩
      exact sliced.exit exited
  | reset timeSlice => exact absurd rfl (onward timeSlice)
  | schedule =>
      exact sliced.scheduled (paced_schedule sliced.config run) (schedule_scheduled live run)
  | tick => exact sliced.scheduled (paced_tick sliced.config run) (tick_scheduled live run)
  | yield => exact sliced.scheduled (paced_yield sliced.config run) (yield_scheduled live run)
  | sleep milliseconds =>
      exact sliced.scheduled (paced_sleep sliced.config run) (sleep_scheduled live run)
  | perform switch registers =>
      rcases yields_unplanned.mp run with ⟨-, _, table, saved, rfl⟩
      rcases Operation.yields_modify.mp saved with rfl
      refine ⟨sliced.config, ?_, fun slot isLive => ?_⟩
      · rcases switch with ⟨_ | ⟨pid, place⟩, incoming, target⟩
        · exact sliced.timeSlice
        · exact sliced.timeSlice
      · rcases process_apply switch registers before.table slot with ⟨context, same⟩
        rw [same] at isLive ⊢
        exact sliced.left slot isLive

end Sliced

section Ticks

variable {before after : Dispatcher} {plan : Option Switch} {slot : Slot}

theorem update_congr {table : ProcessTable} {change other : ProcessRecord → ProcessRecord}
    (same : change (table.process slot) = other (table.process slot)) :
    table.update slot change = table.update slot other := by
  simp only [update, same]

/-- What a tick comes to when somebody has the processor, if the tick can be counted. -/
theorem yields_tick_iff_of_current (isCurrent : before.table.current = some slot)
    (clock : before.scheduler.ticks.toNat + 1 < UInt64.size)
    (spent : (before.table.process slot).totalTicks.toNat + 1 < UInt64.size) :
    Dispatcher.tick.Yields before plan after ↔
      if 1 < (before.table.process slot).timeSlice then
        plan = none ∧ after = before.spend slot
      else schedule.Yields (before.renew slot) plan after := by
  have holds : before.awake.table.current = some slot := isCurrent
  have process : before.awake.table.process slot =
      (before.table.process slot).rouse (before.scheduler.ticks + 1) := process_roused before _ slot
  have total : (before.awake.table.process slot).totalTicks =
      (before.table.process slot).totalTicks := by
    rw [process, ProcessRecord.totalTicks_rouse]
  have left : (before.awake.table.process slot).timeSlice =
      (before.table.process slot).timeSlice := by
    rw [process, ProcessRecord.timeSlice_rouse]
  have spends : before.spend slot = { before.awake with
      table := before.awake.table.update slot fun process =>
        { process with
          totalTicks := (before.table.process slot).totalTicks + 1
          timeSlice := process.timeSlice - 1 } } := by
    rw [← total]
    exact congrArg (Dispatcher.mk · before.awake.scheduler) (update_congr rfl)
  have renews : before.renew slot = { before.awake with
      table := before.awake.table.update slot fun process => ProcessRecord.demote
        { process with
          totalTicks := (before.table.process slot).totalTicks + 1
          timeSlice := before.awake.scheduler.config.timeSliceTicks } } := by
    rw [← total]
    exact congrArg (Dispatcher.mk · before.awake.scheduler) (update_congr rfl)
  have charges : Dispatcher.tick.Yields before plan after ↔ before.awake.Charges plan after := by
    rw [yields_tick_iff, Checked.add64_one clock]
    simp only [Except.ok.injEq, exists_eq_left']
    rfl
  rw [charges, spends, renews]
  simp only [Charges, holds, total, left, Checked.add64_one spent, Except.ok.injEq, exists_eq_left']

/-- A tick in the middle of a turn takes one off what is left of it. -/
theorem timeSlice_spend (more : 1 < (before.table.process slot).timeSlice) :
    ((before.spend slot).table.process slot).timeSlice.toNat + 1 =
      (before.table.process slot).timeSlice.toNat := by
  have taken := UInt32.toNat_sub_of_le _ _ (UInt32.le_of_lt more)
  have one : (1 : UInt32).toNat = 1 := rfl
  rw [UInt32.lt_iff_toNat_lt] at more
  rw [spend, process_update, if_pos rfl, awake, process_roused, ProcessRecord.timeSlice_rouse]
  change ((before.table.process slot).timeSlice - 1).toNat + 1 = _
  omega

theorem totalTicks_spend
    (fits : (before.table.process slot).totalTicks.toNat + 1 < UInt64.size) :
    ((before.spend slot).table.process slot).totalTicks.toNat =
      (before.table.process slot).totalTicks.toNat + 1 := by
  rw [spend, process_update, if_pos rfl, awake, process_roused, ProcessRecord.totalTicks_rouse]
  exact Checked.toNat_add_one fits

end Ticks

end Dispatcher

end KernelCore
