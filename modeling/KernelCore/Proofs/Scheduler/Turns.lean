import KernelCore.Proofs.Scheduler.States

/-!
# How a turn ends

Giving a turn up, going to sleep and counting a tick all come down to a decision, which is made
after the books have been changed in one way or another. Here it says which way that is, so that
whatever is to be known of these operations follows from what is known of decisions.
-/

namespace KernelCore

open ProcessTable

namespace ProcessRecord

/-- What becomes of a process as a tick is counted: it wakes up if its time has come. -/
def rouse (process : ProcessRecord) (now : UInt64) : ProcessRecord :=
  if process.isDue now then process.wake else process

/-- The process is put to sleep. -/
def doze (process : ProcessRecord) (wakeAt : UInt64) : ProcessRecord :=
  { process with state := .blocked, wakeAt := some wakeAt }

theorem pid_demote (process : ProcessRecord) : process.demote.pid = process.pid :=
  same_demote pid (fun _ _ => rfl) process

/-- Waking up changes nothing but what a process is doing and how long it sleeps. -/
theorem same_rouse {Part : Type} (part : ProcessRecord → Part)
    (blind : ∀ process state wakeAt, part { process with state, wakeAt } = part process)
    (process : ProcessRecord) (now : UInt64) : part (process.rouse now) = part process := by
  rw [rouse]
  split
  · exact blind process .ready none
  · rfl

end ProcessRecord

namespace Dispatcher

/-- The clock shows a tick, and those whose sleep is over are awake. -/
def roused (dispatcher : Dispatcher) (ticks : UInt64) : Dispatcher where
  table := { dispatcher.table with
    processes := dispatcher.table.processes.map fun process => process.rouse ticks }
  scheduler := { dispatcher.scheduler with ticks }

/-- What is left to be done in a tick when those whose sleep is over are awake: the process that has
the processor is charged, and there is a decision when its turn is over. -/
def Charges (before : Dispatcher) (plan : Option Switch) (after : Dispatcher) : Prop :=
  match before.table.current with
  | none => plan = none ∧ after = before
  | some slot =>
      ∃ totalTicks, Checked.add64 (before.table.process slot).totalTicks 1 = .ok totalTicks ∧
        if 1 < (before.table.process slot).timeSlice then
          plan = none ∧ after = { before with
            table := before.table.update slot fun process =>
              { process with totalTicks, timeSlice := process.timeSlice - 1 } }
        else
          schedule.Yields { before with
            table := before.table.update slot fun process => ProcessRecord.demote
              { process with totalTicks, timeSlice := before.scheduler.config.timeSliceTicks } }
            plan after

section Turns

variable {before after : Dispatcher} {plan : Option Switch} {slot : Slot}

theorem process_roused (dispatcher : Dispatcher) (ticks : UInt64) (slot : Slot) :
    (dispatcher.roused ticks).table.process slot =
      (dispatcher.table.process slot).rouse ticks := by
  simp [roused, process]

/-- Giving the turn up is a decision after the process that has the processor is made ready. -/
theorem yields_yield_iff :
    Dispatcher.yield.Yields before plan after ↔
      schedule.Yields { before with table := before.table.relieve } plan after := by
  cases current : before.table.current with
  | none => simp [Dispatcher.yield, current, relieve]
  | some slot => simp [Dispatcher.yield, current, relieve]

/-- Going to sleep for less than a tick is giving the turn up; else it is a decision after the
process that has the processor is put to sleep, if there is one. -/
theorem yields_sleep_iff {milliseconds : UInt32} :
    (Dispatcher.sleep milliseconds).Yields before plan after ↔
      if before.scheduler.ticksOfMilliseconds milliseconds = 0 then
        Dispatcher.yield.Yields before plan after
      else
        ∃ wakeAt, Checked.add64 before.scheduler.ticks
            (before.scheduler.ticksOfMilliseconds milliseconds) = .ok wakeAt ∧
          match before.table.current with
          | none => plan = none ∧ after = before
          | some slot =>
              schedule.Yields { before with
                table := before.table.update slot fun process => process.doze wakeAt }
                plan after := by
  by_cases short : before.scheduler.ticksOfMilliseconds milliseconds = 0
  · simp [Dispatcher.sleep, short]
  · cases current : before.table.current with
    | none => simp [Dispatcher.sleep, short, current]
    | some slot => simp [Dispatcher.sleep, short, current, ProcessRecord.doze]

theorem yields_charge_iff {last : Bool} :
    (charge slot).Yields before last after ↔
      ∃ totalTicks, Checked.add64 (before.table.process slot).totalTicks 1 = .ok totalTicks ∧
        if 1 < (before.table.process slot).timeSlice then
          last = false ∧ after = { before with
            table := before.table.update slot fun process =>
              { process with totalTicks, timeSlice := process.timeSlice - 1 } }
        else
          last = true ∧ after = { before with
            table := before.table.update slot fun process =>
              { process with
                totalTicks, timeSlice := before.scheduler.config.timeSliceTicks } } := by
  by_cases more : 1 < (before.table.process slot).timeSlice
  · simp [charge, more, and_comm]
  · simp [charge, more, and_comm]

theorem yields_charging (start : Dispatcher) :
    Operation.Yields
      (match start.table.current with
        | none => return none
        | some slot => do
            if ← charge slot then
              updateProcess slot ProcessRecord.demote
              schedule
            else
              return none)
      start plan after ↔ start.Charges plan after := by
  rw [Charges]
  cases current : start.table.current with
  | none => simp
  | some slot =>
      simp only [Operation.yields_bind, yields_charge_iff]
      by_cases more : 1 < (start.table.process slot).timeSlice
      · simp [more]
      · simp [more, update_update]

/-- A tick wakes up those whose sleep is over, and then charges the process that has the
processor. -/
theorem yields_tick_iff :
    Dispatcher.tick.Yields before plan after ↔
      ∃ ticks, Checked.add64 before.scheduler.ticks 1 = .ok ticks ∧
        (before.roused ticks).Charges plan after := by
  have waking : ∀ ticks,
      (wakeSleepers ticks).Yields before.table () (before.roused ticks).table := by
    intro ticks
    simp [wakeSleepers, Dispatcher.roused, ProcessRecord.rouse]
  simp only [Dispatcher.tick, Operation.yields_bind, Operation.yields_get, Operation.yields_modify,
    Operation.yields_liftM, yields_onTable, exists_and_left, exists_eq_left, and_assoc,
    (waking _).iff, exists_const, true_and]
  refine exists_congr fun ticks => and_congr_right fun _ => ?_
  exact yields_charging (before.roused ticks)

end Turns

end Dispatcher

end KernelCore
