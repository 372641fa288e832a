import KernelCore.Proofs.Scheduler.Lookup
import KernelCore.Proofs.Scheduler.Turns

/-!
# How long a process sleeps

A process that goes to sleep until a tick is blocked as long as the clock shows less, and from that
tick on it is not. Nothing that is asked of the processes and the scheduler changes this, unless the
process itself ends or goes to sleep again: no other operation makes a blocked process ready, and no
tick passes without waking up those whose time has come.
-/

namespace KernelCore

open ProcessTable

namespace Scheduler

/-- The length of a sleep is a word, with bits to spare. -/
theorem toNat_ticksOfMilliseconds (scheduler : Scheduler) (milliseconds : UInt32) :
    milliseconds.toNat * scheduler.config.timerFrequency.toNat < 2 ^ 64 ∧
      (scheduler.ticksOfMilliseconds milliseconds).toNat =
        (milliseconds.toNat * scheduler.config.timerFrequency.toNat + 999) / 1000 ∧
      (scheduler.ticksOfMilliseconds milliseconds).toNat < 2 ^ 63 := by
  have product := Nat.mul_lt_mul'' milliseconds.toNat_lt scheduler.config.timerFrequency.toNat_lt
  have fits : (scheduler.ticksOfMilliseconds milliseconds).toNat =
      (milliseconds.toNat * scheduler.config.timerFrequency.toNat + 999) / 1000 := by
    rw [ticksOfMilliseconds, UInt64.toNat_ofNat']
    omega
  exact ⟨by omega, fits, by omega⟩

/-- A sleep lasts for the least number of ticks that are as long as the milliseconds. -/
theorem isLeast_ticksOfMilliseconds (scheduler : Scheduler) (milliseconds : UInt32) :
    IsLeast {count | milliseconds.toNat * scheduler.config.timerFrequency.toNat ≤ count * 1000}
      (scheduler.ticksOfMilliseconds milliseconds).toNat := by
  rw [(scheduler.toNat_ticksOfMilliseconds milliseconds).2.1]
  constructor
  · rw [Set.mem_ofPred_eq]
    omega
  · intro count enough
    rw [Set.mem_ofPred_eq] at enough
    omega

end Scheduler

namespace ProcessRecord

/-- The process was put to sleep until a tick: before that tick it is blocked, and from then on it
is live and not blocked. -/
def SleepsUntil (process : ProcessRecord) (wakeAt now : UInt64) : Prop :=
  if now < wakeAt then process.state = .blocked ∧ process.wakeAt = some wakeAt
  else process.isLive = true ∧ process.state ≠ .blocked

section SleepsUntil

variable {process other : ProcessRecord} {wakeAt now next : UInt64}

theorem SleepsUntil.congr (sleeps : process.SleepsUntil wakeAt now)
    (state : other.state = process.state) (same : other.wakeAt = process.wakeAt) :
    other.SleepsUntil wakeAt now := by
  rw [SleepsUntil, isLive] at sleeps ⊢
  rwa [state, same]

theorem SleepsUntil.blocked_iff (sleeps : process.SleepsUntil wakeAt now) :
    process.state = .blocked ↔ now < wakeAt := by
  by_cases early : now < wakeAt
  · rw [SleepsUntil, if_pos early] at sleeps
    simp [sleeps.1, early]
  · rw [SleepsUntil, if_neg early] at sleeps
    simp [sleeps.2, early]

theorem SleepsUntil.live (sleeps : process.SleepsUntil wakeAt now) : process.isLive = true := by
  by_cases early : now < wakeAt
  · rw [SleepsUntil, if_pos early] at sleeps
    simp [isLive, sleeps.1]
  · rw [SleepsUntil, if_neg early] at sleeps
    exact sleeps.1

theorem sleepsUntil_of_running (late : ¬now < wakeAt) (running : process.state = .running) :
    process.SleepsUntil wakeAt now := by
  rw [SleepsUntil, if_neg late, isLive, running]
  exact ⟨rfl, by decide⟩

/-- Only a process whose sleep is over gets the processor. -/
theorem SleepsUntil.run (sleeps : process.SleepsUntil wakeAt now) (ready : process.state = .ready)
    (running : other.state = .running) : other.SleepsUntil wakeAt now := by
  refine sleepsUntil_of_running (fun early => ?_) running
  rw [sleeps.blocked_iff.mpr early] at ready
  cases ready

theorem SleepsUntil.demote (sleeps : process.SleepsUntil wakeAt now) :
    process.demote.SleepsUntil wakeAt now := by
  by_cases running : process.state = .running
  · have late : ¬now < wakeAt := by
      rw [← sleeps.blocked_iff, running]
      decide
    rw [ProcessRecord.demote, if_pos running, SleepsUntil, if_neg late]
    exact ⟨rfl, by simp⟩
  · rw [ProcessRecord.demote, if_neg running]
    exact sleeps

/-- A tick wakes the process up if it is the one until which it sleeps, and not if it is an earlier
one. -/
theorem SleepsUntil.rouse (sleeps : process.SleepsUntil wakeAt now)
    (onward : next.toNat = now.toNat + 1) : (process.rouse next).SleepsUntil wakeAt next := by
  rw [SleepsUntil] at sleeps
  by_cases early : now < wakeAt
  · rw [if_pos early] at sleeps
    by_cases still : next < wakeAt
    · have asleep : process.isDue next = false := by simp [isDue, sleeps.1, sleeps.2, still]
      rw [ProcessRecord.rouse, asleep, SleepsUntil, if_pos still]
      exact sleeps
    -- No tick is left out, so this is the one until which the process sleeps.
    · have due : process.isDue next = true := by
        simpa [isDue, sleeps.1, sleeps.2] using still
      rw [ProcessRecord.rouse, due, SleepsUntil, if_neg still]
      exact ⟨rfl, by simp [wake]⟩
  · have late : ¬next < wakeAt := by
      rw [UInt64.lt_iff_toNat_lt] at early ⊢
      omega
    rw [if_neg early] at sleeps
    have awake : process.isDue next = false := by simp [isDue, sleeps.2]
    rw [ProcessRecord.rouse, awake, SleepsUntil, if_neg late]
    exact sleeps

theorem sleepsUntil_doze (later : now < wakeAt) : (process.doze wakeAt).SleepsUntil wakeAt now := by
  rw [SleepsUntil, if_pos later]
  exact ⟨rfl, rfl⟩

end SleepsUntil

end ProcessRecord

namespace Dispatcher

/-- The process with an id, which was put to sleep until a tick, lives in a slot. -/
structure Sleeper (dispatcher : Dispatcher) (slot : Slot) (pid : Pid) (wakeAt : UInt64) : Prop where
  pid : (dispatcher.table.process slot).pid = pid
  sleeps : (dispatcher.table.process slot).SleepsUntil wakeAt dispatcher.scheduler.ticks

section Sleeper

variable {before after : Dispatcher} {plan : Option Switch} {slot place : Slot} {pid : Pid}
  {wakeAt : UInt64} {table : ProcessTable}

theorem Sleeper.update_of_ne (sleeper : before.Sleeper slot pid wakeAt) (elsewhere : place ≠ slot)
    (change : ProcessRecord → ProcessRecord) :
    Sleeper { before with table := before.table.update place change } slot pid wakeAt where
  pid := by
    simp only [process_update, if_neg elsewhere]
    exact sleeper.pid
  sleeps := by
    simp only [process_update, if_neg elsewhere]
    exact sleeper.sleeps

/-- A change of a process that does not touch its sleep. -/
theorem Sleeper.update (sleeper : before.Sleeper slot pid wakeAt)
    {change : ProcessRecord → ProcessRecord}
    (samePid : ∀ process, (change process).pid = process.pid)
    (still : ∀ process now, process.SleepsUntil wakeAt now →
      (change process).SleepsUntil wakeAt now) (place : Slot) :
    Sleeper { before with table := before.table.update place change } slot pid wakeAt := by
  by_cases here : place = slot
  · subst here
    constructor
    · simp only [process_update, if_true]
      rw [samePid, sleeper.pid]
    · simp only [process_update, if_true]
      exact still _ _ sleeper.sleeps
  · exact sleeper.update_of_ne here change

theorem Sleeper.relieve (sleeper : before.Sleeper slot pid wakeAt) :
    Sleeper { before with table := before.table.relieve } slot pid wakeAt := by
  rw [ProcessTable.relieve]
  split
  · exact sleeper.update ProcessRecord.pid_demote (fun _ _ sleeps => sleeps.demote) _
  · exact sleeper

/-- A decision leaves whoever sleeps asleep. -/
theorem Decision.sleeper (decision : Decision before plan after)
    (sleeper : before.Sleeper slot pid wakeAt) : after.Sleeper slot pid wakeAt := by
  cases decision with
  | nobody noneChosen => exact sleeper
  | @again place chosen isCurrent =>
      by_cases here : place = slot
      · subst here
        constructor
        · simp only [process_update, if_true]
          exact sleeper.pid
        · simp only [process_update, if_true]
          exact sleeper.sleeps.run (ready_of_select chosen) rfl
      · exact sleeper.update_of_ne here _
  | @other place switch chosen notCurrent incoming =>
      by_cases here : place = slot
      · subst here
        constructor
        · simp only [process_grant_self notCurrent]
          exact sleeper.pid
        · simp only [process_grant_self notCurrent]
          exact sleeper.sleeps.run (ready_of_select chosen) rfl
      · have relieved := sleeper.relieve
        constructor
        · simp only [process_grant_of_ne here, ← process_relieve]
          exact relieved.pid
        · simp only [process_grant_of_ne here, ← process_relieve]
          exact relieved.sleeps

theorem Sleeper.schedule (sleeper : before.Sleeper slot pid wakeAt)
    (run : schedule.Yields before plan after) : after.Sleeper slot pid wakeAt :=
  (decision_of_schedule run).sleeper sleeper

theorem Sleeper.yield (sleeper : before.Sleeper slot pid wakeAt)
    (run : Dispatcher.yield.Yields before plan after) : after.Sleeper slot pid wakeAt :=
  sleeper.relieve.schedule (yields_yield_iff.mp run)

theorem Sleeper.currentPid (sleeper : before.Sleeper slot pid wakeAt)
    (isCurrent : before.table.current = some slot) : before.table.currentPid = some pid := by
  rw [currentPid_of_current isCurrent, sleeper.pid]

/-- Others go to sleep, but the process itself does not. -/
theorem Sleeper.sleep (sleeper : before.Sleeper slot pid wakeAt) {milliseconds : UInt32}
    (spares : before.Spares (· = pid) milliseconds)
    (run : (Dispatcher.sleep milliseconds).Yields before plan after) :
    after.Sleeper slot pid wakeAt := by
  rw [yields_sleep_iff] at run
  split at run
  · exact sleeper.yield run
  · rename_i long
    rcases run with ⟨finish, -, run⟩
    split at run
    · rw [run.2]
      exact sleeper
    · rename_i place isCurrent
      refine (sleeper.update_of_ne ?_ _).schedule run
      rintro rfl
      exact long (spares pid (sleeper.currentPid isCurrent) rfl)

theorem Sleeper.roused (sleeper : before.Sleeper slot pid wakeAt) {ticks : UInt64}
    (onward : ticks.toNat = before.scheduler.ticks.toNat + 1) :
    (before.roused ticks).Sleeper slot pid wakeAt where
  pid := by
    rw [process_roused, ProcessRecord.rouse]
    split
    · exact sleeper.pid
    · exact sleeper.pid
  sleeps := by
    rw [process_roused]
    exact sleeper.sleeps.rouse onward

theorem Sleeper.tick (sleeper : before.Sleeper slot pid wakeAt)
    (run : Dispatcher.tick.Yields before plan after) : after.Sleeper slot pid wakeAt := by
  rcases yields_tick_iff.mp run with ⟨ticks, sum, run⟩
  have awake := sleeper.roused (Checked.add64_eq_ok_iff.mp sum)
  rw [Charges] at run
  split at run
  · rw [run.2]
    exact awake
  · rename_i place _
    rcases run with ⟨totalTicks, -, run⟩
    split at run
    · rw [run.2]
      refine awake.update ?_ ?_ place
      · exact fun _ => rfl
      · exact fun _ _ sleeps => sleeps.congr rfl rfl
    · refine (awake.update ?_ ?_ place).schedule run
      · exact fun _ => ProcessRecord.pid_demote _
      · intro process now sleeps
        apply ProcessRecord.SleepsUntil.demote
        exact sleeps.congr rfl rfl

theorem Sleeper.rethreaded (sleeper : before.Sleeper slot pid wakeAt)
    (rethreaded : Rethreaded before.table table) :
    Sleeper { before with table } slot pid wakeAt := by
  rcases rethreaded.process slot with ⟨next, same⟩
  constructor
  · rw [same]
    exact sleeper.pid
  · rw [same]
    exact sleeper.sleeps.congr rfl rfl

theorem Sleeper.create (sleeper : before.Sleeper slot pid wakeAt) {name : String}
    {entry priority : UInt32} {resources : ProcessResources} {reply : Except ProcessError Pid}
    (run : (create name entry priority resources).Yields before.table reply table) :
    Sleeper { before with table } slot pid wakeAt := by
  rcases create_records run with ⟨-, -, rfl⟩ | ⟨place, given, next, -, vacant, -, rethreaded⟩
  · exact sleeper
  · have elsewhere : place ≠ slot := by
      rintro rfl
      exact Bool.false_ne_true (vacant.symm.trans sleeper.sleeps.live)
    have numbered : Sleeper { before with table := { before.table with nextPid := next } }
        slot pid wakeAt := ⟨sleeper.pid, sleeper.sleeps⟩
    have entered := numbered.update_of_ne elsewhere fun _ =>
      .fresh given name entry priority before.table.timeSlice resources
    exact entered.rethreaded rethreaded

/-- Others end, but the process itself does not. -/
theorem Sleeper.exit (sleeper : before.Sleeper slot pid wakeAt)
    (other : before.table.currentPid ≠ some pid) {code : Int32} {reply : Option ProcessRecord}
    (run : (exit code).Yields before.table reply table) :
    Sleeper { before with table } slot pid wakeAt := by
  rcases exit_records run with ⟨-, -, rfl⟩ | ⟨place, between, isCurrent, rethreaded, rfl, -⟩
  · exact sleeper
  · have elsewhere : place ≠ slot := by
      rintro rfl
      exact other (sleeper.currentPid isCurrent)
    have vacated : Sleeper { before with table := { before.table with current := none } }
        slot pid wakeAt := ⟨sleeper.pid, sleeper.sleeps⟩
    exact (vacated.rethreaded rethreaded).update_of_ne elsewhere _

theorem Sleeper.perform (sleeper : before.Sleeper slot pid wakeAt) (switch : Switch)
    (registers : Context) :
    Sleeper { before with table := (switch.apply registers before.table).2 } slot pid wakeAt := by
  rcases switch with ⟨_ | ⟨outgoing, place⟩, incoming, target⟩
  · exact sleeper
  · have saved : Sleeper { before with table := before.table.update place fun process =>
        { process with context := registers } } slot pid wakeAt := by
      refine sleeper.update ?_ ?_ place
      · exact fun _ => rfl
      · exact fun _ _ sleeps => sleeps.congr rfl rfl
    exact saved

end Sleeper

section Others

variable {before after : Dispatcher} {plan : Option Switch} {slot place : Slot}

/-- A decision changes nothing about whoever has not got the processor, unless it gets it. -/
theorem Decision.others (decision : Decision before plan after)
    (waits : before.table.current ≠ some place) :
    after.table.process place =
      if plan.map (fun switch => switch.incoming.2) = some place then
        { before.table.process place with
          state := .running, timeSlice := before.scheduler.config.timeSliceTicks }
      else before.table.process place := by
  cases decision with
  | nobody noneChosen => rfl
  | again chosen isCurrent =>
      have elsewhere : _ ≠ place := fun here => waits (here ▸ isCurrent)
      simp only [process_update, if_neg elsewhere]
      rfl
  | @other chosenSlot switch chosen notCurrent incoming =>
      simp only [Option.map_some, incoming, Option.some.injEq]
      split
      · rename_i here
        subst here
        exact process_grant_self notCurrent _
      · rename_i elsewhere
        rw [process_grant_of_ne elsewhere, if_neg waits]

/-- Going to sleep changes nothing about others, but for the one that gets the processor. -/
theorem sleep_others {milliseconds : UInt32} (waits : before.table.current ≠ some place)
    (run : (Dispatcher.sleep milliseconds).Yields before plan after) :
    after.table.process place =
      if plan.map (fun switch => switch.incoming.2) = some place then
        { before.table.process place with
          state := .running, timeSlice := before.scheduler.config.timeSliceTicks }
      else before.table.process place := by
  rw [yields_sleep_iff] at run
  split at run
  · have still : before.table.relieve.current ≠ some place := by
      rwa [current_relieve]
    have others := (decision_of_schedule (yields_yield_iff.mp run)).others still
    rwa [process_relieve, if_neg waits] at others
  · rcases run with ⟨wakeAt, -, run⟩
    split at run
    · rw [run.1, run.2]
      rfl
    · rename_i slot isCurrent
      have elsewhere : slot ≠ place := fun here => waits (here ▸ isCurrent)
      have others := (decision_of_schedule run).others waits
      simpa only [process_update, if_neg elsewhere] using others

/-- The clock stands still while a process goes to sleep. -/
theorem scheduler_of_sleep {milliseconds : UInt32}
    (run : (Dispatcher.sleep milliseconds).Yields before plan after) :
    after.scheduler = before.scheduler := by
  rw [yields_sleep_iff] at run
  split at run
  · exact (decision_of_schedule (yields_yield_iff.mp run)).scheduler
  · rcases run with ⟨wakeAt, -, run⟩
    split at run
    · rw [run.2]
    · exact (decision_of_schedule run).scheduler

/-- Going to sleep for less than a tick is giving the turn up. -/
theorem sleep_eq_yield {milliseconds : UInt32}
    (short : before.scheduler.ticksOfMilliseconds milliseconds = 0) :
    Dispatcher.sleep milliseconds before = Dispatcher.yield before := by
  rw [Dispatcher.sleep, Operation.get_bind_apply]
  simp only [short, if_true]

end Others

end Dispatcher

end KernelCore
