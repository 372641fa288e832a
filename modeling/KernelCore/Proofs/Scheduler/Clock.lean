import KernelCore.Proofs.Safety
import KernelCore.Proofs.Scheduler.Attended
import KernelCore.Proofs.Scheduler.Placement
import KernelCore.Proofs.Scheduler.Sleep

/-!
# What the clock shows

The clock counts ticks, and so does every process that has the processor meanwhile. No process has
had more ticks than the clock shows, since both start from zero and a tick is charged to one process
at most. `Dispatcher.Timed` says so, and that the clock shows no more ticks than have been counted.
As long as the clock is far from its end, no sum of ticks is too large, not even the end of the
longest sleep, and nothing else can stop the scheduler.
-/

namespace KernelCore

open ProcessTable

namespace ProcessRecord

theorem totalTicks_demote (process : ProcessRecord) :
    process.demote.totalTicks = process.totalTicks :=
  same_demote totalTicks (fun _ _ => rfl) process

theorem totalTicks_rouse (process : ProcessRecord) (now : UInt64) :
    (process.rouse now).totalTicks = process.totalTicks :=
  same_rouse totalTicks (fun _ _ _ => rfl) process now

end ProcessRecord

namespace Dispatcher

/-- The clock shows at most so many ticks, and no process has had more of them than it shows. -/
structure Timed (limit : Nat) (dispatcher : Dispatcher) : Prop where
  clock : dispatcher.scheduler.ticks.toNat ≤ limit
  spent : ∀ slot, (dispatcher.table.process slot).totalTicks.toNat ≤
    dispatcher.scheduler.ticks.toNat

/-- The processes are as they should be, and so is the time that they have had. -/
def Running (limit : Nat) (dispatcher : Dispatcher) : Prop :=
  dispatcher.Housed ∧ dispatcher.Timed limit

section Timed

variable {limit : Nat} {before after : Dispatcher} {plan : Option Switch} {slot : Slot}
  {table : ProcessTable}

theorem timed_empty (timeSlice : UInt32) (config : SchedulerConfig) :
    Timed limit { table := .empty timeSlice, scheduler := { config } } where
  clock := Nat.zero_le limit
  spent slot := by
    rw [process_empty]
    exact Nat.le_refl 0

/-- With the clock as it was, it is enough that nobody has had more ticks than before. -/
theorem Timed.keep (timed : before.Timed limit)
    (fewer : ∀ slot, (table.process slot).totalTicks.toNat ≤
      (before.table.process slot).totalTicks.toNat) :
    Timed limit { before with table } where
  clock := timed.clock
  spent slot := Nat.le_trans (fewer slot) (timed.spent slot)

theorem Timed.update (timed : before.Timed limit) (change : ProcessRecord → ProcessRecord)
    (same : (change (before.table.process slot)).totalTicks =
      (before.table.process slot).totalTicks) :
    Timed limit { before with table := before.table.update slot change } := by
  refine timed.keep fun other => ?_
  rw [process_update]
  split
  · rename_i here
    rw [same, here]
  · exact Nat.le_refl _

theorem Timed.rethreaded (timed : Timed limit { before with table })
    (rethreaded : Rethreaded table after.table) (clock : after.scheduler = before.scheduler) :
    after.Timed limit := by
  have kept : Timed limit { before with table := after.table } := by
    refine timed.keep fun slot => ?_
    rcases rethreaded.process slot with ⟨next, same⟩
    rw [same]
  rw [← clock] at kept
  exact kept

/-- A decision takes no time. -/
theorem Decision.totalTicks (decision : Decision before plan after) (slot : Slot) :
    (after.table.process slot).totalTicks = (before.table.process slot).totalTicks := by
  cases decision with
  | nobody noneChosen => rfl
  | again chosen isCurrent =>
      rw [process_update]
      split
      · rename_i here
        rw [here]
      · rfl
  | @other place switch chosen notCurrent incoming =>
      by_cases here : place = slot
      · rw [← here, process_grant_self notCurrent]
      · rw [process_grant_of_ne here]
        split
        · rw [ProcessRecord.totalTicks_demote]
        · rfl

theorem Timed.decision (timed : before.Timed limit) (decision : Decision before plan after) :
    after.Timed limit where
  clock := decision.scheduler ▸ timed.clock
  spent slot := by
    rw [decision.totalTicks, decision.scheduler]
    exact timed.spent slot

theorem Timed.yield (timed : before.Timed limit)
    (run : Dispatcher.yield.Yields before plan after) : after.Timed limit := by
  have relieved : Timed limit { before with table := before.table.relieve } := by
    refine timed.keep fun slot => ?_
    rw [process_relieve]
    split
    · rw [ProcessRecord.totalTicks_demote]
    · exact Nat.le_refl _
  exact relieved.decision (decision_of_schedule (yields_yield_iff.mp run))

theorem Timed.sleep (timed : before.Timed limit) {milliseconds : UInt32}
    (run : (Dispatcher.sleep milliseconds).Yields before plan after) : after.Timed limit := by
  have slept := yields_sleep_iff.mp run
  split at slept
  · exact timed.yield slept
  · rcases slept with ⟨wakeAt, -, slept⟩
    cases current : before.table.current with
    | none =>
        simp only [current] at slept
        rw [slept.2]
        exact timed
    | some slot =>
        simp only [current] at slept
        have dozing : Timed limit
            { before with table := before.table.update slot fun process => process.doze wakeAt } :=
          timed.update (fun process => process.doze wakeAt) rfl
        exact dozing.decision (decision_of_schedule slept)

/-- Nothing but a tick takes time. -/
theorem Call.act_timed (call : Call) (notTick : call ≠ .tick) (timed : before.Timed limit)
    (run : call.act.Yields before plan after) : after.Timed limit := by
  cases call with
  | create name entry priority resources =>
      rcases yields_unplanned.mp run with ⟨-, reply, table, created, rfl⟩
      rcases create_records created with
        ⟨-, -, rfl⟩ | ⟨slot, pid, next, -, -, -, rethreaded⟩
      · exact timed
      · refine Timed.rethreaded (timed.keep fun other => ?_) rethreaded rfl
        rw [process_update]
        split
        · exact Nat.zero_le _
        · exact Nat.le_refl _
  | exit code =>
      rcases yields_unplanned.mp run with ⟨-, reply, table, exited, rfl⟩
      rcases exit_records exited with
        ⟨-, -, rfl⟩ | ⟨slot, between, -, rethreaded, rfl, -⟩
      · exact timed
      · have idle : Timed limit
            { before with table := { before.table with current := none } } :=
          timed.keep fun _ => Nat.le_refl _
        have unlinked : Timed limit { before with table := between } :=
          idle.rethreaded rethreaded rfl
        exact unlinked.update close rfl
  | reset timeSlice =>
      rcases yields_unplanned.mp run with ⟨-, _, table, emptied, rfl⟩
      rcases Operation.yields_set.mp emptied with rfl
      refine timed.keep fun slot => ?_
      rw [process_empty]
      exact Nat.zero_le _
  | schedule => exact timed.decision (decision_of_schedule run)
  | tick => exact absurd rfl notTick
  | yield => exact timed.yield run
  | sleep milliseconds => exact timed.sleep run
  | perform switch registers =>
      rcases yields_unplanned.mp run with ⟨-, _, table, saved, rfl⟩
      rcases Operation.yields_modify.mp saved with rfl
      refine timed.keep fun slot => ?_
      rcases process_apply switch registers before.table slot with ⟨context, same⟩
      rw [same]

/-- When a process is charged with a tick, it has had no more ticks than the clock shows if it had
fewer before. -/
theorem Timed.charges (timed : before.Timed limit)
    (late : ∀ slot, (before.table.process slot).totalTicks.toNat <
      before.scheduler.ticks.toNat)
    (charges : before.Charges plan after) : after.Timed limit := by
  rw [Charges] at charges
  cases current : before.table.current with
  | none =>
      simp only [current] at charges
      rw [charges.2]
      exact timed
  | some slot =>
      simp only [current] at charges
      rcases charges with ⟨totalTicks, sum, charges⟩
      have counted := Checked.add64_eq_ok_iff.mp sum
      have one : (1 : UInt64).toNat = 1 := rfl
      have charged : ∀ change : ProcessRecord → ProcessRecord,
          (change (before.table.process slot)).totalTicks = totalTicks →
          Timed limit { before with table := before.table.update slot change } := by
        intro change same
        have early := late slot
        have reached : totalTicks.toNat ≤ before.scheduler.ticks.toNat := by omega
        refine ⟨timed.clock, fun other => ?_⟩
        rw [process_update]
        split
        · rw [same]
          exact reached
        · exact timed.spent other
      split at charges
      · rw [charges.2]
        exact charged _ rfl
      · exact (charged _ (ProcessRecord.totalTicks_demote _)).decision
          (decision_of_schedule charges)

/-- With a tick the clock goes on by one, and so does the time of one process at most. -/
theorem Timed.tick (timed : before.Timed limit)
    (run : Dispatcher.tick.Yields before plan after) : after.Timed (limit + 1) := by
  rcases yields_tick_iff.mp run with ⟨ticks, sum, charges⟩
  have counted := Checked.add64_eq_ok_iff.mp sum
  have one : (1 : UInt64).toNat = 1 := rfl
  have late : ∀ slot, ((before.roused ticks).table.process slot).totalTicks.toNat <
      ticks.toNat := by
    intro slot
    have spent := timed.spent slot
    rw [process_roused, ProcessRecord.totalTicks_rouse]
    omega
  have clock := timed.clock
  have shown : ticks.toNat ≤ limit + 1 := by omega
  have roused : (before.roused ticks).Timed (limit + 1) :=
    ⟨shown, fun slot => Nat.le_of_lt (late slot)⟩
  exact roused.charges late charges

end Timed

section Running

variable {limit : Nat} {before after : Dispatcher} {Value : Type}

theorem running_empty (timeSlice : UInt32) (config : SchedulerConfig) :
    Running limit { table := .empty timeSlice, scheduler := { config } } :=
  ⟨housed_empty timeSlice { config }, timed_empty timeSlice config⟩

theorem Running.sleep (running : before.Running limit) (room : limit < 2 ^ 63)
    (milliseconds : UInt32) :
    ∃ plan after, (Dispatcher.sleep milliseconds).Yields before plan after := by
  rcases running with ⟨housed, timed⟩
  rcases housed.queued with ⟨slots, queued⟩
  have clock := timed.clock
  have short := (before.scheduler.toNat_ticksOfMilliseconds milliseconds).2.2
  have size : UInt64.size = 2 ^ 64 := rfl
  exact yields_sleep queued.toLinked (by omega)

/-- A tick can be counted. -/
theorem Running.tick (running : before.Running limit) (room : limit < 2 ^ 63) :
    ∃ plan after, Dispatcher.tick.Yields before plan after ∧ after.Running (limit + 1) := by
  rcases running with ⟨housed, timed⟩
  rcases housed.lined with ⟨slots, lined⟩
  have clock := timed.clock
  have size : UInt64.size = 2 ^ 64 := rfl
  have one : (1 : UInt64).toNat = 1 := rfl
  have sums : ∀ word : UInt64, word.toNat ≤ limit →
      Checked.add64 word 1 = .ok (word + 1) := by
    intro word small
    exact if_pos (by omega)
  have counted : Checked.add64 before.scheduler.ticks 1 = .ok (before.scheduler.ticks + 1) :=
    sums _ clock
  have charged : ∀ slot,
      (before.roused (before.scheduler.ticks + 1)).table.current = some slot → ∃ totalTicks,
        Checked.add64 ((before.roused (before.scheduler.ticks + 1)).table.process slot).totalTicks
          1 = .ok totalTicks := by
    intro slot _
    refine ⟨_, sums _ ?_⟩
    rw [process_roused, ProcessRecord.totalTicks_rouse]
    exact Nat.le_trans (timed.spent slot) clock
  rcases charges_of_sum (lined.steady (steady_roused before _)) charged with
    ⟨plan, after, charges⟩
  have run : Dispatcher.tick.Yields before plan after :=
    yields_tick_iff.mpr ⟨_, counted, charges⟩
  exact ⟨plan, after, run, Call.act_housed .tick housed run, timed.tick run⟩

/-- An operation that does what is called for is safe if it ends. -/
theorem safe_of_call {action : Operation Dispatcher Value} (call : Call) (notTick : call ≠ .tick)
    (ends : ∀ before, before.Running limit → ∃ value after, action.Yields before value after)
    (calls : ∀ before value after, action.Yields before value after →
      ∃ plan, call.act.Yields before plan after) : action.Safe (Running limit) := by
  intro before running
  rcases ends before running with ⟨value, after, run⟩
  rcases calls before value after run with ⟨plan, called⟩
  exact ⟨value, after, run, call.act_housed running.1 called,
    call.act_timed notTick running.2 called⟩

theorem safe_schedule : Dispatcher.schedule.Safe (Running limit) := by
  refine safe_of_call .schedule (by simp) ?_ fun _ plan _ run => ⟨plan, run⟩
  intro before running
  rcases running.1.queued with ⟨slots, queued⟩
  exact yields_schedule queued.toLinked

theorem safe_yield : Dispatcher.yield.Safe (Running limit) := by
  refine safe_of_call .yield (by simp) ?_ fun _ plan _ run => ⟨plan, run⟩
  intro before running
  rcases running.1.queued with ⟨slots, queued⟩
  exact yields_yield queued.toLinked

theorem safe_sleep (room : limit < 2 ^ 63) (milliseconds : UInt32) :
    (Dispatcher.sleep milliseconds).Safe (Running limit) :=
  safe_of_call (.sleep milliseconds) (by simp) (fun _ running => running.sleep room milliseconds)
    fun _ plan _ run => ⟨plan, run⟩

theorem safe_create (name : String) (entry priority : UInt32) (resources : ProcessResources) :
    (onTable (ProcessTable.create name entry priority resources).result).Safe (Running limit) := by
  refine safe_of_call (.create name entry priority resources) (by simp) ?_ ?_
  · intro before _
    rcases yields_create before.table name entry priority resources with ⟨reply, table, created⟩
    exact ⟨reply, _, yields_onTable.mpr ⟨table, created, rfl⟩⟩
  · intro before reply after run
    rcases yields_onTable.mp run with ⟨table, created, rfl⟩
    exact ⟨none, yields_unplanned.mpr ⟨rfl, reply, table, created, rfl⟩⟩

theorem safe_exit (code : Int32) :
    (onTable (ProcessTable.exit code)).Safe (Running limit) := by
  refine safe_of_call (.exit code) (by simp) ?_ ?_
  · intro before running
    rcases running.1.queued with ⟨slots, queued⟩
    rcases queued.yields_exit running.1.currentLive code with ⟨reply, table, exited⟩
    exact ⟨reply, _, yields_onTable.mpr ⟨table, exited, rfl⟩⟩
  · intro before reply after run
    rcases yields_onTable.mp run with ⟨table, exited, rfl⟩
    exact ⟨none, yields_unplanned.mpr ⟨rfl, reply, table, exited, rfl⟩⟩

/-- Registers can be saved in any slot. -/
theorem Running.apply (running : before.Running limit) (switch : Switch) (registers : Context) :
    Running limit { before with table := (switch.apply registers before.table).2 } := by
  have run : (Call.perform switch registers).act.Yields before none
      { before with table := (switch.apply registers before.table).2 } :=
    yields_unplanned.mpr ⟨rfl, (), _, Operation.yields_modify.mpr rfl, rfl⟩
  exact ⟨Call.act_housed _ running.1 run, Call.act_timed _ (by simp) running.2 run⟩

end Running

end Dispatcher

end KernelCore
