import KernelCore.Proofs.ProcessTable
import KernelCore.Scheduler

/-!
# What scheduling leaves alone

Scheduling decides who has the processor, and nothing else about the processes: who lives where and
what they were given stays the same, and so does the queue. `Dispatcher.Scheduled` says so, and
also that the processor goes to a live process and that the address space of a planned switch is
that of a live process.
-/

namespace KernelCore

open ProcessTable

namespace Dispatcher

/-- Only who has the processor and what processes are doing has changed, and whom a plan gives the
processor is live. -/
structure Scheduled (before after : Dispatcher) (plan : Option Switch) : Prop where
  occupant : ∀ slot, after.table.occupant slot = before.table.occupant slot
  queue : SameQueue before.table after.table
  currentLive : CurrentLive after.table
  directory : ∀ directory, plan.bind Switch.directory = some directory →
    ∃ slot pid resources, before.table.occupant slot = some (pid, resources) ∧
      resources.directory = some directory

section Steps

variable {before between after : Dispatcher} {slot : Slot} {plan : Option Switch}

theorem yields_onTable {Value : Type} {action : Operation ProcessTable Value} {value : Value} :
    (onTable action).Yields before value after ↔
      ∃ table, action.Yields before.table value table ∧ after = { before with table } :=
  Operation.yields_within

@[simp]
theorem yields_updateProcess {change : ProcessRecord → ProcessRecord} {value : Unit} :
    (updateProcess slot change).Yields before value after ↔
      after = { before with table := before.table.update slot change } :=
  Operation.yields_modify

theorem scheduled_of_steady (steady : Steady before.table after.table)
    (live : CurrentLive before.table) : Scheduled before after none where
  occupant := steady.occupant
  queue := steady.toSameQueue
  currentLive := steady.currentLive live
  directory _ planned := by cases planned

theorem Scheduled.after_steady (steady : Steady before.table between.table)
    (scheduled : Scheduled between after plan) : Scheduled before after plan where
  occupant slot := (scheduled.occupant slot).trans (steady.occupant slot)
  queue := steady.toSameQueue.trans scheduled.queue
  currentLive := scheduled.currentLive
  directory directory planned := by
    rcases scheduled.directory directory planned with ⟨slot, pid, resources, here, given⟩
    exact ⟨slot, pid, resources, (steady.occupant slot).symm.trans here, given⟩

theorem ready_of_better {table : ProcessTable} {best : Option Slot} {candidate : Slot}
    (ready : ∀ slot, best = some slot → (table.process slot).state = .ready)
    (chosen : table.better best candidate = some slot) : (table.process slot).state = .ready := by
  by_cases candidateReady : (table.process candidate).state = .ready
  · cases best with
    | none =>
        simp only [better, candidateReady, ne_eq, not_true_eq_false, if_false,
          Option.some.injEq] at chosen
        exact chosen ▸ candidateReady
    | some previous =>
        simp only [better, candidateReady, ne_eq, not_true_eq_false, if_false] at chosen
        split at chosen
        · exact ready slot chosen
        · exact Option.some.inj chosen ▸ candidateReady
  · simp only [better, candidateReady, ne_eq, not_false_eq_true, if_true] at chosen
    exact ready slot chosen

theorem ready_of_foldl {table : ProcessTable} (queue : List Slot) {best : Option Slot}
    (ready : ∀ slot, best = some slot → (table.process slot).state = .ready)
    (chosen : queue.foldl table.better best = some slot) :
    (table.process slot).state = .ready := by
  induction queue generalizing best with
  | nil => exact ready slot chosen
  | cons head rest ih => exact ih (fun _ isBetter => ready_of_better ready isBetter) chosen

theorem ready_of_select {table : ProcessTable} (selected : table.select = .ok (some slot)) :
    (table.process slot).state = .ready := by
  rw [select] at selected
  cases whole : table.wholeQueue with
  | error fault => simp [whole, bind, Except.bind] at selected
  | ok queue =>
      simp only [whole, bind, Except.bind, pure, Except.pure, Except.ok.injEq] at selected
      exact ready_of_foldl queue (fun _ isBest => by cases isBest) selected

theorem occupant_of_ready {table : ProcessTable} (ready : (table.process slot).state = .ready) :
    table.occupant slot = some ((table.process slot).pid, (table.process slot).resources) :=
  ProcessRecord.identity_eq_some.mpr ⟨by simp [ProcessRecord.isLive, ready], rfl, rfl⟩

theorem steady_setState {table : ProcessTable} (live : table.occupant slot ≠ none)
    (change : ProcessRecord → ProcessRecord)
    (same : ∀ process, (change process).pid = process.pid ∧
      (change process).resources = process.resources ∧ (change process).next = process.next ∧
      (change process).isLive = true) :
    Steady table (table.update slot change) := by
  rcases same (table.process slot) with ⟨pid, resources, next, stillLive⟩
  refine steady_update table slot change ?_ next
  have wasLive : (table.process slot).isLive = true := by
    apply Bool.of_not_eq_false
    intro ended
    exact live (ProcessRecord.identity_eq_none.mpr ended)
  simp [ProcessRecord.identity, pid, resources, stillLive, wasLive]

/-- Giving the processor to a live process is a decision for that process. -/
theorem scheduled_of_grant {table : ProcessTable} {switch : Switch}
    (steady : Steady before.table table) (live : table.occupant slot ≠ none)
    (change : ProcessRecord → ProcessRecord)
    (same : ∀ process, (change process).pid = process.pid ∧
      (change process).resources = process.resources ∧ (change process).next = process.next ∧
      (change process).isLive = true)
    (granted : after.table = { table.update slot change with current := some slot })
    (directory : switch.directory =
      ((table.update slot change).process slot).resources.directory) :
    Scheduled before after (some switch) := by
  have set := steady_setState live change same
  have changed := steady.trans set
  refine ⟨?_, ?_, ?_, ?_⟩
  · intro other
    rw [granted]
    exact changed.occupant other
  · rw [granted]
    exact ⟨changed.head, changed.tail, changed.next⟩
  · intro other isCurrent
    rw [granted] at isCurrent ⊢
    simp only [Option.some.injEq] at isCurrent
    subst isCurrent
    intro vacant
    exact live ((set.occupant slot).symm.trans vacant)
  · intro target planned
    rcases Option.ne_none_iff_exists'.mp live with ⟨⟨pid, resources⟩, here⟩
    have there : (table.update slot change).occupant slot = some (pid, resources) :=
      (set.occupant slot).trans here
    rcases ProcessRecord.identity_eq_some.mp there with ⟨-, -, given⟩
    refine ⟨slot, pid, resources, (steady.occupant slot).symm.trans here, ?_⟩
    rw [← given, ← directory]
    exact planned

theorem dispatch_scheduled {switch : Switch} (ready : (before.table.process slot).state = .ready)
    (run : (dispatch slot).Yields before switch after) :
    Scheduled before after (some switch) := by
  have live : before.table.occupant slot ≠ none := by
    rw [occupant_of_ready ready]
    exact Option.some_ne_none _
  cases current : before.table.current with
  | none =>
      simp [dispatch, and_assoc, current] at run
      rcases run with ⟨rfl, rfl⟩
      exact scheduled_of_grant (Steady.refl _) live
        (fun process => { process with
          state := .running, timeSlice := before.scheduler.config.timeSliceTicks })
        (fun _ => ⟨rfl, rfl, rfl, rfl⟩) rfl rfl
  | some previous =>
      have demoted := steady_update before.table previous ProcessRecord.demote
        (ProcessRecord.identity_demote _) (ProcessRecord.next_demote _)
      simp [dispatch, and_assoc, current] at run
      rcases run with ⟨rfl, rfl⟩
      refine scheduled_of_grant demoted ?_
        (fun process => { process with
          state := .running, timeSlice := before.scheduler.config.timeSliceTicks })
        (fun _ => ⟨rfl, rfl, rfl, rfl⟩) rfl rfl
      rw [demoted.occupant]
      exact live

/-- A decision leaves who lives where alone. -/
theorem schedule_scheduled (live : CurrentLive before.table)
    (run : schedule.Yields before plan after) : Scheduled before after plan := by
  cases selected : before.table.select with
  | error fault => simp [schedule, and_assoc, selected] at run
  | ok chosen =>
      cases chosen with
      | none =>
          simp [schedule, and_assoc, selected] at run
          rcases run with ⟨rfl, rfl⟩
          exact scheduled_of_steady (Steady.refl _) live
      | some slot =>
          have ready := ready_of_select selected
          by_cases same : before.table.current = some slot
          · simp [schedule, and_assoc, selected, same] at run
            rcases run with ⟨rfl, rfl⟩
            have running := steady_setState (live slot same)
              (fun process => { process with state := .running }) fun _ => ⟨rfl, rfl, rfl, rfl⟩
            exact scheduled_of_steady running live
          · simp [schedule, and_assoc, selected, same] at run
            rcases run with ⟨switch, run, rfl⟩
            exact dispatch_scheduled ready run

/-- A decision can always be made. -/
theorem yields_schedule {slots : List Slot} (linked : before.table.Linked slots) :
    ∃ plan after, schedule.Yields before plan after := by
  have selected : before.table.select = .ok (slots.foldl before.table.better none) := by
    rw [select, linked.wholeQueue]
    rfl
  cases chosen : slots.foldl before.table.better none with
  | none => simp [schedule, selected, chosen]
  | some slot =>
      cases current : before.table.current with
      | none => simp [schedule, dispatch, selected, chosen, current]
      | some previous =>
          by_cases same : previous = slot
          · simp [schedule, selected, chosen, current, same]
          · simp [schedule, dispatch, selected, chosen, current, same]

theorem yield_scheduled (live : CurrentLive before.table)
    (run : Dispatcher.yield.Yields before plan after) : Scheduled before after plan := by
  cases current : before.table.current with
  | none =>
      simp [Dispatcher.yield, and_assoc, current] at run
      exact schedule_scheduled live run
  | some slot =>
      simp [Dispatcher.yield, and_assoc, current] at run
      have demoted := steady_update before.table slot ProcessRecord.demote
        (ProcessRecord.identity_demote _) (ProcessRecord.next_demote _)
      exact (schedule_scheduled (demoted.currentLive live) run).after_steady demoted

theorem sleep_scheduled {milliseconds : UInt32} (live : CurrentLive before.table)
    (run : (Dispatcher.sleep milliseconds).Yields before plan after) :
    Scheduled before after plan := by
  by_cases short : before.scheduler.ticksOfMilliseconds milliseconds = 0
  · simp [Dispatcher.sleep, and_assoc, short] at run
    exact yield_scheduled live run
  · cases current : before.table.current with
    | none =>
        simp [Dispatcher.sleep, and_assoc, short, current] at run
        rcases run with ⟨-, rfl, rfl⟩
        exact scheduled_of_steady (Steady.refl _) live
    | some slot =>
        simp [Dispatcher.sleep, and_assoc, short, current] at run
        rcases run with ⟨wakeAt, -, run⟩
        have blocked := steady_setState (live slot current)
          (fun process => { process with state := .blocked, wakeAt := some wakeAt })
          fun _ => ⟨rfl, rfl, rfl, rfl⟩
        exact (schedule_scheduled (blocked.currentLive live) run).after_steady blocked

theorem steady_charge {last : Bool} (run : (charge slot).Yields before last after) :
    Steady before.table after.table := by
  by_cases more : 1 < (before.table.process slot).timeSlice
  · simp [charge, and_assoc, more] at run
    rcases run with ⟨totalTicks, -, rfl, -⟩
    exact steady_update _ slot
      (fun process => { process with totalTicks, timeSlice := process.timeSlice - 1 }) rfl rfl
  · simp [charge, and_assoc, more] at run
    rcases run with ⟨totalTicks, -, rfl, -⟩
    exact steady_update _ slot (fun process =>
      { process with totalTicks, timeSlice := before.scheduler.config.timeSliceTicks }) rfl rfl

theorem tick_scheduled (live : CurrentLive before.table)
    (run : Dispatcher.tick.Yields before plan after) : Scheduled before after plan := by
  simp [Dispatcher.tick, and_assoc] at run
  rcases run with ⟨ticks, -, _, between, waking, run⟩
  rcases yields_onTable.mp waking with ⟨table, woken, rfl⟩
  have awake := steady_wakeSleepers woken
  cases current : table.current with
  | none =>
      simp [current] at run
      rcases run with ⟨rfl, rfl⟩
      exact scheduled_of_steady awake live
  | some slot =>
      simp [current] at run
      rcases run with ⟨charging, rfl⟩ | ⟨charged, charging, run⟩
      · exact scheduled_of_steady (awake.trans (steady_charge charging)) live
      · have demoted := (awake.trans (steady_charge charging)).trans
          (steady_update charged.table slot ProcessRecord.demote
            (ProcessRecord.identity_demote _) (ProcessRecord.next_demote _))
        exact (schedule_scheduled (demoted.currentLive live) run).after_steady demoted

/-- Saving registers leaves alone who lives where. -/
theorem steady_apply (switch : Switch) (registers : Context) (table : ProcessTable) :
    Steady table (switch.apply registers table).2 := by
  rcases switch with ⟨_ | ⟨pid, slot⟩, incoming, target⟩
  · exact Steady.refl table
  · exact steady_update table slot (fun process => { process with context := registers }) rfl rfl

end Steps

end Dispatcher

end KernelCore
