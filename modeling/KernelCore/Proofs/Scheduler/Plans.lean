import KernelCore.Proofs.Scheduler.Decision
import KernelCore.Proofs.Scheduler.Moves

/-!
# Whose registers a plan is about

A plan names the process that has the processor and the one that gets it, and the address space of
the latter: `Dispatcher.Handover`. A decision that comes without a plan leaves the processor with
whoever has it. In neither case does a decision touch the registers that are kept of processes,
which is left to carrying the plan out: `Dispatcher.Planned`.
-/

namespace KernelCore

open ProcessTable

namespace ProcessTable

/-- The registers that are kept of each process are as they were. -/
def SameContexts (before after : ProcessTable) : Prop :=
  ∀ slot, (after.process slot).context = (before.process slot).context

section Contexts

variable {before between after table : ProcessTable} {slot : Slot}

theorem SameContexts.refl (table : ProcessTable) : SameContexts table table :=
  fun _ => rfl

theorem SameContexts.trans (first : SameContexts before between)
    (second : SameContexts between after) : SameContexts before after :=
  fun slot => (second slot).trans (first slot)

theorem sameContexts_update (table : ProcessTable) (slot : Slot)
    (change : ProcessRecord → ProcessRecord)
    (same : ∀ process, (change process).context = process.context) :
    SameContexts table (table.update slot change) := by
  intro other
  rw [process_update]
  split
  · rename_i here
    rw [same, here]
  · rfl

theorem context_demote (process : ProcessRecord) : process.demote.context = process.context :=
  ProcessRecord.same_demote ProcessRecord.context (fun _ _ => rfl) process

theorem sameContexts_grant (notCurrent : table.current ≠ some slot) (timeSlice : UInt32) :
    SameContexts table (table.grant slot timeSlice) := by
  intro other
  by_cases here : slot = other
  · subst here
    rw [process_grant_self notCurrent]
  · rw [process_grant_of_ne here]
    split
    · exact context_demote _
    · rfl

theorem Rethreaded.sameContexts (rethreaded : Rethreaded before after) :
    SameContexts before after := by
  intro slot
  rcases rethreaded.process slot with ⟨next, same⟩
  rw [same]

theorem sameContexts_wakeSleepers {now : UInt64} {value : Unit}
    (run : (wakeSleepers now).Yields before value after) : SameContexts before after := by
  intro slot
  rw [(Dispatcher.process_wakeSleepers run).2 slot]
  split
  · rfl
  · rfl

/-- A new process has the registers that it begins with, and all others keep theirs. -/
theorem create_contexts {name : String} {entry priority : UInt32} {resources : ProcessResources}
    {pid : Pid} (run : (create name entry priority resources).Yields before (.ok pid) after) :
    ∃ slot, Entered before after slot pid resources ∧
      (after.process slot).context = ProcessRecord.initialContext pid entry ∧
      ∀ other, other ≠ slot → (after.process other).context = (before.process other).context := by
  rcases create_cases run with ⟨cause, refuted, -⟩ | ⟨place, found, same, entered⟩
  · cases refuted
  cases same
  rcases create_records run with ⟨refuted, -⟩ | ⟨slot, found, next, same, -, -, rethreaded⟩
  · cases refuted
  cases same
  have contexts := rethreaded.sameContexts
  have here : slot = place := by
    apply Classical.byContradiction
    intro elsewhere
    -- Otherwise the entrant would live in two slots.
    rcases rethreaded.process_here with ⟨link, record⟩
    have lives : after.occupant slot = some (pid, resources) := by
      rw [occupant, record]
      rfl
    rw [entered.others slot elsewhere] at lives
    exact entered.unused slot resources lives
  subst here
  refine ⟨slot, entered, ?_, ?_⟩
  · rw [contexts slot, process_update, if_pos rfl]
    rfl
  · intro other differs
    rw [contexts other, process_update, if_neg differs.symm]
    rfl

/-- Whoever lived somewhere before still does when a process is created. -/
theorem Entered.stays {pid : Pid} {resources : ProcessResources}
    (entered : Entered before after slot pid resources) {place : Slot}
    (lives : before.occupant place ≠ none) : after.occupant place = before.occupant place := by
  apply entered.others
  rintro rfl
  exact lives entered.vacant

/-- Whoever lives somewhere when a process has ended lived there before, and not in its slot. -/
theorem Left.stayed {process : ProcessRecord} {pid : Pid} {resources : ProcessResources}
    (left : Left before after slot process) {place : Slot}
    (here : after.occupant place = some (pid, resources)) :
    place ≠ slot ∧ before.occupant place = some (pid, resources) := by
  have elsewhere : place ≠ slot := by
    rintro rfl
    rw [left.vacant] at here
    cases here
  exact ⟨elsewhere, (left.others place elsewhere).symm.trans here⟩

/-- When a process has ended, nobody has the processor. -/
theorem Left.currentLive {process : ProcessRecord} (left : Left before after slot process) :
    CurrentLive after := by
  intro place isCurrent
  rw [left.idle] at isCurrent
  cases isCurrent

/-- A process that ends leaves the registers that are kept of all others as they were. -/
theorem exit_contexts {code : Int32} {reply : Option ProcessRecord}
    (run : (exit code).Yields before reply after) : SameContexts before after := by
  rcases exit_records run with ⟨-, -, rfl⟩ | ⟨slot, between, -, rethreaded, rfl, -⟩
  · exact .refl after
  · exact rethreaded.sameContexts.trans (sameContexts_update between slot _ fun _ => rfl)

end Contexts

end ProcessTable

namespace Dispatcher

/-- The processor goes from whoever has it to another process that is live. -/
structure Handover (before after : ProcessTable) (switch : Switch) : Prop where
  outgoing : switch.outgoing = before.current.bind fun slot =>
    (before.occupant slot).map fun (pid, _) => (pid, slot)
  incoming : ∃ resources, before.occupant switch.incoming.2 =
    some (switch.incoming.1, resources) ∧ switch.directory = resources.directory
  apart : before.current ≠ some switch.incoming.2
  current : after.current = some switch.incoming.2

/-- Processes are as they were, and the processor goes where the plan says. -/
structure Planned (before after : Dispatcher) (plan : Option Switch) : Prop where
  occupant : ∀ slot, after.table.occupant slot = before.table.occupant slot
  contexts : SameContexts before.table after.table
  stays : plan = none → after.table.current = before.table.current
  goes : ∀ switch, plan = some switch → Handover before.table after.table switch

section Plans

variable {before between after : Dispatcher} {plan : Option Switch} {slot : Slot}

theorem planned_of_steady (steady : Steady before.table after.table)
    (contexts : SameContexts before.table after.table) : Planned before after none where
  occupant := steady.occupant
  contexts := contexts
  stays _ := steady.current
  goes := by rintro _ ⟨⟩

theorem Planned.after_steady (steady : Steady before.table between.table)
    (contexts : SameContexts before.table between.table) (planned : Planned between after plan) :
    Planned before after plan where
  occupant slot := (planned.occupant slot).trans (steady.occupant slot)
  contexts := contexts.trans planned.contexts
  stays noPlan := (planned.stays noPlan).trans steady.current
  goes switch isPlan := by
    rcases planned.goes switch isPlan with ⟨outgoing, ⟨resources, here, directory⟩, apart, current⟩
    rw [steady.current] at outgoing apart
    simp only [steady.occupant] at outgoing here
    exact ⟨outgoing, ⟨resources, here, directory⟩, apart, current⟩

theorem Handover.outgoing_slot {before after : ProcessTable} {switch : Switch}
    (handover : Handover before after switch) (live : CurrentLive before) :
    switch.outgoing.map Prod.snd = before.current := by
  rw [handover.outgoing]
  cases current : before.current with
  | none => rfl
  | some slot =>
      rcases Option.ne_none_iff_exists'.mp (live slot current) with ⟨⟨pid, resources⟩, here⟩
      simp [here]

/-- When a plan is carried out, registers are kept of the process that had the processor. -/
theorem context_apply (switch : Switch) (registers : Context) (table : ProcessTable)
    (slot : Slot) : ((switch.apply registers table).2.process slot).context =
      if switch.outgoing.map Prod.snd = some slot then registers
      else (table.process slot).context := by
  rcases switch with ⟨_ | ⟨pid, place⟩, incoming, target⟩
  · rfl
  · change ((table.update place fun process =>
      { process with context := registers }).process slot).context = _
    simp only [process_update, Option.map_some, Option.some.injEq]
    split
    · rfl
    · rfl

theorem dispatch_names {switch : Switch} (notCurrent : before.table.current ≠ some slot)
    (run : (dispatch slot).Yields before switch after) :
    switch.outgoing = (before.table.current.map fun previous =>
        ((before.table.process previous).pid, previous)) ∧
      switch.directory = (before.table.process slot).resources.directory := by
  have resources : ((before.table.grant slot before.scheduler.config.timeSliceTicks).process
      slot).resources = (before.table.process slot).resources := by
    rw [process_grant_self notCurrent]
  cases current : before.table.current with
  | none =>
      simp [dispatch, and_assoc, current] at run
      rcases run with ⟨rfl, rfl⟩
      simp only [grant, relieve, current] at resources
      exact ⟨rfl, congrArg ProcessResources.directory resources⟩
  | some previous =>
      simp [dispatch, and_assoc, current] at run
      rcases run with ⟨rfl, rfl⟩
      simp only [grant, relieve, current] at resources
      exact ⟨rfl, congrArg ProcessResources.directory resources⟩

theorem handover_of_dispatch {switch : Switch} (live : CurrentLive before.table)
    (ready : (before.table.process slot).state = .ready)
    (notCurrent : before.table.current ≠ some slot)
    (run : (dispatch slot).Yields before switch after) :
    Handover before.table after.table switch := by
  rcases dispatch_names notCurrent run with ⟨outgoing, directory⟩
  rcases dispatch_grants notCurrent run with ⟨incoming, rfl⟩
  have here := occupant_of_ready ready
  refine ⟨?_, ?_, ?_, ?_⟩
  · rw [outgoing]
    cases current : before.table.current with
    | none => rfl
    | some previous =>
        rcases Option.ne_none_iff_exists'.mp (live previous current) with ⟨⟨pid, resources⟩, lives⟩
        rcases ProcessRecord.identity_eq_some.mp lives with ⟨-, same, -⟩
        simp [lives, same]
  · rw [incoming]
    exact ⟨_, here, directory⟩
  · rw [incoming]
    exact notCurrent
  · rw [incoming]
    rfl

theorem schedule_planned (live : CurrentLive before.table)
    (run : schedule.Yields before plan after) : Planned before after plan := by
  have scheduled := schedule_scheduled live run
  cases selected : before.table.select with
  | error fault => simp [schedule, and_assoc, selected] at run
  | ok chosen =>
      cases chosen with
      | none =>
          simp [schedule, and_assoc, selected] at run
          rcases run with ⟨rfl, rfl⟩
          exact planned_of_steady (.refl _) (.refl _)
      | some slot =>
          by_cases same : before.table.current = some slot
          · simp [schedule, and_assoc, selected, same] at run
            rcases run with ⟨rfl, rfl⟩
            refine ⟨scheduled.occupant, sameContexts_update _ slot _ fun _ => rfl, fun _ => rfl, ?_⟩
            rintro _ ⟨⟩
          · simp [schedule, and_assoc, selected, same] at run
            rcases run with ⟨switch, run, rfl⟩
            have handover := handover_of_dispatch live (ready_of_select selected) same run
            rcases dispatch_grants same run with ⟨-, rfl⟩
            refine ⟨scheduled.occupant, sameContexts_grant same _, ?_, ?_⟩
            · rintro ⟨⟩
            · rintro _ ⟨⟩
              exact handover

theorem yield_planned (live : CurrentLive before.table)
    (run : Dispatcher.yield.Yields before plan after) : Planned before after plan := by
  cases current : before.table.current with
  | none =>
      simp [Dispatcher.yield, and_assoc, current] at run
      exact schedule_planned live run
  | some slot =>
      simp [Dispatcher.yield, and_assoc, current] at run
      have demoted := steady_update before.table slot ProcessRecord.demote
        (ProcessRecord.identity_demote _) (ProcessRecord.next_demote _)
      exact (schedule_planned (demoted.currentLive live) run).after_steady demoted
        (sameContexts_update _ slot _ context_demote)

theorem sleep_planned {milliseconds : UInt32} (live : CurrentLive before.table)
    (run : (Dispatcher.sleep milliseconds).Yields before plan after) :
    Planned before after plan := by
  by_cases short : before.scheduler.ticksOfMilliseconds milliseconds = 0
  · simp [Dispatcher.sleep, and_assoc, short] at run
    exact yield_planned live run
  · cases current : before.table.current with
    | none =>
        simp [Dispatcher.sleep, and_assoc, short, current] at run
        rcases run with ⟨-, rfl, rfl⟩
        exact planned_of_steady (.refl _) (.refl _)
    | some slot =>
        simp [Dispatcher.sleep, and_assoc, short, current] at run
        rcases run with ⟨wakeAt, -, run⟩
        have blocked := steady_setState (live slot current)
          (fun process => { process with state := .blocked, wakeAt := some wakeAt })
          fun _ => ⟨rfl, rfl, rfl, rfl⟩
        have contexts := sameContexts_update before.table slot
          (fun process => { process with state := .blocked, wakeAt := some wakeAt }) fun _ => rfl
        exact (schedule_planned (blocked.currentLive live) run).after_steady blocked contexts

theorem sameContexts_charge {last : Bool} (run : (charge slot).Yields before last after) :
    SameContexts before.table after.table := by
  by_cases more : 1 < (before.table.process slot).timeSlice
  · simp [charge, and_assoc, more] at run
    rcases run with ⟨totalTicks, -, rfl, -⟩
    exact sameContexts_update _ slot _ fun _ => rfl
  · simp [charge, and_assoc, more] at run
    rcases run with ⟨totalTicks, -, rfl, -⟩
    exact sameContexts_update _ slot _ fun _ => rfl

theorem tick_planned (live : CurrentLive before.table)
    (run : Dispatcher.tick.Yields before plan after) : Planned before after plan := by
  simp [Dispatcher.tick, and_assoc] at run
  rcases run with ⟨ticks, -, _, between, waking, run⟩
  rcases yields_onTable.mp waking with ⟨table, woken, rfl⟩
  have awake := steady_wakeSleepers woken
  have awakeContexts := sameContexts_wakeSleepers woken
  cases current : table.current with
  | none =>
      simp [current] at run
      rcases run with ⟨rfl, rfl⟩
      exact planned_of_steady awake awakeContexts
  | some slot =>
      simp [current] at run
      rcases run with ⟨charging, rfl⟩ | ⟨charged, charging, run⟩
      · exact planned_of_steady (awake.trans (steady_charge charging))
          (awakeContexts.trans (sameContexts_charge charging))
      · have demoted := (awake.trans (steady_charge charging)).trans
          (steady_update charged.table slot ProcessRecord.demote
            (ProcessRecord.identity_demote _) (ProcessRecord.next_demote _))
        exact (schedule_planned (demoted.currentLive live) run).after_steady demoted
          ((awakeContexts.trans (sameContexts_charge charging)).trans
            (sameContexts_update _ slot _ context_demote))

end Plans

end Dispatcher

end KernelCore
