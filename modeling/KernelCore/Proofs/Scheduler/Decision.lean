import KernelCore.Proofs.Scheduler
import KernelCore.Proofs.ProcessTable.Records

/-!
# What a decision can be

`Dispatcher.Decision` lists the possible outcomes of a decision: no process is ready and nothing
changes, the one that has the processor keeps it, or another one gets it and a switch is planned.
Whoever is chosen was ready, and if somebody on the queue is ready, somebody is chosen.
-/

namespace KernelCore

open ProcessTable

namespace ProcessTable

/-- The process that has the processor is made ready to give it up. -/
def relieve (table : ProcessTable) : ProcessTable :=
  match table.current with
  | some previous => table.update previous ProcessRecord.demote
  | none => table

/-- The processor is given to the process in a slot, for a whole turn. -/
def grant (table : ProcessTable) (slot : Slot) (timeSlice : UInt32) : ProcessTable :=
  { table.relieve.update slot fun process => { process with state := .running, timeSlice } with
    current := some slot }

section Grant

variable {table : ProcessTable} {slot other : Slot}

theorem process_relieve (table : ProcessTable) (slot : Slot) :
    table.relieve.process slot =
      if table.current = some slot then (table.process slot).demote else table.process slot := by
  rw [relieve]
  split
  · rename_i previous isCurrent
    rw [process_update, isCurrent]
    by_cases same : previous = slot
    · simp [same]
    · simp [same]
  · rename_i noCurrent
    simp [noCurrent]

theorem current_relieve (table : ProcessTable) : table.relieve.current = table.current := by
  rw [relieve]
  split
  · rfl
  · rfl

theorem process_grant_self (notCurrent : table.current ≠ some slot) (timeSlice : UInt32) :
    (table.grant slot timeSlice).process slot =
      { table.process slot with state := .running, timeSlice } := by
  change (table.relieve.update slot fun process =>
    { process with state := .running, timeSlice }).process slot = _
  rw [process_update, if_pos rfl, process_relieve, if_neg notCurrent]

theorem process_grant_of_ne (differs : slot ≠ other) (timeSlice : UInt32) :
    (table.grant slot timeSlice).process other =
      if table.current = some other then (table.process other).demote else table.process other := by
  change (table.relieve.update slot fun process =>
    { process with state := .running, timeSlice }).process other = _
  rw [process_update, if_neg differs, process_relieve]

theorem nextPid_grant (table : ProcessTable) (slot : Slot) (timeSlice : UInt32) :
    (table.grant slot timeSlice).nextPid = table.nextPid := by
  change table.relieve.nextPid = table.nextPid
  rw [relieve]
  split
  · rfl
  · rfl

end Grant

end ProcessTable

namespace Dispatcher

/-- What a decision can lead to. -/
inductive Decision (before : Dispatcher) : Option Switch → Dispatcher → Prop where
  /-- No process is ready. -/
  | nobody (noneChosen : before.table.select = .ok none) : Decision before none before
  /-- The process that has the processor goes on. -/
  | again {slot : Slot} (chosen : before.table.select = .ok (some slot))
      (isCurrent : before.table.current = some slot) :
      Decision before none
        { before with
          table := before.table.update slot fun process => { process with state := .running } }
  /-- Another process gets the processor. -/
  | other {slot : Slot} {switch : Switch} (chosen : before.table.select = .ok (some slot))
      (notCurrent : before.table.current ≠ some slot)
      (incoming : switch.incoming = ((before.table.process slot).pid, slot)) :
      Decision before (some switch)
        { before with
          table := before.table.grant slot before.scheduler.config.timeSliceTicks }

section Outcomes

variable {before after : Dispatcher} {plan : Option Switch} {slot : Slot} {slots : List Slot}
  {table : ProcessTable}

theorem dispatch_grants {switch : Switch} (notCurrent : before.table.current ≠ some slot)
    (run : (dispatch slot).Yields before switch after) :
    switch.incoming = ((before.table.process slot).pid, slot) ∧
      after = { before with
        table := before.table.grant slot before.scheduler.config.timeSliceTicks } := by
  have pid : ((before.table.grant slot before.scheduler.config.timeSliceTicks).process slot).pid =
      (before.table.process slot).pid := by
    rw [process_grant_self notCurrent]
  cases current : before.table.current with
  | none =>
      simp [dispatch, and_assoc, current] at run
      rcases run with ⟨rfl, rfl⟩
      simp only [grant, relieve, current] at pid ⊢
      exact ⟨Prod.ext pid rfl, trivial⟩
  | some previous =>
      simp [dispatch, and_assoc, current] at run
      rcases run with ⟨rfl, rfl⟩
      simp only [grant, relieve, current] at pid ⊢
      exact ⟨Prod.ext pid rfl, trivial⟩

theorem decision_of_schedule (run : schedule.Yields before plan after) :
    Decision before plan after := by
  cases selected : before.table.select with
  | error fault => simp [schedule, and_assoc, selected] at run
  | ok chosen =>
      cases chosen with
      | none =>
          simp [schedule, and_assoc, selected] at run
          rcases run with ⟨rfl, rfl⟩
          exact .nobody selected
      | some slot =>
          by_cases same : before.table.current = some slot
          · simp [schedule, and_assoc, selected, same] at run
            rcases run with ⟨rfl, rfl⟩
            exact .again selected same
          · simp [schedule, and_assoc, selected, same] at run
            rcases run with ⟨switch, run, rfl⟩
            rcases dispatch_grants same run with ⟨incoming, rfl⟩
            exact .other selected same incoming

theorem better_eq_none {best : Option Slot} {candidate : Slot}
    (noneBetter : table.better best candidate = none) :
    best = none ∧ (table.process candidate).state ≠ .ready := by
  by_cases ready : (table.process candidate).state = .ready
  · simp only [better, ready, ne_eq, not_true_eq_false, if_false] at noneBetter
    split at noneBetter
    · cases noneBetter
    · split at noneBetter
      · cases noneBetter
      · cases noneBetter
  · simp only [better, ready, ne_eq, not_false_eq_true, if_true] at noneBetter
    exact ⟨noneBetter, ready⟩

theorem foldl_better_eq_none {queue : List Slot} {best : Option Slot}
    (noneBetter : queue.foldl table.better best = none) :
    best = none ∧ ∀ slot ∈ queue, (table.process slot).state ≠ .ready := by
  induction queue generalizing best with
  | nil => exact ⟨noneBetter, fun _ mem => absurd mem List.not_mem_nil⟩
  | cons head rest ih =>
      rcases ih noneBetter with ⟨noneYet, others⟩
      rcases better_eq_none noneYet with ⟨noneBefore, headNot⟩
      exact ⟨noneBefore, List.forall_mem_cons.mpr ⟨headNot, others⟩⟩

/-- If nobody is chosen, nobody on the queue is ready. -/
theorem unready_of_select (linked : table.Linked slots) (noneChosen : table.select = .ok none)
    (listed : slot ∈ slots) : (table.process slot).state ≠ .ready := by
  rw [select, linked.wholeQueue] at noneChosen
  exact (foldl_better_eq_none (Except.ok.inj noneChosen)).2 slot listed

theorem Decision.scheduler (decision : Decision before plan after) :
    after.scheduler = before.scheduler := by
  cases decision with
  | nobody noneChosen => rfl
  | again chosen isCurrent => rfl
  | other chosen notCurrent incoming => rfl

/-- If no process is ready, nothing changes. -/
theorem Decision.idles (decision : Decision before plan after)
    (unready : ∀ slot, (before.table.process slot).state ≠ .ready) : after = before := by
  cases decision with
  | nobody noneChosen => rfl
  | again chosen isCurrent => exact absurd (ready_of_select chosen) (unready _)
  | other chosen notCurrent incoming => exact absurd (ready_of_select chosen) (unready _)

/-- Whoever gets the processor from another has a whole turn ahead. -/
theorem Decision.timeSlice (decision : Decision before plan after)
    (notCurrent : before.table.current ≠ some slot) (gains : after.table.current = some slot) :
    (after.table.process slot).timeSlice = before.scheduler.config.timeSliceTicks := by
  cases decision with
  | nobody noneChosen => exact absurd gains notCurrent
  | again chosen isCurrent => exact absurd gains notCurrent
  | @other best switch chosen bestNotCurrent incoming =>
      cases gains
      rw [process_grant_self notCurrent]

/-- If one process alone is ready and another one or none has the processor, it gets it. -/
theorem Decision.grants (decision : Decision before plan after) (queued : before.table.Queued slots)
    (ready : (before.table.process slot).state = .ready)
    (only : ∀ other, (before.table.process other).state = .ready → other = slot)
    (notCurrent : before.table.current ≠ some slot) :
    after = { before with
      table := before.table.grant slot before.scheduler.config.timeSliceTicks } := by
  cases decision with
  | nobody noneChosen =>
      have listed : slot ∈ slots := by
        rw [queued.live, occupant_of_ready ready]
        exact Option.some_ne_none _
      exact absurd ready (unready_of_select queued.toLinked noneChosen listed)
  | again chosen isCurrent =>
      rw [only _ (ready_of_select chosen)] at isCurrent
      exact absurd isCurrent notCurrent
  | other chosen differs incoming => rw [only _ (ready_of_select chosen)]

end Outcomes

end Dispatcher

end KernelCore
