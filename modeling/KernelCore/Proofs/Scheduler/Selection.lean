import KernelCore.Proofs.Masking
import KernelCore.Proofs.Kernel.Loads
import KernelCore.Proofs.Scheduler.Plans

/-!
# Whom a decision chooses

A decision goes through the ready processes in the order of the queue and keeps the last of those
with the highest priority: `ProcessTable.LastBest`. If that process has the processor already, only
its state changes; if another one has it, `Dispatcher.Passes` tells all that changes. It does not
matter how many processes are queued, nor what the process that has the processor is doing.
-/

namespace KernelCore

namespace ProcessTable

/-- The slots of the ready processes, in the order of the queue. -/
def readySlots (table : ProcessTable) : List Slot :=
  table.queue.filter fun slot => (table.process slot).state = .ready

/-- The slot is the last in the list of those whose processes have the highest priority. -/
def LastBest (table : ProcessTable) (slots : List Slot) (best : Slot) : Prop :=
  ∃ front back, slots = front ++ best :: back ∧
    (∀ other ∈ front, (table.process other).priority ≤ (table.process best).priority) ∧
    ∀ other ∈ back, (table.process other).priority < (table.process best).priority

section LastBest

variable {table : ProcessTable} {slots : List Slot} {best other : Slot}

theorem LastBest.mem (chosen : table.LastBest slots best) : best ∈ slots := by
  rcases chosen with ⟨front, back, rfl, -, -⟩
  exact List.mem_append_right front List.mem_cons_self

theorem LastBest.maximal (chosen : table.LastBest slots best) (mem : other ∈ slots) :
    (table.process other).priority ≤ (table.process best).priority := by
  rcases chosen with ⟨front, back, rfl, earlier, later⟩
  rcases List.mem_append.mp mem with inFront | here
  · exact earlier other inFront
  · rcases List.mem_cons.mp here with rfl | inBack
    · exact UInt32.le_refl _
    · exact UInt32.le_of_lt (later other inBack)

/-- There is only one such slot. -/
theorem LastBest.unique (chosen : table.LastBest slots best) (also : table.LastBest slots other) :
    other = best := by
  have same : (table.process best).priority = (table.process other).priority :=
    UInt32.le_antisymm (also.maximal chosen.mem) (chosen.maximal also.mem)
  rcases chosen with ⟨front, back, rfl, -, later⟩
  rcases also with ⟨start, rest, split, -, laterOther⟩
  rcases List.append_eq_append_iff.mp split with ⟨between, rfl, tails⟩ | ⟨between, rfl, tails⟩
  · cases between with
    | nil => exact (List.cons.inj tails).1.symm
    | cons head more =>
        rcases List.cons.inj tails with ⟨rfl, rfl⟩
        have lower := later other (List.mem_append_right more List.mem_cons_self)
        rw [same] at lower
        exact absurd lower (UInt32.lt_irrefl _)
  · cases between with
    | nil => exact (List.cons.inj tails).1
    | cons head more =>
        rcases List.cons.inj tails with ⟨rfl, rfl⟩
        have lower := laterOther best (List.mem_append_right more List.mem_cons_self)
        rw [same] at lower
        exact absurd lower (UInt32.lt_irrefl _)

/-- A slot further down the queue with a lower priority makes no difference. -/
theorem LastBest.snoc_of_lower (chosen : table.LastBest slots best)
    (lower : (table.process other).priority < (table.process best).priority) :
    table.LastBest (slots ++ [other]) best := by
  rcases chosen with ⟨front, back, rfl, earlier, later⟩
  refine ⟨front, back ++ [other], by simp, earlier, fun slot mem => ?_⟩
  rcases List.mem_append.mp mem with inBack | here
  · exact later slot inBack
  · rw [List.mem_singleton.mp here]
    exact lower

/-- A slot further down the queue with no lower priority is better than all before. -/
theorem lastBest_snoc
    (higher : ∀ slot ∈ slots, (table.process slot).priority ≤ (table.process other).priority) :
    table.LastBest (slots ++ [other]) other :=
  ⟨slots, [], rfl, higher, fun _ mem => absurd mem List.not_mem_nil⟩

/-- The scan of the queue keeps the last of the best ready slots so far. -/
theorem foldl_better (table : ProcessTable) (queue : List Slot) :
    (queue.filter (fun slot => (table.process slot).state = .ready) = [] ∧
        queue.foldl table.better none = none) ∨
      ∃ best, table.LastBest (queue.filter fun slot => (table.process slot).state = .ready) best ∧
        queue.foldl table.better none = some best := by
  induction queue using List.reverseRecOn with
  | nil => exact Or.inl ⟨rfl, rfl⟩
  | append_singleton init slot ih =>
      rw [List.filter_append, List.foldl_append, List.foldl_cons, List.foldl_nil]
      by_cases ready : (table.process slot).state = .ready
      · right
        rw [List.filter_cons_of_pos (by simpa using ready), List.filter_nil]
        rcases ih with ⟨empty, noneYet⟩ | ⟨best, chosen, bestYet⟩
        · refine ⟨slot, ?_, by simp [noneYet, better, ready]⟩
          rw [empty]
          exact lastBest_snoc fun _ mem => absurd mem List.not_mem_nil
        · by_cases lower : (table.process slot).priority < (table.process best).priority
          · exact ⟨best, chosen.snoc_of_lower lower, by simp [bestYet, better, ready, lower]⟩
          · refine ⟨slot, lastBest_snoc fun other mem => ?_, by
              simp [bestYet, better, ready, lower]⟩
            exact UInt32.le_trans (chosen.maximal mem) (UInt32.not_lt.mp lower)
      · rw [List.filter_cons_of_neg (by simpa using ready), List.filter_nil, List.append_nil]
        have passed : table.better (init.foldl table.better none) slot =
            init.foldl table.better none := by
          simp [better, ready]
        rw [passed]
        exact ih

/-- The ready slots of a sound queue are those of all ready processes. -/
theorem Queued.mem_readySlots (queued : table.Queued slots) :
    other ∈ table.readySlots ↔ (table.process other).state = .ready := by
  rw [readySlots, (queue_of_path queued.path queued.distinct).1, List.mem_filter,
    decide_eq_true_iff]
  refine ⟨And.right, fun ready => ⟨?_, ready⟩⟩
  rw [queued.live, Dispatcher.occupant_of_ready ready]
  exact Option.some_ne_none _

/-- If the queue ends, the last of the best ready slots is chosen, and none if none is ready. -/
theorem select_cases (acyclic : table.isCyclic = false) :
    (table.readySlots = [] ∧ table.select = .ok none) ∨
      ∃ best, table.LastBest table.readySlots best ∧ table.select = .ok (some best) := by
  have chosen : table.select = .ok (table.queue.foldl table.better none) := by
    simp [select, wholeQueue, acyclic, bind, Except.bind, pure, Except.pure]
  rw [chosen]
  rcases foldl_better table table.queue with ⟨empty, noneChosen⟩ | ⟨best, isLast, isChosen⟩
  · exact Or.inl ⟨empty, congrArg _ noneChosen⟩
  · exact Or.inr ⟨best, isLast, congrArg _ isChosen⟩

end LastBest

end ProcessTable

namespace Dispatcher

/-- The processor passes to the process in a slot, and nothing else changes. -/
structure Passes (before after : Dispatcher) (best : Slot) : Prop where
  current : after.table.current = some best
  /-- The process runs, and a whole turn is ahead of it. -/
  chosen : after.table.process best =
    { before.table.process best with
      state := .running, timeSlice := before.scheduler.config.timeSliceTicks }
  /-- Whoever had the processor is ready if it was running. -/
  previous : ∀ slot, before.table.current = some slot →
    after.table.process slot =
      if (before.table.process slot).state = .running then
        { before.table.process slot with state := .ready }
      else before.table.process slot
  others : ∀ slot, slot ≠ best → before.table.current ≠ some slot →
    after.table.process slot = before.table.process slot
  queueHead : after.table.queueHead = before.table.queueHead
  queueTail : after.table.queueTail = before.table.queueTail
  nextPid : after.table.nextPid = before.table.nextPid
  timeSlice : after.table.timeSlice = before.table.timeSlice
  scheduler : after.scheduler = before.scheduler

section Exactness

variable {before after : Dispatcher} {best : Slot}

theorem passes_grant (notCurrent : before.table.current ≠ some best) :
    Passes before
      { before with table := before.table.grant best before.scheduler.config.timeSliceTicks }
      best := by
  have kept : before.table.relieve.queueHead = before.table.queueHead ∧
      before.table.relieve.queueTail = before.table.queueTail ∧
      before.table.relieve.nextPid = before.table.nextPid ∧
      before.table.relieve.timeSlice = before.table.timeSlice := by
    rw [ProcessTable.relieve]
    split <;> exact ⟨rfl, rfl, rfl, rfl⟩
  rcases kept with ⟨head, tail, nextPid, timeSlice⟩
  refine ⟨rfl, ProcessTable.process_grant_self notCurrent _, ?_, ?_, head, tail, nextPid, timeSlice,
    rfl⟩
  · intro slot isCurrent
    have differs : best ≠ slot := by
      rintro rfl
      exact notCurrent isCurrent
    exact (ProcessTable.process_grant_of_ne differs _).trans (if_pos isCurrent)
  · intro slot differs elsewhere
    exact (ProcessTable.process_grant_of_ne (Ne.symm differs) _).trans (if_neg elsewhere)

theorem dispatch_passes (notCurrent : before.table.current ≠ some best) :
    ∃ switch after, (dispatch best).Yields before switch after ∧
      switch = {
        outgoing := before.table.current.map fun previous =>
          ((before.table.process previous).pid, previous)
        incoming := ((before.table.process best).pid, best)
        directory := (before.table.process best).resources.directory } ∧
      Passes before after best := by
  have ends : ∃ switch after, (dispatch best).Yields before switch after := by
    cases current : before.table.current with
    | none => simp [dispatch, current]
    | some previous => simp [dispatch, current]
  rcases ends with ⟨switch, after, run⟩
  rcases dispatch_names notCurrent run with ⟨outgoing, directory⟩
  rcases dispatch_grants notCurrent run with ⟨incoming, rfl⟩
  refine ⟨switch, _, run, ?_, passes_grant notCurrent⟩
  rw [← outgoing, ← incoming, ← directory]

/-- If the queue ends, a decision is made and the processor is told nothing. If no process is ready,
nothing changes. Else the choice falls on the last of the best ready processes: if it has the
processor, it runs on, and if not, the processor passes to it and the switch is planned. -/
theorem schedule_exact (acyclic : before.table.isCyclic = false) :
    ∃ plan after, schedule.Runs before plan after [] ∧
      ((before.table.readySlots = [] ∧ plan = none ∧ after = before) ∨
        ∃ best, before.table.LastBest before.table.readySlots best ∧
          ((before.table.current = some best ∧ plan = none ∧
              after = { before with
                table := before.table.update best fun process =>
                  { process with state := .running } }) ∨
            (before.table.current ≠ some best ∧
              plan = some {
                outgoing := before.table.current.map fun previous =>
                  ((before.table.process previous).pid, previous)
                incoming := ((before.table.process best).pid, best)
                directory := (before.table.process best).resources.directory } ∧
              Passes before after best))) := by
  rcases ProcessTable.select_cases acyclic with
    ⟨empty, noneChosen⟩ | ⟨best, isLast, chosen⟩
  · have run : schedule.Yields before none before := by simp [schedule, noneChosen]
    exact ⟨none, before, silent_schedule.runs run, Or.inl ⟨empty, rfl, rfl⟩⟩
  · by_cases isCurrent : before.table.current = some best
    · refine ⟨none, _, silent_schedule.runs ?_, Or.inr ⟨best, isLast,
        Or.inl ⟨isCurrent, rfl, rfl⟩⟩⟩
      simp [schedule, chosen, isCurrent]
    · rcases dispatch_passes isCurrent with ⟨switch, after, run, names, passes⟩
      refine ⟨some switch, after, silent_schedule.runs ?_, Or.inr ⟨best, isLast,
        Or.inr ⟨isCurrent, congrArg some names, passes⟩⟩⟩
      simp [schedule, chosen, isCurrent, run]

/-- Of two processes with the same priority, the one queued last gets the processor. -/
theorem schedule_takes_last_of_two :
    ∃ before,
      (([.create "a" 0x1000 1 {}, .create "b" 0x2000 1 {}] : List Call).forM fun call =>
        discard call.act).Yields ⟨.empty 10, {}⟩ () before ∧ before.table.isCyclic = false ∧
      ∃ plan after, schedule.Runs before plan after [] ∧
        plan = some { outgoing := none, incoming := (⟨2⟩, 1), directory := none } ∧
        Passes before after 1 := by
  rcases Operation.yields_of_evaluation
      (([.create "a" 0x1000 1 {}, .create "b" 0x2000 1 {}] : List Call).forM fun call =>
        discard call.act) ⟨.empty 10, {}⟩
      (fun _ before => before.table.isCyclic = false ∧ before.table.readySlots = [0, 1] ∧
        before.table.current = none ∧ (before.table.process 0).priority = 1 ∧
        (before.table.process 1).priority = 1 ∧ (before.table.process 1).pid = ⟨2⟩ ∧
        (before.table.process 1).resources = {})
      (by decide +kernel) with ⟨_, before, run, found⟩
  rcases of_decide_eq_true found with
    ⟨acyclic, ready, noCurrent, first, second, pid, resources⟩
  have last : before.table.LastBest before.table.readySlots 1 := by
    refine ⟨[0], [], ready, fun other mem => ?_, fun _ mem => absurd mem List.not_mem_nil⟩
    rw [List.mem_singleton.mp mem, first, second]
    exact UInt32.le_refl _
  refine ⟨before, run, acyclic, ?_⟩
  rcases schedule_exact acyclic with
    ⟨plan, after, decided, ⟨empty, -, -⟩ | ⟨best, isLast, outcome⟩⟩
  · rw [ready] at empty
    cases empty
  · rw [last.unique isLast] at outcome
    rcases outcome with ⟨isCurrent, -, -⟩ | ⟨-, planned, passes⟩
    · rw [noCurrent] at isCurrent
      cases isCurrent
    · refine ⟨plan, after, decided, ?_, passes⟩
      rw [planned, noCurrent, pid, resources]
      rfl

end Exactness

end Dispatcher

end KernelCore
