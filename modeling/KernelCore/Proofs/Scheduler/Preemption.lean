import KernelCore.Proofs.Scheduler.Slices

/-!
# Who is next when a turn is over

The queue has the live processes in the order in which they were created: `ProcessTable.InLine`.
When a turn is over, whoever can run is ready, the one whose turn it was among them. So the decision
falls on the one that was created last of those with the highest priority: `ProcessTable.Next`.
-/

namespace KernelCore

open ProcessTable

/-- Each id in the line was given out, for the last time, after those of all ahead of it. -/
def CreatedInOrder (made line : List Pid) : Prop :=
  ∀ front pid back, line = front ++ pid :: back →
    ∃ earlier later, made = earlier ++ pid :: later ∧ ∀ other ∈ front ++ [pid], other ∉ later

section CreatedInOrder

variable {made line : List Pid} {pid : Pid}

theorem createdInOrder_nil (made : List Pid) : CreatedInOrder made [] := by
  intro front pid back split
  simp at split

/-- When processes end, the others are still in order. -/
theorem CreatedInOrder.sublist {remaining : List Pid} (inOrder : CreatedInOrder made line)
    (sublist : remaining.Sublist line) : CreatedInOrder made remaining := by
  intro front pid back split
  rw [split] at sublist
  rcases List.append_sublist_iff.mp sublist with ⟨first, rest, rfl, ahead, behind⟩
  rcases List.cons_sublist_iff.mp behind with ⟨skipped, more, rfl, mem, -⟩
  rcases List.append_of_mem mem with ⟨before, after, rfl⟩
  rcases inOrder (first ++ before) pid (after ++ more) (by simp) with
    ⟨earlier, later, created, fresh⟩
  refine ⟨earlier, later, created, fun other listed => fresh other ?_⟩
  rcases List.mem_append.mp listed with inFront | here
  · exact List.mem_append_left _ (List.mem_append_left _ (ahead.subset inFront))
  · exact List.mem_append_right _ here

/-- A process that is created goes to the end of the line. -/
theorem CreatedInOrder.snoc (inOrder : CreatedInOrder made line) (unused : pid ∉ line) :
    CreatedInOrder (made ++ [pid]) (line ++ [pid]) := by
  intro front other back split
  rcases List.eq_nil_or_concat back with rfl | ⟨init, last, rfl⟩
  · rcases List.append_inj' split rfl with ⟨rfl, same⟩
    cases same
    exact ⟨made, [], rfl, fun _ _ => List.not_mem_nil⟩
  · rw [List.concat_eq_append, ← List.cons_append, ← List.append_assoc] at split
    rcases List.append_inj' split rfl with ⟨rfl, same⟩
    cases same
    rcases inOrder front other init rfl with ⟨earlier, later, rfl, fresh⟩
    refine ⟨earlier, later ++ [pid], by simp, fun place listed => ?_⟩
    have inLine : place ∈ front ++ other :: init := by
      rw [List.append_cons]
      exact List.mem_append_left _ listed
    intro again
    rcases List.mem_append.mp again with before | here
    · exact fresh place listed before
    · rw [List.mem_singleton.mp here] at inLine
      exact unused inLine

end CreatedInOrder

namespace ProcessTable

/-- The queue has the live processes in the order in which they were created. -/
def InLine (made : List Pid) (table : ProcessTable) : Prop :=
  ∃ slots, table.Queued slots ∧
    CreatedInOrder made (slots.map fun slot => (table.process slot).pid)

/-- Of the processes that can run and have the highest priority, the one in the slot is the one that
was created last. -/
structure Next (made : List Pid) (table : ProcessTable) (best : Slot) : Prop where
  runnable : (table.process best).Runnable
  highest : ∀ other, (table.process other).Runnable →
    (table.process other).priority ≤ (table.process best).priority
  last : ∃ earlier later, made = earlier ++ (table.process best).pid :: later ∧
    ∀ other, (table.process other).Runnable → (table.process other).pid ∈ later →
      (table.process other).priority < (table.process best).priority

section InLine

variable {made : List Pid} {before after table : ProcessTable} {slot best : Slot} {pid : Pid}
  {resources : ProcessResources}

theorem pid_of_occupant (here : table.occupant slot = some (pid, resources)) :
    (table.process slot).pid = pid :=
  (ProcessRecord.identity_eq_some.mp here).2.1

theorem inLine_empty (timeSlice : UInt32) (made : List Pid) : InLine made (.empty timeSlice) :=
  ⟨[], queued_empty timeSlice, createdInOrder_nil made⟩

theorem pids_congr {slots : List Slot} (queued : before.Queued slots)
    (same : ∀ slot ∈ slots, after.occupant slot = before.occupant slot) :
    (slots.map fun slot => (after.process slot).pid) =
      slots.map fun slot => (before.process slot).pid := by
  apply List.map_congr_left
  intro slot mem
  rcases Option.ne_none_iff_exists'.mp ((queued.live slot).mp mem) with ⟨⟨pid, resources⟩, here⟩
  rw [pid_of_occupant here, pid_of_occupant ((same slot mem).trans here)]

theorem InLine.congr (inLine : before.InLine made)
    (same : ∀ slot, after.occupant slot = before.occupant slot) (queue : SameQueue before after) :
    after.InLine made := by
  rcases inLine with ⟨slots, queued, inOrder⟩
  refine ⟨slots, queued.congr queue same, ?_⟩
  rw [pids_congr queued fun slot _ => same slot]
  exact inOrder

theorem InLine.entered (inLine : before.InLine made)
    (entered : Entered before after slot pid resources) : after.InLine (made ++ [pid]) := by
  rcases inLine with ⟨slots, queued, inOrder⟩
  have elsewhere : ∀ other ∈ slots, other ≠ slot := by
    rintro other mem rfl
    exact (queued.live other).mp mem entered.vacant
  refine ⟨slots ++ [slot], entered.queued queued, ?_⟩
  rw [List.map_append, List.map_singleton, pid_of_occupant entered.here,
    pids_congr queued fun other mem => entered.others other (elsewhere other mem)]
  refine inOrder.snoc fun listed => ?_
  rcases List.mem_map.mp listed with ⟨other, mem, same⟩
  rcases Option.ne_none_iff_exists'.mp ((queued.live other).mp mem) with ⟨⟨id, provided⟩, here⟩
  apply entered.unused other provided
  rw [here, ← same, pid_of_occupant here]

theorem InLine.left {process : ProcessRecord} (inLine : before.InLine made)
    (left : Left before after slot process) : after.InLine made := by
  rcases inLine with ⟨slots, queued, inOrder⟩
  have remaining := left.queued queued
  refine ⟨slots.erase slot, remaining, ?_⟩
  have elsewhere : ∀ other ∈ slots.erase slot, other ≠ slot := by
    rintro other mem rfl
    exact (remaining.live other).mp mem left.vacant
  have same : ((slots.erase slot).map fun slot => (after.process slot).pid) =
      (slots.erase slot).map fun slot => (before.process slot).pid :=
    (pids_congr remaining fun other mem => (left.others other (elsewhere other mem)).symm).symm
  rw [same]
  exact inOrder.sublist (List.erase_sublist.map _)

/-- Among slots whose processes are ready, the last of the best has the process that was created
last. -/
theorem InLine.next (inLine : table.InLine made)
    (ready : ∀ slot, (table.process slot).state = .ready ↔ (before.process slot).Runnable)
    (priority : ∀ slot, (table.process slot).priority = (before.process slot).priority)
    (pids : ∀ slot, (table.process slot).pid = (before.process slot).pid)
    (chosen : table.LastBest table.readySlots best) : before.Next made best := by
  rcases inLine with ⟨slots, queued, inOrder⟩
  have highest : ∀ other, (before.process other).Runnable →
      (before.process other).priority ≤ (before.process best).priority := by
    intro other runnable
    rw [← priority, ← priority]
    exact chosen.maximal (queued.mem_readySlots.mpr ((ready other).mpr runnable))
  have isReady := queued.mem_readySlots.mp chosen.mem
  rcases chosen with ⟨front, back, split, -, lower⟩
  rw [readySlots, (queue_of_path queued.path queued.distinct).1] at split
  rcases List.filter_eq_append_iff.mp split with ⟨first, rest, rfl, -, others⟩
  rcases List.filter_eq_cons_iff.mp others with ⟨skipped, behind, rfl, -, -, isBack⟩
  rcases inOrder ((first ++ skipped).map fun slot => (table.process slot).pid)
    (table.process best).pid (behind.map fun slot => (table.process slot).pid) (by simp) with
    ⟨earlier, later, created, fresh⟩
  refine ⟨(ready best).mp isReady, highest, earlier, later, ?_, ?_⟩
  · rw [← pids]
    exact created
  · intro other runnable again
    rw [← pids] at again
    have otherReady := (ready other).mpr runnable
    have listed : other ∈ first ++ (skipped ++ best :: behind) := by
      rw [queued.live, Dispatcher.occupant_of_ready otherReady]
      exact Option.some_ne_none _
    rw [← List.append_assoc, List.append_cons] at listed
    rcases List.mem_append.mp listed with ahead | after
    · have pidAhead := List.mem_map_of_mem (f := fun slot => (table.process slot).pid) ahead
      rw [List.map_append, List.map_singleton] at pidAhead
      exact absurd again (fresh _ pidAhead)
    · have inBack : other ∈ back := by
        rw [← isBack]
        exact List.mem_filter.mpr ⟨after, decide_eq_true otherReady⟩
      rw [← priority, ← priority]
      exact lower other inBack

end InLine

end ProcessTable

namespace Dispatcher

section Renewal

variable {dispatcher after : Dispatcher} {plan : Option Switch} {slot : Slot} {made : List Pid}

theorem process_renew (dispatcher : Dispatcher) (slot other : Slot) :
    (dispatcher.renew slot).table.process other =
      if slot = other then
        ProcessRecord.demote
          { dispatcher.awake.table.process slot with
            totalTicks := (dispatcher.awake.table.process slot).totalTicks + 1
            timeSlice := dispatcher.scheduler.config.timeSliceTicks }
      else dispatcher.awake.table.process other :=
  process_update _ _ _ _

/-- Once the turn is renewed, those are ready that could run as the tick came. -/
theorem ready_renew_iff (orderly : dispatcher.Orderly)
    (isCurrent : dispatcher.table.current = some slot) (other : Slot) :
    ((dispatcher.renew slot).table.process other).state = .ready ↔
      (dispatcher.awake.table.process other).Runnable := by
  rw [process_renew]
  split
  · rename_i here
    rw [ProcessRecord.ready_demote_iff, ← here]
    rfl
  · rename_i elsewhere
    refine ⟨Or.inl, fun runnable => ?_⟩
    rcases runnable with ready | running
    · exact ready
    · rw [awake, process_roused] at running
      have holds := orderly.running other (ProcessRecord.running_of_rouse running)
      rw [isCurrent, Option.some.injEq] at holds
      exact absurd holds elsewhere

theorem priority_renew (dispatcher : Dispatcher) (slot other : Slot) :
    ((dispatcher.renew slot).table.process other).priority =
      (dispatcher.awake.table.process other).priority := by
  rw [process_renew]
  split
  · rename_i here
    rw [ProcessRecord.priority_demote, here]
  · rfl

theorem pid_renew (dispatcher : Dispatcher) (slot other : Slot) :
    ((dispatcher.renew slot).table.process other).pid =
      (dispatcher.awake.table.process other).pid := by
  rw [process_renew]
  split
  · rename_i here
    rw [ProcessRecord.pid_demote, here]
  · rfl

/-- The last tick of a turn is charged like the others. -/
theorem totalTicks_renew (dispatcher : Dispatcher) (slot : Slot) :
    ((dispatcher.renew slot).table.process slot).totalTicks =
      (dispatcher.table.process slot).totalTicks + 1 := by
  rw [process_renew, if_pos rfl, ProcessRecord.totalTicks_demote, awake, process_roused,
    ProcessRecord.totalTicks_rouse]

theorem steady_renew (dispatcher : Dispatcher) (slot : Slot) :
    Steady dispatcher.table (dispatcher.renew slot).table := by
  have awakes : Steady dispatcher.table dispatcher.awake.table := steady_roused dispatcher _
  simp only [renew]
  refine awakes.trans (steady_update _ slot _ ?_ ?_)
  · exact (ProcessRecord.identity_demote _).trans rfl
  · exact (ProcessRecord.next_demote _).trans rfl

/-- When a turn is over and somebody can run, the one that is next has the processor for a whole
turn, and a switch is planned unless it had the processor already. -/
theorem next_of_renew (sound : dispatcher.Sound) (inLine : dispatcher.table.InLine made)
    (isCurrent : dispatcher.table.current = some slot)
    (somebody : ∃ other, (dispatcher.awake.table.process other).Runnable)
    (run : schedule.Yields (dispatcher.renew slot) plan after) :
    ∃ best, dispatcher.awake.table.Next made best ∧ after.table.current = some best ∧
      (after.table.process best).state = .running ∧
      (after.table.process best).timeSlice = dispatcher.scheduler.config.timeSliceTicks ∧
      plan.map (fun switch => switch.incoming) =
        if best = slot then none else some ((dispatcher.awake.table.process best).pid, best) := by
  have steady := steady_renew dispatcher slot
  have ready := ready_renew_iff sound.orderly isCurrent
  have renewed := inLine.congr steady.occupant steady.toSameQueue
  have holds : (dispatcher.renew slot).table.current = some slot := isCurrent
  rcases sound.queued with ⟨slots, queued⟩
  have queuedRenewed := queued.congr steady.toSameQueue steady.occupant
  have acyclic := (queue_of_path queuedRenewed.path queuedRenewed.distinct).2
  rcases select_cases acyclic with ⟨empty, -⟩ | ⟨best, last, selected⟩
  · rcases somebody with ⟨other, runnable⟩
    have listed := queuedRenewed.mem_readySlots.mpr ((ready other).mpr runnable)
    rw [empty] at listed
    cases listed
  have next := renewed.next ready (priority_renew dispatcher slot) (pid_renew dispatcher slot) last
  refine ⟨best, next, ?_⟩
  cases decision_of_schedule run with
  | nobody noneChosen =>
      rw [selected] at noneChosen
      cases noneChosen
  | @again place chosen isPlace =>
      rw [selected] at chosen
      cases chosen
      rw [holds, Option.some.injEq] at isPlace
      subst isPlace
      refine ⟨holds, ?_, ?_, (if_pos rfl).symm⟩
      · rw [process_update, if_pos rfl]
      · rw [process_update, if_pos rfl, process_renew, if_pos rfl]
        exact ProcessRecord.timeSlice_demote _
  | @other place switch chosen notPlace incoming =>
      rw [selected] at chosen
      cases chosen
      have differs : best ≠ slot := by
        rintro rfl
        exact notPlace holds
      refine ⟨rfl, ?_, ?_, ?_⟩
      · rw [process_grant_self notPlace]
      · rw [process_grant_self notPlace]
        rfl
      · rw [if_neg differs, Option.map_some, incoming, pid_renew]

end Renewal

end Dispatcher

end KernelCore
