import KernelCore.Proofs.ProcessTable

/-!
# What the process table keeps of processes

Putting a slot on the queue or taking it out changes links, and nothing else of what is kept of the
processes: `ProcessTable.Rethreaded`. So creating a process replaces the record of one slot, ending
one closes the record of one slot, and all other records stay as they were but for the links.
-/

namespace KernelCore.ProcessTable

/-- Only the links of the queue have changed. -/
structure Rethreaded (before after : ProcessTable) : Prop where
  process : ∀ slot, ∃ next, after.process slot = { before.process slot with next }
  current : after.current = before.current
  nextPid : after.nextPid = before.nextPid
  timeSlice : after.timeSlice = before.timeSlice

/-- What is kept of a process once it has ended. -/
def close (process : ProcessRecord) : ProcessRecord :=
  { process with state := .terminated, wakeAt := none }

section Links

variable {before between after table : ProcessTable} {slot : Slot}

@[simp]
theorem current_update (table : ProcessTable) (slot : Slot)
    (change : ProcessRecord → ProcessRecord) : (table.update slot change).current = table.current :=
  rfl

theorem Rethreaded.trans (first : Rethreaded before between) (second : Rethreaded between after) :
    Rethreaded before after where
  process slot := by
    rcases first.process slot with ⟨link, same⟩
    rcases second.process slot with ⟨next, again⟩
    exact ⟨next, by rw [again, same]⟩
  current := second.current.trans first.current
  nextPid := second.nextPid.trans first.nextPid
  timeSlice := second.timeSlice.trans first.timeSlice

/-- After an update the changed record is in its slot, whatever its link is. -/
theorem Rethreaded.process_here {change : ProcessRecord → ProcessRecord}
    (rethreaded : Rethreaded (table.update slot change) after) :
    ∃ next, after.process slot = { change (table.process slot) with next } := by
  rcases rethreaded.process slot with ⟨next, record⟩
  rw [process_update, if_pos rfl] at record
  exact ⟨next, record⟩

theorem Rethreaded.process_elsewhere {change : ProcessRecord → ProcessRecord} {other : Slot}
    (rethreaded : Rethreaded (table.update slot change) after) (elsewhere : slot ≠ other) :
    ∃ next, after.process other = { table.process other with next } := by
  rcases rethreaded.process other with ⟨next, record⟩
  rw [process_update, if_neg elsewhere] at record
  exact ⟨next, record⟩

theorem rethreaded_update (table : ProcessTable) (slot : Slot) (next : Option Slot) :
    Rethreaded table (table.update slot fun process => { process with next }) where
  process other := by
    rw [process_update]
    by_cases here : slot = other
    · rw [if_pos here, here]
      exact ⟨next, rfl⟩
    · rw [if_neg here]
      exact ⟨_, rfl⟩
  current := rfl
  nextPid := rfl
  timeSlice := rfl

theorem rethreaded_enqueue (table : ProcessTable) (slot : Slot) :
    Rethreaded table (table.enqueue slot) := by
  have first := rethreaded_update table slot none
  rw [enqueue]
  split
  · rename_i last _
    have second := first.trans (rethreaded_update _ last (some slot))
    exact ⟨second.process, second.current, second.nextPid, second.timeSlice⟩
  · exact ⟨first.process, first.current, first.nextPid, first.timeSlice⟩

theorem rethreaded_dequeue (done : table.dequeue slot = .ok after) : Rethreaded table after := by
  have first := rethreaded_update table slot none
  rw [dequeue] at done
  cases found : (table.update slot fun process => { process with next := none }).searchQueue
      fun before => (((table.update slot fun process => { process with next := none }).process
        before).next == some slot) with
  | error fault => simp [found, bind, Except.bind] at done
  | ok before =>
      simp only [found, bind, Except.bind] at done
      cases before with
      | some before =>
          have second := first.trans (rethreaded_update _ before (table.process slot).next)
          simp only [pure, Except.pure, Except.ok.injEq] at done
          subst done
          split
          · exact ⟨second.process, second.current, second.nextPid, second.timeSlice⟩
          · exact second
      | none =>
          simp only [pure, Except.pure, ← apply_ite Except.ok, Except.ok.injEq] at done
          subst done
          split
          · split
            · exact ⟨first.process, first.current, first.nextPid, first.timeSlice⟩
            · exact ⟨first.process, first.current, first.nextPid, first.timeSlice⟩
          · exact first

end Links

section Lives

variable {before after table : ProcessTable} {slot : Slot}

theorem isFull_eq_false_of_vacant (vacant : (table.process slot).isLive = false) :
    table.isFull = false := by
  rw [isFull, Bool.eq_false_iff, ne_eq, Vector.all_eq_true]
  intro all
  have live := all slot.val slot.isLt
  exact absurd (live.symm.trans vacant) (by decide)

/-- A new process gets the record of a slot that was vacant and the first unused id; if no slot is
vacant, it is refused. -/
theorem create_records {name : String} {entry priority : UInt32} {resources : ProcessResources}
    {reply : Except ProcessError Pid}
    (run : (create name entry priority resources).Yields before reply after) :
    (reply = .error .tableFull ∧ before.isFull = true ∧ after = before) ∨
      ∃ slot pid next, reply = .ok pid ∧ (before.process slot).isLive = false ∧
        before.searchPid (Layout.maxProcesses + 1) before.nextPid = some (pid, next) ∧
        Rethreaded (({ before with nextPid := next } : ProcessTable).update slot fun _ =>
          .fresh pid name entry priority before.timeSlice resources) after := by
  cases vacant : before.processes.findFinIdx? fun process => !process.isLive with
  | none =>
      left
      simp [create, and_assoc, vacant] at run
      rw [Vector.findFinIdx?_eq_none_iff] at vacant
      refine ⟨run.1, ?_, run.2⟩
      rw [isFull, Vector.all_eq_true]
      intro place inside
      have live := vacant _ (Vector.getElem_mem inside)
      simpa using live
  | some slot =>
      right
      simp [create, and_assoc, vacant] at run
      rcases run with ⟨pid, numbered, allocated, rfl, rfl⟩
      rcases yields_allocatePid.mp allocated with ⟨next, searched, rfl⟩
      have notLive := process_of_findFinIdx? vacant
      rw [Bool.not_eq_true'] at notLive
      exact ⟨slot, pid, next, rfl, notLive, searched, rethreaded_enqueue _ slot⟩

theorem yields_create (table : ProcessTable) (name : String) (entry priority : UInt32)
    (resources : ProcessResources) :
    ∃ reply after, (create name entry priority resources).Yields table reply after := by
  cases vacant : table.processes.findFinIdx? fun process => !process.isLive with
  | none => simp [create, and_assoc, vacant]
  | some slot =>
      rcases searchPid_finds table table.nextPid with ⟨pid, next, searched⟩
      simp [create, and_assoc, vacant, yields_allocatePid, searched]

/-- The process that is found under the id of a new process starts at its entry. -/
theorem context_of_create {name : String} {entry priority : UInt32}
    {resources : ProcessResources} {pid : Pid} {process : ProcessRecord}
    (run : (create name entry priority resources).Yields before (.ok pid) after)
    (found : after.find? pid = some process) :
    process.context = ProcessRecord.initialContext pid entry := by
  rcases create_records run with ⟨refuted, -⟩ | ⟨slot, given, next, same, -, searched, rethreaded⟩
  · cases refuted
  cases same
  rcases Option.map_eq_some_iff.mp found with ⟨place, isAt, rfl⟩
  have passed := process_of_findFinIdx? isAt
  simp only [Bool.and_eq_true, beq_iff_eq] at passed
  rcases rethreaded.process place with ⟨link, record⟩
  rw [process_update] at record
  by_cases here : slot = place
  · rw [record, if_pos here]
    rfl
  · -- Elsewhere nobody has the id.
    rw [if_neg here] at record
    rw [record] at passed
    exact absurd (ProcessRecord.identity_eq_some.mpr ⟨passed.1, passed.2, rfl⟩)
      (occupant_ne_of_slotOf (searchPid_unused searched) place _)

/-- Ending the process that has the processor closes its record. -/
theorem exit_records {code : Int32} {reply : Option ProcessRecord}
    (run : (exit code).Yields before reply after) :
    (reply = none ∧ before.current = none ∧ after = before) ∨
      ∃ slot between, before.current = some slot ∧
        Rethreaded { before with current := none } between ∧
        after = between.update slot close ∧ reply = some (after.process slot) := by
  cases current : before.current with
  | none =>
      left
      simp [exit, and_assoc, current] at run
      exact ⟨run.1, rfl, run.2⟩
  | some slot =>
      right
      simp [exit, and_assoc, current] at run
      rcases run with ⟨between, dequeued, rfl, rfl⟩
      exact ⟨slot, between, rfl, rethreaded_dequeue dequeued, rfl, rfl⟩

theorem process_empty (timeSlice : UInt32) (slot : Slot) :
    (empty timeSlice).process slot = .vacant := by
  simp [process, empty]

/-- The first process of a table is its only one, and has the id one. -/
theorem create_on_empty {name : String} {entry priority timeSlice : UInt32}
    {resources : ProcessResources} {reply : Except ProcessError Pid}
    (run : (create name entry priority resources).Yields (.empty timeSlice) reply after) :
    reply = .ok ⟨1⟩ ∧ after.nextPid = 2 ∧ after.current = none ∧ ∃ home,
      (∃ next, after.process home =
        { ProcessRecord.fresh ⟨1⟩ name entry priority timeSlice resources with next }) ∧
      ∀ slot, (after.process slot).isLive = true → slot = home := by
  rcases create_records run with
    ⟨-, full, -⟩ | ⟨home, pid, next, rfl, -, searched, rethreaded⟩
  · have vacant : ((empty timeSlice).process 0).isLive = false := by
      rw [process_empty]
      rfl
    rw [isFull_eq_false_of_vacant vacant] at full
    cases full
  · rw [searchPid_empty, Option.some.injEq, Prod.mk.injEq] at searched
    rcases searched with ⟨rfl, rfl⟩
    refine ⟨rfl, rethreaded.nextPid, rethreaded.current, home, ?_, ?_⟩
    · exact rethreaded.process_here
    · intro slot live
      by_contra elsewhere
      rcases rethreaded.process_elsewhere (Ne.symm elsewhere) with ⟨link, record⟩
      rw [record] at live
      change ((empty timeSlice).process slot).isLive = true at live
      rw [process_empty] at live
      cases live

end Lives

end KernelCore.ProcessTable
