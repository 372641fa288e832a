import KernelCore.Proofs.Scheduler.Lookup
import KernelCore.Proofs.Scheduler.Plans
import KernelCore.Proofs.Scheduler.Turns

/-!
# Processes in line

`ProcessTable.line` is what the table keeps of the processes on the queue, first to last and without
links. If the queue holds the live processes and no two of them have the same id, changing the
process in a slot changes the one with its id on the line; a process that is created goes to the end
of the line, and one that ends leaves it.
-/

namespace KernelCore

namespace ProcessRecord

/-- The process without its link. -/
def bare (process : ProcessRecord) : ProcessRecord :=
  { process with next := none }

/-- The change leaves alone who a live process is and how it is linked, and does the same whatever
the link. -/
structure Inner (change : ProcessRecord → ProcessRecord) : Prop where
  bare : ∀ process, (change process).bare = change process.bare
  next : ∀ process, (change process).next = process.next
  identity : ∀ process, process.isLive = true → (change process).identity = process.identity

section Inner

variable {process : ProcessRecord}

@[simp]
theorem pid_bare (process : ProcessRecord) : process.bare.pid = process.pid :=
  rfl

theorem inner_demote : Inner demote where
  bare process := by
    by_cases running : process.state = .running
    · simp [demote, ProcessRecord.bare, running]
    · simp [demote, ProcessRecord.bare, running]
  next := next_demote
  identity process _ := identity_demote process

theorem inner_doze (wakeAt : UInt64) : Inner (·.doze wakeAt) where
  bare _ := rfl
  next _ := rfl
  identity process live := by simp [doze, identity, isLive] at live ⊢; exact live

/-- The process goes on running. -/
theorem inner_run : Inner fun process => { process with state := .running } where
  bare _ := rfl
  next _ := rfl
  identity process live := by simp [identity, isLive] at live ⊢; exact live

theorem inner_grant (timeSlice : UInt32) :
    Inner fun process => { process with state := .running, timeSlice } where
  bare _ := rfl
  next _ := rfl
  identity process live := by simp [identity, isLive] at live ⊢; exact live

theorem inner_charge (totalTicks : UInt64) :
    Inner fun process => { process with totalTicks, timeSlice := process.timeSlice - 1 } where
  bare _ := rfl
  next _ := rfl
  identity _ _ := rfl

theorem inner_renew (totalTicks : UInt64) (timeSlice : UInt32) :
    Inner fun process => demote { process with totalTicks, timeSlice } where
  bare process := inner_demote.bare { process with totalTicks, timeSlice }
  next process := inner_demote.next { process with totalTicks, timeSlice }
  identity process live := inner_demote.identity { process with totalTicks, timeSlice } live

theorem identity_rouse (process : ProcessRecord) (now : UInt64) :
    (process.rouse now).identity = process.identity := by
  rw [rouse]
  split
  · rename_i due
    exact identity_wake due
  · rfl

theorem inner_rouse (now : UInt64) : Inner (·.rouse now) where
  bare process := by
    by_cases due : process.isDue now = true
    · have dueBare : process.bare.isDue now = true := due
      rw [rouse, rouse, if_pos due, if_pos dueBare]
      rfl
    · have notDue : ¬process.bare.isDue now = true := due
      rw [rouse, rouse, if_neg due, if_neg notDue]
  next process := same_rouse ProcessRecord.next (fun _ _ _ => rfl) process now
  identity process _ := identity_rouse process now

end Inner

end ProcessRecord

namespace ProcessTable

theorem pid_relieve (table : ProcessTable) (slot : Slot) :
    (table.relieve.process slot).pid = (table.process slot).pid := by
  rw [process_relieve]
  split
  · exact ProcessRecord.pid_demote _
  · rfl

/-- The slots on the queue are the given ones. They are those of the live processes, whose ids
differ, and whoever has the processor is one of them. -/
structure Lined (table : ProcessTable) (slots : List Slot) : Prop extends
  Queued table slots where
  own : table.Distinct
  current : CurrentLive table

section Lined

variable {before between after table : ProcessTable} {slots : List Slot} {slot other : Slot}
  {change : ProcessRecord → ProcessRecord}

theorem Lined.steady (lined : before.Lined slots) (steady : Steady before after) :
    after.Lined slots where
  toQueued := lined.toQueued.congr steady.toSameQueue steady.occupant
  own slot other pid resources provided here there := by
    rw [steady.occupant] at here there
    exact lined.own slot other pid resources provided here there
  current := steady.currentLive lined.current

theorem Lined.isLive (lined : table.Lined slots) (mem : slot ∈ slots) :
    (table.process slot).isLive = true := by
  apply Bool.of_not_eq_false
  intro ended
  exact (lined.live slot).mp mem (ProcessRecord.identity_eq_none.mpr ended)

theorem Lined.mem (lined : table.Lined slots) (live : (table.process slot).isLive = true) :
    slot ∈ slots := by
  rw [lined.live]
  intro vacant
  exact absurd (ProcessRecord.identity_eq_none.mp vacant) (by simp [live])

theorem Lined.occupant (lined : table.Lined slots) (mem : slot ∈ slots) :
    table.occupant slot = some ((table.process slot).pid, (table.process slot).resources) :=
  ProcessRecord.identity_eq_some.mpr ⟨lined.isLive mem, rfl, rfl⟩

theorem Lined.mem_of_current (lined : table.Lined slots) (isCurrent : table.current = some slot) :
    slot ∈ slots :=
  (lined.live slot).mpr (lined.current slot isCurrent)

/-- Of the slots on the queue, each has an id of its own. -/
theorem Lined.pid_eq_iff (lined : table.Lined slots) (mem : slot ∈ slots) (also : other ∈ slots) :
    (table.process slot).pid = (table.process other).pid ↔ slot = other := by
  constructor
  · intro same
    have here := lined.occupant mem
    rw [same] at here
    exact lined.own slot other _ _ _ here (lined.occupant also)
  · rintro rfl
    rfl

theorem Lined.queue_eq (lined : table.Lined slots) : table.queue = slots :=
  (queue_of_path lined.path lined.distinct).1

/-- What is kept of the processes on the queue, first to last and without links. -/
def line (table : ProcessTable) (slots : List Slot) : List ProcessRecord :=
  slots.map fun slot => (table.process slot).bare

/-- Changing a process changes the one with its id on the line. -/
theorem Lined.line_update (lined : table.Lined slots) (mem : slot ∈ slots)
    (inner : ProcessRecord.Inner change) :
    (table.update slot change).line slots = (table.line slots).map fun process =>
      if process.pid = (table.process slot).pid then change process else process := by
  rw [line, line, List.map_map]
  apply List.map_congr_left
  intro place listed
  simp only [Function.comp_apply, ProcessRecord.pid_bare, process_update,
    lined.pid_eq_iff listed mem]
  by_cases here : slot = place
  · rw [if_pos here, if_pos here.symm, inner.bare, here]
  · rw [if_neg here, if_neg (Ne.symm here)]

theorem Lined.steady_update (lined : table.Lined slots) (mem : slot ∈ slots)
    (inner : ProcessRecord.Inner change) : Steady table (table.update slot change) :=
  ProcessTable.steady_update table slot change (inner.identity _ (lined.isLive mem))
    (inner.next _)

theorem Lined.update (lined : table.Lined slots) (mem : slot ∈ slots)
    (inner : ProcessRecord.Inner change) : (table.update slot change).Lined slots :=
  lined.steady (lined.steady_update mem inner)

theorem Lined.relieve (lined : table.Lined slots) : table.relieve.Lined slots := by
  rw [ProcessTable.relieve]
  split
  · rename_i slot isCurrent
    exact lined.update (lined.mem_of_current isCurrent) ProcessRecord.inner_demote
  · exact lined

theorem Lined.withCurrent (lined : table.Lined slots) (mem : slot ∈ slots) :
    ({ table with current := some slot } : ProcessTable).Lined slots where
  toLinked := lined.toLinked.congr rfl rfl fun _ _ => rfl
  live := lined.live
  own := lined.own
  current := by
    rintro _ ⟨⟩
    exact (lined.live slot).mp mem

theorem Lined.grant (lined : table.Lined slots) (mem : slot ∈ slots) (timeSlice : UInt32) :
    (table.grant slot timeSlice).Lined slots :=
  (lined.relieve.update mem (ProcessRecord.inner_grant timeSlice)).withCurrent mem

theorem Lined.entered {pid : Pid} {resources : ProcessResources} (lined : before.Lined slots)
    (entered : Entered before after slot pid resources) : after.Lined (slots ++ [slot]) where
  toQueued := entered.queued lined.toQueued
  own := (Population.entered entered).distinct lined.own
  current place isCurrent := by
    rw [entered.current] at isCurrent
    rw [entered.stays (lined.current place isCurrent)]
    exact lined.current place isCurrent

theorem Lined.left {process : ProcessRecord} (lined : before.Lined slots)
    (left : Left before after slot process) : after.Lined (slots.erase slot) where
  toQueued := left.queued lined.toQueued
  own := (Population.left left).distinct lined.own
  current := left.currentLive

/-- The table is full when there are as many processes on the queue as slots. -/
theorem Lined.isFull_iff_length (lined : table.Lined slots) :
    table.isFull = true ↔ slots.length = Layout.maxProcesses := by
  have all : table.isFull = true ↔ ∀ slot, slot ∈ slots := by
    rw [isFull, Vector.all_eq_true]
    constructor
    · intro live slot
      exact lined.mem (live slot.val slot.isLt)
    · intro listed place inside
      exact lined.isLive (listed ⟨place, inside⟩)
  have count : slots.toFinset.card = Layout.maxProcesses ↔ slots.toFinset = Finset.univ := by
    simpa using Finset.card_eq_iff_eq_univ slots.toFinset
  rw [all, ← List.toFinset_card_of_nodup lined.distinct, count, Finset.eq_univ_iff_forall]
  simp only [List.mem_toFinset]

/-- A new process enters a slot with a fresh record, under the first unused id. -/
theorem create_enters {name : String} {entry priority : UInt32}
    {resources : ProcessResources} {pid : Pid}
    (run : (create name entry priority resources).Yields before (.ok pid) after) :
    ∃ slot next, Entered before after slot pid resources ∧
      before.searchPid (Layout.maxProcesses + 1) before.nextPid = some (pid, next) ∧
      Rethreaded (({ before with nextPid := next } : ProcessTable).update slot fun _ =>
        .fresh pid name entry priority before.timeSlice resources) after := by
  rcases create_cases run with ⟨_, refuted, -⟩ | ⟨slot, _, same, entered⟩
  · cases refuted
  cases same
  rcases create_records run with ⟨refuted, -⟩ | ⟨place, _, next, same, vacant, searched, rethreaded⟩
  · cases refuted
  cases same
  refine ⟨slot, next, entered, searched, ?_⟩
  have here : place = slot := by
    apply Classical.byContradiction
    intro differs
    rcases rethreaded.process_here with ⟨link, record⟩
    have stays := entered.others place differs
    rw [ProcessTable.occupant, record, ProcessTable.occupant,
      ProcessRecord.identity_eq_none.mpr vacant] at stays
    cases stays
  rw [← here]
  exact rethreaded

theorem Lined.line_entered {pid : Pid} {resources : ProcessResources} {process : ProcessRecord}
    {nextPid : UInt32} (lined : before.Lined slots)
    (entered : Entered before after slot pid resources)
    (rethreaded : Rethreaded
      (({ before with nextPid } : ProcessTable).update slot fun _ => process) after) :
    after.line (slots ++ [slot]) = before.line slots ++ [process.bare] := by
  have bare : ∀ place, (after.process place).bare =
      if slot = place then process.bare else (before.process place).bare := by
    intro place
    rcases rethreaded.process place with ⟨link, record⟩
    rw [record, process_update]
    split
    · rfl
    · rfl
  rw [line, line, List.map_append, List.map_singleton, bare, if_pos rfl]
  congr 1
  apply List.map_congr_left
  intro place mem
  have elsewhere : slot ≠ place := by
    rintro rfl
    exact (lined.live slot).mp mem entered.vacant
  rw [bare, if_neg elsewhere]

theorem Lined.line_left (lined : before.Lined slots) (mem : slot ∈ slots)
    (rethreaded : Rethreaded { before with current := none } between) :
    (between.update slot close).line (slots.erase slot) =
      (before.line slots).filter fun process => process.pid ≠ (before.process slot).pid := by
  have bare : ∀ place, slot ≠ place →
      ((between.update slot close).process place).bare = (before.process place).bare := by
    intro place elsewhere
    rcases rethreaded.process place with ⟨link, record⟩
    rw [process_update, if_neg elsewhere, record]
    rfl
  rw [line, line, List.filter_map, lined.distinct.erase_eq_filter]
  have others : slots.filter (· != slot) = slots.filter
      ((fun process => decide (process.pid ≠ (before.process slot).pid)) ∘
        fun place => (before.process place).bare) := by
    apply List.filter_congr
    intro place listed
    have differs := lined.pid_eq_iff listed mem
    simp [differs, bne, BEq.beq]
  rw [← others]
  apply List.map_congr_left
  intro place listed
  have elsewhere : place ≠ slot := by simpa using (List.mem_filter.mp listed).2
  exact bare place elsewhere.symm

end Lined

end ProcessTable

end KernelCore
