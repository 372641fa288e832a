import KernelCore.Proofs.Scheduler.Stacks

/-!
# Finding processes by their ids

A process can be found under its id as long as it is live, and nobody else can, since no two live
processes have the same id. So whoever has the processor is known by its id as well as by its slot.
-/

namespace KernelCore

theorem ProcessRecord.live_of_running {process : ProcessRecord}
    (running : process.state = .running) : process.isLive = true := by
  rw [isLive, running]
  rfl

namespace ProcessTable

section Lookup

variable {before after table : ProcessTable} {slot : Slot} {pid : Pid}
  {resources : ProcessResources} {process : ProcessRecord}

theorem currentPid_of_current (isCurrent : table.current = some slot) :
    table.currentPid = some (table.process slot).pid := by
  rw [currentPid, currentProcess, isCurrent]
  rfl

theorem currentPid_of_none (noCurrent : table.current = none) : table.currentPid = none := by
  rw [currentPid, currentProcess, noCurrent]
  rfl

theorem currentPid_of_occupant (isCurrent : table.current = some slot)
    (here : table.occupant slot = some (pid, resources)) : table.currentPid = some pid := by
  rcases ProcessRecord.identity_eq_some.mp here with ⟨-, same, -⟩
  rw [currentPid_of_current isCurrent, same]

theorem occupant_of_currentPid (live : CurrentLive table)
    (isCurrent : table.currentPid = some pid) :
    ∃ slot resources, table.current = some slot ∧
      table.occupant slot = some (pid, resources) := by
  cases current : table.current with
  | none =>
      rw [currentPid_of_none current] at isCurrent
      cases isCurrent
  | some slot =>
      rcases Option.ne_none_iff_exists'.mp (live slot current) with ⟨⟨other, resources⟩, here⟩
      rw [currentPid_of_occupant current here] at isCurrent
      cases isCurrent
      exact ⟨slot, resources, rfl, here⟩

theorem currentPid_eq_some_iff (live : CurrentLive table) (distinct : table.Distinct)
    (here : table.occupant slot = some (pid, resources)) :
    table.currentPid = some pid ↔ table.current = some slot := by
  constructor
  · intro isCurrent
    rcases occupant_of_currentPid live isCurrent with ⟨place, provided, current, there⟩
    rw [current, distinct place slot pid provided resources there here]
  · intro current
    exact currentPid_of_occupant current here

/-- Whoever has the processor keeps it if nothing happens to it. -/
theorem currentPid_congr (live : CurrentLive before) (current : after.current = before.current)
    (same : ∀ slot, before.current = some slot → after.occupant slot = before.occupant slot) :
    after.currentPid = before.currentPid := by
  cases isCurrent : before.current with
  | none =>
      rw [isCurrent] at current
      rw [currentPid_of_none isCurrent, currentPid_of_none current]
  | some slot =>
      rcases Option.ne_none_iff_exists'.mp (live slot isCurrent) with ⟨⟨pid, resources⟩, here⟩
      rw [currentPid_of_occupant isCurrent here]
      exact currentPid_of_occupant (current.trans isCurrent) ((same slot isCurrent).trans here)

theorem occupant_of_find? (found : table.find? pid = some process) :
    ∃ slot, table.process slot = process ∧
      table.occupant slot = some (pid, process.resources) := by
  rcases Option.map_eq_some_iff.mp found with ⟨slot, isAt, rfl⟩
  have passed := process_of_findFinIdx? isAt
  simp only [Bool.and_eq_true, beq_iff_eq] at passed
  exact ⟨slot, rfl, ProcessRecord.identity_eq_some.mpr ⟨passed.1, passed.2, rfl⟩⟩

theorem find?_eq_none_iff :
    table.find? pid = none ↔ ∀ slot resources, table.occupant slot ≠ some (pid, resources) := by
  constructor
  · intro unknown
    exact occupant_ne_of_slotOf (Option.map_eq_none_iff.mp unknown)
  · intro nobody
    cases found : table.find? pid with
    | none => rfl
    | some process =>
        rcases occupant_of_find? found with ⟨slot, -, here⟩
        exact absurd here (nobody slot process.resources)

/-- The process with an id is the one that lives under it. -/
theorem find?_of_occupant (distinct : table.Distinct)
    (here : table.occupant slot = some (pid, resources)) :
    table.find? pid = some (table.process slot) := by
  cases found : table.find? pid with
  | none => exact absurd here (find?_eq_none_iff.mp found slot resources)
  | some process =>
      rcases occupant_of_find? found with ⟨place, rfl, there⟩
      rw [distinct place slot pid _ _ there here]

theorem find?_of_live (distinct : table.Distinct) (live : (table.process slot).isLive = true) :
    table.find? (table.process slot).pid = some (table.process slot) :=
  find?_of_occupant distinct (ProcessRecord.identity_eq_some.mpr ⟨live, rfl, rfl⟩)

end Lookup

end ProcessTable

end KernelCore
