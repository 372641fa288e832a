import KernelCore.Proofs.ReadyQueue

/-!
# Which processes live in the table

Most operations on the process table change what processes are doing, but not which live where, what
they were given and how they are linked. `ProcessTable.occupant` tells who lives where, and
`ProcessTable.Steady` says that an operation leaves all this alone. A process is created in a slot
without an occupant, under an id that no occupant has, and only the process that has the processor
ends. The queue holds the slots of live processes, and only them, all along.
-/

namespace KernelCore

namespace ProcessRecord

/-- Who the process is and what it was given, if it is live. -/
def identity (process : ProcessRecord) : Option (Pid × ProcessResources) :=
  if process.isLive then some (process.pid, process.resources) else none

theorem identity_eq_some {process : ProcessRecord} {pid : Pid} {resources : ProcessResources} :
    process.identity = some (pid, resources) ↔
      process.isLive = true ∧ process.pid = pid ∧ process.resources = resources := by
  cases live : process.isLive <;> simp [identity, live]

theorem identity_eq_none {process : ProcessRecord} :
    process.identity = none ↔ process.isLive = false := by
  cases live : process.isLive <;> simp [identity, live]

/-- Being demoted changes nothing but what a process is doing. -/
theorem same_demote {Part : Type} (part : ProcessRecord → Part)
    (blind : ∀ process state, part { process with state } = part process)
    (process : ProcessRecord) : part process.demote = part process := by
  rw [demote]
  split
  · exact blind process .ready
  · rfl

theorem next_demote (process : ProcessRecord) : process.demote.next = process.next :=
  same_demote next (fun _ _ => rfl) process

theorem identity_demote (process : ProcessRecord) : process.demote.identity = process.identity := by
  by_cases running : process.state = .running <;>
    simp [demote, identity, isLive, running]

theorem identity_wake {process : ProcessRecord} {now : UInt64} (due : process.isDue now = true) :
    process.wake.identity = process.identity := by
  simp only [isDue, Bool.and_eq_true, decide_eq_true_iff] at due
  simp [wake, identity, isLive, due.1]

end ProcessRecord

namespace ProcessTable

/-- Who lives in a slot, and what it was given. -/
def occupant (table : ProcessTable) (slot : Slot) : Option (Pid × ProcessResources) :=
  (table.process slot).identity

/-- The same processes live in the same slots, and the same one has the processor. -/
structure Relinked (before after : ProcessTable) : Prop where
  occupant : ∀ slot, after.occupant slot = before.occupant slot
  current : after.current = before.current

/-- Processes are also linked as they were. -/
structure Steady (before after : ProcessTable) : Prop extends
  Relinked before after, SameQueue before after

/-- The slots on the queue are the given ones, and they are those of the live processes. -/
structure Queued (table : ProcessTable) (slots : List Slot) : Prop extends Linked table slots where
  live : ∀ slot, slot ∈ slots ↔ table.occupant slot ≠ none

/-- Whoever has the processor is live. -/
def CurrentLive (table : ProcessTable) : Prop :=
  ∀ slot, table.current = some slot → table.occupant slot ≠ none

section Relinked

variable {before between after table : ProcessTable} {slot : Slot}
  {change : ProcessRecord → ProcessRecord}

theorem Relinked.refl (table : ProcessTable) : Relinked table table where
  occupant _ := rfl
  current := rfl

theorem Relinked.trans (first : Relinked before between) (second : Relinked between after) :
    Relinked before after where
  occupant slot := (second.occupant slot).trans (first.occupant slot)
  current := second.current.trans first.current

theorem Relinked.currentLive (relinked : Relinked before after) (live : CurrentLive before) :
    CurrentLive after := by
  intro slot isCurrent
  rw [relinked.occupant slot]
  exact live slot (relinked.current ▸ isCurrent)

theorem occupant_update_of_ne {other : Slot} (differs : slot ≠ other) :
    (table.update slot change).occupant other = table.occupant other := by
  rw [occupant, occupant, process_update, if_neg differs]

theorem occupant_update_self :
    (table.update slot change).occupant slot = (change (table.process slot)).identity := by
  rw [occupant, process_update, if_pos rfl]

theorem relinked_update (table : ProcessTable) (slot : Slot)
    (change : ProcessRecord → ProcessRecord)
    (same : (change (table.process slot)).identity = (table.process slot).identity) :
    Relinked table (table.update slot change) where
  occupant other := by
    by_cases here : slot = other
    · rw [← here, occupant_update_self, same]
      rfl
    · exact occupant_update_of_ne here
  current := rfl

theorem Steady.refl (table : ProcessTable) : Steady table table :=
  ⟨Relinked.refl table, SameQueue.refl table⟩

theorem Steady.trans (first : Steady before between) (second : Steady between after) :
    Steady before after :=
  ⟨first.toRelinked.trans second.toRelinked, first.toSameQueue.trans second.toSameQueue⟩

theorem steady_update (table : ProcessTable) (slot : Slot)
    (change : ProcessRecord → ProcessRecord)
    (same : (change (table.process slot)).identity = (table.process slot).identity)
    (next : (change (table.process slot)).next = (table.process slot).next) :
    Steady table (table.update slot change) :=
  ⟨relinked_update table slot change same, sameQueue_update table slot change next⟩

theorem Queued.congr {slots : List Slot} (queued : before.Queued slots)
    (queue : SameQueue before after)
    (same : ∀ slot, after.occupant slot = before.occupant slot) : after.Queued slots where
  toLinked := queued.toLinked.sameQueue queue
  live slot := by
    rw [same slot]
    exact queued.live slot

theorem relinked_enqueue (table : ProcessTable) (slot : Slot) :
    Relinked table (table.enqueue slot) := by
  have first := relinked_update table slot (fun process => { process with next := none }) rfl
  rw [enqueue]
  split
  · rename_i last _
    have second := first.trans
      (relinked_update _ last (fun process => { process with next := some slot }) rfl)
    exact ⟨second.occupant, second.current⟩
  · exact ⟨first.occupant, first.current⟩

theorem relinked_dequeue (done : table.dequeue slot = .ok after) : Relinked table after := by
  have first := relinked_update table slot (fun process => { process with next := none }) rfl
  rw [dequeue] at done
  cases found : (table.update slot fun process => { process with next := none }).searchQueue
      fun before => (((table.update slot fun process => { process with next := none }).process
        before).next == some slot) with
  | error fault =>
      simp [found, bind, Except.bind] at done
  | ok before =>
      simp only [found, bind, Except.bind] at done
      cases before with
      | some before =>
          have second := first.trans (relinked_update _ before
            (fun process => { process with next := (table.process slot).next }) rfl)
          simp only [pure, Except.pure, Except.ok.injEq] at done
          subst done
          split
          · exact ⟨second.occupant, second.current⟩
          · exact second
      | none =>
          simp only [] at done
          split at done
          · simp only [pure, Except.pure, Except.ok.injEq] at done
            subst done
            split
            · exact ⟨first.occupant, first.current⟩
            · exact ⟨first.occupant, first.current⟩
          · simp only [pure, Except.pure, Except.ok.injEq] at done
            subst done
            exact first

end Relinked

/-- A process has come to live in a slot, under an id that was not in use. -/
structure Entered (before after : ProcessTable) (slot : Slot) (pid : Pid)
    (resources : ProcessResources) : Prop where
  vacant : before.occupant slot = none
  here : after.occupant slot = some (pid, resources)
  others : ∀ other, other ≠ slot → after.occupant other = before.occupant other
  unused : ∀ other resources, before.occupant other ≠ some (pid, resources)
  current : after.current = before.current
  queue : ∀ slots, before.Linked slots → slot ∉ slots → after.Linked (slots ++ [slot])

/-- The process that had the processor has ended. -/
structure Left (before after : ProcessTable) (slot : Slot) (process : ProcessRecord) : Prop where
  current : before.current = some slot
  here : before.occupant slot = some (process.pid, process.resources)
  vacant : after.occupant slot = none
  others : ∀ other, other ≠ slot → after.occupant other = before.occupant other
  idle : after.current = none
  queue : ∀ front back, before.Linked (front ++ slot :: back) → after.Linked (front ++ back)

section Lives

variable {before after table : ProcessTable} {slot : Slot}

theorem searchPid_unused {tries : Nat} {candidate next : UInt32} {pid : Pid}
    (found : table.searchPid tries candidate = some (pid, next)) : table.slotOf pid = none := by
  induction tries generalizing candidate with
  | zero => cases found
  | succ tries ih =>
      rw [searchPid] at found
      split at found
      · rename_i unused
        simp only [Option.some.injEq, Prod.mk.injEq] at found
        rw [← found.1]
        exact unused
      · exact ih found

theorem occupant_ne_of_slotOf {pid : Pid} (unused : table.slotOf pid = none) (slot : Slot)
    (resources : ProcessResources) : table.occupant slot ≠ some (pid, resources) := by
  intro here
  rcases ProcessRecord.identity_eq_some.mp here with ⟨live, same, -⟩
  rw [slotOf, Vector.findFinIdx?_eq_none_iff] at unused
  apply unused (table.process slot) (Vector.getElem_mem slot.isLt)
  rw [live, same, Bool.true_and, beq_self_eq_true]

theorem process_of_findFinIdx? {test : ProcessRecord → Bool}
    (found : table.processes.findFinIdx? test = some slot) : test (table.process slot) = true := by
  have first : table.processes.find? test = some (table.process slot) := by
    rw [Vector.find?_eq_map_findFinIdx?_getElem]
    exact congrArg (Option.map _) found
  exact Vector.find?_some first

/-- How far the cycle of ids has gone from a word after a few steps. -/
theorem toNat_iterate_successor (word : UInt32) {steps : Nat} (few : steps ≤ Layout.maxProcesses) :
    (successor^[steps] word).toNat =
      if word.toNat + steps < 2 ^ 32 then word.toNat + steps
      else word.toNat + steps - (2 ^ 32 - 1) := by
  have small := word.toNat_lt
  have limit : Layout.maxProcesses = 64 := rfl
  induction steps with
  | zero =>
      rw [if_pos (by omega)]
      rfl
  | succ steps ih =>
      have one : (1 : UInt32).toNat = 1 := rfl
      rw [Function.iterate_succ_apply', successor, UInt32.toNat_max, UInt32.toNat_add,
        ih (by omega), one]
      split <;> split <;> omega

theorem toNat_successor {word : UInt32} (few : word.toNat + 1 < 2 ^ 32) :
    (successor word).toNat = word.toNat + 1 :=
  (toNat_iterate_successor word (show 1 ≤ Layout.maxProcesses by decide)).trans (if_pos few)

theorem successor_ne_zero (word : UInt32) : successor word ≠ 0 := by
  have one : (1 : UInt32).toNat = 1 := rfl
  have zero : (0 : UInt32).toNat = 0 := rfl
  rw [successor, ne_eq, ← UInt32.toNat_inj, UInt32.toNat_max]
  omega

theorem searchPid_eq_none {table : ProcessTable} {tries : Nat} {candidate : UInt32}
    (noneFound : table.searchPid tries candidate = none) {step : Nat} (few : step < tries) :
    table.slotOf ⟨successor^[step] candidate⟩ ≠ none := by
  induction tries generalizing candidate step with
  | zero => exact absurd few (Nat.not_lt_zero step)
  | succ tries ih =>
      rw [searchPid] at noneFound
      split at noneFound
      · cases noneFound
      · rename_i used
        cases step with
        | zero => exact used
        | succ step => exact ih noneFound (Nat.lt_of_succ_lt_succ few)

/-- The slot of a process tells its id. -/
theorem pid_of_slotOf {table : ProcessTable} {pid : Pid} {slot : Slot}
    (found : table.slotOf pid = some slot) : (table.process slot).pid = pid := by
  have passed := process_of_findFinIdx? found
  simp only [Bool.and_eq_true, beq_iff_eq] at passed
  exact passed.2

/-- One more try than there are slots is enough to find an unused id. -/
theorem searchPid_finds (table : ProcessTable) (candidate : UInt32) :
    ∃ pid next, table.searchPid (Layout.maxProcesses + 1) candidate = some (pid, next) := by
  cases searched : table.searchPid (Layout.maxProcesses + 1) candidate with
  | some found => exact ⟨found.1, found.2, rfl⟩
  | none =>
      have used : ∀ step : Fin (Layout.maxProcesses + 1),
          ∃ slot, table.slotOf ⟨successor^[step.val] candidate⟩ = some slot :=
        fun step => Option.ne_none_iff_exists'.mp (searchPid_eq_none searched step.isLt)
      choose slotAt isAt using used
      -- There are more tries than slots, so two of them met the same process.
      rcases Fintype.exists_ne_map_eq_of_card_lt slotAt (by simp) with
        ⟨first, second, differ, same⟩
      have one := pid_of_slotOf (isAt first)
      have two := pid_of_slotOf (isAt second)
      rw [same, two, Pid.mk.injEq, ← UInt32.toNat_inj,
        toNat_iterate_successor candidate (Nat.le_of_lt_succ second.isLt),
        toNat_iterate_successor candidate (Nat.le_of_lt_succ first.isLt)] at one
      have distinct : first.val ≠ second.val := fun equal => differ (Fin.ext equal)
      have small := candidate.toNat_lt
      have firstFew := first.isLt
      have secondFew := second.isLt
      have limit : Layout.maxProcesses = 64 := rfl
      exfalso
      split at one <;> split at one <;> omega

theorem yields_allocatePid {pid : Pid} :
    allocatePid.Yields before pid after ↔
      ∃ next, before.searchPid (Layout.maxProcesses + 1) before.nextPid = some (pid, next) ∧
        after = { before with nextPid := next } := by
  cases found : before.searchPid (Layout.maxProcesses + 1) before.nextPid with
  | none => simp [allocatePid, and_assoc, found]
  | some both =>
      rcases both with ⟨unused, next⟩
      simp [allocatePid, and_assoc, found]
      constructor
      · rintro ⟨after, same⟩
        exact ⟨same.symm, after⟩
      · rintro ⟨same, after⟩
        exact ⟨after, same.symm⟩

/-- A new process gets a vacant slot and an unused id; without a slot nothing changes. -/
theorem create_cases {name : String} {entry priority : UInt32} {resources : ProcessResources}
    {reply : Except ProcessError Pid}
    (run : (create name entry priority resources).Yields before reply after) :
    (∃ cause, reply = .error cause ∧ after = before) ∨
      ∃ slot pid, reply = .ok pid ∧ Entered before after slot pid resources := by
  cases vacant : before.processes.findFinIdx? fun process => !process.isLive with
  | none =>
      left
      simp [create, and_assoc, vacant] at run
      exact ⟨_, run⟩
  | some slot =>
      right
      simp [create, and_assoc, vacant] at run
      rcases run with ⟨pid, numbered, allocated, rfl, rfl⟩
      rcases yields_allocatePid.mp allocated with ⟨next, searched, rfl⟩
      have notLive := process_of_findFinIdx? vacant
      rw [Bool.not_eq_true'] at notLive
      have relinked := relinked_enqueue
        (({ before with nextPid := next } : ProcessTable).update slot fun _ =>
          ProcessRecord.fresh pid name entry priority before.timeSlice resources) slot
      refine ⟨slot, pid, rfl, ?_, ?_, ?_, ?_, relinked.current, ?_⟩
      · exact ProcessRecord.identity_eq_none.mpr notLive
      · rw [relinked.occupant, occupant_update_self]
        rfl
      · intro other differs
        rw [relinked.occupant, occupant_update_of_ne differs.symm]
        rfl
      · exact occupant_ne_of_slotOf (searchPid_unused searched)
      · intro slots linked fresh
        refine Linked.enqueue (linked.congr rfl rfl fun other mem => ?_) fresh
        exact next_update_of_ne fun same => fresh (same ▸ mem)

/-- The first id is one. -/
theorem searchPid_empty (timeSlice : UInt32) :
    (empty timeSlice).searchPid (Layout.maxProcesses + 1) (empty timeSlice).nextPid =
      some (⟨1⟩, successor 1) := by
  have unused : (empty timeSlice).slotOf ⟨1⟩ = none := by
    rw [slotOf, Vector.findFinIdx?_eq_none_iff]
    intro process mem
    rw [empty, Vector.mem_replicate] at mem
    rw [mem.2]
    decide
  exact if_pos unused

theorem yields_create_empty (timeSlice : UInt32) (name : String) (entry priority : UInt32)
    (resources : ProcessResources) :
    ∃ pid after,
      (create name entry priority resources).Yields (.empty timeSlice) (.ok pid) after := by
  have vacant : ∀ process ∈ (empty timeSlice).processes, process.isLive = false := by
    intro process mem
    rw [empty, Vector.mem_replicate] at mem
    rw [mem.2]
    rfl
  cases found : (empty timeSlice).processes.findFinIdx? fun process => !process.isLive with
  | none =>
      rw [Vector.findFinIdx?_eq_none_iff] at found
      have first := (empty timeSlice).processes.getElem_mem (show 0 < Layout.maxProcesses by decide)
      exact absurd (by simp [vacant _ first]) (found _ first)
  | some slot =>
      simp [create, found, and_assoc, yields_allocatePid, searchPid_empty]

/-- Only the process that has the processor ends; without one nothing changes. -/
theorem exit_cases {code : Int32} {reply : Option ProcessRecord} (live : CurrentLive before)
    (run : (exit code).Yields before reply after) :
    (reply = none ∧ before.current = none ∧ after = before) ∨
      ∃ slot process, reply = some process ∧ Left before after slot process := by
  cases current : before.current with
  | none =>
      left
      simp [exit, and_assoc, current] at run
      exact ⟨run.1, rfl, run.2⟩
  | some slot =>
      right
      simp [exit, and_assoc, current] at run
      rcases run with ⟨between, dequeued, rfl, rfl⟩
      have relinked := relinked_dequeue dequeued
      refine ⟨slot, _, rfl, current, ?_, ?_, ?_, relinked.current, ?_⟩
      · rcases Option.ne_none_iff_exists'.mp (live slot current) with ⟨⟨pid, resources⟩, here⟩
        have same : between.occupant slot = some (pid, resources) :=
          (relinked.occupant slot).trans here
        rcases ProcessRecord.identity_eq_some.mp same with ⟨-, samePid, sameResources⟩
        rw [process_update, if_pos rfl, here, samePid, sameResources]
      · rw [occupant_update_self]
        rfl
      · intro other differs
        rw [occupant_update_of_ne differs.symm, relinked.occupant]
        rfl
      · intro front back linked
        have idle : ({ before with current := none } : ProcessTable).Linked
            (front ++ slot :: back) :=
          linked.congr rfl rfl fun _ _ => rfl
        rcases idle.dequeue with ⟨found, done, shorter⟩
        rw [dequeued, Except.ok.injEq] at done
        subst done
        exact shorter.sameQueue (sameQueue_update _ slot
          (fun process => { process with state := .terminated, wakeAt := none }) rfl)

/-- A process can always be ended. -/
theorem Queued.yields_exit {slots : List Slot} (queued : before.Queued slots)
    (live : CurrentLive before) (code : Int32) :
    ∃ reply after, (exit code).Yields before reply after := by
  cases current : before.current with
  | none => simp [exit, and_assoc, current]
  | some slot =>
      have listed : slot ∈ slots := (queued.live slot).mpr (live slot current)
      rcases List.append_of_mem listed with ⟨front, back, rfl⟩
      have idle : ({ before with current := none } : ProcessTable).Linked (front ++ slot :: back) :=
        queued.toLinked.congr rfl rfl fun _ _ => rfl
      rcases idle.dequeue with ⟨between, done, -⟩
      simp [exit, and_assoc, current, done]

theorem Entered.queued {pid : Pid} {resources : ProcessResources} {slots : List Slot}
    (entered : Entered before after slot pid resources) (queued : before.Queued slots) :
    after.Queued (slots ++ [slot]) where
  toLinked := by
    apply entered.queue slots queued.toLinked
    intro listed
    exact (queued.live slot).mp listed entered.vacant
  live other := by
    rw [List.mem_append, List.mem_singleton, queued.live other]
    by_cases same : other = slot
    · simp [same, entered.here]
    · simp [same, entered.others other same]

/-- Who enters a table that had nobody is alone. -/
theorem Entered.alone {pid other : Pid} {resources provided : ProcessResources} {place : Slot}
    (entered : Entered before after slot pid resources) (nobody : before.Queued [])
    (here : after.occupant place = some (other, provided)) :
    other = pid ∧ provided = resources := by
  have vacant : before.occupant place = none := by
    apply Classical.byContradiction
    intro live
    exact List.not_mem_nil ((nobody.live place).mpr live)
  by_cases same : place = slot
  · rw [same, entered.here, Option.some.injEq, Prod.mk.injEq] at here
    exact ⟨here.1.symm, here.2.symm⟩
  · rw [entered.others place same, vacant] at here
    cases here

theorem Left.queued {process : ProcessRecord} {slots : List Slot}
    (left : Left before after slot process) (queued : before.Queued slots) :
    after.Queued (slots.erase slot) := by
  have listed : slot ∈ slots := by
    rw [queued.live, left.here]
    exact Option.some_ne_none _
  refine ⟨?_, ?_⟩
  · rcases List.append_of_mem listed with ⟨front, back, rfl⟩
    have notFront : slot ∉ front := fun mem =>
      (List.nodup_append.mp queued.distinct).2.2 slot mem slot List.mem_cons_self rfl
    rw [List.erase_append_right _ notFront, List.erase_cons_head]
    exact left.queue front back queued.toLinked
  · intro other
    rw [queued.distinct.mem_erase_iff, queued.live other]
    by_cases same : other = slot
    · simp [same, left.vacant]
    · simp [same, left.others other same]

theorem occupant_empty (timeSlice : UInt32) (slot : Slot) :
    (ProcessTable.empty timeSlice).occupant slot = none := by
  rw [occupant, ProcessRecord.identity_eq_none, ProcessTable.process, ProcessTable.empty]
  simp [ProcessRecord.vacant, ProcessRecord.isLive]

theorem queued_empty (timeSlice : UInt32) : (ProcessTable.empty timeSlice).Queued [] where
  path := rfl
  last := rfl
  distinct := List.nodup_nil
  live slot := by simp [occupant_empty]

theorem steady_wakeSleepers {now : UInt64} {value : Unit}
    (run : (wakeSleepers now).Yields before value after) : Steady before after := by
  simp [wakeSleepers, and_assoc] at run
  subst run
  refine ⟨⟨fun slot => ?_, rfl⟩, rfl, rfl, fun slot => ?_⟩
  · simp only [occupant, process, Fin.getElem_fin, Vector.getElem_map]
    split
    · rename_i due
      exact ProcessRecord.identity_wake due
    · rfl
  · simp only [process, Fin.getElem_fin, Vector.getElem_map]
    split <;> rfl

end Lives

end ProcessTable

end KernelCore
