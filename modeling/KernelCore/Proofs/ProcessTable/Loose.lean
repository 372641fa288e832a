import KernelCore.Proofs.ProcessTable.Records

/-!
# Slots off the queue

A slot without a live process has no link: a process that is created is the last on the queue and
links to nobody, and one that ends is taken out of the queue together with its link.
-/

namespace KernelCore.ProcessTable

/-- Slots without a live process have no link. -/
def Loose (table : ProcessTable) : Prop :=
  ∀ slot, table.occupant slot = none → (table.process slot).next = none

section Loose

variable {before after : ProcessTable} {slots : List Slot}

theorem Loose.congr (loose : Loose before)
    (occupant : ∀ slot, after.occupant slot = before.occupant slot)
    (queue : SameQueue before after) : Loose after := by
  intro slot vacant
  rw [queue.next]
  exact loose slot ((occupant slot).symm.trans vacant)

theorem loose_empty (timeSlice : UInt32) : Loose (.empty timeSlice) := by
  intro slot _
  rw [process_empty]
  rfl

theorem Loose.create (loose : Loose before) (queued : before.Queued slots) {name : String}
    {entry priority : UInt32} {resources : ProcessResources} {reply : Except ProcessError Pid}
    (run : (create name entry priority resources).Yields before reply after) : Loose after := by
  cases vacant : before.processes.findFinIdx? fun process => !process.isLive with
  | none =>
      simp [ProcessTable.create, and_assoc, vacant] at run
      exact run.2 ▸ loose
  | some slot =>
      simp [ProcessTable.create, and_assoc, vacant] at run
      rcases run with ⟨pid, numbered, allocated, rfl, rfl⟩
      rcases yields_allocatePid.mp allocated with ⟨nextPid, -, rfl⟩
      intro other ended
      have relinked := relinked_enqueue (({ before with nextPid } : ProcessTable).update slot
        fun _ => .fresh pid name entry priority before.timeSlice resources) slot
      rw [relinked.occupant] at ended
      have elsewhere : slot ≠ other := by
        rintro rfl
        rw [occupant_update_self] at ended
        cases ended
      rw [occupant_update_of_ne elsewhere] at ended
      have notLast : before.queueTail ≠ some other := by
        intro isLast
        rw [queued.last] at isLast
        exact (queued.live other).mp (List.mem_of_getLast? isLast) ended
      rw [next_enqueue]
      change (if before.queueTail = some other then _ else _) = none
      rw [if_neg notLast, if_neg elsewhere, next_update_of_ne elsewhere]
      exact loose other ended

theorem Loose.exit (loose : Loose before) (queued : before.Queued slots)
    (live : CurrentLive before) {code : Int32} {reply : Option ProcessRecord}
    (run : (exit code).Yields before reply after) : Loose after := by
  cases current : before.current with
  | none =>
      simp [ProcessTable.exit, and_assoc, current] at run
      exact run.2 ▸ loose
  | some slot =>
      rcases exit_cases live run with ⟨-, noCurrent, -⟩ | ⟨_, process, -, left⟩
      · rw [current] at noCurrent
        cases noCurrent
      cases current.symm.trans left.current
      simp [ProcessTable.exit, and_assoc, current] at run
      rcases run with ⟨between, dequeued, same, -⟩
      have next : ∀ other, (after.process other).next = (between.process other).next := by
        intro other
        rw [same, process_update]
        split
        · rename_i here
          rw [here]
        · rfl
      intro other vacant
      rw [next]
      rcases List.append_of_mem ((queued.live slot).mpr (live slot current)) with
        ⟨front, back, rfl⟩
      have linked : ({ before with current := none } : ProcessTable).Linked
          (front ++ slot :: back) := queued.toLinked.congr rfl rfl fun _ _ => rfl
      -- Taking the slot out links the one before it anew, and that one is still live.
      have notBefore : other ∉ front := by
        intro mem
        have differs : other ≠ slot := by
          rintro rfl
          exact (List.nodup_append.mp queued.distinct).2.2 other mem other List.mem_cons_self rfl
        rw [left.others other differs] at vacant
        exact (queued.live other).mp (List.mem_append_left _ mem) vacant
      rw [linked.next_dequeue dequeued notBefore]
      split
      · rfl
      · rename_i elsewhere
        refine loose other ?_
        rw [← left.others other (Ne.symm elsewhere)]
        exact vacant

end Loose

end KernelCore.ProcessTable
