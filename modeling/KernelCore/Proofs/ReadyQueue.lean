import KernelCore.ProcessTable
import KernelCore.Proofs.Operation

/-!
# The queue of processes

The table links processes into a queue by slot. `ProcessTable.Path` follows the links and collects
the slots it meets, so that everything else can be said about a plain list. `ProcessTable.Linked`
ties a table to such a list: the links lead from the head through distinct slots to the tail, where
they end. A search of such a queue always ends, and slots can be put at its end and taken out of it.
-/

namespace KernelCore.ProcessTable

/-- The slots that are met when links are followed from a cursor until another is reached. -/
def Path (table : ProcessTable) : (cursor : Option Slot) → List Slot → (past : Option Slot) → Prop
  | cursor, [], past => cursor = past
  | cursor, slot :: rest, past =>
      cursor = some slot ∧ table.Path (table.process slot).next rest past

/-- The slots on the queue, first to last, are the given ones. -/
structure Linked (table : ProcessTable) (slots : List Slot) : Prop where
  path : table.Path table.queueHead slots none
  last : table.queueTail = slots.getLast?
  distinct : slots.Nodup

/-- The table without the link of a slot. -/
def unlinked (table : ProcessTable) (slot : Slot) : ProcessTable :=
  table.update slot fun process => { process with next := none }

/-- The links have stayed as they were. -/
structure SameQueue (before after : ProcessTable) : Prop where
  head : after.queueHead = before.queueHead
  tail : after.queueTail = before.queueTail
  next : ∀ slot, (after.process slot).next = (before.process slot).next

section Path

variable {table other : ProcessTable} {cursor past : Option Slot} {slots front back : List Slot}
  {slot : Slot}

theorem path_append :
    table.Path cursor (front ++ back) past ↔
      ∃ middle, table.Path cursor front middle ∧ table.Path middle back past := by
  induction front generalizing cursor with
  | nil => simp [Path]
  | cons slot rest ih =>
      simp only [List.cons_append, Path, ih]
      grind

theorem Path.congr (path : table.Path cursor slots past)
    (same : ∀ slot ∈ slots, (other.process slot).next = (table.process slot).next) :
    other.Path cursor slots past := by
  induction slots generalizing cursor with
  | nil => exact path
  | cons slot rest ih =>
      rcases path with ⟨start, onward⟩
      refine ⟨start, ?_⟩
      rw [same slot List.mem_cons_self]
      exact ih onward fun slot mem => same slot (List.mem_cons_of_mem _ mem)

/-- A link leads to the cursor past the path, or to a slot on it. -/
theorem Path.next_cases (path : table.Path cursor slots past) (mem : slot ∈ slots) :
    (table.process slot).next = past ∨ ∃ after ∈ slots, (table.process slot).next = some after := by
  induction slots generalizing cursor with
  | nil => exact absurd mem List.not_mem_nil
  | cons head rest ih =>
      rcases path with ⟨-, onward⟩
      rcases List.mem_cons.mp mem with rfl | mem
      · cases rest with
        | nil => exact Or.inl onward
        | cons next rest =>
            exact Or.inr ⟨next, List.mem_cons_of_mem _ List.mem_cons_self, onward.1⟩
      · rcases ih onward mem with ended | ⟨after, listed, leads⟩
        · exact Or.inl ended
        · exact Or.inr ⟨after, List.mem_cons_of_mem _ listed, leads⟩

theorem follow_of_path (path : table.Path cursor slots none) {fuel : Nat}
    (enough : slots.length ≤ fuel) : table.follow fuel cursor = slots := by
  induction slots generalizing cursor fuel with
  | nil =>
      cases path
      cases fuel <;> rfl
  | cons slot rest ih =>
      rcases path with ⟨rfl, onward⟩
      cases fuel with
      | zero => simp at enough
      | succ fuel =>
          simp only [follow, List.cons.injEq, true_and]
          exact ih onward (by simpa using enough)

theorem queue_of_path (path : table.Path table.queueHead slots none) (distinct : slots.Nodup) :
    table.queue = slots ∧ table.isCyclic = false := by
  have short : slots.length ≤ Layout.maxProcesses := by
    simpa using distinct.length_le_card
  have visited : table.queue = slots :=
    follow_of_path path (Nat.le_succ_of_le short)
  exact ⟨visited, by simp [isCyclic, visited, short]⟩

theorem searchQueue_of_path (path : table.Path table.queueHead slots none)
    (distinct : slots.Nodup) (test : Slot → Bool) :
    table.searchQueue test = .ok (slots.find? test) := by
  rcases queue_of_path path distinct with ⟨visited, ends⟩
  rw [searchQueue, visited, ends]
  cases slots.find? test <;> rfl

end Path

section Queue

variable {before between after table : ProcessTable} {slots front back : List Slot} {slot : Slot}
  {change : ProcessRecord → ProcessRecord}

theorem SameQueue.refl (table : ProcessTable) : SameQueue table table where
  head := rfl
  tail := rfl
  next _ := rfl

theorem SameQueue.trans (first : SameQueue before between) (second : SameQueue between after) :
    SameQueue before after where
  head := second.head.trans first.head
  tail := second.tail.trans first.tail
  next slot := (second.next slot).trans (first.next slot)

theorem next_update_of_ne {other : Slot} (differs : slot ≠ other) :
    ((table.update slot change).process other).next = (table.process other).next := by
  rw [process_update, if_neg differs]

theorem next_update_self :
    ((table.update slot change).process slot).next = (change (table.process slot)).next := by
  rw [process_update, if_pos rfl]

theorem sameQueue_update (table : ProcessTable) (slot : Slot)
    (change : ProcessRecord → ProcessRecord)
    (same : (change (table.process slot)).next = (table.process slot).next) :
    SameQueue table (table.update slot change) where
  head := rfl
  tail := rfl
  next other := by
    by_cases here : slot = other
    · rw [← here, next_update_self, same]
    · exact next_update_of_ne here

theorem Linked.congr (linked : before.Linked slots) (head : after.queueHead = before.queueHead)
    (tail : after.queueTail = before.queueTail)
    (next : ∀ slot ∈ slots, (after.process slot).next = (before.process slot).next) :
    after.Linked slots where
  path := head ▸ linked.path.congr next
  last := tail.trans linked.last
  distinct := linked.distinct

theorem Linked.sameQueue (linked : before.Linked slots) (same : SameQueue before after) :
    after.Linked slots :=
  linked.congr same.head same.tail fun slot _ => same.next slot

theorem Linked.wholeQueue (linked : table.Linked slots) : table.wholeQueue = .ok slots := by
  rcases queue_of_path linked.path linked.distinct with ⟨visited, ends⟩
  simp [ProcessTable.wholeQueue, visited, ends]

theorem Linked.head_eq_none (linked : table.Linked slots) :
    table.queueHead = none ↔ slots = [] := by
  have path := linked.path
  cases slots with
  | nil => exact iff_of_true path rfl
  | cons slot rest =>
      rw [path.1]
      simp

/-- The last slot on the queue has no link. -/
theorem Linked.next_last (linked : table.Linked slots) (isLast : slots.getLast? = some slot) :
    (table.process slot).next = none := by
  rcases List.getLast?_eq_some_iff.mp isLast with ⟨init, rfl⟩
  rcases path_append.mp linked.path with ⟨_, -, -, ended⟩
  exact ended

theorem next_unlinked (table : ProcessTable) (slot other : Slot) :
    ((table.unlinked slot).process other).next =
      if slot = other then none else (table.process other).next := by
  rw [unlinked, process_update]
  split <;> rfl

theorem next_enqueue (table : ProcessTable) (slot other : Slot) :
    ((table.enqueue slot).process other).next =
      if table.queueTail = some other then some slot
      else if slot = other then none else (table.process other).next := by
  cases tail : table.queueTail with
  | none =>
      have enqueued : (table.enqueue slot).process other = (table.unlinked slot).process other := by
        simp only [ProcessTable.enqueue, process, unlinked, update, tail]
      simp [enqueued, next_unlinked]
  | some last =>
      have enqueued : (table.enqueue slot).process other =
          ((table.unlinked slot).update last fun process =>
            { process with next := some slot }).process other := by
        simp only [ProcessTable.enqueue, process, unlinked, update, tail]
      rw [enqueued, process_update]
      by_cases isLast : last = other
      · simp [isLast]
      · simp [isLast, next_unlinked]

theorem queueHead_enqueue (table : ProcessTable) (slot : Slot) :
    (table.enqueue slot).queueHead =
      if table.queueTail = none then some slot else table.queueHead := by
  cases tail : table.queueTail <;> simp [ProcessTable.enqueue, update, tail]

/-- A slot that is not on the queue is put at its end. -/
theorem Linked.enqueue (linked : table.Linked slots) (fresh : slot ∉ slots) :
    (table.enqueue slot).Linked (slots ++ [slot]) := by
  refine ⟨?_, List.getLast?_concat.symm, by simpa using linked.distinct.concat fresh⟩
  rcases List.eq_nil_or_concat' slots with rfl | ⟨init, last, rfl⟩
  · have noTail : table.queueTail = none := linked.last
    refine ⟨?_, ?_⟩
    · rw [queueHead_enqueue, if_pos noTail]
    · simp [Path, next_enqueue, noTail]
  · have tail : table.queueTail = some last := by
      rw [linked.last, List.getLast?_concat]
    have outside : slot ∉ init ∧ slot ≠ last := by
      simpa using fresh
    have lastOutside : last ∉ init := by
      have distinct := linked.distinct
      rw [← List.concat_eq_append, List.nodup_concat] at distinct
      exact distinct.1
    rcases path_append.mp linked.path with ⟨_, upToLast, rfl, -⟩
    rw [List.append_assoc, queueHead_enqueue, if_neg (by simp [tail])]
    refine path_append.mpr ⟨some last, upToLast.congr ?_, rfl, ?_, ?_⟩
    · intro other mem
      have notLast : last ≠ other := fun same => lastOutside (same ▸ mem)
      have notSlot : slot ≠ other := fun same => outside.1 (same ▸ mem)
      simp [next_enqueue, tail, notLast, notSlot]
    · simp [next_enqueue, tail]
    · simp [Path, next_enqueue, tail, outside.2.symm]

/-- Without its link a slot is the last that a search sees, and only the one before leads to it. -/
theorem Linked.search_before (linked : table.Linked (front ++ slot :: back)) :
    (table.unlinked slot).searchQueue
      (fun before => ((table.unlinked slot).process before).next == some slot) =
      .ok front.getLast? := by
  have distinct : (front ++ [slot]).Nodup :=
    linked.distinct.sublist ((List.singleton_sublist.mpr List.mem_cons_self).append_left front)
  have slotNotFront : slot ∉ front := by
    rw [← List.concat_eq_append, List.nodup_concat] at distinct
    exact distinct.1
  have same : ∀ other ∈ front,
      ((table.unlinked slot).process other).next = (table.process other).next :=
    fun other mem => next_update_of_ne fun same => slotNotFront (same ▸ mem)
  rcases path_append.mp linked.path with ⟨_, toSlot, rfl, -⟩
  have isLast : ((table.unlinked slot).process slot).next = none := next_update_self
  have cut : (table.unlinked slot).Path table.queueHead (front ++ [slot]) none :=
    path_append.mpr ⟨some slot, toSlot.congr same, rfl, isLast⟩
  rw [searchQueue_of_path cut distinct]
  rcases List.eq_nil_or_concat' front with rfl | ⟨init, previous, rfl⟩
  · simp [isLast]
  · rcases path_append.mp toSlot with ⟨_, toPrevious, rfl, leads⟩
    have here : ((table.unlinked slot).process previous).next = some slot :=
      (same previous (by simp)).trans leads
    have noneEarlier : ∀ other ∈ init,
        ((table.unlinked slot).process other).next ≠ some slot := by
      intro other mem
      rw [same other (List.mem_append_left _ mem)]
      rcases toPrevious.next_cases mem with toLast | ⟨following, listed, toNext⟩
      · rw [toLast, ne_eq, Option.some.injEq]
        rintro rfl
        exact slotNotFront (by simp)
      · rw [toNext, ne_eq, Option.some.injEq]
        rintro rfl
        exact slotNotFront (List.mem_append_left _ listed)
    have skipped : init.find?
        (fun before => ((table.unlinked slot).process before).next == some slot) = none := by
      simpa [List.find?_eq_none] using noneEarlier
    simp [List.find?_append, skipped, here]

theorem getLast?_without (front : List Slot) (notBack : slot ∉ back) :
    (if (front ++ slot :: back).getLast? = some slot then front.getLast?
      else (front ++ slot :: back).getLast?) = (front ++ back).getLast? := by
  rcases List.eq_nil_or_concat' back with rfl | ⟨rest, last, rfl⟩
  · simp
  · have differs : last ≠ slot := by
      rintro rfl
      exact notBack (by simp)
    simp [List.getLast?_append, List.getLast?_cons, differs]

theorem dequeue_first
    (found : (table.unlinked slot).searchQueue
      (fun before => ((table.unlinked slot).process before).next == some slot) = .ok none)
    (isHead : table.queueHead = some slot) :
    ∃ after, table.dequeue slot = .ok after ∧
      after.processes = (table.unlinked slot).processes ∧
      after.queueHead = (table.process slot).next ∧
      after.queueTail = if table.queueTail = some slot then none else table.queueTail := by
  have head : (table.unlinked slot).queueHead = some slot := isHead
  rw [unlinked] at found head
  rw [ProcessTable.dequeue]
  simp only [bind, Except.bind, found, head, if_true]
  split
  · rename_i last
    exact ⟨_, rfl, rfl, rfl, (if_pos last).symm⟩
  · rename_i notLast
    exact ⟨_, rfl, rfl, rfl, (if_neg notLast).symm⟩

theorem dequeue_later {previous : Slot}
    (found : (table.unlinked slot).searchQueue
      (fun before => ((table.unlinked slot).process before).next == some slot) =
        .ok (some previous)) :
    ∃ after, table.dequeue slot = .ok after ∧
      after.processes = ((table.unlinked slot).update previous fun process =>
        { process with next := (table.process slot).next }).processes ∧
      after.queueHead = table.queueHead ∧
      after.queueTail =
        if table.queueTail = some slot then some previous else table.queueTail := by
  rw [unlinked] at found
  rw [ProcessTable.dequeue]
  simp only [bind, Except.bind, found]
  split
  · rename_i last
    exact ⟨_, rfl, rfl, rfl, (if_pos last).symm⟩
  · rename_i notLast
    exact ⟨_, rfl, rfl, rfl, (if_neg notLast).symm⟩

/-- When a slot is taken out of the queue it loses its link, and of all links only that of a slot
before it can change. -/
theorem Linked.next_dequeue (linked : table.Linked (front ++ slot :: back))
    (done : table.dequeue slot = .ok after) {other : Slot} (notBefore : other ∉ front) :
    (after.process other).next = if slot = other then none else (table.process other).next := by
  have found := linked.search_before
  rcases List.eq_nil_or_concat' front with rfl | ⟨init, previous, rfl⟩
  · rcases dequeue_first found linked.path.1 with ⟨final, again, processes, -⟩
    rw [done, Except.ok.injEq] at again
    subst again
    rw [process, processes]
    exact next_unlinked table slot other
  · rw [List.getLast?_concat] at found
    rcases dequeue_later found with ⟨final, again, processes, -⟩
    rw [done, Except.ok.injEq] at again
    subst again
    have differs : previous ≠ other := by
      rintro rfl
      exact notBefore (by simp)
    rw [process, processes]
    exact (next_update_of_ne differs).trans (next_unlinked table slot other)

/-- A slot is taken out of the queue. -/
theorem Linked.dequeue (linked : table.Linked (front ++ slot :: back)) :
    ∃ after, table.dequeue slot = .ok after ∧ after.Linked (front ++ back) := by
  have found := linked.search_before
  rcases List.nodup_append.mp linked.distinct with ⟨frontDistinct, restDistinct, apart⟩
  rcases List.nodup_cons.mp restDistinct with ⟨slotNotBack, -⟩
  have slotNotFront : slot ∉ front := fun mem => apart slot mem slot List.mem_cons_self rfl
  have remaining : (front ++ back).Nodup :=
    linked.distinct.sublist ((List.sublist_cons_self slot back).append_left front)
  have tail := getLast?_without front slotNotBack
  rw [← linked.last] at tail
  rcases path_append.mp linked.path with ⟨_, toSlot, rfl, onward⟩
  rcases List.eq_nil_or_concat' front with rfl | ⟨init, previous, rfl⟩
  · rcases dequeue_first found toSlot with ⟨after, done, processes, head, last⟩
    refine ⟨after, done, ?_, last.trans tail, remaining⟩
    rw [head]
    apply onward.congr
    intro other mem
    rw [process, processes]
    exact next_update_of_ne fun same => slotNotBack (same ▸ mem)
  · rw [List.getLast?_concat] at found tail
    rcases dequeue_later found with ⟨after, done, processes, head, last⟩
    refine ⟨after, done, ?_, last.trans tail, remaining⟩
    rcases path_append.mp toSlot with ⟨_, toPrevious, rfl, -⟩
    have same : ∀ other, previous ≠ other → slot ≠ other →
        (after.process other).next = (table.process other).next := by
      intro other notPrevious notSlot
      rw [process, processes]
      exact (next_update_of_ne notPrevious).trans (next_update_of_ne notSlot)
    have toBack : (after.process previous).next = (table.process slot).next := by
      rw [process, processes]
      exact next_update_self
    rw [head, List.append_assoc]
    refine path_append.mpr ⟨some previous, toPrevious.congr ?_, rfl, ?_⟩
    · intro other mem
      refine same other ?_ fun here => slotNotFront (here ▸ List.mem_append_left _ mem)
      rintro rfl
      rw [← List.concat_eq_append, List.nodup_concat] at frontDistinct
      exact frontDistinct.1 mem
    · rw [toBack]
      apply onward.congr
      intro other mem
      refine same other ?_ fun here => slotNotBack (here ▸ mem)
      rintro rfl
      exact apart previous (by simp) previous (List.mem_cons_of_mem _ mem) rfl

end Queue

end KernelCore.ProcessTable
