import KernelCore.Kernel.Lifecycle
import KernelCore.Kernel.Memory
import KernelCore.Kernel.Syscalls
import KernelCore.Proofs.Heap.Ledger
import KernelCore.Proofs.Paging.Directories
import KernelCore.Proofs.Scheduler

/-!
# The kernel's frames

Each operation of the kernel keeps account of the frames from the end of reserved memory on.
`Kernel.Accounted` says who has them: those who got them from the frame bitmap, the kernel's address
space, the address spaces of live processes, and address spaces that were made on request. That the
heap and the queue of processes are sound is a part of it, since a process could not end otherwise.
What happens to the processor and the clock has no part in it.
-/

namespace KernelCore

open ProcessTable

namespace ProcessTable

/-- The address space of the process in a slot, unless it is the idle process. -/
def directoryIn (table : ProcessTable) (idle : Pid) (slot : Slot) : Option Directory :=
  (table.occupant slot).bind fun (pid, resources) =>
    if pid = idle then none else resources.directory

/-- The address spaces of all live processes but the idle process. -/
def directories (table : ProcessTable) (idle : Pid) : List Directory :=
  (List.finRange Layout.maxProcesses).filterMap (table.directoryIn idle)

section Directories

variable {before after table : ProcessTable} {idle pid : Pid} {slot : Slot}
  {resources : ProcessResources} {directory : Directory}

theorem directoryIn_of_occupant (here : table.occupant slot = some (pid, resources))
    (other : pid ≠ idle) : table.directoryIn idle slot = resources.directory := by
  simp [directoryIn, here, other]

theorem mem_directories :
    directory ∈ table.directories idle ↔
      ∃ slot pid resources, table.occupant slot = some (pid, resources) ∧ pid ≠ idle ∧
        resources.directory = some directory := by
  simp only [directories, List.mem_filterMap, List.mem_finRange, true_and, directoryIn,
    Option.bind_eq_some_iff, Prod.exists]
  constructor
  · rintro ⟨slot, pid, resources, here, given⟩
    split at given
    · cases given
    · exact ⟨slot, pid, resources, here, ‹_›, given⟩
  · rintro ⟨slot, pid, resources, here, other, given⟩
    exact ⟨slot, pid, resources, here, by rw [if_neg other, given]⟩

theorem occupant_of_mem_live {process : ProcessRecord} (mem : process ∈ table.live) :
    ∃ slot, table.process slot = process ∧
      table.occupant slot = some (process.pid, process.resources) := by
  rcases List.mem_filter.mp mem with ⟨listed, isLive⟩
  rcases List.getElem_of_mem listed with ⟨place, inside, here⟩
  rw [Vector.length_toList] at inside
  have same : table.process ⟨place, inside⟩ = process := here
  exact ⟨⟨place, inside⟩, same, ProcessRecord.identity_eq_some.mpr (by simp [same, isLive])⟩

theorem directories_eq_live (table : ProcessTable) (idle : Pid) :
    table.directories idle =
      (table.live.filter fun process => process.pid ≠ idle).filterMap
        fun process => process.resources.directory := by
  have all : table.processes.toList =
      (List.finRange Layout.maxProcesses).map table.process := by
    apply List.ext_getElem
    · simp
    · intro place _ _
      simp [process]
  rw [directories, live, all, List.filter_map, List.filter_map, List.filterMap_map,
    List.filterMap_filter, List.filterMap_filter]
  apply List.filterMap_congr
  intro slot _
  by_cases isLive : (table.process slot).isLive = true
  · by_cases isIdle : (table.process slot).pid = idle
    · simp [directoryIn, occupant, ProcessRecord.identity, isLive, isIdle]
    · simp [directoryIn, occupant, ProcessRecord.identity, isLive, isIdle]
  · simp [directoryIn, occupant, ProcessRecord.identity, isLive]

theorem directories_congr (same : ∀ slot, after.occupant slot = before.occupant slot) :
    after.directories idle = before.directories idle := by
  simp only [directories, funext fun slot => show after.directoryIn idle slot =
    before.directoryIn idle slot by rw [directoryIn, directoryIn, same slot]]

theorem Entered.directories_perm (entered : Entered before after slot pid resources)
    (other : pid ≠ idle) (given : resources.directory = some directory) :
    (after.directories idle).Perm (directory :: before.directories idle) := by
  refine filterMap_perm_of_update _ _ (List.nodup_finRange _)
    (List.mem_finRange slot) ?_ ?_ ?_
  · simp [directoryIn, entered.vacant]
  · rw [directoryIn_of_occupant entered.here other, given]
  · intro place differs
    rw [directoryIn, directoryIn, entered.others place differs]

theorem Entered.directories_eq_nil (entered : Entered before after slot pid resources)
    (nobody : before.Queued []) : after.directories pid = [] := by
  apply List.eq_nil_iff_forall_not_mem.mpr
  intro directory mem
  rcases mem_directories.mp mem with ⟨place, other, provided, here, differs, -⟩
  exact differs (entered.alone nobody here).1

theorem Left.directories_perm {process : ProcessRecord} (left : Left before after slot process)
    (other : process.pid ≠ idle) (given : process.resources.directory = some directory) :
    (before.directories idle).Perm (directory :: after.directories idle) := by
  refine filterMap_perm_of_update _ _ (List.nodup_finRange _)
    (List.mem_finRange slot) ?_ ?_ ?_
  · simp [directoryIn, left.vacant]
  · rw [directoryIn_of_occupant left.here other, given]
  · intro place differs
    rw [directoryIn, directoryIn, left.others place differs]

end Directories

end ProcessTable

namespace Kernel

/-- The first frame that is not reserved. -/
def firstFrame : Nat :=
  (Layout.reservedEnd.toNat + Layout.frameSize - 1) / Layout.frameSize

/-- Those who have address spaces: the kernel, processes, and those who had one made. -/
def owners (kernel : Kernel) (root : Directory) (created : List Directory) : List Directory :=
  root :: (kernel.table.directories kernel.idle ++ created)

theorem owners_cons_perm (kernel : Kernel) (root directory : Directory)
    (created : List Directory) :
    (kernel.owners root (directory :: created)).Perm (directory :: kernel.owners root created) :=
  (List.perm_middle.cons root).trans (List.Perm.swap directory root _)

/-- Nothing has happened to the address spaces and the processes, and the heap is still sound. -/
structure SameAccounts (before after : Kernel) : Prop where
  spaces : after.spaces = before.spaces
  table : after.table = before.table
  idle : after.idle = before.idle
  heap : (∃ entries, before.heap.Sound entries) → ∃ entries, after.heap.Sound entries

/-- Each used frame that is not reserved has one owner, and each process but the idle process, which
uses the kernel's, has an address space of its own. -/
structure Accounted (kernel : Kernel) (root : Directory) (held : List Frame)
    (created : List Directory) : Prop where
  owned : kernel.spaces.Owned (· < firstFrame) held (kernel.owners root created)
  isKernel : kernel.spaces.kernel = some root
  active : ∀ directory, kernel.spaces.current = some directory →
    directory ∈ kernel.owners root created
  currentLive : CurrentLive kernel.table
  idleLive : ∃ slot resources, kernel.table.occupant slot = some (kernel.idle, resources)
  idleRoot : ∀ slot resources, kernel.table.occupant slot = some (kernel.idle, resources) →
    resources.directory = some root
  given : ∀ slot pid resources, kernel.table.occupant slot = some (pid, resources) →
    pid ≠ kernel.idle → ∃ directory, resources.directory = some directory
  heap : ∃ entries, kernel.heap.Sound entries
  queued : ∃ slots, kernel.table.Queued slots

section Lenses

variable {Value Cause : Type} {before after : Kernel} {value : Value}

theorem yields_onSpaces {action : Operation AddressSpaces Value} :
    (onSpaces action).Yields before value after ↔
      ∃ spaces, action.Yields before.spaces value spaces ∧ after = { before with spaces } :=
  Operation.yields_within

theorem yields_onFrames {action : Operation FrameBitmap Value} :
    (onFrames action).Yields before value after ↔
      ∃ frames, action.Yields before.spaces.frames value frames ∧
        after = { before with spaces := { before.spaces with frames } } := by
  rw [onFrames, yields_onSpaces]
  simp only [AddressSpaces.yields_onFrames]
  constructor
  · rintro ⟨spaces, ⟨frames, run, rfl⟩, rfl⟩
    exact ⟨frames, run, rfl⟩
  · rintro ⟨frames, run, rfl⟩
    exact ⟨_, ⟨frames, run, rfl⟩, rfl⟩

theorem yields_onHeap {action : Operation Heap Value} :
    (onHeap action).Yields before value after ↔
      ∃ heap, action.Yields before.heap value heap ∧ after = { before with heap } :=
  Operation.yields_within

theorem SameAccounts.refl (kernel : Kernel) : SameAccounts kernel kernel :=
  ⟨rfl, rfl, rfl, id⟩

theorem sameAccounts_of_onHeap {action : Operation Heap Value} (call : Heap.Call)
    (act : call.act = discard action) (run : (onHeap action).Yields before value after) :
    SameAccounts before after := by
  rcases yields_onHeap.mp run with ⟨heap, done, rfl⟩
  refine ⟨rfl, rfl, rfl, fun sound => ?_⟩
  rcases call.act_sound before.heap sound with ⟨other, again, soundAfter⟩
  rw [act] at again
  rcases again.unique (Operation.yields_discard done) with ⟨-, rfl⟩
  exact soundAfter

theorem yields_onDispatcher {action : Operation Dispatcher Value} :
    (onDispatcher action).Yields before value after ↔
      ∃ dispatcher, action.Yields before.dispatcher value dispatcher ∧
        after = { before with dispatcher } :=
  Operation.yields_within

theorem yields_onTable {action : Operation ProcessTable Value} :
    (onDispatcher (Dispatcher.onTable action)).Yields before value after ↔
      ∃ table, action.Yields before.table value table ∧
        after = { before with dispatcher := { before.dispatcher with table } } := by
  rw [yields_onDispatcher]
  simp only [Dispatcher.yields_onTable]
  constructor
  · rintro ⟨dispatcher, ⟨table, run, rfl⟩, rfl⟩
    exact ⟨table, run, rfl⟩
  · rintro ⟨table, run, rfl⟩
    exact ⟨_, ⟨table, run, rfl⟩, rfl⟩

theorem SameAccounts.withInterrupts (enabled : Bool) (kernel : Kernel) :
    SameAccounts kernel (Maskable.withInterrupts enabled kernel) :=
  ⟨rfl, rfl, rfl, id⟩

/-- What a masked operation does to the accounts is what the operation does. -/
theorem unmask {action : Operation Kernel Value} (run : (masked action).Yields before value after) :
    ∃ start final, SameAccounts before start ∧ action.Yields start value final ∧
      SameAccounts final after := by
  rcases yields_masked.mp run with ⟨between, done, rfl⟩
  cases enabled : Maskable.interrupts before with
  | false =>
      simp only [enabled, Bool.false_eq_true, if_false] at done ⊢
      exact ⟨before, between, .refl before, done, .refl between⟩
  | true =>
      simp only [enabled, if_true] at done ⊢
      exact ⟨_, between, .withInterrupts false before, done, .withInterrupts true between⟩

theorem unmaskFallible {action : Fallible Kernel Cause Value} {reply : Except Cause Value}
    (run : (maskedFallible action).Yields before reply after) :
    ∃ start final, SameAccounts before start ∧ action.Yields start reply final ∧
      SameAccounts final after :=
  unmask run

theorem mask {action : Operation Kernel Value} {result : Value → Kernel → Prop}
    (run : ∀ start, SameAccounts before start →
      ∃ value final, action.Yields start value final ∧ result value final) :
    ∃ value final after, (masked action).Yields before value after ∧ SameAccounts final after ∧
      result value final := by
  cases enabled : Maskable.interrupts before with
  | false =>
      rcases run before (.refl before) with ⟨value, final, done, holds⟩
      refine ⟨value, final, final, yields_masked.mpr ⟨final, ?_, ?_⟩, .refl final, holds⟩
      · simp only [enabled, Bool.false_eq_true, if_false]
        exact done
      · simp only [enabled, Bool.false_eq_true, if_false]
  | true =>
      rcases run _ (.withInterrupts false before) with ⟨value, final, done, holds⟩
      refine ⟨value, final, _, yields_masked.mpr ⟨final, ?_, rfl⟩, ?_, holds⟩
      · simp only [enabled, if_true]
        exact done
      · simp only [enabled, if_true]
        exact .withInterrupts true final

end Lenses

namespace Accounted

variable {before after kernel : Kernel} {root directory : Directory} {held now : List Frame}
  {created : List Directory} {slot : Slot} {pid : Pid} {resources : ProcessResources}

theorem mem_owners (accounted : kernel.Accounted root held created)
    (here : kernel.table.occupant slot = some (pid, resources))
    (given : resources.directory = some directory) : directory ∈ kernel.owners root created := by
  by_cases isIdle : pid = kernel.idle
  · subst isIdle
    have isRoot := accounted.idleRoot slot resources here
    rw [given, Option.some.injEq] at isRoot
    exact isRoot ▸ List.mem_cons_self
  · apply List.mem_cons_of_mem
    apply List.mem_append_left
    exact mem_directories.mpr ⟨slot, pid, resources, here, isIdle, given⟩

/-- It does not matter what processes are doing. -/
theorem steady (accounted : before.Accounted root held created)
    (spaces : after.spaces = before.spaces) (idle : after.idle = before.idle)
    (heap : (∃ entries, before.heap.Sound entries) → ∃ entries, after.heap.Sound entries)
    (same : ∀ slot, after.table.occupant slot = before.table.occupant slot)
    (queue : SameQueue before.table after.table) (currentLive : CurrentLive after.table) :
    after.Accounted root held created := by
  have sameOwners : after.owners root created = before.owners root created := by
    rw [owners, owners, directories_congr same, idle]
  refine ⟨?_, ?_, ?_, currentLive, ?_, ?_, ?_, heap accounted.heap, ?_⟩
  · rw [sameOwners, spaces]
    exact accounted.owned
  · rw [spaces]
    exact accounted.isKernel
  · rw [sameOwners, spaces]
    exact accounted.active
  · rcases accounted.idleLive with ⟨slot, resources, here⟩
    exact ⟨slot, resources, by rw [same slot, idle, here]⟩
  · intro slot resources here
    rw [same slot, idle] at here
    exact accounted.idleRoot slot resources here
  · intro slot pid resources here other
    rw [same slot] at here
    rw [idle] at other
    exact accounted.given slot pid resources here other
  · rcases accounted.queued with ⟨slots, queued⟩
    exact ⟨slots, queued.congr queue same⟩

theorem congr (accounted : before.Accounted root held created)
    (same : SameAccounts before after) : after.Accounted root held created :=
  accounted.steady same.spaces same.idle same.heap (fun _ => by rw [same.table])
    (same.table ▸ SameQueue.refl before.table) (same.table ▸ accounted.currentLive)

theorem withSpaces (accounted : before.Accounted root held created) {spaces : AddressSpaces}
    {left : List Directory}
    (owned : spaces.Owned (· < firstFrame) now (before.owners root left))
    (isKernel : spaces.kernel = some root)
    (active : ∀ directory, spaces.current = some directory →
      directory ∈ before.owners root left) :
    ({ before with spaces } : Kernel).Accounted root now left where
  owned := owned
  isKernel := isKernel
  active := active
  currentLive := accounted.currentLive
  idleLive := accounted.idleLive
  idleRoot := accounted.idleRoot
  given := accounted.given
  heap := accounted.heap
  queued := accounted.queued

theorem activate (accounted : before.Accounted root held created)
    (mem : directory ∈ before.owners root created) :
    ({ before with spaces := { before.spaces with current := some directory } } :
      Kernel).Accounted root held created :=
  accounted.withSpaces
    ⟨accounted.owned.wellFormed, accounted.owned.accounts, accounted.owned.kernel⟩
    accounted.isKernel fun _ isActive => Option.some.inj isActive ▸ mem

theorem withFrames (accounted : before.Accounted root held created) {frames : FrameBitmap}
    (wellFormed : frames.WellFormed)
    (accounts : frames.Accounts (· < firstFrame)
      (now ++ (before.owners root created).flatMap before.spaces.privateFrames)) :
    ({ before with spaces := { before.spaces with frames } } : Kernel).Accounted root now created :=
  accounted.withSpaces (accounted.owned.withFrames wellFormed accounts) accounted.isKernel
    accounted.active

/-- A process may begin or end if its address space is still listed. -/
theorem withTable (accounted : before.Accounted root held created) {table : ProcessTable}
    {left : List Directory}
    (perm : (before.owners root created).Perm
      (root :: (table.directories before.idle ++ left)))
    (currentLive : CurrentLive table)
    (idleLive : ∃ slot resources, table.occupant slot = some (before.idle, resources))
    (others : ∀ slot pid resources, table.occupant slot = some (pid, resources) →
      before.table.occupant slot = some (pid, resources) ∨
        (pid ≠ before.idle ∧ ∃ directory, resources.directory = some directory))
    (queued : ∃ slots, table.Queued slots) :
    ({ before with dispatcher := { before.dispatcher with table } } : Kernel).Accounted root held
      left where
  owned := accounted.owned.perm perm
  isKernel := accounted.isKernel
  active directory isActive := perm.mem_iff.mp (accounted.active directory isActive)
  currentLive := currentLive
  idleLive := idleLive
  idleRoot slot resources here := by
    rcases others slot before.idle resources here with was | ⟨differs, -⟩
    · exact accounted.idleRoot slot resources was
    · exact absurd rfl differs
  given slot pid resources here other := by
    rcases others slot pid resources here with was | ⟨-, given⟩
    · exact accounted.given slot pid resources was other
    · exact given
  heap := accounted.heap
  queued := queued

/-- An address space that was made for nobody becomes that of a new process. -/
theorem enter (accounted : before.Accounted root held (directory :: created))
    {table : ProcessTable} (entered : Entered before.table table slot pid resources)
    (given : resources.directory = some directory) :
    ({ before with dispatcher := { before.dispatcher with table } } : Kernel).Accounted root held
      created := by
  rcases accounted.idleLive with ⟨idleSlot, idleResources, idleHere⟩
  have other : pid ≠ before.idle := by
    rintro rfl
    exact entered.unused idleSlot idleResources idleHere
  apply accounted.withTable
  · have added := entered.directories_perm other given
    refine List.Perm.cons root (List.perm_middle.trans ?_)
    exact (added.append_right created).symm
  · intro place isCurrent
    rw [entered.current] at isCurrent
    have live := accounted.currentLive place isCurrent
    rw [entered.others place fun here => live (here ▸ entered.vacant)]
    exact live
  · refine ⟨idleSlot, idleResources, ?_⟩
    rw [entered.others idleSlot, idleHere]
    rintro rfl
    rw [entered.vacant] at idleHere
    cases idleHere
  · intro place processId provided here
    by_cases same : place = slot
    · subst same
      rw [entered.here, Option.some.injEq, Prod.mk.injEq] at here
      rcases here with ⟨rfl, rfl⟩
      exact Or.inr ⟨other, directory, given⟩
    · exact Or.inl ((entered.others place same).symm.trans here)
  · rcases accounted.queued with ⟨slots, queued⟩
    exact ⟨_, entered.queued queued⟩

/-- The address space of a process that has ended is left to nobody. -/
theorem leave (accounted : before.Accounted root held created) {table : ProcessTable}
    {process : ProcessRecord} (left : Left before.table table slot process)
    (other : process.pid ≠ before.idle) (given : process.resources.directory = some directory) :
    ({ before with dispatcher := { before.dispatcher with table } } : Kernel).Accounted root held
      (directory :: created) := by
  have stays : ∀ place pid resources, table.occupant place = some (pid, resources) →
      before.table.occupant place = some (pid, resources) := by
    intro place pid resources here
    rw [left.others place] at here
    · exact here
    · rintro rfl
      rw [left.vacant] at here
      cases here
  apply accounted.withTable
  · have removed := left.directories_perm other given
    apply List.Perm.cons root
    exact (removed.append_right created).trans List.perm_middle.symm
  · intro place isCurrent
    rw [left.idle] at isCurrent
    cases isCurrent
  · rcases accounted.idleLive with ⟨idleSlot, idleResources, idleHere⟩
    refine ⟨idleSlot, idleResources, ?_⟩
    rw [left.others idleSlot, idleHere]
    rintro rfl
    rw [left.here, Option.some.injEq, Prod.mk.injEq] at idleHere
    exact other idleHere.1
  · intro place pid resources here
    exact Or.inl (stays place pid resources here)
  · rcases accounted.queued with ⟨slots, queued⟩
    exact ⟨_, left.queued queued⟩

end Accounted

end Kernel

end KernelCore
