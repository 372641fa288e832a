import KernelCore.Proofs.Kernel.Memory

/-!
# Processes and the kernel's frames

What bring-up and the operations on processes do to the accounts of the kernel. A decision of the
scheduler changes nothing in them. A new process comes with an address space that was nobody's, and
when a process ends all frames that its address space had for itself are free.
-/

namespace KernelCore.Kernel

open ProcessTable AddressSpaces

theorem sameAccounts_of_releaseHeap {before after : Kernel} {address : UInt32} {value : Unit}
    (run : (releaseHeap address).Yields before value after) : SameAccounts before after := by
  rcases Operation.yields_bind.mp run with ⟨reply, between, done, ended⟩
  have same := sameAccounts_of_onHeap (.request (.free address)) rfl done
  cases reply with
  | error cause =>
      rcases Operation.yields_log.mp ended with rfl
      exact same
  | ok _ =>
      rcases Operation.yields_pure.mp ended with ⟨-, rfl⟩
      exact same

theorem yields_releaseHeap {before : Kernel} (address : UInt32)
    (heap : ∃ entries, before.heap.Sound entries) :
    ∃ after, (releaseHeap address).Yields before () after := by
  rcases heap with ⟨entries, sound⟩
  rcases sound.free address with ⟨reply, heap, result, freed, -⟩
  have done : (onHeap (Heap.free address).result).Yields before reply { before with heap } :=
    yields_onHeap.mpr ⟨heap, freed, rfl⟩
  cases reply <;> simp [releaseHeap, done.iff]

@[simp]
theorem yields_seedStack {before after : Kernel} {pid : Pid} {value : Unit} :
    (seedStack pid).Yields before value after ↔ after = before := by
  cases found : before.process pid <;> simp [seedStack, found]

/-- If a process other than the idle process had the processor, all frames that its address space
had for itself are free. -/
def Vacated (before after : Kernel) : Prop :=
  ∀ process, before.table.currentProcess = some process → process.pid ≠ before.idle →
    ∃ directory, process.resources.directory = some directory ∧
      ∀ frame ∈ before.spaces.privateFrames directory,
        after.spaces.frames.isSet frame.number.val = false

namespace Accounted

variable {before after : Kernel} {root directory : Directory} {held : List Frame}
  {created : List Directory} {plan reply : Option Switch}

theorem yields_track (before : Kernel) (plan : Option Switch) :
    ∃ after, (Kernel.track plan).Yields before plan after := by
  cases planned : plan.bind Switch.directory <;>
    simp [Kernel.track, planned, yields_onSpaces, AddressSpaces.recordLoaded]

theorem track (accounted : before.Accounted root held created)
    (owner : ∀ directory, plan.bind Switch.directory = some directory →
      directory ∈ before.owners root created)
    (run : (Kernel.track plan).Yields before reply after) :
    after.Accounted root held created ∧ after.spaces.frames = before.spaces.frames := by
  cases planned : plan.bind Switch.directory with
  | none =>
      simp [Kernel.track, planned] at run
      rcases run with ⟨rfl, rfl⟩
      exact ⟨accounted, rfl⟩
  | some directory =>
      simp [Kernel.track, planned, yields_onSpaces, AddressSpaces.recordLoaded] at run
      rcases run with ⟨rfl, rfl⟩
      exact ⟨accounted.activate (owner directory planned), rfl⟩

theorem decide (accounted : before.Accounted root held created)
    {decision : Operation Dispatcher (Option Switch)}
    (scheduled : ∀ {start final : Dispatcher} {plan : Option Switch}, CurrentLive start.table →
      decision.Yields start plan final → start.Scheduled final plan)
    (run : (do Kernel.track (← onDispatcher decision)).Yields before reply after) :
    after.Accounted root held created ∧ after.spaces.frames = before.spaces.frames := by
  rcases Operation.yields_bind.mp run with ⟨plan, between, done, tracked⟩
  rcases yields_onDispatcher.mp done with ⟨dispatcher, decided, rfl⟩
  have outcome := scheduled accounted.currentLive decided
  have steady : ({ before with dispatcher } : Kernel).Accounted root held created :=
    accounted.steady rfl rfl id outcome.occupant outcome.queue outcome.currentLive
  refine steady.track ?_ tracked
  intro directory planned
  rcases outcome.directory directory planned with ⟨slot, pid, resources, here, given⟩
  exact steady.mem_owners ((outcome.occupant slot).trans here) given

theorem yields_schedule (accounted : before.Accounted root held created) :
    ∃ plan after,
      (do Kernel.track (← onDispatcher Dispatcher.schedule)).Yields before plan after := by
  rcases accounted.queued with ⟨slots, queued⟩
  rcases Dispatcher.yields_schedule queued.toLinked with ⟨plan, dispatcher, decided⟩
  rcases yields_track { before with dispatcher } plan with ⟨after, tracked⟩
  exact ⟨plan, after, Operation.yields_bind.mpr
    ⟨plan, _, yields_onDispatcher.mpr ⟨dispatcher, decided, rfl⟩, tracked⟩⟩

theorem decideMasked (accounted : before.Accounted root held created)
    {decision : Operation Dispatcher (Option Switch)}
    (scheduled : ∀ {start final : Dispatcher} {plan : Option Switch}, CurrentLive start.table →
      decision.Yields start plan final → start.Scheduled final plan)
    (run : (masked do Kernel.track (← onDispatcher decision)).Yields before reply after) :
    after.Accounted root held created := by
  rcases unmask run with ⟨start, final, begun, done, ended⟩
  exact ((accounted.congr begun).decide scheduled done).1.congr ended

theorem start (accounted : before.Accounted root held created)
    (run : Kernel.start.Yields before reply after) : after.Accounted root held created :=
  accounted.decideMasked Dispatcher.schedule_scheduled run

theorem tick (accounted : before.Accounted root held created)
    (run : Kernel.tick.Yields before reply after) : after.Accounted root held created :=
  accounted.decideMasked Dispatcher.tick_scheduled run

theorem yield (accounted : before.Accounted root held created)
    (run : Kernel.yield.Yields before reply after) : after.Accounted root held created :=
  accounted.decideMasked Dispatcher.yield_scheduled run

theorem sleep (accounted : before.Accounted root held created) {milliseconds : UInt32}
    (run : (Kernel.sleep milliseconds).Yields before reply after) :
    after.Accounted root held created :=
  accounted.decideMasked Dispatcher.sleep_scheduled run

/-- Carrying a switch out saves and loads registers only. -/
theorem perform (accounted : before.Accounted root held created) {switch : Switch} {value : Unit}
    (run : (Kernel.perform switch).Yields before value after) :
    after.Accounted root held created := by
  have saved : Steady before.table (switch.apply before.cpu.registers before.table).2 := by
    rcases switch with ⟨_ | ⟨pid, slot⟩, incoming, target⟩
    · exact Steady.refl before.table
    · exact steady_update before.table slot
        (fun process => { process with context := before.cpu.registers }) rfl rfl
  simp [Kernel.perform] at run
  rcases run with ⟨registers, between, ⟨rfl, rfl⟩, rfl⟩
  exact accounted.steady rfl rfl id saved.occupant saved.toSameQueue
    (saved.currentLive accounted.currentLive)

/-- An address space that nobody's process has is destroyed, and all its frames are free. -/
theorem releaseDirectory (accounted : before.Accounted root held (directory :: created)) :
    ∃ after, (Kernel.releaseDirectory directory).Yields before () after ∧
      after.Accounted root held created ∧
      ∀ frame ∈ before.spaces.privateFrames directory,
        after.spaces.frames.isSet frame.number.val = false := by
  have owned := accounted.owned.perm (before.owners_cons_perm root directory created)
  have notRoot : root ≠ directory := by
    rintro rfl
    exact (List.nodup_cons.mp owned.nodup_owners).1 List.mem_cons_self
  have notKernel : before.spaces.kernel ≠ some directory := by
    rw [accounted.isKernel]
    exact fun same => notRoot (Option.some.inj same)
  rcases owned.destroyDirectory notKernel with
    ⟨spaces, destroyed, ownedAfter, memory, kernel, clear, current⟩
  have done : (Kernel.onSpaces (AddressSpaces.destroyDirectory directory).result).Yields before
      (.ok ()) { before with spaces } := yields_onSpaces.mpr ⟨spaces, destroyed, rfl⟩
  have run : (Kernel.releaseDirectory directory).Yields before () { before with spaces } := by
    simp [Kernel.releaseDirectory, notKernel, done.iff]
  refine ⟨_, run, accounted.withSpaces ownedAfter (kernel.trans accounted.isKernel) ?_, clear⟩
  intro owner isActive
  rw [current] at isActive
  by_cases wasActive : before.spaces.current = some directory
  · rw [if_pos wasActive, accounted.isKernel, Option.some.injEq] at isActive
    exact isActive ▸ List.mem_cons_self
  · rw [if_neg wasActive] at isActive
    have mem := (before.owners_cons_perm root directory created).mem_iff.mp
      (accounted.active owner isActive)
    rcases List.mem_cons.mp mem with rfl | mem
    · exact absurd isActive wasActive
    · exact mem

theorem release (accounted : before.Accounted root held (directory :: created))
    (resources : ProcessResources) (given : resources.directory = some directory) :
    ∃ after, (Kernel.release resources).Yields before () after ∧
      after.Accounted root held created ∧
      ∀ frame ∈ before.spaces.privateFrames directory,
        after.spaces.frames.isSet frame.number.val = false := by
  rcases accounted.releaseDirectory with ⟨between, released, accountedBetween, clear⟩
  by_cases heap : resources.heapStart < resources.heapEnd
  · rcases yields_releaseHeap resources.heapStart accountedBetween.heap with
      ⟨after, freed⟩
    have same := sameAccounts_of_releaseHeap freed
    refine ⟨after, ?_, accountedBetween.congr same, same.spaces.symm ▸ clear⟩
    simp [Kernel.release, given, heap, released.iff, freed]
  · refine ⟨between, ?_, accountedBetween, clear⟩
    simp [Kernel.release, given, heap, released.iff]

/-- Whether it is refused or not, creating a process costs the kernel no frame but those that the
process has. -/
theorem spawn (accounted : before.Accounted root held created) {name : String}
    {entry priority : UInt32} {answer : Except KernelError Pid}
    (run : (Kernel.spawn name entry priority).Yields before answer after) :
    after.Accounted root held created := by
  rcases unmaskFallible run with ⟨start, final, begun, done, ended⟩
  refine Accounted.congr ?_ ended
  have ready := accounted.congr begun
  -- One case for each step that may be refused; what was granted before it is given back.
  by_cases full : start.table.isFull = true
  · simp [full] at done
    rcases done with ⟨-, rfl⟩
    exact ready
  · simp [full, and_assoc] at done
    rcases done with ⟨found, refused, -⟩ | ⟨heapStart, given, granted, done⟩
    · have same := sameAccounts_of_onHeap (.request (.allocate _)) rfl refused
      exact ready.congr same
    have same := sameAccounts_of_onHeap (.request (.allocate _)) rfl granted
    have accountedHeap := ready.congr same
    rcases done with ⟨mapped, found, refused, ⟨_, released⟩, -⟩ |
      ⟨directory, mapped, made, heapEnd, -, done⟩
    · rcases yields_onSpaces.mp refused with ⟨spaces, request, rfl⟩
      rcases accountedHeap.createProcessDirectory request with
        ⟨cause, -, rfl⟩ | ⟨directory, refuted, -⟩
      · exact accountedHeap.congr (sameAccounts_of_releaseHeap released)
      · cases refuted
    · rcases yields_onSpaces.mp made with ⟨spaces, request, rfl⟩
      rcases accountedHeap.createProcessDirectory request with
        ⟨cause, refuted, -⟩ | ⟨found, same, accountedSpace⟩
      · cases refuted
      rw [Except.ok.injEq] at same
      subst same
      rcases done with ⟨kept, found, refused, ⟨_, released⟩, -⟩ |
        ⟨pid, entered, -⟩
      · rcases yields_onTable.mp refused with ⟨table, request, rfl⟩
        rcases create_cases request with ⟨cause, -, rfl⟩ | ⟨slot, pid, refuted, -⟩
        · rcases accountedSpace.release ⟨directory, heapStart, heapEnd⟩ rfl with
            ⟨other, again, kept, -⟩
          rcases released.unique again with ⟨-, rfl⟩
          exact kept
        · cases refuted
      · rcases yields_onTable.mp entered with ⟨table, request, rfl⟩
        rcases create_cases request with ⟨cause, refuted, -⟩ | ⟨slot, found, -, enters⟩
        · cases refuted
        · exact accountedSpace.enter enters rfl

/-- What a process had is given back once it has ended, and another one gets the processor. -/
theorem release_and_schedule (accounted : before.Accounted root held created)
    {table : ProcessTable} {slot : Slot} {process : ProcessRecord}
    (left : Left before.table table slot process) (other : process.pid ≠ before.idle) :
    ∃ directory between plan after, process.resources.directory = some directory ∧
      (Kernel.release process.resources).Yields
        { before with dispatcher := { before.dispatcher with table } } () between ∧
      (do Kernel.track (← onDispatcher Dispatcher.schedule)).Yields between plan after ∧
      after.Accounted root held created ∧
      ∀ frame ∈ before.spaces.privateFrames directory,
        after.spaces.frames.isSet frame.number.val = false := by
  rcases accounted.given slot process.pid process.resources left.here other with
    ⟨directory, given⟩
  rcases (accounted.leave left other given).release process.resources given with
    ⟨between, released, settled, clear⟩
  rcases settled.yields_schedule with ⟨plan, after, decision⟩
  rcases settled.decide Dispatcher.schedule_scheduled decision with ⟨decided, frames⟩
  refine ⟨directory, between, plan, after, given, released, decision, decided, ?_⟩
  rw [frames]
  exact clear

/-- The process that has the processor ends, and all frames that its address space had for itself
are free. -/
theorem yields_exit (accounted : before.Accounted root held created) (code : Int32) :
    ∃ plan after, (Kernel.exit code).Yields before plan after ∧
      after.Accounted root held created ∧ before.Vacated after := by
  suffices body : ∃ plan final after, (Kernel.exit code).Yields before plan after ∧
      SameAccounts final after ∧ final.Accounted root held created ∧ before.Vacated final by
    rcases body with ⟨plan, final, after, run, ended, kept, vacated⟩
    refine ⟨plan, after, run, kept.congr ended, ?_⟩
    rw [Vacated, ended.spaces]
    exact vacated
  apply mask
  intro start begun
  unfold Vacated
  rw [← begun.table, ← begun.spaces, ← begun.idle]
  have ready := accounted.congr begun
  by_cases isIdle : start.currentPid = some start.idle
  · refine ⟨none, start, by simp [isIdle], ready, ?_⟩
    intro process isCurrent other
    rw [currentPid, ProcessTable.currentPid, isCurrent] at isIdle
    exact absurd (Option.some.inj isIdle) other
  · rcases ready.queued with ⟨slots, queued⟩
    rcases queued.yields_exit ready.currentLive code with ⟨ending, table, request⟩
    have exited : (onDispatcher (Dispatcher.onTable (ProcessTable.exit code))).Yields start ending
        { start with dispatcher := { start.dispatcher with table } } :=
      yields_onTable.mpr ⟨table, request, rfl⟩
    rcases exit_cases ready.currentLive request with
      ⟨rfl, noCurrent, rfl⟩ | ⟨slot, process, rfl, left⟩
    · refine ⟨none, { start with dispatcher := { start.dispatcher with table := start.table } },
        by simp [isIdle, exited.iff], ready, ?_⟩
      intro process isCurrent
      simp [ProcessTable.currentProcess, noCurrent] at isCurrent
    · have isCurrent : start.table.currentProcess = some (start.table.process slot) := by
        rw [ProcessTable.currentProcess, left.current, Option.map_some]
      rcases ProcessRecord.identity_eq_some.mp left.here with ⟨-, samePid, sameResources⟩
      have other : process.pid ≠ start.idle := by
        rw [currentPid, ProcessTable.currentPid, isCurrent, Option.map_some, samePid,
          Option.some.injEq] at isIdle
        exact isIdle
      rcases ready.release_and_schedule left other with
        ⟨directory, between, plan, final, given, released, decision, decided, clear⟩
      rw [Operation.yields_bind] at decision
      refine ⟨plan, final, by simp [isIdle, exited.iff, released.iff, decision], decided, ?_⟩
      intro ended isEnded _
      rw [isCurrent, Option.some.injEq] at isEnded
      subst isEnded
      exact ⟨directory, by rw [sameResources, given], clear⟩

/-- When a process ends, each used frame still has one owner. -/
theorem exit (accounted : before.Accounted root held created) {code : Int32}
    (run : (Kernel.exit code).Yields before reply after) : after.Accounted root held created := by
  rcases accounted.yields_exit code with ⟨plan, other, again, kept, -⟩
  rcases run.unique again with ⟨-, rfl⟩
  exact kept

theorem syscall (accounted : before.Accounted root held created) {call : Syscall}
    {answer : SyscallReturn} (run : (Kernel.syscall call).Yields before answer after) :
    after.Accounted root held created := by
  rcases unmask run with ⟨start, final, begun, done, ended⟩
  have ready := accounted.congr begun
  refine Accounted.congr ?_ ended
  cases call with
  | exit code =>
      rcases Operation.yields_bind.mp done with ⟨plan, between, exited, done⟩
      rcases Operation.yields_pure.mp done with ⟨-, rfl⟩
      exact ready.exit exited
  | getPid =>
      simp at done
      exact done.1 ▸ ready
  | sleep milliseconds =>
      rcases Operation.yields_bind.mp done with ⟨plan, between, slept, done⟩
      rcases Operation.yields_pure.mp done with ⟨-, rfl⟩
      exact ready.sleep slept
  | write stream bytes =>
      by_cases output : stream = Layout.standardOutput
      · simp [output] at done
        exact done.1 ▸ ready
      · simp [output, rejectSyscall] at done
        exact done.1 ▸ ready

theorem dispatchSyscall (accounted : before.Accounted root held created)
    {bytesAt : UInt64 → Nat → List UInt8} {raw : RawSyscall} {answer : SyscallReturn}
    (run : (Kernel.dispatchSyscall bytesAt raw).Yields before answer after) :
    after.Accounted root held created := by
  rw [Kernel.dispatchSyscall] at run
  cases decoded : Syscall.decode bytesAt raw with
  | ok call =>
      rw [decoded] at run
      exact accounted.syscall run
  | error cause =>
      simp [decoded, rejectSyscall] at run
      exact run.1 ▸ accounted

end Accounted

theorem accounts_of_reset {bitmap frames : FrameBitmap} {totalBytes : Nat}
    (run : (FrameBitmap.reset totalBytes Layout.reservedEnd).Yields bitmap (.ok ()) frames) :
    frames.WellFormed ∧ frames.Accounts (· < firstFrame) [] := by
  rcases FrameBitmap.reset_cases bitmap totalBytes Layout.reservedEnd with ⟨-, done⟩ | ⟨-, refused⟩
  · rcases run.unique done with ⟨-, rfl⟩
    refine ⟨FrameBitmap.wellFormed_fresh _ ?_, FrameBitmap.accounts_fresh _ _⟩
    exact Nat.div_le_div_right (Nat.min_le_right _ _)
  · cases (run.unique refused).1

/-- Once the bitmap is set up, nobody has an address space. -/
theorem owned_of_reset {bitmap frames : FrameBitmap} {totalBytes : Nat}
    (run : (FrameBitmap.reset totalBytes Layout.reservedEnd).Yields bitmap (.ok ()) frames)
    (memory : Memory) :
    ({ frames, memory, current := none, kernel := none } : AddressSpaces).Owned (· < firstFrame)
      [] [] := by
  rcases accounts_of_reset run with ⟨wellFormed, accounts⟩
  exact ⟨wellFormed, accounts, fun _ isKernel => by cases isKernel⟩

theorem accounted_of_idle {kernel : Kernel} {root : Directory} {table : ProcessTable}
    {slot : Slot} {resources : ProcessResources}
    (owned : kernel.spaces.Owned (· < firstFrame) [] [root])
    (isKernel : kernel.spaces.kernel = some root) (isCurrent : kernel.spaces.current = some root)
    (nobody : table.Queued []) (noCurrent : table.current = none)
    (entered : Entered table kernel.table slot kernel.idle resources)
    (given : resources.directory = some root) (heap : ∃ entries, kernel.heap.Sound entries) :
    kernel.Accounted root [] [] := by
  have ownersAre : kernel.owners root [] = [root] := by
    rw [owners, entered.directories_eq_nil nobody, List.nil_append]
  refine ⟨ownersAre ▸ owned, isKernel, ?_, ?_, ⟨slot, resources, entered.here⟩, ?_, ?_, heap,
    ⟨_, entered.queued nobody⟩⟩
  · intro directory isActive
    rw [isCurrent, Option.some.injEq] at isActive
    exact isActive ▸ List.mem_cons_self
  · intro place isRunning
    rw [entered.current, noCurrent] at isRunning
    cases isRunning
  · intro place provided here
    rw [(entered.alone nobody here).2]
    exact given
  · intro place other provided here differs
    exact absurd (entered.alone nobody here).1 differs

/-- After bring-up the kernel has its address space, the idle process uses it, and there is nobody
else. -/
theorem accounted_of_init {before after : Kernel} {memory : BootMemory} {idleEntry : UInt32}
    {config : SchedulerConfig}
    (run : (Kernel.init memory idleEntry config).Yields before (.ok ()) after) :
    ∃ root, after.Accounted root [] [] := by
  rcases unmaskFallible run with ⟨start, final, begun, done, ended⟩
  simp [and_assoc] at done
  rcases done with ⟨_, tracked, setUp, _, heaped, heap, forgotten, ⟨_, forgetting⟩, root, built,
    building, switched, ⟨_, switching⟩, emptied, ⟨_, emptying⟩, idle, entered, entering, rfl⟩
  rcases yields_onFrames.mp setUp with ⟨frames, reset, rfl⟩
  rcases yields_onHeap.mp heap with ⟨region, laying, rfl⟩
  have sound : ∃ entries, region.Sound entries := by
    rcases Heap.reset_cases start.heap Layout.kernelHeapStart Layout.kernelHeapEnd with
      ⟨other, entries, again, sound, -⟩ | ⟨-, refused⟩
    · exact ⟨entries, (laying.unique again).2 ▸ sound⟩
    · cases (laying.unique refused).1
  simp [forgetSpaces, yields_onSpaces] at forgetting
  subst forgetting
  rcases yields_onSpaces.mp building with ⟨spaces, directory, rfl⟩
  simp [AddressSpaces.switchTo, yields_onSpaces] at switching
  subst switching
  simp [resetProcesses, yields_onDispatcher] at emptying
  subst emptying
  rcases yields_onTable.mp entering with ⟨table, creating, rfl⟩
  rcases create_cases creating with ⟨cause, refuted, -⟩ | ⟨slot, pid, same, enters⟩
  · cases refuted
  rw [Except.ok.injEq] at same
  subst same
  have nobody := owned_of_reset reset start.spaces.memory
  rcases nobody.of_initKernelDirectory rfl directory with ⟨owned, isKernel, -⟩
  refine ⟨root, Accounted.congr ?_ ended⟩
  exact accounted_of_idle
    ⟨owned.wellFormed, owned.accounts, owned.kernel⟩ isKernel rfl (queued_empty _) rfl enters rfl
    sound

section BringUp

variable {memory : BootMemory} {total : Nat}

theorem yields_heapReset (heap : Heap) :
    ∃ after,
      (Heap.reset Layout.kernelHeapStart Layout.kernelHeapEnd).Yields heap (.ok ()) after := by
  rcases Heap.reset_cases heap Layout.kernelHeapStart Layout.kernelHeapEnd with
    ⟨after, _, done, -⟩ | ⟨small, -⟩
  · exact ⟨after, done⟩
  · exact absurd small (by decide)

theorem pages_of_total (most : total ≤ Layout.maxFrames) :
    (UInt32.ofNat (total * Layout.frameSize)).toNat / Layout.frameSize = total := by
  have few : total < 2 ^ 20 := Nat.lt_of_le_of_lt most (by decide)
  exact (congrArg (· / Layout.frameSize) (toNat_pageAddress few)).trans
    (Nat.mul_div_cancel total (by decide))

theorem owned_of_fresh {blank : AddressSpaces} (most : total ≤ Layout.maxFrames)
    (untaken : blank.frames = .fresh total firstFrame) (noKernel : blank.kernel = none) :
    blank.Owned (· < firstFrame) [] [] := by
  refine ⟨?_, ?_, ?_⟩
  · rw [untaken]
    exact FrameBitmap.wellFormed_fresh _ most
  · rw [untaken]
    exact FrameBitmap.accounts_fresh _ _
  · intro owner isKernel
    rw [noKernel] at isKernel
    cases isKernel

/-- The kernel's directory takes a frame for itself and one for each of its tables, unless there are
too few. -/
theorem kernelDirectory_cases {blank : AddressSpaces} (most : total ≤ Layout.maxFrames)
    (untaken : blank.frames = .fresh total firstFrame) (noKernel : blank.kernel = none) :
    (∃ cause spaces,
      (initKernelDirectory (UInt32.ofNat (total * Layout.frameSize))).Yields blank (.error cause)
        spaces ∧ total ≤ firstFrame + tablesFor total) ∨
      ∃ (root : Directory) (spaces : AddressSpaces),
        (initKernelDirectory (UInt32.ofNat (total * Layout.frameSize))).Yields blank (.ok root)
          { spaces with kernel := some root } ∧
        firstFrame + tablesFor total + 1 + spaces.frames.freeFrames = total := by
  have nobody := owned_of_fresh most untaken noKernel
  have free : blank.frames.freeFrames = total - firstFrame := by rw [untaken]; rfl
  rcases nobody.initKernelDirectory (UInt32.ofNat (total * Layout.frameSize)) with
    ⟨cause, spaces, lost, refused, -, -, -, -, short⟩ | ⟨root, spaces, made, building⟩
  · rw [pages_of_total most, free] at short
    exact Or.inl ⟨cause, spaces, refused, by omega⟩
  · have rest := building.free
    rw [pages_of_total most, free] at rest
    exact Or.inr ⟨root, spaces, made, by omega⟩

/-- With 16000 KB there are 4000 frames. -/
theorem total_of_16000 :
    min (BootMemory.totalBytes ⟨640, 15360⟩) Layout.maxPhysicalMemory / Layout.frameSize = 4000 := by
  decide

/-- Bring-up succeeds if there are frames for the kernel's directory and its tables, and takes
those only. -/
theorem init_yields (before : Kernel) (idleEntry : UInt32) (config : SchedulerConfig)
    (isTotal : min memory.totalBytes Layout.maxPhysicalMemory / Layout.frameSize = total)
    (enough : firstFrame + tablesFor total < total) :
    ∃ after, (Kernel.init memory idleEntry config).Yields before (.ok ()) after ∧
      firstFrame + tablesFor total + 1 + after.spaces.frames.freeFrames = total := by
  have most : total ≤ Layout.maxFrames := by
    rw [← isTotal]
    exact Nat.div_le_div_right (Nat.min_le_right _ _)
  suffices body : ∃ reply final after,
      (Kernel.init memory idleEntry config).Yields before reply after ∧
      SameAccounts final after ∧ reply = .ok () ∧
      firstFrame + tablesFor total + 1 + final.spaces.frames.freeFrames = total by
    rcases body with ⟨_, final, after, run, same, rfl, free⟩
    exact ⟨after, run, same.spaces.symm ▸ free⟩
  apply mask
  intro start _
  let frames := FrameBitmap.fresh total firstFrame
  have reset : Fallible.Yields (onFrames (FrameBitmap.reset memory.totalBytes Layout.reservedEnd))
      start (.ok ()) { start with spaces := { start.spaces with frames } } := by
    rcases FrameBitmap.reset_cases start.spaces.frames memory.totalBytes Layout.reservedEnd with
      ⟨-, done⟩ | ⟨short, -⟩
    · rw [isTotal] at done
      exact yields_onFrames.mpr ⟨frames, done, rfl⟩
    · rw [isTotal] at short
      exact absurd (Nat.lt_of_le_of_lt (Nat.le_add_right _ _) enough) (Nat.not_lt.mpr short)
  rcases yields_heapReset start.heap with ⟨heap, heaped⟩
  have heapReset : Fallible.Yields (onHeap (Heap.reset Layout.kernelHeapStart Layout.kernelHeapEnd))
      { start with spaces := { start.spaces with frames } } (.ok ())
      { start with spaces := { start.spaces with frames }, heap } :=
    yields_onHeap.mpr ⟨heap, heaped, rfl⟩
  have untaken : ({ frames, memory := start.spaces.memory, current := none, kernel := none } :
      AddressSpaces).frames = .fresh total firstFrame := rfl
  rcases kernelDirectory_cases most untaken rfl with
    ⟨_, _, -, short⟩ | ⟨root, spaces, made, free⟩
  · exact absurd enough (Nat.not_lt.mpr short)
  simp at made
  have mapped : Fallible.Yields
      (onSpaces (initKernelDirectory
        (UInt32.ofNat frames.totalFrames * UInt32.ofNat Layout.frameSize)))
      { start with
        spaces := { frames, memory := start.spaces.memory, current := none, kernel := none }, heap }
      (.ok root) { start with spaces := { spaces with kernel := some root }, heap } :=
    yields_onSpaces.mpr ⟨_, made, rfl⟩
  rcases yields_create_empty config.timeSliceTicks "idle" idleEntry Layout.idlePriority
    { directory := root } with ⟨idle, table, created⟩
  have entered : Fallible.Yields (onDispatcher (Dispatcher.onTable
        (create "idle" idleEntry Layout.idlePriority { directory := root })))
      { start with
        spaces := { spaces with current := some root, kernel := some root }, heap
        dispatcher := { table := .empty config.timeSliceTicks, scheduler := { config } } }
      (.ok idle)
      { start with
        spaces := { spaces with current := some root, kernel := some root }, heap
        dispatcher := { table, scheduler := { config } } } :=
    yields_onTable.mpr ⟨table, created, rfl⟩
  refine ⟨.ok (), { start with
    spaces := { spaces with current := some root, kernel := some root }, heap
    dispatcher := { table, scheduler := { config } }, idle }, ?_, rfl, free⟩
  simp [reset.iff, heapReset.iff, forgetSpaces, yields_onSpaces, mapped.iff, switchTo,
    resetProcesses, yields_onDispatcher, entered.iff]

end BringUp

end KernelCore.Kernel
