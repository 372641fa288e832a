import KernelCore.Proofs.Kernel.Custody
import KernelCore.Proofs.Kernel.Safety
import KernelCore.Proofs.Kernel.Stacks

/-!
# A kernel that never stops

A `Custody.Step` is whatever can happen to a kernel: it is brought up, with success or without, it
is asked for something, or the processor goes about its own business. From a new kernel on, no
sequence of steps ever leads to a fault, as long as the timer has not ticked for a very long time.
At the end of any such sequence everything that can be read from the kernel can be read, each walk
along one of its lists ends, and the sums and places that are computed without a check are what they
are meant to be.
-/

namespace KernelCore

open ProcessTable

namespace Kernel

/-- All that is read from the kernel can be read, and all that is searched is searched through. -/
structure Legible (kernel : Kernel) : Prop where
  stats : ∃ stats, kernel.memoryStats = .ok stats
  info : ∃ text, kernel.memoryInfo = .ok text
  /-- Whatever the heap is asked next, it answers, and each walk along its list ends. -/
  heap : ∀ calls : List Heap.Call, ∃ heap, (calls.forM Heap.Call.act).Yields kernel.heap () heap ∧
    ∀ request other, heap.Walked request other → other.Ends
  /-- A walk along the queue ends. -/
  queue : ∃ slots, kernel.table.Path kernel.table.queueHead slots none ∧
    kernel.table.wholeQueue = .ok slots
  /-- A search for an unused id finds one. -/
  pid : ∀ candidate, kernel.table.searchPid (Layout.maxProcesses + 1) candidate ≠ none

/-- What is computed without a check is what it is meant to be: nothing is too large for its word,
and every place lies within its table. -/
structure Exact (kernel : Kernel) : Prop where
  /-- Each tracked frame has a bit. -/
  bit : ∀ number < kernel.spaces.frames.totalFrames,
    number / Layout.bitmapEntrySize < kernel.spaces.frames.words.size
  words : kernel.spaces.frames.words.size ≤ Layout.maxBitmapEntries
  free : kernel.spaces.frames.freeFrames ≤ kernel.spaces.frames.totalFrames
  /-- The tracked memory ends where a word can tell. -/
  bytes : kernel.spaces.frames.totalFrames * Layout.frameSize < 2 ^ 32
  directoryIndex : ∀ address : VirtAddr,
    address.word.toNat / (Layout.pageEntries * Layout.frameSize) = address.directoryIndex.val
  tableIndex : ∀ address : VirtAddr,
    address.word.toNat / Layout.frameSize % Layout.pageEntries = address.tableIndex.val
  stack : ∀ pid : Pid,
    (ProcessRecord.stackBaseOf pid).toNat = Layout.processStacksStart.toNat +
      pid.word.toNat % Layout.stackSlots.toNat * Layout.stackSize.toNat ∧
    (ProcessRecord.stackTopOf pid).toNat =
      (ProcessRecord.stackBaseOf pid).toNat + Layout.stackSize.toNat ∧
    (ProcessRecord.stackTopOf pid - 4).toNat + 4 = (ProcessRecord.stackTopOf pid).toNat
  sleep : ∀ milliseconds : UInt32,
    milliseconds.toNat * kernel.dispatcher.scheduler.config.timerFrequency.toNat < 2 ^ 64 ∧
    (kernel.dispatcher.scheduler.ticksOfMilliseconds milliseconds).toNat =
      (milliseconds.toNat * kernel.dispatcher.scheduler.config.timerFrequency.toNat + 999) / 1000

section Sturdy

variable {limit : Nat} {kernel : Kernel}

theorem Sturdy.freeFrames_le (sturdy : kernel.Sturdy limit) :
    kernel.spaces.frames.freeFrames ≤ kernel.spaces.frames.totalFrames := by
  rw [sturdy.founded.counted]
  exact List.countP_le_length.trans (Nat.le_of_eq List.length_range)

theorem Sturdy.memoryStats_eq (sturdy : kernel.Sturdy limit) :
    ∃ stats, kernel.memoryStats = .ok stats ∧ stats.freePages ≤ stats.totalPages := by
  rcases sturdy.whole with ⟨entries, sound⟩
  rcases sound.freeBytes_eq with ⟨heapFree, counted, -⟩
  have fewer := sturdy.freeFrames_le
  have used : Checked.sub kernel.spaces.frames.totalFrames kernel.spaces.frames.freeFrames =
      .ok (kernel.spaces.frames.totalFrames - kernel.spaces.frames.freeFrames) := if_pos fewer
  rw [memoryStats, counted]
  change ∃ stats, MemoryStats.ofCounts _ _ _ _ = .ok stats ∧ _
  rw [MemoryStats.ofCounts, used]
  exact ⟨_, rfl, fewer⟩

theorem Sturdy.legible (sturdy : kernel.Sturdy limit) : kernel.Legible where
  stats := by
    rcases sturdy.memoryStats_eq with ⟨stats, made, -⟩
    exact ⟨stats, made⟩
  info := by
    rcases sturdy.memoryStats_eq with ⟨stats, made, fewer⟩
    have used : stats.usedPages = .ok (stats.totalPages - stats.freePages) := if_pos fewer
    rw [memoryInfo, made]
    change ∃ text, (do return (← stats.render) ++ "\n" : Except Fault String) = .ok text
    rw [MemoryStats.render, used]
    exact ⟨_, rfl⟩
  heap calls := by
    rcases Operation.yields_forM Heap.Call.act_sound calls sturdy.whole with
      ⟨heap, run, entries, sound⟩
    exact ⟨heap, run, fun _ _ walked => walked.ends sound⟩
  queue := by
    rcases sturdy.running.1.queued with ⟨slots, queued⟩
    exact ⟨slots, queued.path, queued.wholeQueue⟩
  pid candidate := by
    rcases searchPid_finds kernel.table candidate with ⟨pid, next, found⟩
    rw [found]
    exact Option.some_ne_none _

theorem Sturdy.exact (sturdy : kernel.Sturdy limit) : kernel.Exact where
  bit _ tracked := sturdy.founded.word_lt tracked
  words := by
    have tracked := sturdy.founded.tracked
    have entry : Layout.bitmapEntrySize = 32 := rfl
    have most : Layout.maxBitmapEntries = 8192 := rfl
    have frames : Layout.maxFrames = 262144 := rfl
    rw [sturdy.founded.sized, entry, most]
    omega
  free := sturdy.freeFrames_le
  bytes := by
    have tracked := sturdy.founded.tracked
    have size : Layout.frameSize = 4096 := rfl
    have frames : Layout.maxFrames = 262144 := rfl
    rw [size]
    omega
  directoryIndex address := by
    have small := address.word.toNat_lt
    have size : Layout.pageEntries * Layout.frameSize = 2 ^ 22 := rfl
    rw [VirtAddr.directoryIndex, Fin.val_ofNat, size, Nat.mod_eq_of_lt]
    change _ < 1024
    omega
  tableIndex address := by rw [VirtAddr.tableIndex, Fin.val_ofNat]
  stack pid := ⟨ProcessRecord.toNat_stackBaseOf pid, ProcessRecord.toNat_stackTopOf pid,
    ProcessRecord.return_address_inside pid⟩
  sleep milliseconds := by
    rcases kernel.dispatcher.scheduler.toNat_ticksOfMilliseconds milliseconds with
      ⟨product, same, -⟩
    exact ⟨product, same⟩

end Sturdy

end Kernel

namespace Custody

/-- What can happen to a kernel. -/
inductive Step where
  | init (memory : BootMemory) (idleEntry : UInt32) (config : SchedulerConfig)
  | call (request : Call)
  /-- The processor has done something of its own. -/
  | ran (cpu : Cpu)

def Step.act : Step → Operation Custody Unit
  | .init memory idleEntry config =>
      discard (onKernel (Kernel.init memory idleEntry config).result)
  | .call request => request.act
  | .ran cpu => modify fun custody => { custody with kernel := { custody.kernel with cpu } }

def Step.isTick : Step → Bool
  | .call .tick => true
  | _ => false

/-- The kernel is sturdy after at most so many ticks. -/
def Sturdy (limit : Nat) (custody : Custody) : Prop :=
  custody.kernel.Sturdy limit

section Steps

variable {limit : Nat} {before start : Custody} {Value : Type}

theorem safe_onKernel {action : Operation Kernel Value} (safe : action.Safe (Kernel.Sturdy limit)) :
    (onKernel action).Safe (Sturdy limit) :=
  Operation.safe_within safe (fun _ sturdy => sturdy) fun _ _ _ sturdy => sturdy

theorem safe_discard {action : Operation Kernel Value} (safe : action.Safe (Kernel.Sturdy limit)) :
    (discard (onKernel action)).Safe (Sturdy limit) :=
  Operation.safe_map (safe_onKernel safe) _

/-- Every call but a tick is safe. -/
theorem Call.safe_act (call : Call) (room : limit < 2 ^ 63) (notTick : call ≠ .tick) :
    call.act.Safe (Sturdy limit) := by
  cases call with
  | spawn name entry priority => exact safe_discard (Kernel.safe_spawn name entry priority)
  | start =>
      exact safe_discard (Kernel.safe_of_masked (Kernel.safe_decision Dispatcher.safe_schedule))
  | tick => exact absurd rfl notTick
  | yield =>
      exact safe_discard (Kernel.safe_of_masked (Kernel.safe_decision Dispatcher.safe_yield))
  | sleep milliseconds => exact safe_discard (Kernel.safe_sleep room milliseconds)
  | exit code => exact safe_discard (Kernel.safe_exit code)
  | perform switch => exact safe_onKernel (Kernel.safe_perform switch)
  | syscall request => exact safe_discard (Kernel.safe_syscall room request)
  | dispatchSyscall bytesAt raw => exact safe_discard (Kernel.safe_dispatchSyscall room bytesAt raw)
  | map virtual physical flags =>
      refine safe_discard (Kernel.safe_of_masked (Kernel.safe_onSpaces ?_))
      exact Fallible.safe_bind AddressSpaces.safe_active fun _ => AddressSpaces.safe_mapIn _ _ _ _
  | unmap virtual =>
      refine safe_discard (Kernel.safe_of_masked (Kernel.safe_onSpaces ?_))
      exact Fallible.safe_bind AddressSpaces.safe_active fun _ => AddressSpaces.safe_unmapIn _ _
  | allocateFrame =>
      refine Operation.safe_bind (safe_onKernel
        (Kernel.safe_of_masked (Kernel.safe_onFrames FrameBitmap.safe_allocate))) fun reply => ?_
      cases reply with
      | none => exact Operation.safe_pure
      | some frame => exact Operation.safe_modify fun _ sturdy => sturdy
  | freeFrame frame =>
      refine Operation.safe_bind (safe_onKernel
        (Kernel.safe_of_masked (Kernel.safe_onFrames (FrameBitmap.safe_free frame))))
        fun reply => ?_
      cases reply with
      | error cause => exact Operation.safe_pure
      | ok _ => exact Operation.safe_modify fun _ sturdy => sturdy
  | createDirectory =>
      refine Operation.safe_bind (safe_onKernel (Kernel.safe_of_masked
        (Kernel.safe_onSpaces AddressSpaces.safe_createProcessDirectory))) fun reply => ?_
      cases reply with
      | error cause => exact Operation.safe_pure
      | ok directory => exact Operation.safe_modify fun _ sturdy => sturdy
  | switchAddressSpace directory =>
      exact safe_onKernel
        (Kernel.safe_of_masked (Kernel.safe_onSpaces (AddressSpaces.safe_switchTo directory)))
  | kmalloc size =>
      exact safe_discard (Kernel.safe_of_masked (Kernel.safe_onHeap (Heap.safe_allocate size)))
  | kfree address =>
      exact safe_discard (Kernel.safe_of_masked (Kernel.safe_onHeap (Heap.safe_free address)))

/-- Whatever happens, the kernel answers and stays sturdy. -/
theorem Step.act_sturdy (step : Step) (sturdy : before.Sturdy limit) (room : limit < 2 ^ 63) :
    ∃ after, step.act.Yields before () after ∧
      after.Sturdy (limit + if step.isTick then 1 else 0) := by
  cases step with
  | init memory idleEntry config =>
      rcases safe_discard (Kernel.safe_init memory idleEntry config) before sturdy with
        ⟨_, after, run, stays⟩
      exact ⟨after, run, stays⟩
  | ran cpu => exact ⟨_, Operation.yields_modify.mpr rfl, Kernel.Sturdy.withCpu sturdy cpu⟩
  | call call =>
      by_cases isTick : call = .tick
      · subst isTick
        rcases Kernel.Sturdy.tick sturdy room with ⟨plan, kernel, run, stays⟩
        exact ⟨{ before with kernel },
          Operation.yields_discard (yields_onKernel.mpr ⟨kernel, run, rfl⟩), stays⟩
      · have other : Step.isTick (.call call) = false := by
          cases call with
          | tick => exact absurd rfl isTick
          | _ => rfl
        rcases Call.safe_act call room isTick before sturdy with ⟨_, after, run, stays⟩
        rw [other]
        exact ⟨after, run, stays⟩

/-- What holds of one step holds of all, as long as there are not too many ticks among them. -/
theorem run_sturdy (steps : List Step) (sturdy : start.Sturdy limit)
    (few : limit + steps.countP Step.isTick < 2 ^ 63) :
    ∃ final, (steps.forM Step.act).Yields start () final ∧
      final.Sturdy (limit + steps.countP Step.isTick) := by
  induction steps generalizing start limit with
  | nil => exact ⟨start, Operation.yields_pure.mpr ⟨rfl, rfl⟩, sturdy⟩
  | cons step rest ih =>
      rw [List.countP_cons, Nat.add_comm (rest.countP _), ← Nat.add_assoc] at few ⊢
      rcases step.act_sturdy sturdy (by omega) with ⟨between, begun, stays⟩
      rcases ih stays few with ⟨final, ended, staysAfter⟩
      exact ⟨final, Operation.yields_bind.mpr ⟨(), between, begun, ended⟩, staysAfter⟩

end Steps

/-- From a new kernel on, whatever memory and the registers hold when it takes the machine over, and
whatever happens and however often: as long as the timer ticks fewer than 2 ^ 63 times, no step ends
in a fault. Before the kernel has come up, after it was refused to come
up, and later on, all that is read from it can be read, every walk along the heap's list and along
the queue ends, every search for an unused id finds one, and what is computed without a check is
exact. It does not matter whose frames are given back or what address space is made active. -/
theorem never_faults (cpu : Cpu) (memory : Memory) (steps : List Step)
    (few : steps.countP Step.isTick < 2 ^ 63) :
    ∃ custody, (steps.forM Step.act).Yields (ofKernel (.newOn cpu memory)) () custody ∧
      custody.kernel.Legible ∧ custody.kernel.Exact := by
  have start : (ofKernel (.newOn cpu memory)).Sturdy 0 := Kernel.sturdy_newOn cpu memory
  rcases run_sturdy steps start (by rwa [Nat.zero_add]) with ⟨custody, run, sturdy⟩
  exact ⟨custody, run, Kernel.Sturdy.legible sturdy, Kernel.Sturdy.exact sturdy⟩

/-- A kernel that is asked for a process before it has come up, fails to come up, comes up, and is
then asked for more than it has. -/
theorem never_faults_over_failures :
    let steps : List Step :=
      [.call (.spawn "early" 0x200000 1), .init ⟨0, 4096⟩ 0x100000 {}, .call (.kmalloc 64),
        .init ⟨640, 15360⟩ 0x100000 { timerFrequency := 0xFFFFFFFF },
        .call (.spawn "one" 0x200000 1), .call .start, .call .tick,
        .call (.sleep 0xFFFFFFFF), .call (.kmalloc 0xFFFFFFFF), .call (.kfree 0xFFFFFFFF),
        .call (.unmap ⟨0xFFFFFFFF⟩), .call (.exit 0)]
    steps.countP Step.isTick < 2 ^ 63 ∧
      ∃ custody, (steps.forM Step.act).Yields (ofKernel (.newOn {} .zero)) () custody ∧
        custody.kernel.Legible ∧ custody.kernel.Exact := by
  intro steps
  have few : steps.countP Step.isTick < 2 ^ 63 := by decide
  exact ⟨few, never_faults {} .zero steps few⟩

end Custody

end KernelCore
