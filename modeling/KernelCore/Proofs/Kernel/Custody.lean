import KernelCore.Proofs.Kernel.Lifecycle

/-!
# Whose frames are in use

Whatever is asked of the kernel after bring-up, each frame that is in use and not reserved has one
owner: a user who got it from the frame bitmap, or an address space whose directory or table it
holds. A `Custody` keeps what users got, and a `Run` is a sequence of calls in which they give back
only frames that they hold and switch only to address spaces that are in use. When a process ends,
all frames of its address space are free.
-/

namespace KernelCore

open ProcessTable

/-- The kernel, the frames that its users hold, and the address spaces that they had made. -/
structure Custody where
  kernel : Kernel
  held : List Frame
  created : List Directory

namespace Custody

/-- What may be asked of the kernel. -/
inductive Call where
  | spawn (name : String) (entry priority : UInt32)
  | start
  | tick
  | yield
  | sleep (milliseconds : UInt32)
  | exit (code : Int32)
  | perform (switch : Switch)
  | syscall (call : Syscall)
  | dispatchSyscall (bytesAt : UInt64 → Nat → List UInt8) (raw : RawSyscall)
  | map (virtual : VirtAddr) (physical : PhysAddr) (flags : PageFlags)
  | unmap (virtual : VirtAddr)
  | allocateFrame
  | freeFrame (frame : Frame)
  | createDirectory
  | switchAddressSpace (directory : Directory)
  | kmalloc (size : UInt32)
  | kfree (address : UInt32)

/-- Nobody has got anything yet. -/
def ofKernel (kernel : Kernel) : Custody :=
  { kernel, held := [], created := [] }

/-- Does an operation on the kernel. -/
def onKernel {Value : Type} (action : Operation Kernel Value) : Operation Custody Value :=
  action.within (fun ⟨kernel, held, created⟩ => (kernel, held, created))
    (fun kernel (held, created) => ⟨kernel, held, created⟩)

/-- Does what is called for, whether it is refused or not, and keeps what is got and given back. -/
def Call.act : Call → Operation Custody Unit
  | .spawn name entry priority => discard (onKernel (Kernel.spawn name entry priority).result)
  | .start => discard (onKernel Kernel.start)
  | .tick => discard (onKernel Kernel.tick)
  | .yield => discard (onKernel Kernel.yield)
  | .sleep milliseconds => discard (onKernel (Kernel.sleep milliseconds))
  | .exit code => discard (onKernel (Kernel.exit code))
  | .perform switch => onKernel (Kernel.perform switch)
  | .syscall call => discard (onKernel (Kernel.syscall call))
  | .dispatchSyscall bytesAt raw => discard (onKernel (Kernel.dispatchSyscall bytesAt raw))
  | .map virtual physical flags =>
      discard (onKernel (Kernel.map virtual physical flags).result)
  | .unmap virtual => discard (onKernel (Kernel.unmap virtual).result)
  | .allocateFrame => do
      if let some frame ← onKernel Kernel.allocateFrame then
        modify fun custody => { custody with held := frame :: custody.held }
  | .freeFrame frame => do
      if let .ok () ← onKernel (Kernel.freeFrame frame).result then
        modify fun custody => { custody with held := custody.held.erase frame }
  | .createDirectory => do
      if let .ok directory ← onKernel Kernel.createDirectory.result then
        modify fun custody => { custody with created := directory :: custody.created }
  | .switchAddressSpace directory => onKernel (Kernel.switchAddressSpace directory)
  | .kmalloc size => discard (onKernel (Kernel.kmalloc size).result)
  | .kfree address => discard (onKernel (Kernel.kfree address).result)

/-- Whether users keep to the rules with a call. -/
def Permitted (custody : Custody) : Call → Prop
  | .freeFrame frame => frame ∈ custody.held
  | .switchAddressSpace directory =>
      custody.kernel.spaces.kernel = some directory ∨
        (∃ process ∈ custody.kernel.table.live, process.resources.directory = some directory) ∨
        directory ∈ custody.created
  | _ => True

/-- Where a sequence of permitted calls leads. -/
inductive Run : Custody → List Call → Custody → Prop where
  | nil {custody : Custody} : Run custody [] custody
  | cons {start between final : Custody} {call : Call} {rest : List Call}
      (permitted : start.Permitted call) (step : call.act.Yields start () between)
      (onward : Run between rest final) : Run start (call :: rest) final

/-- The address spaces of all live processes but the idle process. -/
def processDirectories (custody : Custody) : List Directory :=
  (custody.kernel.table.live.filter fun process => process.pid ≠ custody.kernel.idle).filterMap
    fun process => process.resources.directory

/-- All address spaces, given the kernel's. -/
def directories (custody : Custody) (root : Directory) : List Directory :=
  root :: (custody.processDirectories ++ custody.created)

/-- The frames that users hold, and those that address spaces have for themselves. -/
def frames (custody : Custody) (root : Directory) : List Frame :=
  custody.held ++ (custody.directories root).flatMap custody.kernel.spaces.privateFrames

/-- The frames that are in use and not reserved are those of the list, which has none of them twice.
What an address space has for itself is its directory and the tables that are not the kernel's. -/
structure Balanced (custody : Custody) (root : Directory) : Prop where
  isKernel : custody.kernel.spaces.kernel = some root
  idle : ∀ process ∈ custody.kernel.table.live, process.pid = custody.kernel.idle →
    process.resources.directory = some root
  given : ∀ process ∈ custody.kernel.table.live, process.pid ≠ custody.kernel.idle →
    ∃ directory, process.resources.directory = some directory
  own : ∀ directory frame,
    frame ∈ custody.kernel.spaces.privateFrames directory ↔
      frame = directory.frame ∨
        ∃ index, custody.kernel.spaces.tableFrame directory index = some frame ∧
          (directory = root ∨ custody.kernel.spaces.tableFrame root index ≠ some frame)
  distinct : (custody.frames root).Nodup
  tracked : ∀ frame ∈ custody.frames root, Kernel.firstFrame ≤ frame.number.val ∧
    frame.number.val < custody.kernel.spaces.frames.totalFrames
  complete : ∀ number, Kernel.firstFrame ≤ number →
    number < custody.kernel.spaces.frames.totalFrames →
      (custody.kernel.spaces.frames.isSet number = true ↔
        ∃ frame ∈ custody.frames root, frame.number.val = number)

section Calls

variable {before after custody : Custody} {root : Directory}

theorem yields_onKernel {Value : Type} {action : Operation Kernel Value} {value : Value} :
    (onKernel action).Yields before value after ↔
      ∃ kernel, action.Yields before.kernel value kernel ∧ after = { before with kernel } :=
  Operation.yields_within

/-- Each frame that is in use has one owner. -/
def Accounted (custody : Custody) (root : Directory) : Prop :=
  custody.kernel.Accounted root custody.held custody.created

theorem accounted_of_discard {Value : Type} {action : Operation Kernel Value}
    (keeps : ∀ value kernel, action.Yields custody.kernel value kernel →
      kernel.Accounted root custody.held custody.created)
    (step : (discard (onKernel action)).Yields custody () after) : after.Accounted root := by
  rcases Operation.yields_map.mp step with ⟨value, done, -⟩
  rcases yields_onKernel.mp done with ⟨kernel, run, rfl⟩
  exact keeps value kernel run

theorem allocateFrame_accounted (accounted : custody.Accounted root)
    (step : Call.allocateFrame.act.Yields custody () after) : after.Accounted root := by
  rcases Operation.yields_bind.mp step with ⟨reply, between, begun, step⟩
  rcases yields_onKernel.mp begun with ⟨kernel, run, rfl⟩
  rcases Kernel.Accounted.allocateFrame accounted run with
    ⟨rfl, -, kept⟩ | ⟨frame, rfl, -, kept⟩
  · rcases Operation.yields_pure.mp step with ⟨-, rfl⟩
    exact kept
  · rcases Operation.yields_modify.mp step with rfl
    exact kept

theorem freeFrame_accounted (accounted : custody.Accounted root) {frame : Frame}
    (held : frame ∈ custody.held) (step : (Call.freeFrame frame).act.Yields custody () after) :
    after.Accounted root := by
  rcases Operation.yields_bind.mp step with ⟨reply, between, begun, step⟩
  rcases yields_onKernel.mp begun with ⟨kernel, run, rfl⟩
  rcases Kernel.Accounted.freeFrame accounted held run with ⟨rfl, kept⟩
  rcases Operation.yields_modify.mp step with rfl
  exact kept

theorem createDirectory_accounted (accounted : custody.Accounted root)
    (step : Call.createDirectory.act.Yields custody () after) : after.Accounted root := by
  rcases Operation.yields_bind.mp step with ⟨reply, between, begun, step⟩
  rcases yields_onKernel.mp begun with ⟨kernel, run, rfl⟩
  rcases Kernel.Accounted.createDirectory accounted run with
    ⟨cause, rfl, kept⟩ | ⟨directory, rfl, kept⟩
  · rcases Operation.yields_pure.mp step with ⟨-, rfl⟩
    exact kept
  · rcases Operation.yields_modify.mp step with rfl
    exact kept

theorem mem_owners_of_permitted (accounted : custody.Accounted root) {directory : Directory}
    (permitted : custody.Permitted (.switchAddressSpace directory)) :
    directory ∈ custody.kernel.owners root custody.created := by
  rcases permitted with isKernel | ⟨process, live, given⟩ | isCreated
  · exact accounted.owned.kernel directory isKernel
  · rcases occupant_of_mem_live live with ⟨slot, -, here⟩
    exact Kernel.Accounted.mem_owners accounted here given
  · exact List.mem_cons_of_mem _ (List.mem_append_right _ isCreated)

/-- A permitted call keeps the accounts right. -/
theorem Call.act_accounted (call : Call) (accounted : custody.Accounted root)
    (permitted : custody.Permitted call) (step : call.act.Yields custody () after) :
    after.Accounted root := by
  have kernel : custody.kernel.Accounted root custody.held custody.created := accounted
  cases call with
  | spawn name entry priority => exact accounted_of_discard (fun _ _ run => kernel.spawn run) step
  | start => exact accounted_of_discard (fun _ _ run => kernel.start run) step
  | tick => exact accounted_of_discard (fun _ _ run => kernel.tick run) step
  | yield => exact accounted_of_discard (fun _ _ run => kernel.yield run) step
  | sleep milliseconds => exact accounted_of_discard (fun _ _ run => kernel.sleep run) step
  | exit code => exact accounted_of_discard (fun _ _ run => kernel.exit run) step
  | perform switch =>
      rcases yields_onKernel.mp step with ⟨_, run, rfl⟩
      exact kernel.perform run
  | syscall call => exact accounted_of_discard (fun _ _ run => kernel.syscall run) step
  | dispatchSyscall bytesAt raw =>
      exact accounted_of_discard (fun _ _ run => kernel.dispatchSyscall run) step
  | map virtual physical flags =>
      exact accounted_of_discard (fun _ _ run => kernel.map run) step
  | unmap virtual => exact accounted_of_discard (fun _ _ run => kernel.unmap run) step
  | allocateFrame => exact allocateFrame_accounted accounted step
  | freeFrame frame => exact freeFrame_accounted accounted permitted step
  | createDirectory => exact createDirectory_accounted accounted step
  | switchAddressSpace directory =>
      rcases yields_onKernel.mp step with ⟨_, run, rfl⟩
      exact kernel.switchAddressSpace (mem_owners_of_permitted accounted permitted) run
  | kmalloc size => exact accounted_of_discard (fun _ _ run => kernel.kmalloc run) step
  | kfree address => exact accounted_of_discard (fun _ _ run => kernel.kfree run) step

theorem Run.accounted {calls : List Call} {start final : Custody} (run : Run start calls final)
    (accounted : start.Accounted root) : final.Accounted root := by
  induction run with
  | nil => exact accounted
  | cons permitted step onward ih =>
      exact ih (Call.act_accounted _ accounted permitted step)

end Calls

section Balance

variable {custody : Custody} {root : Directory}

theorem directories_eq_owners (custody : Custody) (root : Directory) :
    custody.directories root = custody.kernel.owners root custody.created := by
  rw [directories, processDirectories, Kernel.owners, directories_eq_live]

theorem Accounted.accounts (accounted : custody.Accounted root) :
    custody.kernel.spaces.frames.Accounts (· < Kernel.firstFrame) (custody.frames root) := by
  rw [frames, directories_eq_owners]
  exact accounted.owned.accounts

theorem Accounted.balanced (accounted : custody.Accounted root) : custody.Balanced root where
  isKernel := accounted.isKernel
  idle process live isIdle := by
    rcases occupant_of_mem_live live with ⟨slot, -, here⟩
    rw [isIdle] at here
    exact accounted.idleRoot slot process.resources here
  given process live other := by
    rcases occupant_of_mem_live live with ⟨slot, -, here⟩
    exact accounted.given slot process.pid process.resources here other
  own _ _ := AddressSpaces.mem_privateFrames_of_kernel accounted.isKernel
  distinct := accounted.accounts.distinct
  tracked frame mem :=
    ⟨Nat.le_of_not_lt (accounted.accounts.apart frame mem), accounted.accounts.tracked frame mem⟩
  complete number least inside := by
    rw [accounted.accounts.complete number inside]
    constructor
    · rintro (reserved | listed)
      · exact absurd reserved (Nat.not_lt.mpr least)
      · exact listed
    · exact Or.inr

end Balance

/-- After bring-up and whatever permitted calls: the frames that are in use and not reserved are
those that users hold and those that address spaces have for themselves, each of them once; a frame
that is handed out is held by nobody and is no directory or table; and when a process other than the
idle process ends, all frames that its address space had for itself are free. -/
theorem frames_balanced {before started : Kernel} {memory : BootMemory} {idleEntry : UInt32}
    {config : SchedulerConfig} {calls : List Call} {custody : Custody}
    (begun : (Kernel.init memory idleEntry config).Yields before (.ok ()) started)
    (run : Run (ofKernel started) calls custody) :
    ∃ root, custody.Balanced root ∧
      (∀ frame after, Kernel.allocateFrame.Yields custody.kernel (some frame) after →
        frame ∉ custody.held ∧
        ∀ directory ∈ custody.directories root, frame ≠ directory.frame ∧
          ∀ index, custody.kernel.spaces.tableFrame directory index ≠ some frame) ∧
      ∀ code, ∃ plan after, (Kernel.exit code).Yields custody.kernel plan after ∧
        ∀ process, custody.kernel.table.currentProcess = some process →
          process.pid ≠ custody.kernel.idle →
          ∃ directory, process.resources.directory = some directory ∧
            ∀ frame ∈ custody.kernel.spaces.privateFrames directory,
              after.spaces.frames.isSet frame.number.val = false := by
  rcases Kernel.accounted_of_init begun with ⟨root, ready⟩
  have accounted : custody.Accounted root := run.accounted ready
  refine ⟨root, accounted.balanced, ?_, ?_⟩
  · intro frame after allocated
    rcases Kernel.Accounted.allocateFrame accounted allocated with
      ⟨refuted, -⟩ | ⟨found, same, fresh, -⟩
    · cases refuted
    · cases same
      rw [Kernel.ownedFrames, List.mem_append, not_or] at fresh
      refine ⟨fresh.1, ?_⟩
      intro directory mem
      rw [directories_eq_owners] at mem
      exact accounted.owned.ne_of_notMem fresh.2 mem
  · intro code
    rcases Kernel.Accounted.yields_exit accounted code with ⟨plan, after, exited, -, vacated⟩
    exact ⟨plan, after, exited, vacated⟩

/-- A machine with 16000 KB, where a frame is handed out and taken back. -/
theorem frames_balanced_after_free :
    ∃ started frame custody root,
      (Kernel.init ⟨640, 15360⟩ 0x100000 {}).Yields (.new true) (.ok ()) started ∧
      Run (ofKernel started) [.allocateFrame, .freeFrame frame] custody ∧
      custody.held = [] ∧ custody.Balanced root := by
  rcases Kernel.init_yields (.new true) 0x100000 {} Kernel.total_of_16000 (by decide) with
    ⟨started, begun, free⟩
  rcases Kernel.accounted_of_init begun with ⟨root, ready⟩
  rcases ready.yields_allocateFrame with ⟨reply, between, allocated⟩
  rcases ready.allocateFrame allocated with ⟨-, full, -⟩ | ⟨frame, rfl, -, kept⟩
  · rw [ready.owned.wellFormed.freeFrames_eq_zero full] at free
    exact absurd free (by decide)
  · rcases kept.yields_freeFrame frame with ⟨reply, after, freed⟩
    rcases kept.freeFrame List.mem_cons_self freed with ⟨rfl, -⟩
    let taken : Custody := { kernel := between, held := [frame], created := [] }
    have take : Call.allocateFrame.act.Yields (ofKernel started) () taken := by
      refine Operation.yields_bind.mpr ⟨_, _, yields_onKernel.mpr ⟨between, allocated, rfl⟩, ?_⟩
      simp [ofKernel, taken]
    have give : (Call.freeFrame frame).act.Yields taken () (ofKernel after) := by
      refine Operation.yields_bind.mpr ⟨_, _, yields_onKernel.mpr ⟨after, freed, rfl⟩, ?_⟩
      simp [ofKernel, taken]
    have mine : taken.Permitted (.freeFrame frame) := List.mem_cons_self
    have run : Run (ofKernel started) [.allocateFrame, .freeFrame frame] (ofKernel after) :=
      .cons trivial take (.cons mine give .nil)
    rcases frames_balanced begun run with ⟨root, balanced, -⟩
    exact ⟨started, frame, _, root, begun, run, rfl, balanced⟩

end Custody

end KernelCore
