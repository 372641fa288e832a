import KernelCore.Proofs.Kernel.Handled
import KernelCore.Proofs.Kernel.Laps
import KernelCore.Proofs.Paging.Permissions

/-!
# Reported permissions

What `translateIn` reports of a page are the flags of the page, and the processor grants what the
directory's entry grants as well. `Kernel.Respaced` tells what the calls that are not about pages do
to address spaces: they make a new one at most. With it, each entry of a directory that is in use
grants what pages below it report, unless the directory was `Custody.Slighted`: a page for users was
entered in the kernel's directory, in a table that the directory named.
-/

namespace KernelCore

open ProcessTable

section Directories

variable {before after : ProcessTable} {idle pid : Pid} {slot : Slot}
  {resources : ProcessResources} {directory : Directory}

theorem ProcessTable.mem_directories_of_stays
    (stays : ∀ slot pid resources, after.occupant slot = some (pid, resources) →
      before.occupant slot = some (pid, resources))
    (mem : directory ∈ after.directories idle) : directory ∈ before.directories idle := by
  rcases mem_directories.mp mem with ⟨slot, pid, resources, here, other, given⟩
  exact mem_directories.mpr ⟨slot, pid, resources, stays slot pid resources here, other, given⟩

end Directories

namespace AddressSpaces

variable {before after : AddressSpaces} {directory : Directory}

theorem releaseFrames_keeps {frames : List Frame} {reply : Except FrameError Unit}
    (run : (releaseFrames frames).Yields before reply after) :
    after.memory = before.memory ∧ after.kernel = before.kernel := by
  induction frames generalizing before reply with
  | nil =>
      rcases Operation.yields_pure.mp run with ⟨-, rfl⟩
      exact ⟨rfl, rfl⟩
  | cons frame rest ih =>
      rcases Operation.yields_bind.mp run with ⟨first, between, begun, onward⟩
      rcases yields_onFrames.mp begun with ⟨bitmap, -, rfl⟩
      rcases Operation.yields_bind.mp onward with ⟨others, final, released, ended⟩
      rcases Operation.yields_pure.mp ended with ⟨-, rfl⟩
      have kept := ih released
      exact kept

/-- Destroying an address space writes nothing to memory. -/
theorem destroyDirectory_keeps {reply : Except FrameError Unit}
    (run : (destroyDirectory directory).Yields before reply after) :
    after.memory = before.memory ∧ after.kernel = before.kernel := by
  simp [destroyDirectory, and_assoc] at run
  have kept := releaseFrames_keeps run
  by_cases active : before.current = some directory
  · rw [if_pos active] at kept
    exact kept
  · rw [if_neg active] at kept
    exact kept

theorem active_cases {Value : Type} {request : Directory → Fallible AddressSpaces MapError Value}
    {reply : Except MapError Value} (run : (active >>= request).Yields before reply after) :
    ((∃ cause, reply = .error cause) ∧ after = before) ∨
      ∃ directory, before.current = some directory ∧
        (request directory).Yields before reply after := by
  cases isActive : before.current with
  | none =>
      left
      simp [active, isActive] at run
      exact ⟨⟨_, run.2⟩, run.1⟩
  | some directory =>
      right
      simp [active, isActive, and_assoc] at run
      exact ⟨directory, rfl, run⟩

theorem Permissive.of_memory {index : Fin Layout.pageEntries} {excused : Prop}
    (permissive : Permissive before directory index excused)
    (memory : after.memory = before.memory) : Permissive after directory index excused := by
  have named : after.tableFrame directory index = before.tableFrame directory index := by
    rw [tableFrame, tableFrame, memory]
  refine permissive.congr (by rw [memory]) ?_
  rw [pageTable, pageTable, named, memory]

end AddressSpaces

namespace Kernel

open AddressSpaces

/-- What becomes of the address spaces: nothing but that some are destroyed, or one is made. -/
inductive Respaced (before after : Kernel) : Prop where
  | kept (memory : after.spaces.memory = before.spaces.memory)
      (fewer : ∀ directory ∈ after.table.directories after.idle,
        directory ∈ before.table.directories before.idle)
  | added {directory : Directory}
      (created : Created before.spaces after.spaces directory before.spaces.template)
      (more : ∀ other ∈ after.table.directories after.idle,
        other = directory ∨ other ∈ before.table.directories before.idle)

section Respacing

variable {before after : Kernel} {root : Directory} {held : List Frame}
  {created : List Directory} {plan : Option Switch}
  {decision : Operation Dispatcher (Option Switch)}

theorem Respaced.of_occupant (memory : after.spaces.memory = before.spaces.memory)
    (idle : after.idle = before.idle)
    (stays : ∀ slot pid resources, after.table.occupant slot = some (pid, resources) →
      before.table.occupant slot = some (pid, resources)) : Respaced before after := by
  refine .kept memory fun directory mem => ?_
  rw [idle] at mem
  exact mem_directories_of_stays stays mem

theorem Respaced.refl (kernel : Kernel) : Respaced kernel kernel :=
  .kept rfl fun _ mem => mem

theorem respaced_of_decides (live : CurrentLive before.table)
    (scheduled : ∀ {start final : Dispatcher} {plan : Option Switch}, CurrentLive start.table →
      decision.Yields start plan final → start.Scheduled final plan)
    (decides : Decides decision before plan after) : Respaced before after := by
  rcases decides with ⟨dispatcher, current, decided, rfl⟩
  refine .of_occupant rfl rfl fun slot pid resources here => ?_
  exact ((scheduled live decided).occupant slot).symm.trans here

theorem respaced_of_decision (live : CurrentLive before.table)
    (scheduled : ∀ {start final : Dispatcher} {plan : Option Switch}, CurrentLive start.table →
      decision.Yields start plan final → start.Scheduled final plan)
    (run : (masked do track (← onDispatcher decision)).Yields before plan after) :
    Respaced before after :=
  respaced_of_decides live scheduled (decides_of_masked run)

theorem respaced_of_spawned (accounted : before.Accounted root held created) {name : String}
    {entry priority : UInt32} {reply : Except KernelError Pid}
    (spawned : Spawned name entry priority before reply after) : Respaced before after := by
  cases spawned with
  | full isFull => exact .refl before
  | noBlock refused => exact .refl before
  | noFrame refused => exact .refl before
  | @created pid heapStart heapEnd heap directory spaces table granted made reach entering =>
      rcases accounted.owned.createProcessDirectory with
        ⟨refused, -⟩ | ⟨found, final, done, isNew, -⟩
      · cases (made.unique refused).1
      rcases made.unique done with ⟨same, rfl⟩
      cases same
      rcases create_cases entering with ⟨_, refuted, -⟩ | ⟨slot, _, same, entered⟩
      · cases refuted
      cases same
      refine .added isNew fun other mem => ?_
      rcases mem_directories.mp mem with ⟨place, owner, resources, here, differs, given⟩
      by_cases isSlot : place = slot
      · subst isSlot
        have provided := entered.here.symm.trans here
        simp only [Option.some.injEq, Prod.mk.injEq] at provided
        rw [← provided.2, Option.some.injEq] at given
        exact Or.inl given.symm
      · refine Or.inr (mem_directories.mpr ⟨place, owner, resources, ?_, differs, given⟩)
        exact (entered.others place isSlot).symm.trans here

theorem respaced_of_exited (live : CurrentLive before.table) {code : Int32}
    (exited : Exited code before plan after) : Respaced before after := by
  cases exited with
  | ignored isIdle => exact .refl before
  | nobody noCurrent => exact .refl before
  | @ended process table freed _ _ other ending returned decided =>
      rcases exit_cases live ending with ⟨refuted, -⟩ | ⟨slot, _, same, left⟩
      · cases refuted
      cases same
      rcases returned with ⟨⟨spaces, heap, rfl⟩, vacated, -, -⟩
      have memory : spaces.memory = before.spaces.memory := by
        rcases vacated with same | ⟨directory, reply, destroyed⟩
        · exact congrArg AddressSpaces.memory same
        · exact (destroyDirectory_keeps destroyed).1
      rcases decided with ⟨dispatcher, current, decided, rfl⟩
      refine .of_occupant memory rfl fun place pid resources here => ?_
      exact (left.stayed (((Dispatcher.schedule_scheduled left.currentLive decided).occupant
        place).symm.trans here)).2

theorem respaced_of_perform {switch : Switch} {value : Unit}
    (run : (perform switch).Yields before value after) : Respaced before after := by
  have saved : Steady before.table (switch.apply before.cpu.registers before.table).2 := by
    rcases switch with ⟨_ | ⟨pid, slot⟩, incoming, target⟩
    · exact Steady.refl before.table
    · exact steady_update before.table slot
        (fun process => { process with context := before.cpu.registers }) rfl rfl
  rw [perform_outcome run]
  exact .of_occupant rfl rfl fun slot pid resources here => (saved.occupant slot).symm.trans here

/-- It does not matter what the processor is doing. -/
theorem Respaced.unmask {cpu : Cpu} (respaced : Respaced { before with cpu } after)
    (restored : Cpu) : Respaced before { after with cpu := restored } := by
  cases respaced with
  | kept memory fewer => exact .kept memory fewer
  | added created more => exact .added created more

theorem respaced_of_syscall (live : CurrentLive before.table) {request : Syscall}
    {answer : SyscallReturn} (run : (syscall request).Yields before answer after) :
    Respaced before after := by
  rcases unmasked run with ⟨cpu, final, restored, done, rfl, -⟩
  suffices respaced : Respaced { before with cpu } final from respaced.unmask restored
  cases request with
  | exit code =>
      rcases Operation.yields_bind.mp done with ⟨plan, _, exits, ended⟩
      rcases Operation.yields_pure.mp ended with ⟨-, rfl⟩
      exact respaced_of_exited live (exit_outcome exits)
  | getPid =>
      simp at done
      rcases done with ⟨rfl, -⟩
      exact .refl _
  | sleep milliseconds =>
      rcases Operation.yields_bind.mp done with ⟨plan, _, sleeps, ended⟩
      rcases Operation.yields_pure.mp ended with ⟨-, rfl⟩
      exact respaced_of_decision live Dispatcher.sleep_scheduled sleeps
  | write stream bytes =>
      by_cases output : stream = Layout.standardOutput
      · simp [output] at done
        rcases done with ⟨rfl, -⟩
        exact .refl _
      · simp [output, rejectSyscall] at done
        rcases done with ⟨rfl, -⟩
        exact .refl _

theorem respaced_of_dispatchSyscall (live : CurrentLive before.table)
    {bytesAt : UInt64 → Nat → List UInt8} {raw : RawSyscall} {answer : SyscallReturn}
    (run : (dispatchSyscall bytesAt raw).Yields before answer after) : Respaced before after := by
  rw [dispatchSyscall] at run
  cases decoded : Syscall.decode bytesAt raw with
  | ok request =>
      rw [decoded] at run
      exact respaced_of_syscall live run
  | error cause =>
      simp [decoded, rejectSyscall] at run
      rcases run with ⟨rfl, -⟩
      exact .refl after

end Respacing

section Keeping

variable {before after : Kernel} {root directory other : Directory} {held : List Frame}
  {created : List Directory} {spaces : AddressSpaces} {index : Fin Layout.pageEntries}
  {virtual : VirtAddr} {excused : Directory → Fin Layout.pageEntries → Prop}

namespace Accounted

/-- A new address space is as permissive as the kernel's. -/
theorem permissive_of_created (accounted : before.Accounted root held created)
    (isNew : AddressSpaces.Created before.spaces spaces directory before.spaces.template)
    (permissive : ∀ other ∈ before.owners root created, ∀ index,
      Permissive before.spaces other index (excused other index))
    (clean : ∀ index, ¬excused root index)
    (mem : other = directory ∨ other ∈ before.owners root created) :
    Permissive spaces other index (other ∈ before.owners root created ∧ excused other index) := by
  rcases mem with rfl | mem
  · have copied := isNew.permissive_copy accounted.owned accounted.isKernel
      (permissive root List.mem_cons_self index)
    exact copied.mono fun slighted => absurd slighted (clean index)
  · exact (isNew.permissive accounted.owned mem (permissive other mem index)).mono
      fun slighted => ⟨mem, slighted⟩

theorem permissive_of_respaced (accounted : before.Accounted root held created)
    (respaced : Respaced before after)
    (permissive : ∀ other ∈ before.owners root created, ∀ index,
      Permissive before.spaces other index (excused other index))
    (clean : ∀ index, ¬excused root index) (mem : other ∈ after.owners root created) :
    Permissive after.spaces other index
      (other ∈ before.owners root created ∧ excused other index) := by
  cases respaced with
  | kept memory fewer =>
      have was : other ∈ before.owners root created := by
        rcases List.mem_cons.mp mem with isRoot | listed
        · exact List.mem_cons.mpr (Or.inl isRoot)
        · rcases List.mem_append.mp listed with process | made
          · exact List.mem_cons_of_mem _ (List.mem_append_left _ (fewer other process))
          · exact List.mem_cons_of_mem _ (List.mem_append_right _ made)
      exact ((permissive other was index).of_memory memory).mono fun slighted => ⟨was, slighted⟩
  | added isNew more =>
      refine accounted.permissive_of_created isNew permissive clean ?_
      rcases List.mem_cons.mp mem with isRoot | listed
      · exact Or.inr (List.mem_cons.mpr (Or.inl isRoot))
      · rcases List.mem_append.mp listed with process | made
        · exact (more other process).imp_right fun was =>
            List.mem_cons_of_mem _ (List.mem_append_left _ was)
        · exact Or.inr (List.mem_cons_of_mem _ (List.mem_append_right _ made))

/-- A page that is mapped in the active address space slights those who share the table, if the
kernel's address space is the active one. -/
theorem permissive_map (accounted : before.Accounted root held created) {physical : PhysAddr}
    {flags : PageFlags} {reply : Except MapError Unit}
    (run : (Kernel.map virtual physical flags).Yields before reply after)
    (mem : other ∈ before.owners root created)
    (permissive : Permissive before.spaces other index (excused other index)) :
    Permissive after.spaces other index
      (excused other index ∨ (reply = .ok () ∧ before.spaces.current = some root ∧
        AddressSpaces.Slighted before.spaces root virtual flags other index)) := by
  rcases yields_masked_onSpaces.mp run with ⟨spaces, mapped, rfl⟩
  rcases AddressSpaces.active_cases mapped with ⟨-, rfl⟩ | ⟨directory, isActive, mapped⟩
  · exact permissive.mono Or.inl
  have owner := accounted.active directory isActive
  cases reply with
  | error cause =>
      rcases (accounted.owned.separate owner).mapIn virtual physical flags with
        ⟨refused, -⟩ | ⟨table, edited, accepted, -⟩
      · rcases mapped.unique refused with ⟨-, rfl⟩
        exact permissive.mono Or.inl
      · cases (mapped.unique accepted).1
  | ok =>
      refine (accounted.owned.permissive_mapIn owner mapped mem permissive).mono ?_
      rintro (already | slighted)
      · exact Or.inl already
      · have same : root = directory := by
          have isKernel := slighted.isKernel
          rwa [accounted.isKernel, Option.some.injEq] at isKernel
        subst same
        exact Or.inr ⟨rfl, isActive, slighted⟩

theorem permissive_unmap (accounted : before.Accounted root held created)
    {reply : Except MapError Frame} (run : (Kernel.unmap virtual).Yields before reply after)
    (mem : other ∈ before.owners root created)
    (permissive : Permissive before.spaces other index (excused other index)) :
    Permissive after.spaces other index (excused other index) := by
  rcases yields_masked_onSpaces.mp run with ⟨spaces, unmapped, rfl⟩
  rcases AddressSpaces.active_cases unmapped with ⟨-, rfl⟩ | ⟨directory, isActive, unmapped⟩
  · exact permissive
  have owner := accounted.active directory isActive
  cases reply with
  | error cause =>
      rcases (accounted.owned.separate owner).unmapIn virtual with
        ⟨-, refused⟩ | ⟨physical, flags, -, ⟨refused, -⟩ | ⟨table, edited, accepted, -⟩⟩
      · rcases unmapped.unique refused with ⟨-, rfl⟩
        exact permissive
      · rcases unmapped.unique refused with ⟨-, rfl⟩
        exact permissive
      · cases (unmapped.unique accepted).1
  | ok frame =>
      exact accounted.owned.permissive_unmapIn owner unmapped mem permissive

/-- The directory of a new process is a copy of the kernel's. -/
theorem spawn_copies (accounted : before.Accounted root held created) {name : String}
    {entry priority : UInt32} {pid : Pid}
    (run : (Kernel.spawn name entry priority).Yields before (.ok pid) after) :
    ∃ directory, directory ∈ after.table.directories after.idle ∧ directory ≠ root ∧
      after.spaces.current = before.spaces.current ∧
      after.spaces.memory.table directory.frame = before.spaces.memory.table root.frame ∧
      after.spaces.memory.table root.frame = before.spaces.memory.table root.frame := by
  cases spawn_outcome accounted.heap run with
  | @created pid heapStart heapEnd heap directory spaces table granted made reach entering =>
      rcases accounted.owned.createProcessDirectory with ⟨refused, -⟩ | ⟨_, _, done, isNew, -⟩
      · cases (made.unique refused).1
      rcases made.unique done with ⟨same, rfl⟩
      cases same
      rcases create_cases entering with ⟨_, refuted, -⟩ | ⟨slot, _, same, entered⟩
      · cases refuted
      cases same
      have notIdle : pid ≠ before.idle := by
        rintro rfl
        rcases accounted.idleLive with ⟨place, provided, here⟩
        exact entered.unused place provided here
      have rootMem := accounted.owned.kernel root accounted.isKernel
      have notRoot : root.frame ≠ directory.frame :=
        Ne.symm (accounted.owned.fresh isNew.allocation rootMem).1
      refine ⟨directory, mem_directories.mpr ⟨slot, pid, _, entered.here, notIdle, rfl⟩, ?_,
        isNew.current, ?_, isNew.elsewhere root.frame notRoot⟩
      · rintro rfl
        exact notRoot rfl
      · change spaces.memory.table directory.frame = _
        rw [isNew.holds, template, accounted.isKernel]

/-- What is mapped in the kernel's address space, while that is the active one, is seen by those who
share the table, and their entries are left alone. -/
theorem map_shared (accounted : before.Accounted root held created)
    (isActive : before.spaces.current = some root) (mem : other ∈ before.owners root created)
    (differs : other ≠ root) (virtual : VirtAddr)
    (shares : Tenancy.Shares before.spaces other root virtual.directoryIndex)
    (physical : PhysAddr) (flags : PageFlags) :
    ∃ spaces, (Kernel.map virtual physical flags).Yields before (.ok ()) { before with spaces } ∧
      spaces.memory.table other.frame = before.spaces.memory.table other.frame ∧
      spaces.translateIn other virtual =
        (let entry := Entry.ofFrame (.containing physical) flags
        entry.frame.map fun frame =>
          (⟨frame.start.word ||| virtual.pageOffset⟩, entry.flags)) := by
  rcases accounted.owned.mapIn_shared accounted.isKernel mem differs virtual shares physical
    flags with ⟨spaces, mapped, -, -, -, -, same, seen⟩
  have asked : (AddressSpaces.map virtual physical flags).Yields before.spaces (.ok ()) spaces := by
    simp [AddressSpaces.map, AddressSpaces.active, isActive, and_assoc, mapped.iff]
  exact ⟨spaces, yields_masked_onSpaces.mpr ⟨spaces, asked, rfl⟩, same, seen⟩

end Accounted

end Keeping

/-- The kernel comes up in its own address space, which is guarded and has a table for the lowest
pages. -/
theorem guarded_of_init {before started : Kernel} {memory : BootMemory} {idleEntry : UInt32}
    {config : SchedulerConfig}
    (begun : (Kernel.init memory idleEntry config).Yields before (.ok ()) started) :
    ∃ root, started.spaces.kernel = some root ∧ started.spaces.current = some root ∧
      Guarded started.spaces root ∧ started.spaces.tableFrame root 0 ≠ none := by
  have spaced := spaced_of_init begun
  generalize started.spaces = spaces at spaced ⊢
  cases spaced with
  | @ready root frames spaces reset built =>
      have nobody := owned_of_reset reset before.spaces.memory
      have guarded := nobody.guarded_initKernelDirectory built
      rcases nobody.initKernelDirectory (UInt32.ofNat (frames.totalFrames * Layout.frameSize)) with
        ⟨_, _, _, refused, -⟩ | ⟨made, after, done, building⟩
      · cases (built.unique refused).1
      rcases built.unique done with ⟨same, rfl⟩
      cases same
      refine ⟨root, rfl, rfl, ⟨fun index => (guarded.permissive index).of_memory rfl,
        guarded.plain⟩, ?_⟩
      have some_frames : 0 < frames.totalFrames := by
        rcases FrameBitmap.reset_cases before.spaces.frames memory.totalBytes
          Layout.reservedEnd with ⟨more, accepted⟩ | ⟨-, refused⟩
        · rw [(reset.unique accepted).2]
          exact Nat.lt_of_le_of_lt (Nat.zero_le _) more
        · cases (reset.unique refused).1
      have most : frames.totalFrames ≤ 262144 := nobody.wellFormed.tracked
      have hasTable : after.privateTable root 0 ≠ none := by
        have size : Layout.frameSize = 4096 := rfl
        have word : frames.totalFrames * Layout.frameSize < 2 ^ 32 := by
          rw [size]
          omega
        rw [ne_eq, building.tables, UInt32.toNat_ofNat_of_lt' word, size,
          Nat.mul_div_cancel _ (by decide), tablesFor]
        change ¬(frames.totalFrames + 1023) / 1024 ≤ 0
        omega
      rcases Option.ne_none_iff_exists'.mp hasTable with ⟨table, own⟩
      intro missing
      have kernelNames := (privateTable_eq_some.mp own).1
      exact Option.some_ne_none table (kernelNames.symm.trans missing)

end Kernel

namespace Custody

open AddressSpaces

/-- A page for users is entered in a table of the kernel's, in the kernel's address space, and the
directory names the table at the index. -/
def Slights (before : Custody) (call : Call) (root directory : Directory)
    (index : Fin Layout.pageEntries) : Prop :=
  ∃ virtual physical flags kernel, call = .map virtual physical flags ∧
    (Kernel.map virtual physical flags).Yields before.kernel (.ok ()) kernel ∧
    before.kernel.spaces.current = some root ∧
    AddressSpaces.Slighted before.kernel.spaces root virtual flags directory index

/-- The directory is in use before each of the calls and after them. -/
inductive InUse (root directory : Directory) : Custody → List Call → Custody → Prop where
  | nil {custody : Custody} (mem : directory ∈ custody.directories root) :
      InUse root directory custody [] custody
  | cons {start between final : Custody} {call : Call} {rest : List Call}
      (mem : directory ∈ start.directories root) (step : call.act.Yields start () between)
      (onward : InUse root directory between rest final) :
      InUse root directory start (call :: rest) final

/-- One of the calls slights the directory, which is in use from then on. -/
inductive Slighted (root directory : Directory) (index : Fin Layout.pageEntries) :
    Custody → List Call → Custody → Prop where
  | here {start between final : Custody} {call : Call} {rest : List Call}
      (slights : start.Slights call root directory index)
      (step : call.act.Yields start () between)
      (onward : InUse root directory between rest final) :
      Slighted root directory index start (call :: rest) final
  | later {start between final : Custody} {call : Call} {rest : List Call}
      (step : call.act.Yields start () between)
      (onward : Slighted root directory index between rest final) :
      Slighted root directory index start (call :: rest) final

section Calls

variable {Value : Type} {custody after : Custody} {root directory : Directory}
  {index : Fin Layout.pageEntries} {excused : Directory → Fin Layout.pageEntries → Prop}

/-- The entries of all directories grant what pages below them do, unless there is an excuse. -/
def Permissive (custody : Custody) (root : Directory)
    (excused : Directory → Fin Layout.pageEntries → Prop) : Prop :=
  ∀ directory ∈ custody.directories root, ∀ index,
    AddressSpaces.Permissive custody.kernel.spaces directory index (excused directory index)

theorem permissive_of_respaced (accounted : custody.Accounted root)
    (permissive : custody.Permissive root excused) (clean : ∀ index, ¬excused root index)
    (respaced : Kernel.Respaced custody.kernel after.kernel)
    (created : after.created = custody.created) :
    after.Permissive root fun directory index =>
      directory ∈ custody.directories root ∧ excused directory index := by
  intro directory mem index
  rw [directories_eq_owners, created] at mem
  rw [directories_eq_owners]
  refine Kernel.Accounted.permissive_of_respaced accounted respaced ?_ clean mem
  rw [← directories_eq_owners]
  exact permissive

theorem permissive_of_discard {action : Operation Kernel Value}
    (accounted : custody.Accounted root)
    (permissive : custody.Permissive root excused) (clean : ∀ index, ¬excused root index)
    (respaced : ∀ {value kernel}, action.Yields custody.kernel value kernel →
      Kernel.Respaced custody.kernel kernel)
    (step : (discard (onKernel action)).Yields custody () after) :
    after.Permissive root fun directory index =>
      directory ∈ custody.directories root ∧ excused directory index := by
  rcases Operation.yields_map.mp step with ⟨value, done, -⟩
  rcases yields_onKernel.mp done with ⟨kernel, run, rfl⟩
  exact permissive_of_respaced accounted permissive clean (respaced run) rfl

theorem respaced_of_onSpaces {before after : Kernel} {action : Operation AddressSpaces Value}
    {value : Value}
    (keeps : ∀ {start value final}, action.Yields start value final →
      final.memory = start.memory)
    (run : (masked (Kernel.onSpaces action)).Yields before value after) :
    Kernel.Respaced before after := by
  rcases Kernel.yields_masked_onSpaces.mp run with ⟨spaces, asked, rfl⟩
  exact .kept (keeps asked) fun _ mem => mem

theorem respaced_of_onFrames {before after : Kernel} {action : Operation FrameBitmap Value}
    {value : Value} (run : (masked (Kernel.onFrames action)).Yields before value after) :
    Kernel.Respaced before after := by
  refine respaced_of_onSpaces (fun asked => ?_) run
  rcases AddressSpaces.yields_onFrames.mp asked with ⟨frames, -, rfl⟩
  rfl

theorem respaced_of_onHeap {before after : Kernel} {action : Operation Heap Value}
    {value : Value} (run : (masked (Kernel.onHeap action)).Yields before value after) :
    Kernel.Respaced before after := by
  rcases Kernel.yields_masked_onHeap.mp run with ⟨heap, -, rfl⟩
  exact .kept rfl fun _ mem => mem

theorem createDirectory_permissive (accounted : custody.Accounted root)
    (permissive : custody.Permissive root excused) (clean : ∀ index, ¬excused root index)
    (step : Call.createDirectory.act.Yields custody () after) :
    after.Permissive root fun directory index =>
      directory ∈ custody.directories root ∧ excused directory index := by
  have kernel : custody.kernel.Accounted root custody.held custody.created := accounted
  rcases Operation.yields_bind.mp step with ⟨reply, between, begun, kept⟩
  rcases yields_onKernel.mp begun with ⟨_, run, rfl⟩
  rcases Kernel.yields_masked_onSpaces.mp run with ⟨spaces, request, rfl⟩
  rcases kernel.owned.createProcessDirectory with
    ⟨refused, -⟩ | ⟨directory, made, accepted, isNew, -⟩
  · rcases request.unique refused with ⟨rfl, rfl⟩
    rcases Operation.yields_pure.mp kept with ⟨-, rfl⟩
    exact permissive_of_respaced accounted permissive clean (.refl _) rfl
  · rcases request.unique accepted with ⟨rfl, rfl⟩
    rcases Operation.yields_modify.mp kept with rfl
    intro other mem index
    rw [directories_eq_owners] at mem ⊢
    refine kernel.permissive_of_created isNew ?_ clean ?_
    · rw [← directories_eq_owners]
      exact permissive
    · have listed := (custody.kernel.owners_cons_perm root directory custody.created).mem_iff.mp mem
      exact List.mem_cons.mp listed

theorem map_permissive {virtual : VirtAddr} {physical : PhysAddr} {flags : PageFlags}
    (accounted : custody.Accounted root) (permissive : custody.Permissive root excused)
    (step : (Call.map virtual physical flags).act.Yields custody () after) :
    after.Permissive root fun directory index =>
      directory ∈ custody.directories root ∧
        (excused directory index ∨
          custody.Slights (.map virtual physical flags) root directory index) := by
  have kernel : custody.kernel.Accounted root custody.held custody.created := accounted
  rcases Operation.yields_map.mp step with ⟨reply, done, -⟩
  rcases yields_onKernel.mp done with ⟨final, run, rfl⟩
  intro directory mem index
  have was : directory ∈ custody.directories root := by
    rw [directories_eq_owners] at mem ⊢
    rcases Kernel.yields_masked_onSpaces.mp run with ⟨spaces, -, rfl⟩
    exact mem
  refine (kernel.permissive_map run (directories_eq_owners custody root ▸ was)
    (permissive directory was index)).mono ?_
  rintro (already | ⟨rfl, isActive, slighted⟩)
  · exact ⟨was, Or.inl already⟩
  · exact ⟨was, Or.inr ⟨virtual, physical, flags, final, rfl, run, isActive, slighted⟩⟩

theorem unmap_permissive {virtual : VirtAddr} (accounted : custody.Accounted root)
    (permissive : custody.Permissive root excused)
    (step : (Call.unmap virtual).act.Yields custody () after) :
    after.Permissive root fun directory index =>
      directory ∈ custody.directories root ∧ excused directory index := by
  have kernel : custody.kernel.Accounted root custody.held custody.created := accounted
  rcases Operation.yields_map.mp step with ⟨reply, done, -⟩
  rcases yields_onKernel.mp done with ⟨final, run, rfl⟩
  intro directory mem index
  have was : directory ∈ custody.directories root := by
    rw [directories_eq_owners] at mem ⊢
    rcases Kernel.yields_masked_onSpaces.mp run with ⟨spaces, -, rfl⟩
    exact mem
  exact (kernel.permissive_unmap run (directories_eq_owners custody root ▸ was)
    (permissive directory was index)).mono fun already => ⟨was, already⟩

/-- A permitted call leaves the entries of all directories granting what pages below them do, but
for directories that it slights. -/
theorem Call.act_permissive (call : Call) (accounted : custody.Accounted root)
    (permissive : custody.Permissive root excused) (clean : ∀ index, ¬excused root index)
    (permitted : custody.Permitted call) (step : call.act.Yields custody () after) :
    after.Permissive root fun directory index =>
      directory ∈ custody.directories root ∧
        (excused directory index ∨ custody.Slights call root directory index) := by
  have kernel : custody.kernel.Accounted root custody.held custody.created := accounted
  have live := kernel.currentLive
  by_cases maps : ∃ virtual physical flags, call = .map virtual physical flags
  · rcases maps with ⟨virtual, physical, flags, rfl⟩
    exact map_permissive accounted permissive step
  suffices others : after.Permissive root fun directory index =>
      directory ∈ custody.directories root ∧ excused directory index by
    intro directory mem index
    exact (others directory mem index).mono (And.imp_right Or.inl)
  cases call with
  | spawn name entry priority =>
      exact permissive_of_discard accounted permissive clean
        (fun run => Kernel.respaced_of_spawned kernel (Kernel.spawn_outcome kernel.heap run)) step
  | start =>
      exact permissive_of_discard accounted permissive clean
        (Kernel.respaced_of_decision live Dispatcher.schedule_scheduled) step
  | tick =>
      exact permissive_of_discard accounted permissive clean
        (Kernel.respaced_of_decision live Dispatcher.tick_scheduled) step
  | yield =>
      exact permissive_of_discard accounted permissive clean
        (Kernel.respaced_of_decision live Dispatcher.yield_scheduled) step
  | sleep milliseconds =>
      exact permissive_of_discard accounted permissive clean
        (Kernel.respaced_of_decision live Dispatcher.sleep_scheduled) step
  | exit code =>
      exact permissive_of_discard accounted permissive clean
        (fun run => Kernel.respaced_of_exited live (Kernel.exit_outcome run)) step
  | perform switch =>
      rcases yields_onKernel.mp step with ⟨_, run, rfl⟩
      exact permissive_of_respaced accounted permissive clean (Kernel.respaced_of_perform run) rfl
  | syscall request =>
      exact permissive_of_discard accounted permissive clean (Kernel.respaced_of_syscall live) step
  | dispatchSyscall bytesAt raw =>
      exact permissive_of_discard accounted permissive clean
        (Kernel.respaced_of_dispatchSyscall live) step
  | map virtual physical flags => exact absurd ⟨virtual, physical, flags, rfl⟩ maps
  | unmap virtual => exact unmap_permissive accounted permissive step
  | allocateFrame =>
      rcases Operation.yields_bind.mp step with ⟨reply, between, begun, kept⟩
      rcases yields_onKernel.mp begun with ⟨_, run, rfl⟩
      cases reply with
      | none =>
          rcases Operation.yields_pure.mp kept with ⟨-, rfl⟩
          exact permissive_of_respaced accounted permissive clean (respaced_of_onFrames run) rfl
      | some frame =>
          rcases Operation.yields_modify.mp kept with rfl
          exact permissive_of_respaced accounted permissive clean (respaced_of_onFrames run) rfl
  | freeFrame frame =>
      rcases Operation.yields_bind.mp step with ⟨reply, between, begun, kept⟩
      rcases yields_onKernel.mp begun with ⟨_, run, rfl⟩
      cases reply with
      | error cause =>
          rcases Operation.yields_pure.mp kept with ⟨-, rfl⟩
          exact permissive_of_respaced accounted permissive clean (respaced_of_onFrames run) rfl
      | ok =>
          rcases Operation.yields_modify.mp kept with rfl
          exact permissive_of_respaced accounted permissive clean (respaced_of_onFrames run) rfl
  | createDirectory => exact createDirectory_permissive accounted permissive clean step
  | switchAddressSpace directory =>
      rcases yields_onKernel.mp step with ⟨_, run, rfl⟩
      refine permissive_of_respaced accounted permissive clean (respaced_of_onSpaces ?_ run) rfl
      intro start value final switched
      simp [AddressSpaces.switchTo] at switched
      rw [switched]
  | kmalloc size =>
      exact permissive_of_discard accounted permissive clean respaced_of_onHeap step
  | kfree address =>
      exact permissive_of_discard accounted permissive clean respaced_of_onHeap step

theorem Run.permissive {calls : List Call} {start final : Custody} (run : Run start calls final)
    (accounted : start.Accounted root) (permissive : start.Permissive root excused)
    (clean : ∀ index, ¬excused root index) :
    final.Permissive root fun directory index =>
      (InUse root directory start calls final ∧ excused directory index) ∨
        Slighted root directory index start calls final := by
  induction run generalizing excused with
  | nil =>
      intro directory mem index
      exact (permissive directory mem index).mono fun already => Or.inl ⟨.nil mem, already⟩
  | @cons start between final call rest permitted step onward ih =>
      have after := Call.act_permissive call accounted permissive clean permitted step
      have clear : ∀ index, ¬(root ∈ start.directories root ∧
          (excused root index ∨ start.Slights call root root index)) := by
        rintro index ⟨-, already | ⟨_, _, _, _, -, -, -, slighted⟩⟩
        · exact clean index already
        · exact slighted.differs rfl
      intro directory mem index
      refine (ih (Call.act_accounted call accounted permitted step) after clear directory mem
        index).mono ?_
      rintro (⟨onwards, was, already | slights⟩ | slighted)
      · exact Or.inl ⟨.cons was step onwards, already⟩
      · exact Or.inr (.here slights step onwards)
      · exact Or.inr (.later step slighted)

/-- When the kernel comes up, its directory grants what its pages do, and there is no other. -/
theorem permissive_of_init {before started : Kernel} {memory : BootMemory} {idleEntry : UInt32}
    {config : SchedulerConfig}
    (begun : (Kernel.init memory idleEntry config).Yields before (.ok ()) started)
    (accounted : (ofKernel started).Accounted root) :
    (ofKernel started).Permissive root fun _ _ => False := by
  have alone : (ofKernel started).directories root = [root] := by
    rw [directories_eq_owners, Kernel.owners]
    cases Kernel.init_outcome begun with
    | ready heap created dispatcher =>
        rcases create_cases created with ⟨_, refuted, -⟩ | ⟨slot, _, same, entered⟩
        · cases refuted
        cases same
        have nobody := entered.directories_eq_nil (queued_empty config.timeSliceTicks)
        rw [ofKernel, Kernel.table, dispatcher, nobody]
        rfl
  rcases Kernel.guarded_of_init begun with ⟨found, isKernel, -, guarded, -⟩
  have same := (Kernel.Accounted.isKernel accounted).symm.trans isKernel
  rw [Option.some.injEq] at same
  subst same
  intro directory mem index
  rw [alone, List.mem_singleton] at mem
  subst mem
  exact guarded.permissive index

end Calls

section UserPage

/-- A page for users that can be written. -/
def userPage : PageFlags :=
  (PageFlags.present.union .writable).union .user

/-- A machine with 16000 KB has room for a process. -/
theorem spawned_with_16000 (name : String) (entry priority : UInt32) :
    ∃ started pid spawned,
      (Kernel.init ⟨640, 15360⟩ 0x100000 {}).Yields (.new true) (.ok ()) started ∧
      (Kernel.spawn name entry priority).Yields started (.ok pid) spawned := by
  rcases Kernel.init_yields (.new true) 0x100000 {} Kernel.total_of_16000 (by decide) with
    ⟨started, begun, free⟩
  rcases Kernel.accounted_of_init begun with ⟨root, ready⟩
  have outcome := Kernel.init_outcome begun
  rcases Kernel.yields_spawn ready name entry priority with ⟨reply, spawned, run⟩
  cases Kernel.spawn_outcome ready.heap run with
  | full isFull =>
      rcases Kernel.lonely_of_begun outcome with ⟨-, home, lonely, -⟩
      rw [lonely.not_full] at isFull
      cases isFull
  | noBlock refused =>
      rcases Kernel.heap_of_begun outcome with ⟨address, heap, granted⟩
      cases (granted.unique refused).1
  | noFrame refused =>
      rcases ready.owned.createProcessDirectory with ⟨-, full⟩ | ⟨_, _, made, -⟩
      · rw [ready.owned.wellFormed.freeFrames_eq_zero full] at free
        exact absurd free (by decide)
      · cases (made.unique refused).1
  | created granted made reach entering => exact ⟨started, _, _, begun, run⟩

/-- A process is created, and then a page for users is entered in the kernel's lowest table. -/
theorem run_of_user_page :
    ∃ started directory custody,
      (Kernel.init ⟨640, 15360⟩ 0x100000 {}).Yields (.new true) (.ok ()) started ∧
      Run (ofKernel started) [.spawn "user" 0x200000 1, .map ⟨0⟩ ⟨0x5000⟩ userPage] custody ∧
      directory ∈ custody.processDirectories ∧
      custody.kernel.spaces.translateIn directory ⟨0⟩ = some (⟨0x5000⟩, userPage) ∧
      (custody.kernel.spaces.memory.entry directory.frame 0).flags.contains .user = false := by
  rcases spawned_with_16000 "user" 0x200000 1 with ⟨started, pid, spawned, begun, run⟩
  rcases Kernel.accounted_of_init begun with ⟨root, ready⟩
  rcases Kernel.guarded_of_init begun with ⟨found, isKernel, isActive, guarded, named⟩
  have same := ready.isKernel.symm.trans isKernel
  rw [Option.some.injEq] at same
  subst same
  have accounted := ready.spawn run
  rcases ready.spawn_copies run with ⟨directory, mem, differs, stays, copied, kept⟩
  rcases Option.ne_none_iff_exists'.mp named with ⟨lowest, kernelNames⟩
  have shares : Tenancy.Shares spawned.spaces directory root 0 := by
    refine ⟨lowest, ?_, ?_⟩ <;> rw [tableFrame, Memory.entry]
    · rw [copied]
      exact kernelNames
    · rw [kept]
      exact kernelNames
  have owner : directory ∈ spawned.owners root [] :=
    List.mem_cons_of_mem _ (List.mem_append_left _ mem)
  rcases accounted.map_shared (stays.trans isActive) owner differs ⟨0⟩ shares ⟨0x5000⟩
    userPage with ⟨spaces, step, untouched, seen⟩
  have first : (Call.spawn "user" 0x200000 1).act.Yields (ofKernel started) ()
      (ofKernel spawned) := step_of_yields run
  have second : (Call.map ⟨0⟩ ⟨0x5000⟩ userPage).act.Yields (ofKernel spawned) ()
      (ofKernel { spawned with spaces }) := step_of_yields step
  refine ⟨started, directory, _, begun, .cons trivial first (.cons trivial second .nil), ?_,
    seen.trans (by decide), ?_⟩
  · rw [processDirectories, ← directories_eq_live]
    exact mem
  · change (spaces.memory.entry directory.frame 0).flags.contains .user = false
    rw [Memory.entry, untouched, copied]
    exact guarded.plain 0 named

end UserPage

section Effective

variable {before started : Kernel} {memory : BootMemory} {idleEntry : UInt32}
  {config : SchedulerConfig} {calls : List Call} {custody : Custody}

/-- After bring-up and whatever permitted calls: if an address space that is in use maps a page, the
entry of its directory for the page is present and can be written through, and it lets users through
if the page does, unless the directory was slighted. -/
theorem flags_effective
    (begun : (Kernel.init memory idleEntry config).Yields before (.ok ()) started)
    (run : Run (ofKernel started) calls custody) :
    ∃ root, custody.kernel.spaces.kernel = some root ∧
      ∀ directory ∈ custody.directories root, ∀ address physical flags,
        custody.kernel.spaces.translateIn directory address = some (physical, flags) →
          let entry := custody.kernel.spaces.memory.entry directory.frame address.directoryIndex
          entry.isPresent = true ∧ entry.flags.contains .writable = true ∧
            (flags.contains .user = true → entry.flags.contains .user = true ∨
              Slighted root directory address.directoryIndex (ofKernel started) calls custody) := by
  rcases Kernel.accounted_of_init begun with ⟨root, ready⟩
  have accounted : (ofKernel started).Accounted root := ready
  have permissive := run.permissive accounted (permissive_of_init begun accounted)
    fun _ never => never
  refine ⟨root, Kernel.Accounted.isKernel (run.accounted accounted), ?_⟩
  intro directory mem address physical flags mapped
  have granted := permissive directory mem address.directoryIndex
  rw [translateIn_eq] at mapped
  rcases Option.map_eq_some_iff.mp mapped with ⟨frame, present, same⟩
  rw [Prod.mk.injEq] at same
  have isPresent := Option.ne_none_iff_exists'.mpr ⟨frame, present⟩
  have named : custody.kernel.spaces.tableFrame directory address.directoryIndex ≠ none := by
    intro missing
    rw [pageTable, missing] at isPresent
    simp at isPresent
  rcases Option.ne_none_iff_exists'.mp named with ⟨table, isTable⟩
  refine ⟨Entry.isPresent_of_frame isTable, granted.writable named, fun user => ?_⟩
  rw [← same.2] at user
  refine (granted.user address.tableIndex isPresent user).imp_right ?_
  rintro (⟨-, never⟩ | slighted)
  · exact never.elim
  · exact slighted

/-- The directory of the process was slighted, since its entry does not let users through. -/
theorem flags_effective_of_user_page :
    ∃ started root directory custody,
      (Kernel.init ⟨640, 15360⟩ 0x100000 {}).Yields (.new true) (.ok ()) started ∧
      Run (ofKernel started) [.spawn "user" 0x200000 1, .map ⟨0⟩ ⟨0x5000⟩ userPage] custody ∧
      custody.kernel.spaces.kernel = some root ∧
      Slighted root directory 0 (ofKernel started)
        [.spawn "user" 0x200000 1, .map ⟨0⟩ ⟨0x5000⟩ userPage] custody := by
  rcases run_of_user_page with ⟨started, directory, custody, begun, run, mem, seen, plain⟩
  rcases flags_effective begun run with ⟨root, isKernel, effective⟩
  have inUse : directory ∈ custody.directories root :=
    List.mem_cons_of_mem _ (List.mem_append_left _ mem)
  rcases effective directory inUse ⟨0⟩ _ _ seen with ⟨-, -, granted⟩
  refine ⟨started, root, directory, custody, begun, run, isKernel, ?_⟩
  rcases granted (by decide) with through | slighted
  · exact absurd (plain.symm.trans through) Bool.false_ne_true
  · exact slighted

/-- A page for users that the kernel enters in a table that a process shares is reported to be one
in the address space of the process as well, but there the directory's entry does not let users
through. -/
theorem user_page_denied :
    ∃ started custody,
      (Kernel.init ⟨640, 15360⟩ 0x100000 {}).Yields (.new true) (.ok ()) started ∧
      Run (ofKernel started) [.spawn "user" 0x200000 1, .map ⟨0⟩ ⟨0x5000⟩ userPage] custody ∧
      ¬∀ directory ∈ custody.processDirectories, ∀ address physical flags,
        custody.kernel.spaces.translateIn directory address = some (physical, flags) →
          flags.contains .user = true →
            (custody.kernel.spaces.memory.entry directory.frame
              address.directoryIndex).flags.contains .user = true := by
  rcases run_of_user_page with ⟨started, directory, custody, begun, run, mem, seen, plain⟩
  refine ⟨started, custody, begun, run, fun effective => ?_⟩
  have through := effective directory mem ⟨0⟩ _ _ seen (by decide)
  exact Bool.false_ne_true (plain.symm.trans through)

end Effective

end Custody

end KernelCore
