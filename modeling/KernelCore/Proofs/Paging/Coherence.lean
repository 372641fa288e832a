import KernelCore.Proofs.Kernel.Loads
import KernelCore.Proofs.Paging.Isolation
import KernelCore.Proofs.Paging.Translation

/-!
# Stale translations

The processor keeps translations of the active address space until it is told to drop them. Where a
request to map or to unmap a page changes what the active address space translates an address to,
the processor is told to drop the page of that address, with one exception: a change of a table of
the kernel's is not announced while another directory is active, though that directory may name
the same table.
-/

namespace KernelCore

namespace Fallible

variable {State Cause Value Result : Type} {told : State → Event → Prop}

/-- If the operation is not refused, it tells the processor what is told of the state that it
leaves, and nothing else. -/
def Signals (action : Fallible State Cause Value) (told : State → Event → Prop) : Prop :=
  ∀ before value after effects, action.result before = .ok ⟨.ok value, after, effects⟩ →
    ∀ event, .cpu event ∈ effects ↔ told after event

theorem signals_throw {cause : Cause} :
    Signals (throw cause : Fallible State Cause Value) told := by
  intro before value after effects run
  cases run

theorem signals_lift {action : Operation State Value}
    (signals : ∀ before value after effects, action before = .ok ⟨value, after, effects⟩ →
      ∀ event, .cpu event ∈ effects ↔ told after event) :
    Signals (liftM action : Fallible State Cause Value) told := by
  intro before value after effects run
  change (Except.ok <$> action) before = _ at run
  rw [map_eq_pure_bind] at run
  rcases Operation.bind_eq_ok.mp run with ⟨found, between, early, late, begun, ended, rfl⟩
  cases ended
  rw [List.append_nil]
  exact signals before value after early begun

/-- Where the first operation is silent, all is told by the second. -/
theorem signals_bind {first : Fallible State Cause Value}
    {next : Value → Fallible State Cause Result} (silent : first.Silent)
    (signals : ∀ value, (next value).Signals told) : Signals (first >>= next) told := by
  intro before result after effects run event
  rcases Operation.bind_eq_ok.mp run with ⟨reply, between, early, late, begun, ended, rfl⟩
  cases reply with
  | error cause => cases ended
  | ok value =>
      have quiet : .cpu event ∉ early := fun mem =>
        silent before (.ok value) between early begun (.cpu event) mem event rfl
      rw [List.mem_append, or_iff_right quiet]
      exact signals value between result after late ended event

/-- An answer that is given at the end tells nothing. -/
theorem signals_before {work : Fallible State Cause Value} {result : Result}
    (signals : work.Signals told) : Signals (do let _ ← work; pure result) told := by
  intro before answer after effects run event
  rcases Operation.bind_eq_ok.mp run with ⟨reply, between, early, late, begun, ended, rfl⟩
  cases reply with
  | error cause => cases ended
  | ok value =>
      cases ended
      rw [List.append_nil]
      exact signals before value after early begun event

end Fallible

namespace AddressSpaces

open Fallible

section Announcements

/-- The page of an address is to be dropped if the directory is the active one. -/
def Drops (directory : Directory) (virtual : VirtAddr) (spaces : AddressSpaces) (event : Event) :
    Prop :=
  spaces.current = some directory ∧ event = .invalidatePage virtual

theorem signals_invalidateIn (directory : Directory) (virtual : VirtAddr) :
    Signals (liftM (invalidateIn directory virtual) : Fallible AddressSpaces MapError Unit)
      (Drops directory virtual) := by
  refine signals_lift fun before value after effects run event => ?_
  rw [invalidateIn, Operation.get_bind_apply] at run
  by_cases active : before.current = some directory
  · rw [if_pos (beq_iff_eq.mpr active)] at run
    cases run
    simp [Drops, active]
  · rw [if_neg (mt beq_iff_eq.mp active)] at run
    cases run
    simp [Drops, active]

theorem signals_mapIn (directory : Directory) (virtual : VirtAddr) (physical : PhysAddr)
    (flags : PageFlags) :
    Signals (mapIn directory virtual physical flags) (Drops directory virtual) := by
  refine signals_bind (silent_tableFor _ _ _) fun table => ?_
  refine signals_bind (silent_lift (silent_modifyMemory _)) fun _ => ?_
  exact signals_invalidateIn directory virtual

theorem signals_unmapIn (directory : Directory) (virtual : VirtAddr) :
    Signals (unmapIn directory virtual) (Drops directory virtual) := by
  refine signals_bind silent_get fun spaces => ?_
  split
  · refine signals_bind (silent_writableTable _ _) fun found => ?_
    split
    · refine signals_bind (silent_lift (silent_readEntry _ _)) fun entry => ?_
      refine signals_bind (silent_lift (silent_modifyMemory _)) fun _ => ?_
      exact signals_before (signals_invalidateIn directory virtual)
    · exact signals_throw
  · exact signals_throw

end Announcements

section Edits

variable {spaces before after : AddressSpaces} {outside : Nat → Prop} {held : List Frame}
  {owners : List Directory} {directory active : Directory} {virtual address : VirtAddr}
  {table : Frame} {entry : Entry} {Value : Type}

/-- A table of the kernel's is changed while another directory is active that names it too. -/
def Unnoticed (spaces : AddressSpaces) (directory : Directory) (address : VirtAddr) : Prop :=
  spaces.kernel = some directory ∧ ∃ active, spaces.current = some active ∧ active ≠ directory ∧
    Tenancy.Shares spaces active directory address.directoryIndex

/-- A request to map or to unmap the page of an address does not fault. Where it changes what the
active address space translates an address to, that address lies on the page, and the processor is
told to drop the page unless there is an excuse. -/
def Coherent (action : Fallible AddressSpaces MapError Value) (spaces : AddressSpaces)
    (virtual : VirtAddr) (excused : VirtAddr → Prop) : Prop :=
  ∃ reply after effects, action.result spaces = .ok ⟨reply, after, effects⟩ ∧
    ∀ address, after.translate address ≠ spaces.translate address →
      address.SamePage virtual ∧ (.cpu (.invalidatePage virtual) ∈ effects ∨ excused address)

theorem translate_of_current (isActive : spaces.current = some active) (address : VirtAddr) :
    spaces.translate address = spaces.translateIn active address := by
  rw [translate, isActive]
  rfl

namespace Edit

theorem shares {contents : Table} {index place : Fin Layout.pageEntries}
    (edit : Edit before after directory index table contents)
    (owned : before.Owned outside held owners) (isKernel : before.kernel = some directory)
    (activeMem : active ∈ owners) (differs : active ≠ directory)
    (shares : Tenancy.Shares before active directory place) :
    Tenancy.Shares after active directory place := by
  rcases shares with ⟨found, named, kernelNames⟩
  have mem := owned.kernel directory isKernel
  exact ⟨found, (edit.tableFrame_of_ne owned mem activeMem differs).trans named,
    edit.tableFrame_kernel isKernel kernelNames⟩

/-- Another directory that sees the change names the kernel's table, and sees what the kernel
sees. -/
theorem unnoticed (edit : Edit before after directory virtual.directoryIndex table
      ((before.pageTable directory virtual.directoryIndex).set virtual.tableIndex entry
        virtual.tableIndex.isLt))
    (owned : before.Owned outside held owners) (mem : directory ∈ owners)
    (activeMem : active ∈ owners) (differs : active ≠ directory)
    (isActive : before.current = some active)
    (changed : after.translateIn active address ≠ before.translateIn active address) :
    address.SamePage virtual ∧ before.Unnoticed directory address := by
  have named : before.tableFrame active address.directoryIndex = some table := by
    apply Classical.byContradiction
    intro notTable
    exact changed (translateIn_congr (edit.pageTable_of_ne owned mem activeMem differs notTable))
  rcases edit.kernel_of_named owned mem activeMem differs named with ⟨isKernel, kernelNames⟩
  have shares : Tenancy.Shares before active directory address.directoryIndex :=
    ⟨table, named, kernelNames⟩
  have still := edit.shares owned isKernel activeMem differs shares
  refine ⟨edit.samePage (owned.separate mem) ?_, isKernel, active, isActive, differs, shares⟩
  rw [← still.translateIn_eq, ← shares.translateIn_eq]
  exact changed

/-- The translations of the active address space that become stale are those that the processor is
told to drop, or a table of the kernel's is changed unnoticed. -/
theorem coherent {action : Fallible AddressSpaces MapError Value} {value : Value}
    (edit : Edit before after directory virtual.directoryIndex table
      ((before.pageTable directory virtual.directoryIndex).set virtual.tableIndex entry
        virtual.tableIndex.isLt))
    (owned : before.Owned outside held owners) (mem : directory ∈ owners)
    (present : ∀ active, before.current = some active → active ∈ owners)
    (run : action.Yields before (.ok value) after)
    (signals : action.Signals (Drops directory virtual)) :
    Coherent action before virtual (before.Unnoticed directory) := by
  rcases run with ⟨effects, run⟩
  refine ⟨.ok value, after, effects, run, fun address changed => ?_⟩
  cases isActive : before.current with
  | none =>
      have none_active : after.current = none := edit.current.trans isActive
      simp [translate, isActive, none_active] at changed
  | some active =>
      have stillActive : after.current = some active := edit.current.trans isActive
      rw [translate_of_current stillActive, translate_of_current isActive] at changed
      by_cases same : active = directory
      · subst same
        refine ⟨edit.samePage (owned.separate mem) changed, Or.inl ?_⟩
        exact (signals _ _ _ _ run _).mpr ⟨stillActive, rfl⟩
      · rcases edit.unnoticed owned mem (present active isActive) same isActive changed with
          ⟨page, unnoticed⟩
        exact ⟨page, Or.inr unnoticed⟩

end Edit

theorem coherent_of_refused {action : Fallible AddressSpaces MapError Value} {cause : MapError}
    {excused : VirtAddr → Prop} (refused : action.Yields spaces (.error cause) spaces) :
    Coherent action spaces virtual excused := by
  rcases refused with ⟨effects, run⟩
  exact ⟨.error cause, spaces, effects, run, fun address changed => absurd rfl changed⟩

theorem Owned.coherent_mapIn (owned : spaces.Owned outside held owners) (mem : directory ∈ owners)
    (present : ∀ active, spaces.current = some active → active ∈ owners) (virtual : VirtAddr)
    (physical : PhysAddr) (flags : PageFlags) :
    Coherent (AddressSpaces.mapIn directory virtual physical flags) spaces virtual
      (spaces.Unnoticed directory) := by
  rcases (owned.separate mem).mapIn virtual physical flags with
    ⟨refused, -⟩ | ⟨table, after, run, edit⟩
  · exact coherent_of_refused refused
  · exact edit.coherent owned mem present run (signals_mapIn directory virtual physical flags)

theorem Owned.coherent_unmapIn (owned : spaces.Owned outside held owners)
    (mem : directory ∈ owners) (present : ∀ active, spaces.current = some active → active ∈ owners)
    (virtual : VirtAddr) :
    Coherent (AddressSpaces.unmapIn directory virtual) spaces virtual
      (spaces.Unnoticed directory) := by
  rcases (owned.separate mem).unmapIn virtual with
    ⟨-, refused⟩ | ⟨physical, flags, -, ⟨refused, -⟩ | ⟨table, after, run, edit⟩⟩
  · exact coherent_of_refused refused
  · exact coherent_of_refused refused
  · exact edit.coherent owned mem present run (signals_unmapIn directory virtual)

/-- What is mapped in a table of the kernel's is seen in the other directories that name the table,
and their entries are left alone. -/
theorem Owned.mapIn_shared (owned : spaces.Owned outside held owners)
    (isKernel : spaces.kernel = some directory) (otherMem : other ∈ owners)
    (differs : other ≠ directory) (virtual : VirtAddr)
    (shares : Tenancy.Shares spaces other directory virtual.directoryIndex)
    (physical : PhysAddr) (flags : PageFlags) :
    ∃ after, (AddressSpaces.mapIn directory virtual physical flags).Yields spaces (.ok ()) after ∧
      after.Owned outside held owners ∧ after.kernel = some directory ∧
      after.current = spaces.current ∧
      Tenancy.Shares after other directory virtual.directoryIndex ∧
      after.memory.table other.frame = spaces.memory.table other.frame ∧
      after.translateIn other virtual =
        (let entry := Entry.ofFrame (.containing physical) flags
        entry.frame.map fun frame =>
          (⟨frame.start.word ||| virtual.pageOffset⟩, entry.flags)) := by
  have mem := owned.kernel directory isKernel
  rcases shares with ⟨found, otherNames, kernelNames⟩
  rcases (owned.separate mem).mapIn virtual physical flags with
    ⟨-, missing, -⟩ | ⟨table, after, run, edit⟩
  · rw [privateTable_eq_some.mpr ⟨kernelNames, isShared_kernel isKernel⟩] at missing
    cases missing
  · have still := edit.shares owned isKernel otherMem differs ⟨found, otherNames, kernelNames⟩
    refine ⟨after, run, edit.owned owned mem, edit.kernel.trans isKernel, edit.current, still,
      edit.directory_of_ne owned mem otherMem differs, ?_⟩
    rw [still.translateIn_eq, translateIn_eq, edit.pageTable_edited]
    simp

end Edits

end AddressSpaces

namespace Tenancy

open AddressSpaces

section Activity

variable {tenancy after final : Tenancy} {directory : Directory}

/-- The active address space, if there is one, is in use. -/
def Active (tenancy : Tenancy) : Prop :=
  ∀ directory, tenancy.spaces.current = some directory → directory ∈ tenancy.live

theorem active_fresh (frames : FrameBitmap) (memory : Memory) : (fresh frames memory).Active := by
  intro directory isActive
  cases isActive

theorem Active.onSpaces {Value : Type} {action : Operation AddressSpaces Value} {value : Value}
    (active : tenancy.Active) (passive : action.Passive current)
    (step : (onSpaces action).Yields tenancy value after) : after.Active := by
  rcases yields_onSpaces.mp step with ⟨spaces, ⟨effects, run⟩, rfl⟩
  intro directory isActive
  have same : spaces.current = tenancy.spaces.current := (passive _ _ _ _ run).1
  exact active directory (same.symm.trans isActive)

theorem Active.discard {Value : Type} {action : Operation AddressSpaces Value}
    (active : tenancy.Active) (passive : action.Passive current)
    (step : (discard (Tenancy.onSpaces action)).Yields tenancy () after) : after.Active := by
  rcases Operation.yields_map.mp step with ⟨value, run, -⟩
  exact active.onSpaces passive run

theorem Active.create {action : Fallible AddressSpaces MapError Directory}
    (active : tenancy.Active)
    (same : ∀ reply spaces, action.Yields tenancy.spaces reply spaces →
      spaces.current = tenancy.spaces.current)
    (step : (create action).Yields tenancy () after) : after.Active := by
  rcases Operation.yields_bind.mp step with ⟨reply, between, begun, ended⟩
  rcases yields_onSpaces.mp begun with ⟨spaces, run, rfl⟩
  have still : ∀ directory, spaces.current = some directory → directory ∈ tenancy.live :=
    fun directory isActive => active directory ((same reply spaces run).symm.trans isActive)
  cases reply with
  | error cause =>
      rcases Operation.yields_pure.mp ended with ⟨-, rfl⟩
      exact still
  | ok made =>
      rw [Operation.yields_modify.mp ended]
      exact fun directory isActive => List.mem_cons_of_mem _ (still directory isActive)

theorem Call.act_active (call : Call) (isolated : tenancy.Isolated) (active : tenancy.Active)
    (permitted : tenancy.Permitted call) (step : call.act.Yields tenancy () after) :
    after.Active := by
  rcases isolated with ⟨outside, owned⟩
  cases call with
  | createDirectory =>
      refine active.create (fun reply spaces run => ?_) step
      rcases owned.createDirectory with ⟨refused, -⟩ | ⟨directory, made, done, created, -⟩
      · rw [(run.unique refused).2]
      · rw [(run.unique done).2]
        exact created.current
  | initKernelDirectory past =>
      refine active.create (fun reply spaces run => ?_) step
      rcases owned.initKernelDirectory past with
        ⟨cause, made, lost, refused, -, -, same, -⟩ | ⟨directory, made, done, building⟩
      · rw [(run.unique refused).2]
        exact same
      · rw [(run.unique done).2]
        exact building.current
  | createProcessDirectory =>
      exact active.create (fun reply spaces ⟨_, run⟩ =>
        (passive_createProcessDirectory _ _ _ _ run).1) step
  | mapIn directory virtual physical flags =>
      exact active.discard (passive_mapIn directory virtual physical flags) step
  | unmapIn directory virtual => exact active.discard (passive_unmapIn directory virtual) step
  | switchTo directory =>
      rcases yields_onSpaces.mp step with ⟨spaces, run, rfl⟩
      have switched : spaces = { tenancy.spaces with current := some directory } := by
        simpa [AddressSpaces.switchTo] using run
      rw [switched]
      rintro other isActive
      exact Option.some.inj isActive ▸ permitted
  | destroyDirectory directory =>
      rcases permitted with ⟨mem, notKernel⟩
      rcases (owned.perm (List.perm_cons_erase mem)).destroyDirectory notKernel with
        ⟨spaces, run, ownedAfter, -, kernel, -, current⟩
      rcases step.unique (yields_destroy run) with ⟨-, rfl⟩
      intro other isActive
      rw [current] at isActive
      split at isActive
      · exact ownedAfter.kernel other (kernel.trans isActive)
      · rename_i inactive
        have differs : other ≠ directory := fun same => inactive (same ▸ isActive)
        exact (List.mem_erase_of_ne differs).mpr (active other isActive)
  | takeFrame => exact active.discard (passive_onFrames FrameBitmap.silent_allocate) step
  | freeFrame frame => exact active.discard (passive_onFrames (FrameBitmap.silent_free frame)) step
  | writeFrame frame contents => exact active.onSpaces (passive_modifyMemory _) step

theorem Run.active {calls : List Call} (run : Run tenancy calls final)
    (isolated : tenancy.Isolated) (active : tenancy.Active) : final.Active := by
  induction run with
  | nil => exact active
  | cons permitted step onward ih =>
      rename_i start between final call rest
      rcases call.act_isolated isolated permitted with ⟨after, begun, isolatedAfter, -⟩
      rcases step.unique begun with ⟨-, rfl⟩
      exact ih isolatedAfter (call.act_active isolated active permitted step)

end Activity

/-- Whatever permitted calls were made: where mapping or unmapping a page in a directory that is in
use changes a translation of the active address space, the processor is told to drop the page. The
exception is a table of the kernel's that the active directory names without being the kernel's. -/
theorem coherence {totalBytes : Nat} {reservedEnd : UInt32} {reply : Except FrameError Unit}
    {frames : FrameBitmap} {memory : Memory} {calls : List Call} {tenancy : Tenancy}
    (begun : (FrameBitmap.reset totalBytes reservedEnd).Yields .empty reply frames)
    (run : Run (fresh frames memory) calls tenancy) :
    ∀ directory ∈ tenancy.live,
      (∀ virtual physical flags,
        Coherent (AddressSpaces.mapIn directory virtual physical flags) tenancy.spaces virtual
          (tenancy.spaces.Unnoticed directory)) ∧
      ∀ virtual,
        Coherent (AddressSpaces.unmapIn directory virtual) tenancy.spaces virtual
          (tenancy.spaces.Unnoticed directory) := by
  have isolated := isolated_of_reset memory begun
  rcases run.isolated isolated with ⟨outside, owned⟩
  have present := run.active isolated (active_fresh frames memory)
  intro directory live
  exact ⟨owned.coherent_mapIn live present, owned.coherent_unmapIn live present⟩

section Copies

/-- A kernel that maps 4 MiB, and a process directory that shares its table and is active. -/
theorem run_of_copy :
    ∃ kernel process tenancy,
      Run (fresh (.fresh 3072 2048) .zero)
        [.initKernelDirectory 0x400000, .createProcessDirectory, .switchTo process] tenancy ∧
      tenancy.spaces.kernel = some kernel ∧ process ∈ tenancy.live ∧ process ≠ kernel ∧
      tenancy.spaces.current = some process ∧ Shares tenancy.spaces process kernel 0 ∧
      tenancy.spaces.frames.freeFrames ≠ 0 := by
  have small : 3072 ≤ Layout.maxFrames := by decide
  rcases isolated_fresh (FrameBitmap.wellFormed_fresh 2048 small) .zero with ⟨outside, owned⟩
  rcases owned.initKernelDirectory 0x400000 with
    ⟨cause, spaces, lost, -, -, -, -, -, short⟩ | ⟨kernel, spaces, made, building⟩
  · exact absurd short (by decide)
  · have ownedKernel := building.owned.setKernel List.mem_cons_self building.kernel
    have hasTable : spaces.privateTable kernel 0 ≠ none := by
      rw [ne_eq, building.tables]
      decide
    rcases Option.ne_none_iff_exists'.mp hasTable with ⟨table, own⟩
    have kernelNames := (privateTable_eq_some.mp own).1
    rcases ownedKernel.createProcessDirectory with
      ⟨-, full⟩ | ⟨process, after, copied, created, ownedAfter⟩
    · have none_free : spaces.frames.freeFrames = 0 :=
        building.owned.wellFormed.freeFrames_eq_zero full
      have free := building.free
      rw [none_free] at free
      exact absurd free (by decide)
    · have kept := (created.untouched ownedKernel).tableFrame List.mem_cons_self 0
      have differs : process ≠ kernel := by
        rintro rfl
        exact (List.nodup_cons.mp ownedAfter.nodup_owners).1 List.mem_cons_self
      have named : after.tableFrame process 0 = some table := by
        rw [tableFrame, Memory.entry, created.holds]
        exact kernelNames
      refine ⟨kernel, process,
        { spaces := { after with current := some process }, live := [process, kernel] },
        .cons (Or.inl rfl) (yields_create_ok made) (.cons trivial (yields_create_ok copied)
          (.cons List.mem_cons_self ?_ .nil)),
        created.kernel, List.mem_cons_self, differs, rfl,
        ⟨table, named, kept.trans kernelNames⟩, ?_⟩
      · refine yields_onSpaces.mpr ⟨{ after with current := some process }, ?_, rfl⟩
        simp [AddressSpaces.switchTo]
      · have free : spaces.frames.freeFrames + 1 + 1 = 1024 := building.free
        cases created.allocation with
        | taken tracked clear least bits fewer total reserved =>
            have fewer : after.frames.freeFrames + 1 = spaces.frames.freeFrames := fewer
            change after.frames.freeFrames ≠ 0
            omega

theorem yields_reset_12MiB :
    (FrameBitmap.reset 0xC00000 0x800000).Yields .empty (.ok ()) (.fresh 3072 2048) := by
  rcases FrameBitmap.reset_cases .empty 0xC00000 0x800000 with ⟨-, done⟩ | ⟨small, -⟩
  · exact done
  · exact absurd small (by decide)

/-- What a process that has just been made active maps is announced. -/
theorem coherence_of_copy :
    ∃ frames process tenancy,
      (FrameBitmap.reset 0xC00000 0x800000).Yields .empty (.ok ()) frames ∧
      Run (fresh frames .zero)
        [.initKernelDirectory 0x400000, .createProcessDirectory, .switchTo process] tenancy ∧
      process ∈ tenancy.live ∧
      ∀ virtual physical flags,
        Coherent (AddressSpaces.mapIn process virtual physical flags) tenancy.spaces virtual
          (tenancy.spaces.Unnoticed process) := by
  rcases run_of_copy with ⟨kernel, process, tenancy, run, -, live, -⟩
  exact ⟨_, process, tenancy, yields_reset_12MiB, run, live,
    (coherence yields_reset_12MiB run process live).1⟩

/-- While a process is active, page 0 is mapped to one frame in the kernel's directory and then to
another. The process translates address 0 to the new frame from then on, but the processor is not
told to drop the page. -/
theorem stale_after_remapping :
    ∃ kernel process tenancy,
      (FrameBitmap.reset 0xC00000 0x800000).Yields .empty (.ok ()) (.fresh 3072 2048) ∧
      Run (fresh (.fresh 3072 2048) .zero)
        [.initKernelDirectory 0x400000, .createProcessDirectory, .switchTo process,
          .mapIn kernel ⟨0⟩ ⟨0x5000⟩ .present] tenancy ∧
      kernel ∈ tenancy.live ∧
      ¬Coherent (AddressSpaces.mapIn kernel ⟨0⟩ ⟨0x6000⟩ .present) tenancy.spaces ⟨0⟩
        fun _ => False := by
  rcases run_of_copy with
    ⟨kernel, process, begun, first, isKernel, mem, differs, isActive, shares, -⟩
  rcases first.isolated (isolated_of_reset .zero yields_reset_12MiB) with ⟨outside, owned⟩
  have live := owned.kernel kernel isKernel
  rcases owned.mapIn_shared isKernel mem differs ⟨0⟩ shares ⟨0x5000⟩ .present with
    ⟨spaces, mapped, ownedMapped, isKernel, stays, shares, -, old⟩
  have active := stays.trans isActive
  have step : (Call.mapIn kernel ⟨0⟩ ⟨0x5000⟩ .present).act.Yields begun ()
      { spaces, live := begun.live } :=
    yields_discard_onSpaces mapped
  refine ⟨kernel, process, _, yields_reset_12MiB, first.append (.cons live step .nil), live, ?_⟩
  rcases ownedMapped.mapIn_shared isKernel mem differs ⟨0⟩ shares ⟨0x6000⟩ .present with
    ⟨after, remapped, -, -, still, -, -, new⟩
  have stillActive := still.trans active
  rintro ⟨reply, final, effects, run, coherent⟩
  rcases remapped.unique ⟨effects, run⟩ with ⟨rfl, rfl⟩
  have changed : after.translate ⟨0⟩ ≠ spaces.translate ⟨0⟩ := by
    rw [translate_of_current stillActive, translate_of_current active, new, old]
    decide
  rcases coherent ⟨0⟩ changed with ⟨-, told | excused⟩
  · have drops := (signals_mapIn _ _ _ _ _ _ _ _ run _).mp told
    rw [Drops, stillActive, Option.some.injEq] at drops
    exact differs drops.1
  · exact excused

end Copies

end Tenancy

end KernelCore
