import KernelCore.Proofs.Paging.Coherence
import KernelCore.Proofs.Paging.Shelter

/-!
# Mapping and unmapping are exact

After any history in which directories are left to themselves, mapping a page or removing its
mapping changes the translation of that page as told, and nothing else in the directory, whichever
table is written. Of the history it is asked that directories are used while they are in use, that
nobody else frees or writes their frames, and that no directory is destroyed that has a table for
its own which another one names. The kernel's directory is such a one while processes share its
tables; if it is never destroyed, and made at most once, the last condition holds by itself.
-/

namespace KernelCore

namespace AddressSpaces

variable {spaces : AddressSpaces} {directory : Directory} {place : Fin Layout.pageEntries}
  {table : Frame}

/-- Mapping a page fails only for want of a frame, and then changes nothing. Otherwise the page is
translated to its frame, with the flags it is mapped with, or not at all if it is not present, and
all other addresses are translated as before. -/
def MapsExactly (spaces : AddressSpaces) (directory : Directory) (virtual : VirtAddr)
    (physical : PhysAddr) (flags : PageFlags) : Prop :=
  ∃ reply after, (mapIn directory virtual physical flags).Yields spaces reply after ∧
    (∀ cause, reply = .error cause → cause = .frameAllocationFailed ∧
      (∀ number, spaces.frames.isSet number = true) ∧ after = spaces) ∧
    (reply = .ok () → Retranslates spaces after directory virtual fun address =>
      if flags.contains .present then
        some (⟨(Frame.containing physical).start.word + address.pageOffset⟩, flags)
      else none)

/-- Removing a mapping fails for an address that is not translated, and otherwise only for want of a
frame; then nothing changes. If it does not fail, the answer is the frame that the address was
translated to, the page is not translated any more, all other addresses are translated as before,
and no frame is given back. -/
def UnmapsExactly (spaces : AddressSpaces) (directory : Directory) (virtual : VirtAddr) : Prop :=
  ∃ reply after, (unmapIn directory virtual).Yields spaces reply after ∧
    (reply = .error .notMapped ↔ spaces.translateIn directory virtual = none) ∧
    (∀ cause, reply = .error cause → (cause = .notMapped ∨ cause = .frameAllocationFailed ∧
      ∀ number, spaces.frames.isSet number = true) ∧ after = spaces) ∧
    ∀ frame, reply = .ok frame →
      (∃ physical flags, spaces.translateIn directory virtual = some (physical, flags) ∧
        frame = .containing physical) ∧
      Retranslates spaces after directory virtual (fun _ => none) ∧
      ∀ number, spaces.frames.isSet number = true → after.frames.isSet number = true

namespace Separate

theorem mapsExactly (separate : Separate spaces directory) (virtual : VirtAddr)
    (physical : PhysAddr) {flags : PageFlags} (declared : flags.truncate = flags) :
    MapsExactly spaces directory virtual physical flags := by
  rcases separate.mapIn virtual physical flags with ⟨refused, -, full⟩ | ⟨table, after, run, -⟩
  · refine ⟨_, spaces, refused, ?_, nofun⟩
    rintro cause ⟨⟩
    exact ⟨rfl, full, rfl⟩
  · exact ⟨_, after, run, nofun, fun _ =>
      separate.mapIn_retranslates virtual physical declared run⟩

theorem unmapsExactly (separate : Separate spaces directory) (virtual : VirtAddr) :
    UnmapsExactly spaces directory virtual := by
  rcases separate.unmapIn virtual with
    ⟨unmapped, refused⟩ | ⟨physical, flags, mapped, ⟨refused, full⟩ | ⟨table, after, run, -⟩⟩
  · refine ⟨_, spaces, refused, iff_of_true rfl unmapped, ?_, nofun⟩
    rintro cause ⟨⟩
    exact ⟨Or.inl rfl, rfl⟩
  · refine ⟨_, spaces, refused, iff_of_false nofun (by simp [mapped]), ?_, nofun⟩
    rintro cause ⟨⟩
    exact ⟨Or.inr ⟨rfl, full⟩, rfl⟩
  · refine ⟨_, after, run, iff_of_false nofun (by simp [mapped]), nofun, ?_⟩
    rintro frame ⟨⟩
    exact separate.unmapIn_retranslates virtual run

end Separate

/-- A directory that names a table in a frame that is free gets the frame once more, for another
table. -/
theorem mapIn_over_table {virtual : VirtAddr} (wellFormed : spaces.frames.WellFormed)
    (named : spaces.tableFrame directory place = some table)
    (free : spaces.frames.isSet table.number.val = false)
    (below : ∀ number < table.number.val, spaces.frames.isSet number = true)
    (apart : table ≠ directory.frame)
    (missing : spaces.tableFrame directory virtual.directoryIndex = none) (physical : PhysAddr)
    (flags : PageFlags) :
    ∃ after, (mapIn directory virtual physical flags).Yields spaces (.ok ()) after ∧
      after.pageTable directory place =
        Table.zero.set virtual.tableIndex (.ofFrame (.containing physical) flags)
          virtual.tableIndex.isLt := by
  rcases takeFrame_cases wellFormed with ⟨-, full⟩ | ⟨frame, frames, taken, allocation, -⟩
  · rw [full] at free
    cases free
  rcases allocation.eq_of_least free below with rfl
  have elsewhere : virtual.directoryIndex ≠ place := by
    rintro rfl
    rw [missing] at named
    cases named
  have unnamed : (spaces.memory.entry directory.frame virtual.directoryIndex).frame = none :=
    missing
  let permissions := PageFlags.present.union .writable
  let entry := Entry.ofFrame frame
    (if flags.contains .user then permissions.union .user else permissions)
  let memory := (((spaces.memory.setTable frame .zero).setEntry directory.frame
    virtual.directoryIndex entry).setEntry frame virtual.tableIndex
      (.ofFrame (.containing physical) flags))
  refine ⟨{ spaces with frames, memory }, ?_, ?_⟩
  · simp [mapIn, tableFor, writableTable, and_assoc, unnamed, taken.iff, memory, entry, permissions]
  · have names : (spaces.memory.entry directory.frame place).frame = some frame := named
    simp [pageTable, tableFrame, memory, Memory.entry_setEntry, Memory.entry_setTable,
      Memory.table_setEntry, Memory.table_setTable, apart, apart.symm, elsewhere, names]

end AddressSpaces

open AddressSpaces

namespace Tenancy

/-- Directories are used while they are in use, the kernel's also when a process's is made, and
their frames and their tables' are neither freed nor written by others. -/
def Proper (tenancy : Tenancy) : Call → Prop
  | .createDirectory => True
  | .initKernelDirectory _ => True
  | .createProcessDirectory =>
      ∀ kernel, tenancy.spaces.kernel = some kernel → kernel ∈ tenancy.live
  | .mapIn directory _ _ _ => directory ∈ tenancy.live
  | .unmapIn directory _ => directory ∈ tenancy.live
  | .switchTo directory => directory ∈ tenancy.live
  | .destroyDirectory directory => directory ∈ tenancy.live
  | .takeFrame => True
  | .freeFrame frame => ¬tenancy.Structural frame
  | .writeFrame frame _ => ¬tenancy.Structural frame

/-- No directory is destroyed together with a table that another one in use names. -/
def Sparing (tenancy : Tenancy) : Call → Prop
  | .destroyDirectory directory => ∀ other ∈ tenancy.live, other ≠ directory → ∀ index table,
      tenancy.spaces.tableFrame other index = some table →
        table ∉ tenancy.spaces.privateFrames directory
  | _ => True

/-- Whether directories are left to themselves. -/
def Considerate (tenancy : Tenancy) (call : Call) : Prop :=
  tenancy.Proper call ∧ tenancy.Sparing call

/-- Where a sequence of calls leads, each of which keeps to a rule. -/
inductive Follows (rule : Tenancy → Call → Prop) : Tenancy → List Call → Tenancy → Prop where
  | nil {tenancy : Tenancy} : Follows rule tenancy [] tenancy
  | cons {start between final : Tenancy} {call : Call} {rest : List Call}
      (keeps : rule start call) (step : call.act.Yields start () between)
      (onward : Follows rule between rest final) : Follows rule start (call :: rest) final

section Histories

variable {tenancy after final : Tenancy} {directory : Directory} {calls : List Call}

theorem sheltered_fresh {frames : FrameBitmap} (wellFormed : frames.WellFormed) (memory : Memory) :
    (fresh frames memory).spaces.Sheltered [] :=
  ⟨wellFormed, List.nodup_nil, nofun, nofun⟩

/-- Whether a directory is made or not, all in use can be edited. -/
theorem create_sheltered {action : Fallible AddressSpaces MapError Directory}
    (outcome : (∃ cause spaces, action.Yields tenancy.spaces (.error cause) spaces ∧
        spaces.Sheltered tenancy.live) ∨
      ∃ directory spaces, action.Yields tenancy.spaces (.ok directory) spaces ∧
        spaces.Sheltered (directory :: tenancy.live))
    (step : (create action).Yields tenancy () after) : after.spaces.Sheltered after.live := by
  rcases outcome with ⟨cause, spaces, run, sheltered⟩ | ⟨directory, spaces, run, sheltered⟩
  · have begun : (onSpaces action.result).Yields tenancy (.error cause)
        { spaces, live := tenancy.live } := yields_onSpaces.mpr ⟨spaces, run, rfl⟩
    simp [create, begun.iff] at step
    rw [step]
    exact sheltered
  · rw [(step.unique (yields_create_ok run)).2]
    exact sheltered

theorem edits_sheltered {Value : Type} {action : Fallible AddressSpaces MapError Value}
    (sheltered : tenancy.spaces.Sheltered tenancy.live) (mem : directory ∈ tenancy.live)
    (edits : Edits action tenancy.spaces directory)
    (step : (discard (onSpaces action.result)).Yields tenancy () after) :
    after.spaces.Sheltered after.live := by
  rcases edits with ⟨cause, run⟩ | ⟨value, spaces, index, table, contents, run, edit⟩
  · rw [(step.unique (yields_discard_onSpaces run)).2]
    exact sheltered
  · rw [(step.unique (yields_discard_onSpaces run)).2]
    exact sheltered.edit mem edit

/-- What a directory takes with it is nobody else's. -/
theorem destroyDirectory_sheltered (sheltered : tenancy.spaces.Sheltered tenancy.live)
    (mem : directory ∈ tenancy.live) (sparing : tenancy.Sparing (.destroyDirectory directory))
    (step : (Call.destroyDirectory directory).act.Yields tenancy () after) :
    after.spaces.Sheltered after.live := by
  rcases sheltered.wellFormed.returned (tenancy.spaces.privateFrames directory) with
    ⟨replies, frames, calls, returned⟩
  rcases step.unique (yields_destroy (yields_destroyDirectory calls)) with ⟨-, rfl⟩
  have spared : ∀ frame : Frame, frame ∉ tenancy.spaces.privateFrames directory →
      tenancy.spaces.frames.isSet frame.number.val = true →
      frames.isSet frame.number.val = true :=
    fun frame kept used => (returned.spared kept).trans used
  have stays : ∀ other ∈ tenancy.live.erase directory,
      other ∈ tenancy.live ∧ other ≠ directory := by
    intro other otherMem
    rcases sheltered.distinct.mem_erase_iff.mp otherMem with ⟨differs, live⟩
    exact ⟨live, differs⟩
  refine (sheltered.restrict List.erase_sublist).withFrames returned.wellFormed
    (fun _ _ => rfl) ?_ ?_
  · intro other otherMem
    rcases stays other otherMem with ⟨live, differs⟩
    refine spared _ ?_ (sheltered.separate other live).used
    intro gone
    rcases mem_privateFrames.mp gone with ⟨index, named, -⟩ | same
    · exact sheltered.apart directory mem other live index named
    · exact Directory.frame_ne differs same
  · intro other otherMem index table named
    rcases stays other otherMem with ⟨live, differs⟩
    exact spared table (sparing other live differs index table named)
      ((sheltered.separate other live).tablesUsed index table named)

/-- A considerate call keeps all directories in use such that they can be edited. -/
theorem Call.act_sheltered (call : Call) (sheltered : tenancy.spaces.Sheltered tenancy.live)
    (considerate : tenancy.Considerate call) (step : call.act.Yields tenancy () after) :
    after.spaces.Sheltered after.live := by
  rcases considerate with ⟨proper, sparing⟩
  cases call with
  | createDirectory =>
      refine create_sheltered ?_ step
      rcases createDirectory_cases sheltered.wellFormed with
        ⟨refused, -⟩ | ⟨directory, spaces, run, created⟩
      · exact Or.inl ⟨_, _, refused, sheltered⟩
      · exact Or.inr ⟨directory, spaces, run, sheltered.create created (Or.inl rfl)⟩
  | initKernelDirectory past =>
      refine create_sheltered ?_ step
      rcases sheltered.initKernelDirectory past with
        ⟨spaces, refused, kept⟩ | ⟨directory, spaces, run, kept, -⟩
      · exact Or.inl ⟨_, spaces, refused, kept⟩
      · exact Or.inr ⟨directory, spaces, run, kept⟩
  | createProcessDirectory =>
      refine create_sheltered ?_ step
      have used : ∀ kernel, tenancy.spaces.kernel = some kernel →
          tenancy.spaces.frames.isSet kernel.frame.number.val = true :=
        fun kernel isKernel => (sheltered.separate kernel (proper kernel isKernel)).used
      rcases createProcessDirectory_cases sheltered.wellFormed used with
        ⟨refused, -⟩ | ⟨directory, spaces, run, created⟩
      · exact Or.inl ⟨_, _, refused, sheltered⟩
      · refine Or.inr ⟨directory, spaces, run, sheltered.create created ?_⟩
        rw [template]
        cases isKernel : tenancy.spaces.kernel with
        | none => exact Or.inl rfl
        | some kernel => exact Or.inr ⟨kernel, proper kernel isKernel, rfl⟩
  | mapIn directory virtual physical flags =>
      exact edits_sheltered sheltered proper
        ((sheltered.separate directory proper).edits_mapIn virtual physical flags) step
  | unmapIn directory virtual =>
      exact edits_sheltered sheltered proper
        ((sheltered.separate directory proper).edits_unmapIn virtual) step
  | switchTo directory =>
      rcases yields_onSpaces.mp step with ⟨spaces, run, rfl⟩
      simp [AddressSpaces.switchTo] at run
      subst run
      exact sheltered.of_same rfl rfl
  | destroyDirectory directory => exact destroyDirectory_sheltered sheltered proper sparing step
  | takeFrame =>
      rcases sheltered.wellFormed.allocate with ⟨reply, frames, run, allocation, wellFormed⟩
      have taken : (onFrames FrameBitmap.allocate).Yields tenancy.spaces reply
          { tenancy.spaces with frames } := yields_onFrames.mpr ⟨frames, run, rfl⟩
      rw [(step.unique (yields_discard_onSpaces taken)).2]
      exact sheltered.take wellFormed (fun _ _ => rfl) fun _ => allocation.stays_used
  | freeFrame frame =>
      rcases sheltered.wellFormed.free frame with ⟨reply, frames, run, release, wellFormed⟩
      have freed : (onFrames (FrameBitmap.free frame).result).Yields tenancy.spaces reply
          { tenancy.spaces with frames } := yields_onFrames.mpr ⟨frames, run, rfl⟩
      rw [(step.unique (yields_discard_onSpaces freed)).2]
      have spared : ∀ other : Frame, tenancy.Structural other →
          tenancy.spaces.frames.isSet other.number.val = true →
          frames.isSet other.number.val = true := by
        intro other structural used
        rw [release.others, used]
        intro same
        exact proper (Frame.number_inj.mp same ▸ structural)
      refine sheltered.withFrames wellFormed (fun _ _ => rfl) ?_ ?_
      · intro other live
        exact spared _ ⟨other, live, Or.inl rfl⟩ (sheltered.separate other live).used
      · intro other live index table named
        exact spared table ⟨other, live, Or.inr ⟨index, named⟩⟩
          ((sheltered.separate other live).tablesUsed index table named)
  | writeFrame frame contents =>
      rcases yields_onSpaces.mp step with ⟨spaces, run, rfl⟩
      rw [yields_modifyMemory] at run
      subst run
      refine sheltered.take sheltered.wellFormed ?_ fun _ used => used
      intro other live
      apply Memory.table_setTable_ne
      rintro rfl
      exact proper ⟨other, live, Or.inl rfl⟩

theorem Follows.append {rule : Tenancy → Call → Prop} {more : List Call}
    (first : Follows rule tenancy calls after) (second : Follows rule after more final) :
    Follows rule tenancy (calls ++ more) final := by
  induction first with
  | nil => exact second
  | cons keeps step onward ih => exact .cons keeps step (ih second)

theorem Follows.sheltered (follows : Follows Considerate tenancy calls final)
    (sheltered : tenancy.spaces.Sheltered tenancy.live) :
    final.spaces.Sheltered final.live := by
  induction follows with
  | nil => exact sheltered
  | cons keeps step onward ih =>
      rename_i start between final call rest
      exact ih (call.act_sheltered sheltered keeps step)

/-- Where the kernel's directory is made once and never destroyed, every table that a directory has
for its own is in no other. -/
theorem Permitted.considerate {call : Call} (isolated : tenancy.Isolated)
    (permitted : tenancy.Permitted call) : tenancy.Considerate call := by
  rcases isolated with ⟨outside, owned⟩
  cases call with
  | createDirectory => exact ⟨trivial, trivial⟩
  | initKernelDirectory past => exact ⟨trivial, trivial⟩
  | createProcessDirectory => exact ⟨owned.kernel, trivial⟩
  | mapIn directory virtual physical flags => exact ⟨permitted, trivial⟩
  | unmapIn directory virtual => exact ⟨permitted, trivial⟩
  | switchTo directory => exact ⟨permitted, trivial⟩
  | destroyDirectory directory =>
      rcases permitted with ⟨live, notKernel⟩
      refine ⟨live, ?_⟩
      intro other otherLive differs index table named gone
      rcases owned.table_owner otherLive named with
        ⟨owner, ownerLive, -, -, ownerHas, isOther | isKernel⟩
      · subst isOther
        exact owned.frame_notMem ownerLive live differs ownerHas gone
      · have notOwner : owner ≠ directory := fun same => notKernel (same ▸ isKernel)
        exact owned.frame_notMem ownerLive live notOwner ownerHas gone
  | takeFrame => exact ⟨trivial, trivial⟩
  | freeFrame frame => exact ⟨permitted, trivial⟩
  | writeFrame frame contents => exact ⟨permitted, trivial⟩

theorem Run.considerate (run : Run tenancy calls final) (isolated : tenancy.Isolated) :
    Follows Considerate tenancy calls final := by
  induction run with
  | nil => exact .nil
  | cons permitted step onward ih =>
      rename_i start between final call rest
      rcases call.act_isolated isolated permitted with ⟨after, begun, isolatedAfter, -⟩
      rcases step.unique begun with ⟨-, rfl⟩
      exact .cons (permitted.considerate isolated) step (ih isolatedAfter)

end Histories

/-- Whatever considerate calls were made: mapping a page in a directory that is in use, and removing
a mapping, changes the translations of that directory as told, and no others of the directory. -/
theorem updates_exact {totalBytes : Nat} {reservedEnd : UInt32} {reply : Except FrameError Unit}
    {frames : FrameBitmap} {memory : Memory} {calls : List Call} {tenancy : Tenancy}
    (begun : (FrameBitmap.reset totalBytes reservedEnd).Yields .empty reply frames)
    (follows : Follows Considerate (fresh frames memory) calls tenancy) :
    ∀ directory ∈ tenancy.live,
      (∀ virtual physical flags, flags.truncate = flags →
        MapsExactly tenancy.spaces directory virtual physical flags) ∧
      ∀ virtual, UnmapsExactly tenancy.spaces directory virtual := by
  have sheltered := follows.sheltered (sheltered_fresh (wellFormed_of_reset begun) memory)
  intro directory live
  have separate := sheltered.separate directory live
  exact ⟨fun virtual physical flags declared => separate.mapsExactly virtual physical declared,
    separate.unmapsExactly⟩

/-- A process maps a page in a copy of the table that it shared with the kernel. -/
theorem updates_exact_in_copy :
    ∃ process tenancy after,
      (FrameBitmap.reset 0xC00000 0x800000).Yields .empty (.ok ()) (.fresh 3072 2048) ∧
      Follows Considerate (fresh (.fresh 3072 2048) .zero)
        [.initKernelDirectory 0x400000, .createProcessDirectory, .switchTo process] tenancy ∧
      process ∈ tenancy.live ∧
      (AddressSpaces.mapIn process ⟨0x1234⟩ ⟨0x5678⟩ .present).Yields tenancy.spaces (.ok ())
        after ∧
      after.translateIn process ⟨0x1004⟩ = some (⟨0x5004⟩, .present) ∧
      after.translateIn process ⟨0x2000⟩ = tenancy.spaces.translateIn process ⟨0x2000⟩ := by
  rcases run_of_copy with ⟨kernel, process, tenancy, run, -, live, -, -, -, some_free⟩
  have isolated := isolated_of_reset .zero yields_reset_12MiB
  have follows := run.considerate isolated
  rcases (updates_exact yields_reset_12MiB follows process live).1 ⟨0x1234⟩ ⟨0x5678⟩ .present rfl
    with ⟨reply, after, mapped, refused, done⟩
  cases reply with
  | error cause =>
      rcases run.isolated isolated with ⟨outside, owned⟩
      exact absurd (owned.wellFormed.freeFrames_eq_zero (refused cause rfl).2.1) some_free
  | ok =>
      have retranslates := done rfl
      exact ⟨process, tenancy, after, yields_reset_12MiB, follows, live, mapped,
        retranslates.page ⟨0x1004⟩ ⟨rfl, rfl⟩,
        retranslates.others ⟨0x2000⟩ fun same => absurd same.2 (by decide)⟩

section Destroyed

variable {start : FrameBitmap} {memory : Memory}

/-- The kernel's directory is the only one and has no table, and no frame up to its own is free. -/
structure Rooted (tenancy : Tenancy) (kernel : Directory) : Prop where
  live : tenancy.live = [kernel]
  isKernel : tenancy.spaces.kernel = some kernel
  sheltered : tenancy.spaces.Sheltered [kernel]
  unnamed : ∀ index, tenancy.spaces.tableFrame kernel index = none
  filled : ∀ number ≤ kernel.frame.number.val, tenancy.spaces.frames.isSet number = true

/-- The kernel's directory has one table: at index 0, with page 0, in a frame behind its own, with
no free frame before it. -/
structure Paged (tenancy : Tenancy) (directories : List Directory) (kernel : Directory)
    (table : Frame) : Prop where
  live : tenancy.live = directories
  isKernel : tenancy.spaces.kernel = some kernel
  sheltered : tenancy.spaces.Sheltered directories
  only : ∀ index found,
    tenancy.spaces.tableFrame kernel index = some found ↔ index = 0 ∧ found = table
  holds : tenancy.spaces.memory.table table = Table.zero.set 0 (.ofFrame (.ofNumber 5) .present)
  tracked : table.number.val < tenancy.spaces.frames.totalFrames
  order : kernel.frame.number.val < table.number.val
  below : ∀ number < table.number.val, tenancy.spaces.frames.isSet number = true

/-- A process's directory names what the kernel's does. -/
structure Sharing (tenancy : Tenancy) (kernel process : Directory) (table : Frame) : Prop
    extends Paged tenancy [process, kernel] kernel table where
  copies : ∀ index, tenancy.spaces.tableFrame process index = tenancy.spaces.tableFrame kernel index

/-- The kernel's directory has been destroyed, though a process's names its table: the frames of
both are free, and no other before the table's is. -/
structure Orphaned (before after : Tenancy) (kernel process : Directory) (table : Frame) : Prop
    where
  live : process ∈ after.live
  wellFormed : after.spaces.frames.WellFormed
  memory : after.spaces.memory = before.spaces.memory
  freed : ∀ frame, frame = table ∨ frame = kernel.frame →
    after.spaces.frames.isSet frame.number.val = false
  spared : ∀ number < table.number.val, number ≠ kernel.frame.number.val →
    after.spaces.frames.isSet number = true

/-- A process's directory names a table in a free frame, and that frame is the next to be handed
out. -/
structure Stranded (before after : Tenancy) (process : Directory) (table : Frame) : Prop where
  live : process ∈ after.live
  wellFormed : after.spaces.frames.WellFormed
  memory : after.spaces.memory = before.spaces.memory
  free : after.spaces.frames.isSet table.number.val = false
  below : ∀ number < table.number.val, after.spaces.frames.isSet number = true

section Steps

variable {tenancy shared : Tenancy} {kernel process : Directory} {table : Frame}

theorem init_rooted (wellFormed : start.WellFormed) (some_free : start.freeFrames ≠ 0) :
    ∃ kernel after,
      (Call.initKernelDirectory 0).act.Yields (fresh start memory) () after ∧
      Rooted after kernel ∧ after.spaces.frames.freeFrames + 1 = start.freeFrames := by
  have sound : (fresh start memory).spaces.frames.WellFormed := wellFormed
  rcases createDirectory_cases sound with ⟨-, full⟩ | ⟨kernel, built, begun, made⟩
  · exact absurd (wellFormed.freeFrames_eq_zero full) some_free
  let rooted : AddressSpaces := { built with kernel := some kernel }
  have init : (AddressSpaces.initKernelDirectory 0).Yields (fresh start memory).spaces (.ok kernel)
      rooted := by
    refine Fallible.yields_bind.mpr (Or.inr ⟨kernel, built, begun, ?_⟩)
    refine Fallible.yields_bind.mpr (Or.inr ⟨(), built, ⟨[], rfl⟩, ?_⟩)
    simp [rooted]
  refine ⟨kernel, { spaces := rooted, live := [kernel] }, yields_create_ok init,
    ⟨rfl, rfl, ?_, ?_, ?_⟩, made.allocation.fewer⟩
  · exact ((sheltered_fresh wellFormed memory).create made (Or.inl rfl)).of_same rfl rfl
  · intro index
    change (built.memory.entry kernel.frame index).frame = none
    rw [Memory.entry, made.holds]
    simp
  · intro number upTo
    rcases Nat.lt_or_eq_of_le upTo with before | rfl
    · exact made.allocation.stays_used (made.allocation.least number before)
    · exact made.allocation.is_used

theorem Rooted.map (rooted : Rooted tenancy kernel)
    (some_free : tenancy.spaces.frames.freeFrames ≠ 0) :
    ∃ table after,
      (Call.mapIn kernel ⟨0⟩ ⟨0x5000⟩ .present).act.Yields tenancy () after ∧
      Paged after [kernel] kernel table ∧
      after.spaces.frames.freeFrames + 1 = tenancy.spaces.frames.freeFrames := by
  have sheltered := rooted.sheltered
  rcases (sheltered.separate kernel List.mem_cons_self).mapIn ⟨0⟩ ⟨0x5000⟩ .present with
    ⟨-, -, full⟩ | ⟨table, mapped, map, edit⟩
  · exact absurd (sheltered.wellFormed.freeFrames_eq_zero full) some_free
  rcases edit.source with ⟨named, -, -⟩ | ⟨taken, -, -⟩
  · rw [rooted.unnamed] at named
    cases named
  refine ⟨table, { tenancy with spaces := mapped },
    yields_discard_onSpaces map,
    ⟨rooted.live, edit.kernel.trans rooted.isKernel, sheltered.edit List.mem_cons_self edit,
      ?_, ?_, ?_, ?_, fun number less => taken.stays_used (taken.least number less)⟩, taken.fewer⟩
  · intro index found
    constructor
    · intro named
      rcases edit.tableFrame_cases named with here | ⟨-, was⟩
      · exact here
      · rw [rooted.unnamed] at was
        cases was
    · rintro ⟨rfl, rfl⟩
      exact edit.names
  · change mapped.memory.table table = _
    rw [edit.holds, pageTable, rooted.unnamed]
    rfl
  · change table.number.val < mapped.frames.totalFrames
    rw [taken.total]
    exact sheltered.wellFormed.lt_of_clear taken.was_free
  · by_contra notAfter
    have used := rooted.filled table.number.val (Nat.le_of_not_lt notAfter)
    exact Bool.noConfusion (taken.was_free.symm.trans used)

theorem Paged.copy (paged : Paged tenancy [kernel] kernel table)
    (some_free : tenancy.spaces.frames.freeFrames ≠ 0) :
    ∃ process after,
      Call.createProcessDirectory.act.Yields tenancy () after ∧
      Sharing after kernel process table := by
  rcases tenancy with ⟨spaces, live⟩
  rcases paged with ⟨isLive, isKernel, sheltered, only, holds, tracked, order, below⟩
  have separate := sheltered.separate kernel List.mem_cons_self
  have used : ∀ other, spaces.kernel = some other →
      spaces.frames.isSet other.frame.number.val = true := by
    intro other isOther
    cases isKernel.symm.trans isOther
    exact separate.used
  rcases createProcessDirectory_cases sheltered.wellFormed used with
    ⟨-, full⟩ | ⟨process, copied, copy, copiedFrom⟩
  · exact absurd (sheltered.wellFormed.freeFrames_eq_zero full) some_free
  have new := separate.fresh copiedFrom.allocation
  have kernelKept : ∀ index, copied.tableFrame kernel index = spaces.tableFrame kernel index := by
    intro index
    rw [tableFrame, tableFrame, Memory.entry, Memory.entry,
      copiedFrom.elsewhere kernel.frame new.1.symm]
  refine ⟨process, { spaces := copied, live := process :: live }, yields_create_ok copy,
    ⟨congrArg (List.cons process) isLive, copiedFrom.kernel.trans isKernel, ?_, ?_, ?_, ?_, order,
      fun number less => copiedFrom.allocation.stays_used (below number less)⟩, ?_⟩
  · refine sheltered.create copiedFrom (Or.inr ⟨kernel, List.mem_cons_self, ?_⟩)
    rw [template, isKernel]
  · intro index found
    change copied.tableFrame kernel index = some found ↔ _
    rw [kernelKept]
    exact only index found
  · refine (copiedFrom.elsewhere table ?_).trans holds
    rintro rfl
    exact new.2 0 ((only 0 process.frame).mpr ⟨rfl, rfl⟩)
  · change table.number.val < copied.frames.totalFrames
    rw [copiedFrom.allocation.total]
    exact tracked
  · intro index
    rw [kernelKept, tableFrame, Memory.entry, copiedFrom.holds, template, isKernel]
    rfl

/-- The kernel's directory is made and gets a page, and a process's directory is made after it. -/
theorem run_of_sharing (wellFormed : start.WellFormed) (enough : 3 ≤ start.freeFrames) :
    ∃ kernel process table tenancy,
      Follows Proper (fresh start memory)
        [.initKernelDirectory 0, .mapIn kernel ⟨0⟩ ⟨0x5000⟩ .present, .createProcessDirectory]
        tenancy ∧
      Sharing tenancy kernel process table := by
  rcases @init_rooted _ memory wellFormed (by omega) with ⟨kernel, first, init, rooted, left⟩
  rcases rooted.map (by omega) with ⟨table, second, map, paged, leftMapped⟩
  rcases paged.copy (by omega) with ⟨process, third, copy, sharing⟩
  have kernelLive : ∀ other, second.spaces.kernel = some other → other ∈ second.live := by
    intro other isOther
    cases paged.isKernel.symm.trans isOther
    rw [paged.live]
    exact List.mem_cons_self
  have mapLive : kernel ∈ first.live := rooted.live ▸ List.mem_cons_self
  exact ⟨kernel, process, table, third,
    .cons trivial init (.cons mapLive map (.cons kernelLive copy .nil)), sharing⟩

/-- The table goes with the kernel's directory, though a process's names it as well. -/
theorem Sharing.mem_privateFrames (sharing : Sharing tenancy kernel process table) (frame : Frame) :
    frame ∈ tenancy.spaces.privateFrames kernel ↔ frame = table ∨ frame = kernel.frame := by
  rw [AddressSpaces.mem_privateFrames]
  refine or_congr ⟨?_, ?_⟩ Iff.rfl
  · rintro ⟨index, named, -⟩
    exact ((sharing.only index frame).mp named).2
  · rintro rfl
    exact ⟨0, (sharing.only 0 frame).mpr ⟨rfl, rfl⟩, isShared_kernel sharing.isKernel⟩

theorem Sharing.destroy (sharing : Sharing tenancy kernel process table) :
    ∃ after, (Call.destroyDirectory kernel).act.Yields tenancy () after ∧
      Orphaned tenancy after kernel process table := by
  rcases tenancy with ⟨spaces, live⟩
  have isLive : live = [process, kernel] := sharing.live
  have sheltered : spaces.Sheltered [process, kernel] := sharing.sheltered
  subst isLive
  rcases sheltered.wellFormed.returned (spaces.privateFrames kernel) with
    ⟨replies, bitmap, calls, returned⟩
  have differs : process ≠ kernel := by
    rintro rfl
    exact (List.nodup_cons.mp sheltered.distinct).1 List.mem_cons_self
  refine ⟨_, yields_destroy (yields_destroyDirectory calls),
    (List.mem_erase_of_ne differs).mpr List.mem_cons_self, returned.wellFormed, rfl, ?_, ?_⟩
  · intro frame gone
    have order := sharing.order
    have tracked : table.number.val < spaces.frames.totalFrames := sharing.tracked
    have inside : frame.number.val < spaces.frames.totalFrames := by
      rcases gone with rfl | rfl <;> omega
    exact returned.freed frame ((sharing.mem_privateFrames frame).mpr gone) inside
  · intro number less notKernel
    refine (returned.others number ?_).trans (sharing.below number less)
    rintro frame gone rfl
    rcases (sharing.mem_privateFrames frame).mp gone with rfl | rfl
    · exact Nat.lt_irrefl _ less
    · exact notKernel rfl

/-- The frame of the kernel's directory is the first to be handed out again. -/
theorem Orphaned.take (orphaned : Orphaned shared tenancy kernel process table)
    (order : kernel.frame.number.val < table.number.val) :
    ∃ after, Call.takeFrame.act.Yields tenancy () after ∧
      Stranded shared after process table := by
  rcases orphaned with ⟨live, wellFormed, memory, freed, spared⟩
  rcases wellFormed.allocate with ⟨answer, frames, take, allocation, wellFormedTaken⟩
  have answered : answer = some kernel.frame := by
    cases answer with
    | none =>
        cases allocation with
        | exhausted full => exact Bool.noConfusion ((full _).symm.trans (freed table (Or.inl rfl)))
    | some frame =>
        rw [allocation.eq_of_least (freed kernel.frame (Or.inr rfl)) fun number less =>
          spared number (Nat.lt_trans less order) (Nat.ne_of_lt less)]
  subst answered
  have taken : (onFrames FrameBitmap.allocate).Yields tenancy.spaces (some kernel.frame)
      { tenancy.spaces with frames } := yields_onFrames.mpr ⟨frames, take, rfl⟩
  refine ⟨{ tenancy with spaces := { tenancy.spaces with frames } },
    yields_discard_onSpaces taken, live, wellFormedTaken, memory, ?_, ?_⟩
  · change frames.isSet table.number.val = false
    rw [allocation.isSet, freed table (Or.inl rfl), Bool.false_or, decide_eq_false_iff_not]
    exact Nat.ne_of_lt order
  · intro number less
    by_cases isKernelFrame : number = kernel.frame.number.val
    · exact isKernelFrame ▸ allocation.is_used
    · exact allocation.stays_used (spared number less isKernelFrame)

/-- When the kernel's directory is destroyed and its frame handed out again, the process's directory
still names the table, and the frame of the table is the next to be handed out. -/
theorem Sharing.destroyed (sharing : Sharing tenancy kernel process table) :
    ∃ after,
      Follows Proper tenancy [.destroyDirectory kernel, .takeFrame] after ∧
      Stranded tenancy after process table := by
  rcases sharing.destroy with ⟨between, destroy, orphaned⟩
  rcases orphaned.take sharing.order with ⟨after, take, stranded⟩
  have kernelLive : kernel ∈ tenancy.live :=
    sharing.live ▸ List.mem_cons_of_mem _ List.mem_cons_self
  exact ⟨after, .cons kernelLive destroy (.cons trivial take .nil), stranded⟩

/-- The next table that the process needs is put over the one it has. -/
theorem Stranded.page_lost (stranded : Stranded shared tenancy process table)
    (sharing : Sharing shared kernel process table) :
    ∃ after,
      (AddressSpaces.mapIn process ⟨0x401000⟩ ⟨0x6000⟩ .present).Yields tenancy.spaces (.ok ())
        after ∧
      tenancy.spaces.translateIn process ⟨0⟩ = some (⟨0x5000⟩, .present) ∧
      after.translateIn process ⟨0⟩ = none := by
  rcases stranded with ⟨-, wellFormed, memory, free, below⟩
  have names : ∀ index, tenancy.spaces.tableFrame process index =
      shared.spaces.tableFrame kernel index := by
    intro index
    rw [tableFrame, memory]
    exact sharing.copies index
  have named : tenancy.spaces.tableFrame process 0 = some table :=
    (names 0).trans ((sharing.only 0 table).mpr ⟨rfl, rfl⟩)
  have missing : tenancy.spaces.tableFrame process 1 = none := by
    refine Option.eq_none_iff_forall_ne_some.mpr fun found namedAt => ?_
    rw [names] at namedAt
    exact absurd ((sharing.only 1 found).mp namedAt).1 (by decide)
  have apart : table ≠ process.frame := fun same =>
    (sharing.sheltered.separate process List.mem_cons_self).apart 0
      ((sharing.copies 0).trans ((sharing.only 0 process.frame).mpr ⟨rfl, same.symm⟩))
  have unmapped : tenancy.spaces.tableFrame process (⟨0x401000⟩ : VirtAddr).directoryIndex = none :=
    missing
  rcases mapIn_over_table wellFormed named free below apart unmapped ⟨0x6000⟩ .present with
    ⟨after, mapped, emptied⟩
  refine ⟨after, mapped, ?_, ?_⟩
  · have page : tenancy.spaces.pageTable process 0 =
        Table.zero.set 0 (.ofFrame (.ofNumber 5) .present) := by
      rw [pageTable, named]
      exact (congrArg (Memory.table · table) memory).trans sharing.holds
    have entry : (tenancy.spaces.pageTable process 0).get 0 =
        .ofFrame (.ofNumber 5) .present := by
      rw [page]
      exact Vector.getElem_set_self _
    exact (@translateIn_of_entry _ process ⟨0⟩ _ entry).trans (by decide)
  · have entry : (after.pageTable process 0).get 0 = .empty := by
      rw [emptied]
      exact (Vector.getElem_set_ne _ _ (by decide)).trans (Table.getElem_zero _)
    exact (@translateIn_of_entry _ process ⟨0⟩ _ entry).trans (by decide)

end Steps

end Destroyed

/-- If the kernel's directory is destroyed while a process's shares its table, the process maps
another page and loses the one it had: the table is taken for the new page, and emptied. -/
theorem page_lost_after_destroy :
    ∃ kernel process tenancy after,
      (FrameBitmap.reset 0xC00000 0x800000).Yields .empty (.ok ()) (.fresh 3072 2048) ∧
      Follows Proper (fresh (.fresh 3072 2048) .zero)
        [.initKernelDirectory 0, .mapIn kernel ⟨0⟩ ⟨0x5000⟩ .present, .createProcessDirectory,
          .destroyDirectory kernel, .takeFrame] tenancy ∧
      process ∈ tenancy.live ∧
      (AddressSpaces.mapIn process ⟨0x401000⟩ ⟨0x6000⟩ .present).Yields tenancy.spaces (.ok ())
        after ∧
      tenancy.spaces.translateIn process ⟨0⟩ = some (⟨0x5000⟩, .present) ∧
      after.translateIn process ⟨0⟩ = none ∧
      ¬MapsExactly tenancy.spaces process ⟨0x401000⟩ ⟨0x6000⟩ .present := by
  have small : 3072 ≤ Layout.maxFrames := by decide
  have enough : 3 ≤ (FrameBitmap.fresh 3072 2048).freeFrames := by decide
  rcases @run_of_sharing _ .zero (FrameBitmap.wellFormed_fresh 2048 small) enough with
    ⟨kernel, process, table, shared, begun, sharing⟩
  rcases sharing.destroyed with ⟨tenancy, onward, stranded⟩
  rcases stranded.page_lost sharing with ⟨after, mapped, was, lost⟩
  refine ⟨kernel, process, tenancy, after, yields_reset_12MiB, begun.append onward, stranded.live,
    mapped, was, lost, ?_⟩
  rintro ⟨reply, final, run, -, exact⟩
  rcases run.unique mapped with ⟨rfl, rfl⟩
  have kept := (exact rfl).others ⟨0⟩ fun same => absurd same.1 (by decide)
  rw [was, lost] at kept
  cases kept

end Tenancy

end KernelCore
