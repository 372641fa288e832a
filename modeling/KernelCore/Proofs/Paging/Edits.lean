import KernelCore.Proofs.Paging.Ownership

/-!
# Mapping and unmapping a page

What happens to an address space when a page is mapped or its mapping is removed, and what happens
to all others. `AddressSpaces.Edit` describes the result: one table of the directory has given
contents, and this table was the directory's own before or is held in a frame that was just taken.
Either request ends in an edit or is refused and changes nothing, and it never faults.
-/

namespace KernelCore.AddressSpaces

/-- The contents of a directory's table at an index; a missing table maps nothing. -/
def pageTable (spaces : AddressSpaces) (directory : Directory) (index : Fin Layout.pageEntries) :
    Table :=
  match spaces.tableFrame directory index with
  | some table => spaces.memory.table table
  | none => .zero

/-- Where the frame of an edited table comes from. -/
inductive TableSource (before after : AddressSpaces) (directory : Directory)
    (index : Fin Layout.pageEntries) (table : Frame) : Prop where
  /-- The directory had the table for itself. -/
  | own (named : before.tableFrame directory index = some table)
      (unshared : before.isShared directory index table = false)
      (frames : after.frames = before.frames)
  /-- The frame was free, and the directory had no table or shared one with the kernel. -/
  | taken (allocation : FrameBitmap.Allocation before.frames (some table) after.frames)
      (wellFormed : after.frames.WellFormed)
      (shared : ∀ old, before.tableFrame directory index = some old →
        before.isShared directory index old = true)

/-- One table of a directory has the given contents. All other entries of the directory, and all
frames but the directory and the table, are as they were. -/
structure Edit (before after : AddressSpaces) (directory : Directory)
    (index : Fin Layout.pageEntries) (table : Frame) (contents : Table) : Prop where
  current : after.current = before.current
  kernel : after.kernel = before.kernel
  names : after.tableFrame directory index = some table
  holds : after.memory.table table = contents
  siblings : ∀ other, other ≠ index →
    after.memory.entry directory.frame other = before.memory.entry directory.frame other
  elsewhere : ∀ frame, frame ≠ directory.frame → frame ≠ table →
    after.memory.table frame = before.memory.table frame
  source : TableSource before after directory index table

/-- A directory names the same tables, has the same ones for itself, and they have the same
contents. -/
structure SameView (before after : AddressSpaces) (directory : Directory) : Prop where
  tables : ∀ index, after.tableFrame directory index = before.tableFrame directory index
  owns : ∀ index, after.privateTable directory index = before.privateTable directory index
  pages : ∀ index, after.pageTable directory index = before.pageTable directory index

/-- A request edits a directory, or it is refused and nothing changes. -/
def Edits {Value : Type} (action : Fallible AddressSpaces MapError Value) (spaces : AddressSpaces)
    (directory : Directory) : Prop :=
  (∃ cause, action.Yields spaces (.error cause) spaces) ∨
    ∃ value after index table contents, action.Yields spaces (.ok value) after ∧
      Edit spaces after directory index table contents

section Steps

variable {spaces before after : AddressSpaces} {frame : Frame} {index : Fin Layout.pageEntries}

theorem yields_onFrames {Value : Type} {action : Operation FrameBitmap Value} {value : Value} :
    (onFrames action).Yields before value after ↔
      ∃ frames, action.Yields before.frames value frames ∧ after = { before with frames } :=
  Operation.yields_within

@[simp]
theorem yields_modifyMemory {change : Memory → Memory} {value : Unit} :
    (modifyMemory change).Yields before value after ↔
      after = { before with memory := change before.memory } :=
  Operation.yields_modify

@[simp]
theorem yields_readEntry {entry : Entry} :
    (readEntry frame index).Yields before entry after ↔
      entry = before.memory.entry frame index ∧ after = before := by
  rw [readEntry, Operation.yields_modifyGet, Prod.mk.injEq]
  exact ⟨fun ⟨entry, same⟩ => ⟨entry.symm, same.symm⟩, fun ⟨entry, same⟩ => ⟨entry.symm, same.symm⟩⟩

@[simp]
theorem yields_invalidateIn {directory : Directory} {address : VirtAddr} {value : Unit} :
    (invalidateIn directory address).Yields before value after ↔ after = before := by
  by_cases active : before.current = some directory <;>
    simp [invalidateIn, active, and_assoc]

theorem takeFrame_cases (wellFormed : spaces.frames.WellFormed) :
    (takeFrame.Yields spaces (.error .frameAllocationFailed) spaces ∧
      ∀ number, spaces.frames.isSet number = true) ∨
      ∃ frame frames, takeFrame.Yields spaces (.ok frame) { spaces with frames } ∧
        FrameBitmap.Allocation spaces.frames (some frame) frames ∧ frames.WellFormed := by
  rcases wellFormed.allocate with ⟨reply, frames, run, allocation, wellFormedAfter⟩
  have taken : (onFrames FrameBitmap.allocate).Yields spaces reply { spaces with frames } :=
    yields_onFrames.mpr ⟨frames, run, rfl⟩
  have begun : (Fallible.always (onFrames FrameBitmap.allocate) :
      Fallible AddressSpaces MapError (Option Frame)).Yields spaces (.ok reply)
      { spaces with frames } := Fallible.yields_always.mpr ⟨reply, taken, rfl⟩
  cases reply with
  | none =>
      left
      have unchanged : frames = spaces.frames ∧ ∀ number, spaces.frames.isSet number = true := by
        cases allocation with
        | exhausted full => exact ⟨rfl, full⟩
      rcases unchanged with ⟨rfl, full⟩
      exact ⟨Fallible.yields_bind.mpr (Or.inr ⟨none, spaces, begun, by simp⟩), full⟩
  | some frame =>
      right
      exact ⟨frame, frames, Fallible.yields_bind.mpr (Or.inr ⟨some frame, _, begun, by simp⟩),
        allocation, wellFormedAfter⟩

end Steps

namespace Separate

variable {spaces after : AddressSpaces} {directory : Directory} {index : Fin Layout.pageEntries}
  {table : Frame} {contents : Table}

/-- A frame that was just taken is filled, and the directory names it as its table. -/
theorem edit_of_taken (separate : Separate spaces directory)
    {frames : FrameBitmap} (contents : Table) {flags : PageFlags} (structural : flags.Structural)
    (allocation : FrameBitmap.Allocation spaces.frames (some table) frames)
    (wellFormed : frames.WellFormed)
    (shared : ∀ old, spaces.tableFrame directory index = some old →
      spaces.isShared directory index old = true) :
    Edit spaces
      { spaces with
        frames
        memory := (spaces.memory.setTable table contents).setEntry directory.frame index
          (.ofFrame table flags) }
      directory index table contents := by
  have notFrame := (separate.fresh allocation).1
  refine ⟨rfl, rfl, ?_, ?_, ?_, ?_, .taken allocation wellFormed shared⟩
  · simp [tableFrame, Memory.entry_setEntry, Entry.frame_ofFrame _ structural]
  · simp [Memory.table_setEntry, Memory.table_setTable, notFrame.symm]
  · intro place differs
    simp [Memory.entry_setEntry, Memory.entry_setTable, notFrame, differs.symm]
  · intro frame notDirectory notTable
    simp [Memory.table_setEntry, Memory.table_setTable, notDirectory.symm, notTable.symm]

/-- A table that can be written is the directory's own, a fresh copy of the kernel's, or missing;
without a frame for the copy nothing changes. -/
theorem writableTable (separate : Separate spaces directory)
    (index : Fin Layout.pageEntries) :
    (spaces.tableFrame directory index = none ∧
      (AddressSpaces.writableTable directory index).Yields spaces (.ok none) spaces) ∨
      ((AddressSpaces.writableTable directory index).Yields spaces
          (.error .frameAllocationFailed) spaces ∧
        spaces.privateTable directory index = none ∧
        ∀ number, spaces.frames.isSet number = true) ∨
      ∃ table after,
        (AddressSpaces.writableTable directory index).Yields spaces (.ok (some table)) after ∧
        Edit spaces after directory index table (spaces.pageTable directory index) := by
  cases named : spaces.tableFrame directory index with
  | none =>
      left
      refine ⟨rfl, ?_⟩
      rw [tableFrame] at named
      simp [AddressSpaces.writableTable, and_assoc, named]
  | some table =>
      have entryNames : (spaces.memory.entry directory.frame index).frame = some table := named
      have present := Entry.isPresent_of_frame entryNames
      right
      cases shared : spaces.isShared directory index table with
      | false =>
          right
          refine ⟨table, spaces, ?_, rfl, rfl, named, ?_, fun _ _ => rfl, fun _ _ _ => rfl,
            .own named shared rfl⟩
          · simp [AddressSpaces.writableTable, and_assoc, entryNames, shared]
          · rw [pageTable, named]
      | true =>
          rcases takeFrame_cases separate.wellFormed with
            ⟨refused, full⟩ | ⟨copy, frames, taken, rest⟩
          · left
            refine ⟨?_, by simp [privateTable, named, shared], full⟩
            simp [AddressSpaces.writableTable, and_assoc, entryNames, shared, refused]
          · right
            rcases rest with ⟨allocation, wellFormed⟩
            have notFrame := (separate.fresh allocation).1
            have flags := Entry.structural_flags present
            have isCopy : spaces.pageTable directory index = spaces.memory.table table := by
              rw [pageTable, named]
            rw [isCopy]
            refine ⟨copy, _, ?_, separate.edit_of_taken _ flags allocation wellFormed ?_⟩
            · simp [AddressSpaces.writableTable, and_assoc, entryNames, shared, taken.iff,
                Memory.entry_setTable, notFrame]
            · intro old oldNamed
              rw [named, Option.some.injEq] at oldNamed
              exact oldNamed ▸ shared

theorem table_ne (separate : Separate spaces directory)
    (edit : Edit spaces after directory index table contents) : table ≠ directory.frame := by
  rcases edit.source with ⟨named, -, -⟩ | ⟨allocation, -, -⟩
  · exact fun same => separate.apart index (same ▸ named)
  · exact (separate.fresh allocation).1

end Separate

namespace Edit

variable {before after : AddressSpaces} {directory : Directory} {index : Fin Layout.pageEntries}
  {table : Frame} {contents : Table}

theorem raise (edit : Edit before after directory index table contents)
    (apart : table ≠ directory.frame) {entry : Entry} (named : entry.frame = some table) :
    Edit before
      { after with memory := after.memory.setEntry directory.frame index entry }
      directory index table contents where
  current := edit.current
  kernel := edit.kernel
  names := by simp [tableFrame, Memory.entry_setEntry, named]
  holds := by
    rw [← edit.holds]
    exact Memory.table_setEntry_ne _ _ _ _ _ apart.symm
  siblings place differs := by
    rw [← edit.siblings place differs]
    simp [Memory.entry_setEntry, differs.symm]
  elsewhere frame notDirectory notTable := by
    rw [← edit.elsewhere frame notDirectory notTable]
    exact Memory.table_setEntry_ne _ _ _ _ _ notDirectory.symm
  source := by
    rcases edit.source with ⟨named, unshared, frames⟩ | ⟨allocation, wellFormed, shared⟩
    · exact .own named unshared frames
    · exact .taken allocation wellFormed shared

theorem write (edit : Edit before after directory index table contents)
    (apart : table ≠ directory.frame) (place : Fin Layout.pageEntries) (entry : Entry) :
    Edit before { after with memory := after.memory.setEntry table place entry } directory index
      table (contents.set place entry place.isLt) where
  current := edit.current
  kernel := edit.kernel
  names := by
    rw [← edit.names]
    simp [tableFrame, Memory.entry_setEntry, apart]
  holds := by simp [Memory.table_setEntry, edit.holds]
  siblings other differs := by
    rw [← edit.siblings other differs]
    simp [Memory.entry_setEntry, apart]
  elsewhere frame notDirectory notTable := by
    rw [← edit.elsewhere frame notDirectory notTable]
    exact Memory.table_setEntry_ne _ _ _ _ _ notTable.symm
  source := by
    rcases edit.source with ⟨named, unshared, frames⟩ | ⟨allocation, wellFormed, shared⟩
    · exact .own named unshared frames
    · exact .taken allocation wellFormed shared

end Edit

namespace Separate

variable {spaces : AddressSpaces} {directory : Directory}

theorem tableFor (separate : Separate spaces directory)
    (index : Fin Layout.pageEntries) (flags : PageFlags) :
    ((AddressSpaces.tableFor directory index flags).Yields spaces (.error .frameAllocationFailed)
        spaces ∧
      spaces.privateTable directory index = none ∧ ∀ number, spaces.frames.isSet number = true) ∨
      ∃ table after,
        (AddressSpaces.tableFor directory index flags).Yields spaces (.ok table) after ∧
        Edit spaces after directory index table (spaces.pageTable directory index) := by
  rcases separate.writableTable index with
    ⟨missing, begun⟩ | ⟨refused, lacking⟩ | ⟨table, between, begun, edit⟩
  · rcases takeFrame_cases separate.wellFormed with
      ⟨refused, full⟩ | ⟨table, frames, taken, allocation, wellFormed⟩
    · left
      refine ⟨?_, by simp [privateTable, missing], full⟩
      simp [AddressSpaces.tableFor, begun.iff, and_assoc, refused]
    · right
      let base := PageFlags.present.union .writable
      let permissions := if flags.contains .user then base.union .user else base
      have structural : permissions.Structural := by
        have baseStructural : base.Structural := ⟨by decide, by decide⟩
        by_cases user : flags.contains .user = true
        · simp only [permissions, if_pos user]
          exact baseStructural.union (by decide)
        · simp only [permissions, if_neg user]
          exact baseStructural
      have isZero : spaces.pageTable directory index = .zero := by
        rw [pageTable, missing]
      rw [isZero]
      refine ⟨table, _, ?_, separate.edit_of_taken _ structural allocation wellFormed ?_⟩
      · simp [AddressSpaces.tableFor, begun.iff, and_assoc, taken.iff, permissions, base]
      · intro old named
        rw [missing] at named
        cases named
  · left
    refine ⟨?_, lacking⟩
    simp [AddressSpaces.tableFor, refused.iff]
  · right
    by_cases user : flags.contains .user = true
    · have named : (between.memory.entry directory.frame index).frame = some table := edit.names
      have present := Entry.isPresent_of_frame named
      have structural :=
        (Entry.structural_flags present).union (show PageFlags.user.bits.toNat < 2 ^ 12 by decide)
      have renamed := (Entry.frame_withFlags present structural).trans named
      refine ⟨table, _, ?_, edit.raise (separate.table_ne edit) renamed⟩
      simp [AddressSpaces.tableFor, begun.iff, and_assoc, user]
    · refine ⟨table, between, ?_, edit⟩
      simp [AddressSpaces.tableFor, begun.iff, and_assoc, user]

/-- Mapping a page edits the directory, or is refused for want of a frame and changes nothing. -/
theorem mapIn (separate : Separate spaces directory) (virtual : VirtAddr) (physical : PhysAddr)
    (flags : PageFlags) :
    ((AddressSpaces.mapIn directory virtual physical flags).Yields spaces
        (.error .frameAllocationFailed) spaces ∧
      spaces.privateTable directory virtual.directoryIndex = none ∧
      ∀ number, spaces.frames.isSet number = true) ∨
      ∃ table after,
        (AddressSpaces.mapIn directory virtual physical flags).Yields spaces (.ok ()) after ∧
        Edit spaces after directory virtual.directoryIndex table
          ((spaces.pageTable directory virtual.directoryIndex).set virtual.tableIndex
            (.ofFrame (.containing physical) flags)) := by
  rcases separate.tableFor virtual.directoryIndex flags with
    ⟨refused, lacking⟩ | ⟨table, between, begun, edit⟩
  · left
    refine ⟨?_, lacking⟩
    simp [AddressSpaces.mapIn, refused.iff]
  · right
    refine ⟨table, _, ?_, edit.write (separate.table_ne edit) virtual.tableIndex _⟩
    simp [AddressSpaces.mapIn, begun.iff, and_assoc]

/-- Removing the mapping of a page that is mapped edits the directory, or is refused for want of a
frame. A page that is not mapped is reported as such. What is refused changes nothing. -/
theorem unmapIn (separate : Separate spaces directory) (virtual : VirtAddr) :
    (spaces.translateIn directory virtual = none ∧
      (AddressSpaces.unmapIn directory virtual).Yields spaces (.error .notMapped) spaces) ∨
      ∃ physical flags, spaces.translateIn directory virtual = some (physical, flags) ∧
        (((AddressSpaces.unmapIn directory virtual).Yields spaces
            (.error .frameAllocationFailed) spaces ∧
          ∀ number, spaces.frames.isSet number = true) ∨
        ∃ table after,
          (AddressSpaces.unmapIn directory virtual).Yields spaces
            (.ok (.containing physical)) after ∧
          Edit spaces after directory virtual.directoryIndex table
            ((spaces.pageTable directory virtual.directoryIndex).set virtual.tableIndex
              (let entry := (spaces.pageTable directory virtual.directoryIndex)[virtual.tableIndex]
              entry.withFlags (entry.flags.diff .present)))) := by
  cases mapped : spaces.translateIn directory virtual with
  | none =>
      left
      exact ⟨rfl, by simp [AddressSpaces.unmapIn, and_assoc, mapped]⟩
  | some found =>
      rcases found with ⟨physical, flags⟩
      refine Or.inr ⟨physical, flags, rfl, ?_⟩
      rcases separate.writableTable virtual.directoryIndex with
        ⟨missing, -⟩ | ⟨refused, -, full⟩ | ⟨table, between, begun, edit⟩
      · simp [translateIn, missing] at mapped
      · left
        exact ⟨by simp [AddressSpaces.unmapIn, and_assoc, mapped, refused.iff], full⟩
      · right
        refine ⟨table, _, ?_, edit.write (separate.table_ne edit) virtual.tableIndex _⟩
        have page : between.memory.entry table virtual.tableIndex =
            (spaces.pageTable directory virtual.directoryIndex)[virtual.tableIndex] := by
          rw [← edit.holds]
          rfl
        simp [AddressSpaces.unmapIn, and_assoc, mapped, begun.iff, page]

theorem edits_mapIn (separate : Separate spaces directory) (virtual : VirtAddr)
    (physical : PhysAddr) (flags : PageFlags) :
    Edits (AddressSpaces.mapIn directory virtual physical flags) spaces directory := by
  rcases separate.mapIn virtual physical flags with ⟨refused, -⟩ | ⟨table, after, run, edit⟩
  · exact Or.inl ⟨_, refused⟩
  · exact Or.inr ⟨(), after, _, table, _, run, edit⟩

theorem edits_unmapIn (separate : Separate spaces directory) (virtual : VirtAddr) :
    Edits (AddressSpaces.unmapIn directory virtual) spaces directory := by
  rcases separate.unmapIn virtual with
    ⟨-, refused⟩ | ⟨physical, flags, -, ⟨refused, -⟩ | ⟨table, after, run, edit⟩⟩
  · exact Or.inl ⟨_, refused⟩
  · exact Or.inl ⟨_, refused⟩
  · exact Or.inr ⟨_, after, _, table, _, run, edit⟩

end Separate

namespace Owned

variable {spaces : AddressSpaces} {outside : Nat → Prop} {held : List Frame}
  {owners : List Directory} {directory : Directory}

theorem edits_mapIn (owned : spaces.Owned outside held owners) (mem : directory ∈ owners)
    (virtual : VirtAddr) (physical : PhysAddr) (flags : PageFlags) :
    Edits (AddressSpaces.mapIn directory virtual physical flags) spaces directory :=
  (owned.separate mem).edits_mapIn virtual physical flags

theorem edits_unmapIn (owned : spaces.Owned outside held owners) (mem : directory ∈ owners)
    (virtual : VirtAddr) :
    Edits (AddressSpaces.unmapIn directory virtual) spaces directory :=
  (owned.separate mem).edits_unmapIn virtual

end Owned

section Effects

variable {before after : AddressSpaces} {outside : Nat → Prop} {held : List Frame}
  {owners : List Directory} {directory other : Directory} {index place : Fin Layout.pageEntries}
  {table : Frame} {contents : Table}

theorem translateIn_eq (spaces : AddressSpaces) (directory : Directory) (address : VirtAddr) :
    spaces.translateIn directory address =
      (let entry := (spaces.pageTable directory address.directoryIndex)[address.tableIndex]
      entry.frame.map fun frame =>
        (⟨frame.start.word ||| address.pageOffset⟩, entry.flags)) := by
  rw [translateIn, pageTable]
  cases spaces.tableFrame directory address.directoryIndex with
  | none => simp
  | some table =>
      change ((spaces.memory.entry table address.tableIndex).frame.bind fun frame => some _) = _
      rw [Option.map_eq_bind]
      rfl

theorem translateIn_congr {address : VirtAddr}
    (same : after.pageTable other address.directoryIndex =
      before.pageTable directory address.directoryIndex) :
    after.translateIn other address = before.translateIn directory address := by
  rw [translateIn_eq, translateIn_eq, same]

theorem translateIn_congr_entry {address : VirtAddr}
    (same : (after.pageTable other address.directoryIndex)[address.tableIndex] =
      (before.pageTable directory address.directoryIndex)[address.tableIndex]) :
    after.translateIn other address = before.translateIn directory address := by
  rw [translateIn_eq, translateIn_eq, same]

namespace Edit

/-- No other directory is written to. -/
theorem directory_of_ne (edit : Edit before after directory index table contents)
    (owned : before.Owned outside held owners) (mem : directory ∈ owners)
    (otherMem : other ∈ owners) (differs : other ≠ directory) :
    after.memory.table other.frame = before.memory.table other.frame := by
  have notTable : other.frame ≠ table := by
    rcases edit.source with ⟨named, -, -⟩ | ⟨allocation, -, -⟩
    · exact (owned.table_ne_frame otherMem mem named).symm
    · exact (owned.fresh allocation otherMem).1.symm
  exact edit.elsewhere other.frame (Directory.frame_ne differs) notTable

theorem tableFrame_of_ne (edit : Edit before after directory index table contents)
    (owned : before.Owned outside held owners) (mem : directory ∈ owners)
    (otherMem : other ∈ owners) (differs : other ≠ directory) :
    after.tableFrame other place = before.tableFrame other place := by
  rw [tableFrame, tableFrame, Memory.entry, Memory.entry,
    edit.directory_of_ne owned mem otherMem differs]

/-- A table is in another directory as well only if the kernel's directory was edited. -/
theorem kernel_of_named (edit : Edit before after directory index table contents)
    (owned : before.Owned outside held owners) (mem : directory ∈ owners)
    (otherMem : other ∈ owners) (differs : other ≠ directory)
    (named : before.tableFrame other place = some table) :
    before.kernel = some directory ∧ before.tableFrame directory place = some table := by
  rcases edit.source with ⟨own, unshared, -⟩ | ⟨allocation, -, -⟩
  · have mine : table ∈ before.privateFrames directory :=
      mem_privateFrames.mpr (Or.inl ⟨index, own, unshared⟩)
    rcases owned.table_owner otherMem named with
      ⟨owner, ownerMem, ownerNames, -, theirs, isOther | isKernel⟩
    · subst isOther
      exact absurd theirs (owned.frame_notMem mem ownerMem differs.symm mine)
    · by_cases same : owner = directory
      · subst same
        exact ⟨isKernel, ownerNames⟩
      · exact absurd theirs (owned.frame_notMem mem ownerMem (Ne.symm same) mine)
  · exact absurd named ((owned.fresh allocation otherMem).2 place)

theorem pageTable_of_ne (edit : Edit before after directory index table contents)
    (owned : before.Owned outside held owners) (mem : directory ∈ owners)
    (otherMem : other ∈ owners) (differs : other ≠ directory)
    (notTable : before.tableFrame other place ≠ some table) :
    after.pageTable other place = before.pageTable other place := by
  rw [pageTable, pageTable, edit.tableFrame_of_ne owned mem otherMem differs]
  cases named : before.tableFrame other place with
  | none => rfl
  | some found =>
      apply edit.elsewhere found (owned.table_ne_frame mem otherMem named)
      rintro rfl
      exact notTable named

theorem privateTable_of_ne (edit : Edit before after directory index table contents)
    (owned : before.Owned outside held owners) (mem : directory ∈ owners)
    (otherMem : other ∈ owners) (differs : other ≠ directory) :
    after.privateTable other place = before.privateTable other place := by
  apply privateTable_congr (edit.tableFrame_of_ne owned mem otherMem differs)
  intro found named
  apply isShared_congr edit.kernel
  intro kernel isKernel _
  by_cases isDirectory : kernel = directory
  · subst isDirectory
    by_cases here : place = index
    · subst here
      rw [edit.names]
      rcases edit.source with ⟨own, -, -⟩ | ⟨allocation, -, shared⟩
      · rw [own]
      · constructor
        · intro same
          exact absurd (same ▸ named) ((owned.fresh allocation otherMem).2 place)
        · intro old
          have isShared := shared found old
          rw [isShared_kernel isKernel] at isShared
          exact Bool.noConfusion isShared
    · have same : after.tableFrame kernel place = before.tableFrame kernel place :=
        congrArg Entry.frame (edit.siblings place here)
      rw [same]
  · rw [edit.tableFrame_of_ne owned mem (owned.kernel kernel isKernel) isDirectory]

theorem privateTable_sibling (edit : Edit before after directory index table contents)
    (owned : before.Owned outside held owners) (mem : directory ∈ owners)
    (differs : place ≠ index) :
    after.privateTable directory place = before.privateTable directory place := by
  apply privateTable_congr (congrArg Entry.frame (edit.siblings place differs))
  intro found _
  apply isShared_congr edit.kernel
  intro kernel isKernel notDirectory
  rw [edit.tableFrame_of_ne owned mem (owned.kernel kernel isKernel) notDirectory]

theorem privateTable_edited (edit : Edit before after directory index table contents)
    (owned : before.Owned outside held owners) (mem : directory ∈ owners) :
    after.privateTable directory index = some table := by
  refine privateTable_eq_some.mpr ⟨edit.names, Bool.of_not_eq_true fun isShared => ?_⟩
  rcases isShared_eq_true.mp isShared with ⟨kernel, isKernel, differs, named⟩
  rw [edit.kernel] at isKernel
  rw [edit.tableFrame_of_ne owned mem (owned.kernel kernel isKernel) differs] at named
  rcases edit.source with ⟨-, unshared, -⟩ | ⟨allocation, -, -⟩
  · rw [isShared_eq_true.mpr ⟨kernel, isKernel, differs, named⟩] at unshared
    exact Bool.noConfusion unshared
  · exact (owned.fresh allocation (owned.kernel kernel isKernel)).2 index named

theorem pageTable_edited (edit : Edit before after directory index table contents) :
    after.pageTable directory index = contents := by
  rw [pageTable, edit.names]
  exact edit.holds

/-- At all other indices the directory has the same table as before. -/
theorem pageTable_sibling (edit : Edit before after directory index table contents)
    (separate : Separate before directory) (elsewhere : place ≠ index) :
    after.pageTable directory place = before.pageTable directory place := by
  have named : after.tableFrame directory place = before.tableFrame directory place :=
    congrArg Entry.frame (edit.siblings place elsewhere)
  rw [pageTable, pageTable, named]
  cases found : before.tableFrame directory place with
  | none => rfl
  | some other =>
      apply edit.elsewhere other fun same => separate.apart place (same ▸ found)
      rintro rfl
      rcases edit.source with ⟨own, -, -⟩ | ⟨allocation, -, -⟩
      · exact elsewhere (separate.once index place other own found)
      · exact (separate.fresh allocation).2 place found

/-- The kernel's tables are edited where they are. -/
theorem tableFrame_kernel (edit : Edit before after directory index table contents)
    (isKernel : before.kernel = some directory) {found : Frame}
    (named : before.tableFrame directory place = some found) :
    after.tableFrame directory place = some found := by
  by_cases here : place = index
  · subst here
    rcases edit.source with ⟨own, -, -⟩ | ⟨-, -, shared⟩
    · rw [edit.names, ← own, named]
    · have isShared := shared found named
      rw [isShared_kernel isKernel] at isShared
      cases isShared
  · rw [← named]
    exact congrArg Entry.frame (edit.siblings place here)

/-- An edit keeps account of who owns which frame. -/
theorem owned (edit : Edit before after directory index table contents)
    (owned : before.Owned outside held owners) (mem : directory ∈ owners) :
    after.Owned outside held owners := by
  have others : ∀ other ∈ owners, other ≠ directory →
      after.privateFrames other = before.privateFrames other := by
    intro other otherMem differs
    exact privateFrames_congr fun place => edit.privateTable_of_ne owned mem otherMem differs
  have edited := edit.privateTable_edited owned mem
  have kernel : ∀ kernel, after.kernel = some kernel → kernel ∈ owners := by
    intro kernel isKernel
    exact owned.kernel kernel (edit.kernel ▸ isKernel)
  rcases edit.source with ⟨named, unshared, frames⟩ | ⟨allocation, wellFormed, shared⟩
  · have own : after.privateFrames directory = before.privateFrames directory := by
      apply privateFrames_congr
      intro place
      by_cases here : place = index
      · rw [here, edited, privateTable_eq_some.mpr ⟨named, unshared⟩]
      · exact edit.privateTable_sibling owned mem here
    refine ⟨frames ▸ owned.wellFormed, ?_, kernel⟩
    have unchanged : owners.flatMap after.privateFrames = owners.flatMap before.privateFrames := by
      apply List.flatMap_congr
      intro other otherMem
      by_cases isDirectory : other = directory
      · rw [isDirectory, own]
      · exact others other otherMem isDirectory
    rw [frames, unchanged]
    exact owned.accounts
  · have missing := privateTable_eq_none_of_shared shared
    have own : (after.privateFrames directory).Perm (table :: before.privateFrames directory) := by
      rw [privateFrames_eq, privateFrames_eq]
      exact (filterMap_perm_of_update _ _ (List.nodup_finRange _) (List.mem_finRange index) missing
        edited fun place differs =>
          edit.privateTable_sibling owned mem differs).append_right _
    have gain := flatMap_perm_of_update before.privateFrames after.privateFrames
      owned.nodup_owners mem own others
    exact ⟨wellFormed, (owned.accounts.take allocation).perm
      (List.perm_middle.symm.trans (gain.symm.append_left held)), kernel⟩

/-- An edit of a directory that is not the kernel's is not seen in any other. -/
theorem sameView (edit : Edit before after directory index table contents)
    (owned : before.Owned outside held owners) (mem : directory ∈ owners)
    (otherMem : other ∈ owners) (differs : other ≠ directory)
    (notKernel : before.kernel ≠ some directory) : SameView before after other where
  tables _ := edit.tableFrame_of_ne owned mem otherMem differs
  owns _ := edit.privateTable_of_ne owned mem otherMem differs
  pages place := by
    apply edit.pageTable_of_ne owned mem otherMem differs
    intro named
    exact notKernel (edit.kernel_of_named owned mem otherMem differs named).1

end Edit

end Effects

end KernelCore.AddressSpaces
