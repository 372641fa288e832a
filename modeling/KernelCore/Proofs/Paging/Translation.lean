import KernelCore.Proofs.Paging.Directories
import KernelCore.Proofs.Paging.Fields

/-!
# What mapping and unmapping make of translations

To map a page or to remove its mapping, one entry of one table is written. `Retranslates` says what
that means for a directory: the addresses of one page are translated as told, and all others as
before. It holds for a page that is mapped with declared flags, whether the table was there, had to
be copied or had to be made, and for a page whose mapping is removed. Where pages are mapped one
after another to the frames with their own addresses, `IdentityMapped` grows by a page each time.
-/

namespace KernelCore

namespace VirtAddr

/-- The addresses lie on the same page. -/
def SamePage (left right : VirtAddr) : Prop :=
  left.directoryIndex = right.directoryIndex ∧ left.tableIndex = right.tableIndex

/-- The upper twenty bits of an address are the number of its page. -/
theorem samePage_iff {left right : VirtAddr} :
    left.SamePage right ↔
      left.word.toNat / Layout.frameSize = right.word.toNat / Layout.frameSize := by
  have leftBound := left.word.toNat_lt
  have rightBound := right.word.toNat_lt
  simp only [SamePage, directoryIndex, tableIndex, Fin.ext_iff, Fin.val_ofNat, Layout.pageEntries,
    Layout.frameSize]
  omega

theorem pageOffset_lt (address : VirtAddr) : address.pageOffset.toNat < 2 ^ 12 := by
  rw [pageOffset, UInt32.toNat_and]
  exact Nat.lt_of_le_of_lt Nat.and_le_right (by decide)

end VirtAddr

/-- The start of a frame has no bits where an offset into the frame has them. -/
theorem Frame.start_or_pageOffset (frame : Frame) (address : VirtAddr) :
    frame.start.word ||| address.pageOffset = frame.start.word + address.pageOffset := by
  have start : frame.start.word.toNat = 2 ^ 12 * frame.number.val :=
    frame.toNat_start.trans (Nat.mul_comm _ _)
  have bound : frame.number.val < 0x100000 := frame.number.isLt
  have offset := address.pageOffset_lt
  rw [← UInt32.toNat_inj, UInt32.toNat_or, UInt32.toNat_add, start,
    ← Nat.two_pow_add_eq_or_of_lt offset]
  exact (Nat.mod_eq_of_lt (by omega)).symm

/-- An address is the start of the frame with the number of its page, and the offset into it. -/
theorem Frame.start_containing_add_pageOffset (address : VirtAddr) :
    (Frame.containing ⟨address.word⟩).start.word + address.pageOffset = address.word := by
  have bound := address.word.toNat_lt
  have mask : (0xFFF : UInt32).toNat = 2 ^ 12 - 1 := rfl
  have number : (Frame.containing ⟨address.word⟩).number.val = address.word.toNat / 2 ^ 12 :=
    Nat.mod_eq_of_lt (by change address.word.toNat / 4096 < 0x100000; omega)
  have size : Layout.frameSize = 2 ^ 12 := rfl
  rw [← UInt32.toNat_inj, UInt32.toNat_add, Frame.toNat_start, number, size, VirtAddr.pageOffset,
    UInt32.toNat_and, mask, Nat.and_two_pow_sub_one_eq_mod, Nat.div_add_mod']
  exact Nat.mod_eq_of_lt bound

namespace Entry

variable {flags : PageFlags}

/-- The entry of a page is in force if the flags say so, and then names the frame. -/
theorem frame_ofFrame_of_declared (frame : Frame) (declared : flags.truncate = flags) :
    (ofFrame frame flags).frame = if flags.contains .present then some frame else none := by
  by_cases present : flags.contains .present = true
  · rw [if_pos present]
    refine frame_ofFrame frame ⟨?_, ?_⟩
    · rw [← declared]
      exact flags.truncate_lt
    · rw [← PageFlags.contains_present]
      exact present
  · rw [if_neg present]
    apply frame_eq_none_of_absent
    rw [isPresent, flags_ofFrame, declared]
    exact Bool.of_not_eq_true present

theorem frame_withoutPresent (entry : Entry) (flags : PageFlags) :
    (entry.withFlags (flags.diff .present)).frame = none :=
  frame_eq_none_of_absent ((contains_withFlags entry _ PageFlags.isBit_present).trans
    flags.contains_diff_present)

end Entry

namespace AddressSpaces

variable {before after spaces : AddressSpaces} {directory : Directory} {virtual address : VirtAddr}
  {index : Fin Layout.pageEntries} {table : Frame} {contents : Table} {entry : Entry}

/-- A directory translates the addresses of one page as told, and all others as before. -/
structure Retranslates (before after : AddressSpaces) (directory : Directory) (virtual : VirtAddr)
    (now : VirtAddr → Option (PhysAddr × PageFlags)) : Prop where
  page : ∀ address : VirtAddr, address.SamePage virtual →
    after.translateIn directory address = now address
  others : ∀ address : VirtAddr, ¬address.SamePage virtual →
    after.translateIn directory address = before.translateIn directory address

theorem translateIn_of_entry
    (found : (spaces.pageTable directory address.directoryIndex).get address.tableIndex = entry) :
    spaces.translateIn directory address =
      entry.frame.map fun frame => (⟨frame.start.word + address.pageOffset⟩, entry.flags) := by
  rw [translateIn_eq, ← found]
  simp only [Frame.start_or_pageOffset, Vector.get_eq_getElem, Fin.getElem_fin]

namespace Edit

/-- Where one entry of a table is written, the directory translates only the page of that entry in
another way. -/
theorem samePage (edit : Edit before after directory virtual.directoryIndex table
      ((before.pageTable directory virtual.directoryIndex).set virtual.tableIndex entry
        virtual.tableIndex.isLt))
    (separate : Separate before directory)
    (changed : after.translateIn directory address ≠ before.translateIn directory address) :
    address.SamePage virtual := by
  have here : address.directoryIndex = virtual.directoryIndex :=
    Classical.byContradiction fun elsewhere =>
      changed (translateIn_congr (edit.pageTable_sibling separate elsewhere))
  refine ⟨here, Classical.byContradiction fun elsewhere => ?_⟩
  apply changed
  apply translateIn_congr_entry
  rw [here, edit.pageTable_edited]
  exact Vector.getElem_set_ne _ _ fun same => elsewhere (Fin.ext same.symm)

/-- The page of an entry that is written is translated as the entry says. -/
theorem retranslates (edit : Edit before after directory virtual.directoryIndex table
      ((before.pageTable directory virtual.directoryIndex).set virtual.tableIndex entry
        virtual.tableIndex.isLt))
    (separate : Separate before directory) :
    Retranslates before after directory virtual fun address =>
      entry.frame.map fun frame => (⟨frame.start.word + address.pageOffset⟩, entry.flags) where
  page address same := by
    rcases same with ⟨sameTable, sameEntry⟩
    apply translateIn_of_entry
    rw [sameTable, edit.pageTable_edited]
    exact (Table.getElem_set _ _ _ _).trans (if_pos sameEntry.symm)
  others address differs := Classical.byContradiction fun changed =>
    differs (edit.samePage separate changed)

theorem wellFormed (edit : Edit before after directory index table contents)
    (was : before.frames.WellFormed) : after.frames.WellFormed := by
  rcases edit.source with ⟨-, -, frames⟩ | ⟨-, wellFormed, -⟩
  · exact frames ▸ was
  · exact wellFormed

/-- At most the frame of a new table is taken. -/
theorem keeps_used (edit : Edit before after directory index table contents) {number : Nat}
    (used : before.frames.isSet number = true) : after.frames.isSet number = true := by
  rcases edit.source with ⟨-, -, frames⟩ | ⟨allocation, -, -⟩
  · rw [frames]
    exact used
  · exact allocation.stays_used used

end Edit

namespace Separate

/-- A page that is mapped with declared flags is translated to its frame from then on, or not at
all if the flags do not say that it is present. -/
theorem mapIn_retranslates (separate : Separate spaces directory) (virtual : VirtAddr)
    (physical : PhysAddr) {flags : PageFlags} (declared : flags.truncate = flags)
    (run : (AddressSpaces.mapIn directory virtual physical flags).Yields spaces (.ok ()) after) :
    Retranslates spaces after directory virtual fun address =>
      if flags.contains .present then
        some (⟨(Frame.containing physical).start.word + address.pageOffset⟩, flags)
      else none := by
  rcases separate.mapIn virtual physical flags with ⟨refused, -⟩ | ⟨table, edited, done, edit⟩
  · cases (run.unique refused).1
  · rcases run.unique done with ⟨-, rfl⟩
    have retranslates := edit.retranslates separate
    refine ⟨fun address same => (retranslates.page address same).trans ?_, retranslates.others⟩
    rw [Entry.frame_ofFrame_of_declared _ declared, Entry.flags_ofFrame, declared]
    split <;> rfl

/-- A page whose mapping is removed is not translated any more. It was translated to the frame that
is the answer, and no frame is given back. -/
theorem unmapIn_retranslates (separate : Separate spaces directory) (virtual : VirtAddr)
    {frame : Frame}
    (run : (AddressSpaces.unmapIn directory virtual).Yields spaces (.ok frame) after) :
    (∃ physical flags, spaces.translateIn directory virtual = some (physical, flags) ∧
      frame = .containing physical) ∧
    Retranslates spaces after directory virtual (fun _ => none) ∧
    ∀ number, spaces.frames.isSet number = true → after.frames.isSet number = true := by
  rcases separate.unmapIn virtual with
    ⟨-, refused⟩ | ⟨physical, flags, mapped, ⟨refused, -⟩ | ⟨table, edited, done, edit⟩⟩
  · cases (run.unique refused).1
  · cases (run.unique refused).1
  · rcases run.unique done with ⟨same, rfl⟩
    cases same
    have retranslates := edit.retranslates separate
    refine ⟨⟨physical, flags, mapped, rfl⟩, ⟨?_, retranslates.others⟩, fun _ => edit.keeps_used⟩
    intro address same
    rw [retranslates.page address same, Entry.frame_withoutPresent, Option.map_none]

end Separate

section IdentityMap

variable {pages : Nat}

/-- The addresses of the first pages lead to themselves and may be written to, and all others lead
nowhere. -/
def IdentityMapped (spaces : AddressSpaces) (directory : Directory) (pages : Nat) : Prop :=
  ∀ address : VirtAddr, spaces.translateIn directory address =
    if address.word.toNat / Layout.frameSize < pages then
      some (⟨address.word⟩, PageFlags.present.union .writable)
    else none

theorem Created.identityMapped (created : Created before after directory .zero) :
    after.IdentityMapped directory 0 := by
  intro address
  have missing : after.tableFrame directory address.directoryIndex = none := by
    rw [tableFrame, Memory.entry, created.holds]
    simp
  rw [translateIn, missing, if_neg (Nat.not_lt_zero _)]
  rfl

theorem IdentityMapped.next (mapped : before.IdentityMapped directory pages)
    (separate : Separate before directory) (small : pages < 2 ^ 20)
    (run : (AddressSpaces.mapIn directory ⟨pageAddress pages⟩ ⟨pageAddress pages⟩
      (PageFlags.present.union .writable)).Yields before (.ok ()) after) :
    after.IdentityMapped directory (pages + 1) := by
  have retranslates := separate.mapIn_retranslates ⟨pageAddress pages⟩ ⟨pageAddress pages⟩
    (by decide) run
  have page : (pageAddress pages).toNat / Layout.frameSize = pages := by
    rw [toNat_pageAddress small]
    exact Nat.mul_div_cancel pages (by decide)
  intro address
  by_cases here : address.SamePage ⟨pageAddress pages⟩
  · have number := VirtAddr.samePage_iff.mp here
    have frame : Frame.containing ⟨pageAddress pages⟩ = .containing ⟨address.word⟩ :=
      congrArg Frame.ofNumber number.symm
    rw [retranslates.page address here, if_pos (by decide), frame,
      Frame.start_containing_add_pageOffset, if_pos]
    rw [number, page]
    exact Nat.lt_succ_self pages
  · have elsewhere : address.word.toNat / Layout.frameSize ≠ pages := by
      intro same
      exact here (VirtAddr.samePage_iff.mpr (same.trans page.symm))
    rw [retranslates.others address here, mapped address]
    congr 1
    exact propext ⟨fun below => Nat.lt_succ_of_lt below,
      fun below => Nat.lt_of_le_of_ne (Nat.le_of_lt_succ below) elsewhere⟩

end IdentityMap

end AddressSpaces

end KernelCore
