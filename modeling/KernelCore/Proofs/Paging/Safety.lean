import KernelCore.Paging.AddressSpaces
import KernelCore.Proofs.FrameBitmap
import KernelCore.Proofs.Safety

/-!
# Address spaces cannot fault

All that can go wrong in an operation on address spaces is that a frame is counted off where none
is left. On a well-formed bitmap this never happens, and frames taken and given back leave the
bitmap well formed, whatever memory holds and whichever frames are given back.
-/

namespace KernelCore

namespace FrameBitmap

theorem safe_allocate : allocate.Safe WellFormed := by
  intro before wellFormed
  rcases wellFormed.allocate with ⟨reply, after, run, -, stays⟩
  exact ⟨reply, after, run, stays⟩

theorem safe_free (frame : Frame) : (free frame).Safe WellFormed := by
  intro before wellFormed
  rcases wellFormed.free frame with ⟨reply, after, run, -, stays⟩
  exact ⟨reply, after, run, stays⟩

/-- However much memory there is, no more frames are tracked than there are bits for. -/
theorem safe_reset (totalBytes : Nat) (reservedEnd : UInt32) :
    (reset totalBytes reservedEnd).Safe WellFormed := by
  intro before wellFormed
  have small : min totalBytes Layout.maxPhysicalMemory / Layout.frameSize ≤ Layout.maxFrames :=
    Nat.div_le_div_right (Nat.min_le_right _ _)
  rcases reset_cases before totalBytes reservedEnd with ⟨-, run⟩ | ⟨-, run⟩
  · exact ⟨_, _, run, wellFormed_fresh _ small⟩
  · exact ⟨_, _, run, wellFormed⟩

end FrameBitmap

namespace AddressSpaces

open Fallible

/-- The bitmap that frames are taken from is well formed. -/
def Founded (spaces : AddressSpaces) : Prop :=
  spaces.frames.WellFormed

section Parts

variable {Value : Type}

theorem safe_onFrames {action : Operation FrameBitmap Value}
    (safe : action.Safe FrameBitmap.WellFormed) : (onFrames action).Safe Founded :=
  Operation.safe_within safe (fun _ founded => founded) fun _ _ _ wellFormed => wellFormed

theorem safe_modifyMemory (change : Memory → Memory) : (modifyMemory change).Safe Founded :=
  Operation.safe_modify fun _ founded => founded

theorem safe_readEntry (frame : Frame) (index : Fin Layout.pageEntries) :
    (readEntry frame index).Safe Founded :=
  Operation.safe_modifyGet fun _ founded => founded

theorem safe_takeFrame : takeFrame.Safe Founded := by
  refine safe_bind (safe_lift (safe_onFrames FrameBitmap.safe_allocate)) fun found => ?_
  cases found with
  | none => exact safe_throw
  | some frame => exact safe_pure

theorem safe_createDirectory : createDirectory.Safe Founded := by
  refine safe_bind safe_takeFrame fun frame => ?_
  exact safe_bind (safe_lift (safe_modifyMemory _)) fun _ => safe_pure

theorem safe_createProcessDirectory : createProcessDirectory.Safe Founded := by
  refine safe_bind safe_createDirectory fun directory => ?_
  refine safe_bind safe_get fun spaces => ?_
  cases spaces.kernel with
  | none => exact safe_pure
  | some root => exact safe_bind (safe_lift (safe_modifyMemory _)) fun _ => safe_pure

theorem safe_writableTable (directory : Directory) (index : Fin Layout.pageEntries) :
    (writableTable directory index).Safe Founded := by
  refine safe_bind (safe_lift (safe_readEntry _ _)) fun entry => ?_
  split
  · exact safe_pure
  · refine safe_bind safe_get fun spaces => ?_
    split
    · refine safe_bind safe_takeFrame fun copy => ?_
      refine safe_bind (safe_lift (safe_modifyMemory _)) fun _ => ?_
      refine safe_bind (safe_lift (safe_readEntry _ _)) fun entry => ?_
      refine safe_bind (safe_lift (safe_modifyMemory _)) fun _ => ?_
      exact safe_bind safe_perform fun _ => safe_pure
    · exact safe_pure

theorem safe_tableFor (directory : Directory) (index : Fin Layout.pageEntries)
    (flags : PageFlags) : (tableFor directory index flags).Safe Founded := by
  refine safe_bind (safe_writableTable directory index) fun found => ?_
  cases found with
  | some table =>
      simp only []
      split
      · refine safe_bind (safe_lift (safe_readEntry _ _)) fun entry => ?_
        exact safe_bind (safe_lift (safe_modifyMemory _)) fun _ => safe_pure
      · exact safe_pure
  | none =>
      refine safe_bind safe_takeFrame fun table => ?_
      exact safe_bind (safe_lift (safe_modifyMemory _)) fun _ => safe_pure

theorem safe_invalidateIn (directory : Directory) (address : VirtAddr) :
    (invalidateIn directory address).Safe Founded := by
  refine Operation.safe_bind Operation.safe_get fun spaces => ?_
  split
  · exact Operation.safe_perform
  · exact Operation.safe_pure

theorem safe_mapIn (directory : Directory) (virtual : VirtAddr) (physical : PhysAddr)
    (flags : PageFlags) : (mapIn directory virtual physical flags).Safe Founded := by
  refine safe_bind (safe_tableFor _ _ _) fun table => ?_
  refine safe_bind (safe_lift (safe_modifyMemory _)) fun _ => ?_
  exact safe_lift (safe_invalidateIn _ _)

theorem safe_unmapIn (directory : Directory) (virtual : VirtAddr) :
    (unmapIn directory virtual).Safe Founded := by
  refine safe_bind safe_get fun spaces => ?_
  split
  · refine safe_bind (safe_writableTable _ _) fun found => ?_
    split
    · refine safe_bind (safe_lift (safe_readEntry _ _)) fun entry => ?_
      refine safe_bind (safe_lift (safe_modifyMemory _)) fun _ => ?_
      exact safe_bind (safe_lift (safe_invalidateIn _ _)) fun _ => safe_pure
    · exact safe_throw
  · exact safe_throw

theorem safe_active : active.Safe Founded := by
  refine safe_bind safe_get fun spaces => ?_
  split
  · exact safe_pure
  · exact safe_throw

theorem safe_initKernelDirectory (past : UInt32) : (initKernelDirectory past).Safe Founded := by
  refine safe_bind safe_createDirectory fun directory => ?_
  refine safe_bind (safe_sweep (fun page => safe_mapIn _ _ _ _) _ _) fun _ => ?_
  refine safe_bind (safe_lift (Operation.safe_modify fun _ founded => founded)) fun _ => ?_
  exact safe_bind safe_perform fun _ => safe_pure

theorem safe_releaseFrames (frames : List Frame) : (releaseFrames frames).Safe Founded := by
  induction frames with
  | nil => exact Operation.safe_pure
  | cons frame rest ih =>
      refine Operation.safe_bind (safe_onFrames (FrameBitmap.safe_free frame)) fun first => ?_
      exact Operation.safe_bind ih fun others => Operation.safe_pure

/-- An address space can be given back whatever its directory holds. -/
theorem safe_destroyDirectory (directory : Directory) :
    (destroyDirectory directory).Safe Founded := by
  refine safe_bind safe_get fun spaces => ?_
  refine safe_bind (safe_lift (Operation.safe_modify fun spaces founded => ?_)) fun _ =>
    safe_releaseFrames _
  split
  · exact founded
  · exact founded

theorem safe_switchTo (directory : Directory) : (switchTo directory).Safe Founded := by
  refine Operation.safe_bind (Operation.safe_modify fun _ founded => founded) fun _ => ?_
  exact Operation.safe_bind Operation.safe_perform fun _ => Operation.safe_perform

end Parts

end AddressSpaces

end KernelCore
