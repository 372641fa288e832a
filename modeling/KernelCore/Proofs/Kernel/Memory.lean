import KernelCore.Proofs.Kernel.Accounts

/-!
# Memory operations and the kernel's frames

What the memory operations of the kernel do to its accounts: mapping and unmapping give a frame at
most to the address space that they edit, a frame that is handed out is held until it is given back,
and an address space that is made for nobody belongs to nobody's process.
-/

namespace KernelCore.Kernel

open AddressSpaces

/-- All frames that somebody owns. -/
def ownedFrames (kernel : Kernel) (root : Directory) (held : List Frame)
    (created : List Directory) : List Frame :=
  held ++ (kernel.owners root created).flatMap kernel.spaces.privateFrames

namespace Accounted

variable {Value : Type} {before after : Kernel} {root directory : Directory} {held : List Frame}
  {created : List Directory} {frame : Frame} {spaces : AddressSpaces}

theorem edit (accounted : before.Accounted root held created)
    (mem : directory ∈ before.owners root created)
    {action : Fallible AddressSpaces MapError Value}
    (edits : Edits action before.spaces directory) {reply : Except MapError Value}
    (run : action.Yields before.spaces reply spaces) :
    ({ before with spaces } : Kernel).Accounted root held created := by
  rcases edits with ⟨cause, refused⟩ | ⟨value, edited, index, table, contents, done, edit⟩
  · rcases run.unique refused with ⟨-, rfl⟩
    exact accounted
  · rcases run.unique done with ⟨-, rfl⟩
    refine accounted.withSpaces (edit.owned accounted.owned mem)
      (edit.kernel.trans accounted.isKernel) ?_
    intro owner isActive
    exact accounted.active owner (edit.current ▸ isActive)

theorem edit_active (accounted : before.Accounted root held created)
    {request : Directory → Fallible AddressSpaces MapError Value}
    (edits : ∀ directory ∈ before.owners root created,
      Edits (request directory) before.spaces directory)
    {reply : Except MapError Value}
    (run : (AddressSpaces.active >>= request).Yields before.spaces reply spaces) :
    ({ before with spaces } : Kernel).Accounted root held created := by
  cases isActive : before.spaces.current with
  | none =>
      simp [AddressSpaces.active, isActive] at run
      rcases run with ⟨rfl, rfl⟩
      exact accounted
  | some directory =>
      simp [AddressSpaces.active, isActive, and_assoc] at run
      have mem := accounted.active directory isActive
      exact accounted.edit mem (edits directory mem) run

theorem map (accounted : before.Accounted root held created) {virtual : VirtAddr}
    {physical : PhysAddr} {flags : PageFlags} {reply : Except MapError Unit}
    (run : (Kernel.map virtual physical flags).Yields before reply after) :
    after.Accounted root held created := by
  rcases unmaskFallible run with ⟨start, final, begun, done, ended⟩
  rcases yields_onSpaces.mp done with ⟨spaces, request, rfl⟩
  have ready := accounted.congr begun
  refine (ready.edit_active ?_ request).congr ended
  intro directory mem
  exact ready.owned.edits_mapIn mem virtual physical flags

theorem unmap (accounted : before.Accounted root held created) {virtual : VirtAddr}
    {reply : Except MapError Frame} (run : (Kernel.unmap virtual).Yields before reply after) :
    after.Accounted root held created := by
  rcases unmaskFallible run with ⟨start, final, begun, done, ended⟩
  rcases yields_onSpaces.mp done with ⟨spaces, request, rfl⟩
  have ready := accounted.congr begun
  refine (ready.edit_active ?_ request).congr ended
  intro directory mem
  exact ready.owned.edits_unmapIn mem virtual

/-- A frame that is handed out was nobody's, and is held from then on; without one all frames are
used. -/
theorem allocateFrame (accounted : before.Accounted root held created) {reply : Option Frame}
    (run : Kernel.allocateFrame.Yields before reply after) :
    (reply = none ∧ (∀ number, before.spaces.frames.isSet number = true) ∧
      after.Accounted root held created) ∨
      ∃ frame, reply = some frame ∧ frame ∉ before.ownedFrames root held created ∧
        after.Accounted root (frame :: held) created := by
  rcases unmask run with ⟨start, final, begun, done, ended⟩
  rcases yields_onFrames.mp done with ⟨frames, request, rfl⟩
  have ready := accounted.congr begun
  rcases ready.owned.wellFormed.allocate with ⟨granted, taken, served, allocation, wellFormed⟩
  rcases request.unique served with ⟨rfl, rfl⟩
  cases reply with
  | none =>
      left
      refine ⟨rfl, ?_, ?_⟩
      · rw [← begun.spaces]
        cases allocation with
        | exhausted full => exact full
      · cases allocation
        exact ready.congr ended
  | some frame =>
      right
      refine ⟨frame, rfl, ?_, ?_⟩
      · have fresh := ready.owned.accounts.fresh allocation
        rw [ownedFrames, owners, ← begun.spaces, ← begun.table, ← begun.idle]
        exact fresh
      · exact (ready.withFrames wellFormed (ready.owned.accounts.take allocation)).congr ended

theorem freeFrame (accounted : before.Accounted root held created) (mem : frame ∈ held)
    {reply : Except FrameError Unit} (run : (Kernel.freeFrame frame).Yields before reply after) :
    reply = .ok () ∧ after.Accounted root (held.erase frame) created := by
  rcases unmaskFallible run with ⟨start, final, begun, done, ended⟩
  rcases yields_onFrames.mp done with ⟨frames, request, rfl⟩
  have ready := accounted.congr begun
  rcases ready.owned.wellFormed.free frame with ⟨answer, freed, served, release, wellFormed⟩
  rcases request.unique served with ⟨rfl, rfl⟩
  have listed := ready.owned.accounts.perm ((List.perm_cons_erase mem).append_right _)
  rcases listed.release release with ⟨accepted, accounts, -⟩
  exact ⟨accepted, (ready.withFrames wellFormed accounts).congr ended⟩

theorem yields_onFrames_masked {action : Operation FrameBitmap Value}
    (served : ∃ reply frames, action.Yields before.spaces.frames reply frames) :
    ∃ reply after, (masked (onFrames action)).Yields before reply after := by
  rcases served with ⟨reply, frames, served⟩
  have run : ∀ start, SameAccounts before start → ∃ reply final,
      (onFrames action).Yields start reply final ∧ True := by
    intro start same
    rw [← same.spaces] at served
    exact ⟨reply, _, yields_onFrames.mpr ⟨frames, served, rfl⟩, trivial⟩
  rcases mask run with ⟨reply, _, after, done, -⟩
  exact ⟨reply, after, done⟩

theorem yields_allocateFrame (accounted : before.Accounted root held created) :
    ∃ reply after, Kernel.allocateFrame.Yields before reply after := by
  rcases accounted.owned.wellFormed.allocate with ⟨reply, frames, served, -⟩
  exact yields_onFrames_masked ⟨reply, frames, served⟩

theorem yields_freeFrame (accounted : before.Accounted root held created) (frame : Frame) :
    ∃ reply after, (Kernel.freeFrame frame).Yields before reply after := by
  rcases accounted.owned.wellFormed.free frame with ⟨reply, frames, served, -⟩
  exact yields_onFrames_masked ⟨reply, frames, served⟩

/-- An address space is made for nobody, or the request is refused and nothing changes. -/
theorem createProcessDirectory (accounted : before.Accounted root held created)
    {reply : Except MapError Directory}
    (run : AddressSpaces.createProcessDirectory.Yields before.spaces reply spaces) :
    (∃ cause, reply = .error cause ∧ spaces = before.spaces) ∨
      ∃ directory, reply = .ok directory ∧
        ({ before with spaces } : Kernel).Accounted root held (directory :: created) := by
  rcases accounted.owned.createProcessDirectory with
    ⟨refused, -⟩ | ⟨directory, made, done, isNew, owned⟩
  · left
    rcases run.unique refused with ⟨rfl, rfl⟩
    exact ⟨_, rfl, rfl⟩
  · right
    rcases run.unique done with ⟨rfl, rfl⟩
    have perm := (before.owners_cons_perm root directory created).symm
    refine ⟨directory, rfl, accounted.withSpaces (owned.perm perm)
      (isNew.kernel.trans accounted.isKernel) ?_⟩
    intro owner isActive
    rw [isNew.current] at isActive
    exact perm.mem_iff.mp (List.mem_cons_of_mem _ (accounted.active owner isActive))

theorem createDirectory (accounted : before.Accounted root held created)
    {reply : Except MapError Directory} (run : Kernel.createDirectory.Yields before reply after) :
    (∃ cause, reply = .error cause ∧ after.Accounted root held created) ∨
      ∃ directory, reply = .ok directory ∧ after.Accounted root held (directory :: created) := by
  rcases unmaskFallible run with ⟨start, final, begun, done, ended⟩
  rcases yields_onSpaces.mp done with ⟨spaces, request, rfl⟩
  have ready := accounted.congr begun
  rcases ready.createProcessDirectory request with ⟨cause, rfl, rfl⟩ | ⟨directory, rfl, made⟩
  · exact Or.inl ⟨cause, rfl, ready.congr ended⟩
  · exact Or.inr ⟨directory, rfl, made.congr ended⟩

theorem switchAddressSpace (accounted : before.Accounted root held created)
    (mem : directory ∈ before.owners root created) {value : Unit}
    (run : (Kernel.switchAddressSpace directory).Yields before value after) :
    after.Accounted root held created := by
  rcases unmask run with ⟨start, final, begun, done, ended⟩
  rcases yields_onSpaces.mp done with ⟨spaces, request, rfl⟩
  simp [AddressSpaces.switchTo] at request
  subst request
  refine ((accounted.congr begun).activate ?_).congr ended
  rw [owners, begun.table, begun.idle]
  exact mem

theorem kmalloc (accounted : before.Accounted root held created) {size : UInt32}
    {reply : Except HeapError UInt32} (run : (Kernel.kmalloc size).Yields before reply after) :
    after.Accounted root held created := by
  rcases unmaskFallible run with ⟨start, final, begun, done, ended⟩
  have same := sameAccounts_of_onHeap (.request (.allocate size)) rfl done
  exact ((accounted.congr begun).congr same).congr ended

theorem kfree (accounted : before.Accounted root held created) {address : UInt32}
    {reply : Except HeapError Unit} (run : (Kernel.kfree address).Yields before reply after) :
    after.Accounted root held created := by
  rcases unmaskFallible run with ⟨start, final, begun, done, ended⟩
  have same := sameAccounts_of_onHeap (.request (.free address)) rfl done
  exact ((accounted.congr begun).congr same).congr ended

end Accounted

end KernelCore.Kernel
