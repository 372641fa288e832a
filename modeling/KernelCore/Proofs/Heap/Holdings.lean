import KernelCore.Proofs.Heap.Ledger

/-!
# What the used blocks of a heap are good for

An allocation adds one block to those that are handed out, and taking a block back removes that one;
blocks at different addresses have no byte in common. When nothing is handed out, the heap is a
single free block again, since free blocks are merged with their neighbours.
-/

namespace KernelCore.Heap

/-- The two blocks have no byte in common. -/
def Apart (left right : Block) : Prop :=
  left.address.toNat + left.size.toNat ≤ right.address.toNat ∨
    right.address.toNat + right.size.toNat ≤ left.address.toNat

instance : Std.Symm Apart where
  symm _ _ := Or.symm

section Holdings

variable {heap after : Heap} {entries : List Placed} {size address : UInt32}

/-- An allocation adds one block to those that are handed out, and it is large enough. -/
theorem Sound.adds (sound : heap.Sound entries)
    (run : (Heap.allocate size).Yields heap (.ok address) after) :
    ∃ result granted, after.Sound result ∧ after.regionStart = heap.regionStart ∧
      after.regionEnd = heap.regionEnd ∧
      (handedOut result).Perm ((address, granted) :: handedOut entries) ∧
      size.toNat ≤ granted.toNat := by
  rcases sound.allocate size with ⟨reply, final, result, again, outcome, soundAfter, start, past, -⟩
  rcases run.unique again with ⟨rfl, rfl⟩
  rcases outcome.handedOut_perm with ⟨granted, rounded, perm, rounding, enough⟩
  refine ⟨result, granted, soundAfter, start, past, perm, ?_⟩
  have least := (roundUp_eq_some rounding).1
  have align : Layout.heapAlign.toNat = 4 := rfl
  rw [UInt32.le_iff_toNat_le] at enough
  omega

/-- A block that is handed out is taken back, and no other. -/
theorem Sound.removes (sound : heap.Sound entries)
    (held : address ∈ (handedOut entries).map Prod.fst) {reply : Except HeapError Unit}
    (run : (Heap.free address).Yields heap reply after) :
    reply = .ok () ∧ ∃ result granted, after.Sound result ∧
      after.regionStart = heap.regionStart ∧ after.regionEnd = heap.regionEnd ∧
      (handedOut entries).Perm ((address, granted) :: handedOut result) := by
  rcases sound.free address with ⟨_, final, result, again, outcome, soundAfter, start, past, -⟩
  rcases run.unique again with ⟨rfl, rfl⟩
  rcases List.mem_map.mp held with ⟨⟨_, extent⟩, listed, rfl⟩
  rcases mem_handedOut.mp listed with ⟨entry, mem, used, there, -⟩
  cases reply with
  | ok _ =>
      rcases outcome.handedOut_perm with ⟨granted, perm⟩
      exact ⟨rfl, result, granted, soundAfter, start, past, perm⟩
  | error cause =>
      exfalso
      cases outcome with
      | unknown none_there => exact none_there entry mem there
      | @double other listed also free =>
          have alone := Ledger.filter_address sound mem
          have inFilter : other.2 ∈ (entries.map Prod.snd).filter
              (·.address == entry.2.address) :=
            List.mem_filter.mpr ⟨List.mem_map_of_mem listed, by simp [also, there]⟩
          rw [alone, List.mem_singleton] at inFilter
          rw [inFilter, used] at free
          cases free

/-- Blocks at different addresses have no byte in common. -/
theorem Laid.apart (laid : heap.Laid entries) {left right : Block}
    (leftMem : left ∈ entries.map Prod.snd) (rightMem : right ∈ entries.map Prod.snd)
    (differ : left.address ≠ right.address) : Apart left right := by
  have apart : (entries.map Prod.snd).Pairwise Apart := by
    apply laid.tiled.pairwise.imp
    intro lower upper ordered
    exact Or.inl (by omega)
  exact apart.forall leftMem rightMem fun same => differ (congrArg Block.address same)

/-- If nothing is handed out, the region is a single free block. -/
theorem Sound.single (sound : heap.Sound entries) (nothing : handedOut entries = [])
    (room : heap.regionStart < heap.regionEnd) :
    ∃ block, entries.map Prod.snd = [block] ∧ block.free = true ∧
      block.address.toNat = heap.regionStart.toNat + Layout.blockHeaderSize.toNat ∧
      block.address.toNat + block.size.toNat = heap.regionEnd.toNat := by
  have free : ∀ entry ∈ entries, entry.2.free = true := by
    intro entry mem
    rw [handedOut, List.map_eq_nil_iff, List.filter_eq_nil_iff] at nothing
    simpa using nothing entry mem
  have tiled := sound.tiled
  have separated := sound.separated
  cases entries with
  | nil =>
      rw [UInt32.lt_iff_toNat_lt] at room
      exact absurd tiled (Nat.ne_of_lt room)
  | cons entry rest =>
      cases rest with
      | nil => exact ⟨entry.2, rfl, free entry List.mem_cons_self, tiled.1, tiled.2⟩
      | cons next rest =>
          -- Two free blocks next to each other would have been merged.
          have apart := (List.isChain_cons_cons.mp separated).1
          exact absurd ⟨free entry (by simp), free next (by simp)⟩ apart

end Holdings

end KernelCore.Heap
