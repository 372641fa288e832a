import KernelCore.Proofs.Heap.History
import KernelCore.Proofs.Heap.Walks

/-!
# No sum of the heap leaves a word

Addresses and sizes are words, and the heap adds and subtracts them without looking whether the
result is one. That it always is follows from where blocks lie: they fill the region without gaps,
and the region ends below the top of the address space, however close to it. `Heap.Bounded` lists
what this means for the counts of the heap, and for each sum that the next request can lead to. It
holds after any requests, of any sizes and with any addresses.
-/

namespace KernelCore.Heap

/-- What is counted off the heap of a region, and how far the sums of its requests reach. -/
structure Bounded (heap : Heap) (first past : UInt32) (blocks : List Block) : Prop where
  listed : heap.blocks = .ok blocks
  blockCount : heap.blockCount = .ok blocks.length
  regionSize : ∃ size, heap.regionSize = .ok size ∧ size.toNat + first.toNat = past.toNat
  freeBytes : ∃ free, heap.freeBytes = .ok free ∧
    free.toNat = ((blocks.filter Block.free).map (·.size.toNat)).sum ∧
    heap.usedBytes.toNat + free.toNat + Layout.blockHeaderSize.toNat * blocks.length +
      first.toNat = past.toNat
  /-- No link leads to an empty slot. -/
  occupied : ∀ slot ∈ heap.chain, ∃ block ∈ blocks, heap.block slot = .ok block
  inside : ∀ block ∈ blocks, first.toNat + Layout.blockHeaderSize.toNat ≤ block.address.toNat ∧
    block.address.toNat + block.size.toNat ≤ past.toNat
  /-- What is cut off a block has room for its header before the block ends. -/
  cut : ∀ block ∈ blocks, ∀ size, splitThreshold size < block.size →
    block.address.toNat + size.toNat + Layout.blockHeaderSize.toNat <
      block.address.toNat + block.size.toNat
  /-- Two blocks that are merged, with the header between them, end where the second did. -/
  merged : blocks.IsChain fun left right =>
    left.address.toNat + (left.size.toNat + (right.size.toNat + Layout.blockHeaderSize.toNat)) =
      right.address.toNat + right.size.toNat
  /-- A block that is handed out can be counted as used, -/
  granted : ∀ block ∈ blocks, block.free = true →
    heap.usedBytes.toNat + block.size.toNat + first.toNat ≤ past.toNat
  /-- and one that is taken back was. -/
  released : ∀ block ∈ blocks, block.free = false → block.size.toNat ≤ heap.usedBytes.toNat

section Sums

variable {first past : Nat} {blocks : List Block} {block : Block}

/-- Blocks that follow each other are apart by a header. -/
theorem Tiles.isChain (tiles : Tiles first past blocks) :
    blocks.IsChain fun left right =>
      left.address.toNat + (left.size.toNat + (right.size.toNat + Layout.blockHeaderSize.toNat)) =
        right.address.toNat + right.size.toNat := by
  induction blocks generalizing first with
  | nil => exact List.isChain_nil
  | cons left rest ih =>
      rcases tiles with ⟨-, onward⟩
      refine List.isChain_cons.mpr ⟨?_, ih onward⟩
      intro right mem
      cases rest with
      | nil => cases mem
      | cons next others =>
          cases mem
          rcases onward with ⟨start, -⟩
          omega

/-- Payload is used or free. -/
theorem usedSize_add_free (blocks : List Block) :
    usedSize blocks + ((blocks.filter Block.free).map (·.size.toNat)).sum =
      (blocks.map (·.size.toNat)).sum := by
  induction blocks with
  | nil => rfl
  | cons block rest ih =>
      cases free : block.free <;> simp [free] <;> omega

theorem size_le_usedSize (mem : block ∈ blocks) (used : block.free = false) :
    block.size.toNat ≤ usedSize blocks :=
  List.le_sum_of_mem (List.mem_map_of_mem (List.mem_filter.mpr ⟨mem, by rw [used]; rfl⟩))

theorem size_le_free (mem : block ∈ blocks) (free : block.free = true) :
    block.size.toNat ≤ ((blocks.filter Block.free).map (·.size.toNat)).sum :=
  List.le_sum_of_mem (List.mem_map_of_mem (List.mem_filter.mpr ⟨mem, free⟩))

end Sums

section Histories

variable {heap : Heap} {entries : List Placed}

/-- The blocks fill the region, and all sums follow from that. -/
theorem Laid.bounded (laid : heap.Laid entries) :
    heap.Bounded heap.regionStart heap.regionEnd (entries.map Prod.snd) := by
  have total := laid.tiled.total
  have parts := usedSize_add_free (entries.map Prod.snd)
  have counted := laid.counted
  rcases laid.freeBytes_eq with ⟨free, freeRun, freeSum⟩
  refine
    { listed := laid.blocks_eq, blockCount := ?_, regionSize := ?_, freeBytes := ?_,
      occupied := ?_, inside := fun block mem => laid.tiled.bounds mem, cut := ?_,
      merged := laid.tiled.isChain, granted := ?_, released := ?_ }
  · simp [Heap.blockCount, laid.blocks_eq, bind, Except.bind, pure, Except.pure]
  · have less : heap.regionStart.toNat ≤ heap.regionEnd.toNat := laid.tiled.first_le
    have difference := Checked.sub32_of_le less
    exact ⟨_, difference, (Checked.sub32_eq_ok_iff.mp difference)⟩
  · exact ⟨free, freeRun, freeSum, by omega⟩
  · intro slot mem
    rw [laid.chain_eq] at mem
    rcases List.mem_map.mp mem with ⟨⟨place, block⟩, listed, rfl⟩
    exact ⟨block, List.mem_map_of_mem listed, laid.block_eq listed⟩
  · intro block mem size large
    have enough := splitThreshold_lt_iff.mp large
    omega
  · intro block mem isFree
    have part := size_le_free mem isFree
    omega
  · intro block mem used
    rw [counted]
    exact size_le_usedSize mem used

/-- A request that is served leaves the region as it is, and its blocks as they should be. -/
theorem Request.deal_sound (request : Request) (sound : heap.Sound entries) :
    ∃ dealing after result, request.deal.Yields heap dealing after ∧ after.Sound result ∧
      after.regionStart = heap.regionStart ∧ after.regionEnd = heap.regionEnd := by
  cases request with
  | allocate size =>
      rcases sound.allocate size with ⟨reply, after, result, run, -, stays, start, ended, -⟩
      exact ⟨_, after, result, Operation.yields_map.mpr ⟨reply, run, rfl⟩, stays, start, ended⟩
  | free address =>
      rcases sound.free address with ⟨reply, after, result, run, -, stays, start, ended, -⟩
      exact ⟨_, after, result, Operation.yields_map.mpr ⟨reply, run, rfl⟩, stays, start, ended⟩

theorem deals_sound (requests : List Request) (sound : heap.Sound entries) :
    ∃ history after result, (requests.mapM Request.deal).Yields heap history after ∧
      after.Sound result ∧ after.regionStart = heap.regionStart ∧
      after.regionEnd = heap.regionEnd := by
  induction requests generalizing heap entries with
  | nil => exact ⟨[], heap, entries, Operation.yields_pure.mpr ⟨rfl, rfl⟩, sound, rfl, rfl⟩
  | cons request rest ih =>
      rcases request.deal_sound sound with ⟨dealing, between, middle, begun, stays, start, past⟩
      rcases ih stays with ⟨history, after, result, ended, staysAfter, startAfter, pastAfter⟩
      refine ⟨dealing :: history, after, result, ?_, staysAfter, startAfter.trans start,
        pastAfter.trans past⟩
      exact Operation.yields_mapM_cons.mpr ⟨dealing, between, history, begun, ended, rfl⟩

/-- A region is refused or has room for a block. If it is accepted, then every request after it ends
without a fault, so no sum leaves a word and no empty slot is looked up, and all blocks and counts
stay within the region. -/
theorem bounded_of_requests (old : Heap) (first past : UInt32) :
    (past.toNat ≤ first.toNat + Layout.blockHeaderSize.toNat ∧
      (reset first past).Yields old (.error .regionTooSmall) old) ∨
    (first.toNat + Layout.blockHeaderSize.toNat < past.toNat ∧
      ∃ start, (reset first past).Yields old (.ok ()) start ∧
        ∀ requests : List Request, ∃ history heap blocks,
          (requests.mapM Request.deal).Yields start history heap ∧
            heap.Bounded first past blocks) := by
  rcases reset_cases old first past with
    ⟨start, initial, run, sound, -, isFirst, isPast⟩ | ⟨small, refused⟩
  · refine Or.inr ⟨room_of_reset run, start, run, fun requests => ?_⟩
    rcases deals_sound requests sound with
      ⟨history, heap, entries, served, stays, sameFirst, samePast⟩
    have bounded := stays.toLaid.bounded
    rw [sameFirst, samePast, isFirst, isPast] at bounded
    exact ⟨history, heap, entries.map Prod.snd, served, bounded⟩
  · refine Or.inl ⟨?_, refused⟩
    rcases small with less | short
    · exact Nat.le_add_right_of_le (UInt32.le_iff_toNat_le.mp less)
    · by_cases less : past ≤ first
      · exact Nat.le_add_right_of_le (UInt32.le_iff_toNat_le.mp less)
      · have difference := UInt32.toNat_sub_of_le _ _ (UInt32.le_of_lt (UInt32.not_le.mp less))
        have within := UInt32.le_iff_toNat_le.mp short
        omega

end Histories

end KernelCore.Heap
