import KernelCore.Proofs.Heap.Blocks

/-!
# Allocating from the heap

What a request does to the block list. `Heap.Allocation` lists the possible outcomes: the request is
refused and nothing changes, the first free block that is large enough is handed out whole, or that
block is cut and its rest becomes a free block of its own. `Heap.Sound.allocate` says that every
request ends in one of these ways, without a fault, and that the heap stays sound.
-/

namespace KernelCore.Heap

/-- Whether a block can be handed out for a request of the given rounded size. -/
def fits (size : UInt32) (block : Block) : Bool :=
  block.free && size ≤ block.size

/-- What a request for `size` bytes leads to, for a heap with the given blocks. -/
inductive Allocation (heap : Heap) (entries : List Placed) (size : UInt32) :
    Except HeapError UInt32 → List Placed → Prop where
  /-- The request cannot be rounded. -/
  | tooLarge (noSize : roundUp size = none) :
      Allocation heap entries size (.error .outOfMemory) entries
  /-- No free block is large enough. -/
  | exhausted {rounded : UInt32} (rounding : roundUp size = some rounded)
      (none_fits : ∀ entry ∈ entries, fits rounded entry.2 = false) :
      Allocation heap entries size (.error .outOfMemory) entries
  /-- The first block that fits is handed out as it is. -/
  | whole {rounded : UInt32} {front back : List Placed} {slot : BlockSlot} {block : Block}
      (rounding : roundUp size = some rounded)
      (listed : entries = front ++ (slot, block) :: back)
      (earlier : ∀ entry ∈ front, fits rounded entry.2 = false)
      (fitting : fits rounded block = true)
      (uncut : splitThreshold rounded < block.size → heap.spareSlot = none) :
      Allocation heap entries size (.ok block.address)
        (front ++ (slot, { block with free := false }) :: back)
  /-- The first block that fits is cut, and the rest of it is put into the first spare slot. -/
  | cut {rounded : UInt32} {front back : List Placed} {slot spare : BlockSlot} {block rest : Block}
      (rounding : roundUp size = some rounded)
      (listed : entries = front ++ (slot, block) :: back)
      (earlier : ∀ entry ∈ front, fits rounded entry.2 = false)
      (fitting : fits rounded block = true)
      (large : splitThreshold rounded < block.size)
      (spared : heap.spareSlot = some spare)
      (restAddress : rest.address.toNat =
        block.address.toNat + rounded.toNat + Layout.blockHeaderSize.toNat)
      (restSize : rest.size.toNat + Layout.blockHeaderSize.toNat + rounded.toNat =
        block.size.toNat)
      (restFree : rest.free = true)
      (restNext : rest.next = block.next) :
      Allocation heap entries size (.ok block.address)
        (front ++ (slot, { block with size := rounded, free := false, next := some spare }) ::
          (spare, rest) :: back)

section Rounding

theorem roundUp_eq_some {size rounded : UInt32} (rounding : roundUp size = some rounded) :
    size.toNat ≤ rounded.toNat ∧ rounded.toNat < size.toNat + Layout.heapAlign.toNat ∧
      rounded.toNat % Layout.heapAlign.toNat = 0 := by
  have align : Layout.heapAlign.toNat = 4 := rfl
  simp only [roundUp, align] at rounding ⊢
  split at rounding
  · rename_i fits
    simp only [Option.some.injEq] at rounding
    subst rounded
    rw [UInt32.toNat_ofNat_of_lt' (by omega)]
    omega
  · cases rounding

theorem splitThreshold_lt_iff {size bound : UInt32} :
    splitThreshold size < bound ↔
      size.toNat + Layout.blockHeaderSize.toNat + Layout.splitSlop.toNat < bound.toNat := by
  have header : Layout.blockHeaderSize.toNat = 16 := rfl
  have slop : Layout.splitSlop.toNat = 16 := rfl
  have size : UInt32.size = 4294967296 := rfl
  have small := bound.toNat_lt
  rw [splitThreshold, UInt32.lt_iff_toNat_lt, header, slop,
    UInt32.toNat_ofNat_of_lt' (by omega)]
  omega

end Rounding

section Search

variable {heap : Heap} {entries front back : List Placed} {slot : BlockSlot} {block : Block}

/-- The first block that is large enough is found by its slot. -/
theorem Laid.firstFit_eq (laid : heap.Laid entries) (size : UInt32) :
    heap.firstFit size = (entries.find? fun entry => fits size entry.2).map Prod.fst := by
  rw [firstFit, laid.chain_eq, List.find?_map]
  congr 1
  apply List.find?_congr
  intro entry mem
  have present := laid.slot_eq mem
  rw [Function.comp_apply, present]
  rfl

theorem Laid.next_eq (laid : heap.Laid (front ++ (slot, block) :: back)) :
    block.next = back.head?.map Prod.fst := by
  rcases path_append.mp laid.path with ⟨_, _, _, _, onward⟩
  cases back with
  | nil => exact onward
  | cons entry rest => exact onward.1

theorem slots_spareSlot {spare : BlockSlot} (spared : heap.spareSlot = some spare) :
    getElem heap.slots spare spare.isLt = none := by
  have found : heap.slots.find? Option.isNone = some heap.slots[spare] := by
    rw [Vector.find?_eq_map_findFinIdx?_getElem]
    exact congrArg (Option.map _) spared
  exact Option.isNone_iff_eq_none.mp (Vector.find?_some found)

end Search

section Separation

variable {front back : List Block} {block used rest : Block}

theorem separated_used (separated : (front ++ block :: back).IsChain Separate)
    (notFree : used.free = false) : (front ++ used :: back).IsChain Separate := by
  rcases List.isChain_append.mp separated with ⟨frontChain, rearChain, -⟩
  have backChain := (List.isChain_cons.mp rearChain).2
  refine List.isChain_append.mpr ⟨frontChain, List.isChain_cons.mpr ⟨?_, backChain⟩, ?_⟩
  · intro next _
    simp [Separate, notFree]
  · intro previous _ next mem
    cases mem
    simp [Separate, notFree]

theorem separated_cut (separated : (front ++ block :: back).IsChain Separate)
    (free : block.free = true) (notFree : used.free = false) (restFree : rest.free = true) :
    (front ++ used :: rest :: back).IsChain Separate := by
  rcases List.isChain_append.mp separated with ⟨frontChain, rearChain, -⟩
  rcases List.isChain_cons.mp rearChain with ⟨seam, backChain⟩
  have onward : (rest :: back).IsChain Separate := by
    refine List.isChain_cons.mpr ⟨?_, backChain⟩
    intro next mem
    simpa [Separate, free, restFree] using seam next mem
  refine List.isChain_append.mpr ⟨frontChain, List.isChain_cons.mpr ⟨?_, onward⟩, ?_⟩
  · intro next _
    simp [Separate, notFree]
  · intro previous _ next mem
    cases mem
    simp [Separate, notFree]

end Separation

section Changes

variable {heap : Heap} {front back : List Placed} {slot spare : BlockSlot} {block : Block}

theorem Laid.mark (free : Bool) (usedBytes : UInt32)
    (laid : heap.Laid (front ++ (slot, block) :: back))
    (counted : usedBytes.toNat + (if block.free then 0 else block.size.toNat) =
      heap.usedBytes.toNat + (if free then 0 else block.size.toNat)) :
    ({ heap.put slot (some { block with free }) with usedBytes } : Heap).Laid
      (front ++ (slot, { block with free }) :: back) := by
  refine Laid.replace [(slot, block)] [(slot, { block with free })] laid
    { regionStart := rfl, regionEnd := rfl, head := rfl, path := ?_, distinct := by simp,
      outside := ?_, gone := ?_, spare := by simp, tiled := ?_, counted := ?_, aligned := ?_ }
  · rintro cursor past ⟨start, -, onward⟩
    exact ⟨start, (slots_put ..).trans (if_pos rfl), onward⟩
  · intro other old _
    have differs : slot ≠ other := by simpa [eq_comm] using old
    exact (slots_put ..).trans (if_neg differs)
  · intro other old new
    exact absurd old new
  · intro first past tiles
    exact tiles
  · simpa using counted
  · intro entry mem
    rw [List.mem_singleton.mp mem]
    exact laid.aligned (slot, block) (by simp)

/-- The arithmetic of cutting a block in two stays within a word. -/
theorem Laid.split_sums (laid : heap.Laid (front ++ (slot, block) :: back)) {size : UInt32}
    (large : size.toNat + Layout.blockHeaderSize.toNat ≤ block.size.toNat) :
    ∃ past address left rest : UInt32,
      Checked.add32 block.address size = .ok past ∧
      Checked.add32 past Layout.blockHeaderSize = .ok address ∧
      Checked.sub32 block.size size = .ok left ∧
      Checked.sub32 left Layout.blockHeaderSize = .ok rest := by
  have header : Layout.blockHeaderSize.toNat = 16 := rfl
  have inside : block.address.toNat + block.size.toNat ≤ heap.regionEnd.toNat :=
    (laid.bounds (by simp : (slot, block) ∈ front ++ (slot, block) :: back)).2
  have regionEnd := heap.regionEnd.toNat_lt
  have small := block.size.toNat_lt
  simp only [Checked.add32_eq_ok_iff, Checked.sub32_eq_ok_iff]
  refine ⟨.ofNat (block.address.toNat + size.toNat),
    .ofNat (block.address.toNat + size.toNat + 16), .ofNat (block.size.toNat - size.toNat),
    .ofNat (block.size.toNat - size.toNat - 16), ?_⟩
  rw [UInt32.toNat_ofNat_of_lt' (by change _ < 2 ^ 32; omega),
    UInt32.toNat_ofNat_of_lt' (by change _ < 2 ^ 32; omega),
    UInt32.toNat_ofNat_of_lt' (by change _ < 2 ^ 32; omega),
    UInt32.toNat_ofNat_of_lt' (by change _ < 2 ^ 32; omega)]
  omega

/-- Cutting a free block in two keeps the layout. -/
theorem Laid.split (laid : heap.Laid (front ++ (slot, block) :: back)) {size : UInt32}
    (free : block.free = true) (spared : getElem heap.slots spare spare.isLt = none)
    (aligned : size.toNat % Layout.heapAlign.toNat = 0)
    (large : size.toNat + Layout.blockHeaderSize.toNat ≤ block.size.toNat) :
    ∃ rest : Block,
      rest.address.toNat =
        block.address.toNat + size.toNat + Layout.blockHeaderSize.toNat ∧
      rest.size.toNat + Layout.blockHeaderSize.toNat + size.toNat = block.size.toNat ∧
      rest.free = true ∧ rest.next = block.next ∧
      ∃ after, heap.split slot spare block size = .ok after ∧
        after.regionStart = heap.regionStart ∧ after.regionEnd = heap.regionEnd ∧
        after.usedBytes = heap.usedBytes ∧
        after.Laid (front ++ (slot, { block with size, next := some spare }) ::
          (spare, rest) :: back) := by
  have header : Layout.blockHeaderSize.toNat = 16 := rfl
  have align : Layout.heapAlign.toNat = 4 := rfl
  have mem : (slot, block) ∈ front ++ (slot, block) :: back := by simp
  have present := laid.slot_eq mem
  have differs : slot ≠ spare := by
    rintro rfl
    simp [present] at spared
  rcases laid.split_sums large with
    ⟨past, address, left, rest, pastSum, addressSum, leftSum, restSum⟩
  have pastValue := Checked.add32_eq_ok_iff.mp pastSum
  have addressValue := Checked.add32_eq_ok_iff.mp addressSum
  have leftValue := Checked.sub32_eq_ok_iff.mp leftSum
  have restValue := Checked.sub32_eq_ok_iff.mp restSum
  refine ⟨{ address, size := rest, free := true, next := block.next }, by dsimp only; omega,
    by dsimp only; omega, rfl, rfl,
    (heap.put spare (some { address, size := rest, free := true, next := block.next })).put slot
      (some { block with size, next := some spare }), ?_, rfl, rfl, rfl, ?_⟩
  · simp only [Heap.split, pastSum, addressSum, leftSum, restSum, bind, Except.bind, pure,
      Except.pure]
  · refine Laid.replace [(slot, block)]
      [(slot, { block with size, next := some spare }),
        (spare, { address, size := rest, free := true, next := block.next })] laid
      { regionStart := rfl, regionEnd := rfl, head := rfl, path := ?_,
        distinct := by simpa using differs, outside := ?_, gone := ?_, spare := ?_, tiled := ?_,
        counted := ?_, aligned := ?_ }
    · rintro cursor past ⟨start, -, onward⟩
      refine ⟨start, (slots_put ..).trans (if_pos rfl), rfl, ?_, onward⟩
      rw [slots_put, if_neg differs, slots_put, if_pos rfl]
    · intro other old new
      simp only [List.map_cons, List.map_nil, List.mem_cons, List.not_mem_nil, or_false,
        not_or] at new
      rw [slots_put, if_neg (Ne.symm new.1), slots_put, if_neg (Ne.symm new.2)]
    · intro other old new
      simp only [List.map_cons, List.map_nil, List.mem_singleton] at old
      simp [old] at new
    · intro other mem
      simp only [List.map_cons, List.map_nil, List.mem_cons, List.not_mem_nil, or_false] at mem ⊢
      rcases mem with rfl | rfl
      · exact Or.inl rfl
      · exact Or.inr spared
    · rintro first past ⟨start, ended⟩
      change block.address.toNat + block.size.toNat = past at ended
      refine ⟨start, ?_, ?_⟩
      · dsimp only
        omega
      · change address.toNat + rest.toNat = past
        omega
    · simp [put, free]
    · have old := laid.aligned (slot, block) mem
      intro entry mem
      simp only [List.mem_cons, List.not_mem_nil, or_false] at mem
      rcases mem with rfl | rfl
      · exact old
      · simp only [align] at old aligned ⊢
        omega

/-- Handing a free block out never counts more used bytes than the region has. -/
theorem Laid.grant (laid : heap.Laid (front ++ (slot, block) :: back))
    (free : block.free = true) :
    ∃ after, (Heap.grant slot).Yields heap block.address after ∧
      after.regionStart = heap.regionStart ∧ after.regionEnd = heap.regionEnd ∧
      after.Laid (front ++ (slot, { block with free := false }) :: back) := by
  have mem : (slot, block) ∈ front ++ (slot, block) :: back := by simp
  have present := laid.block_eq mem
  have total := laid.tiled.total
  have used := laid.counted
  have bound := heap.regionEnd.toNat_lt
  have frontUsed := usedSize_le (front.map Prod.snd)
  have backUsed := usedSize_le (back.map Prod.snd)
  simp only [List.map_append, List.map_cons, List.sum_append, List.sum_cons, usedSize_append,
    usedSize_cons, free, if_true] at total used
  have sum : ∃ usedBytes, Checked.add32 heap.usedBytes block.size = .ok usedBytes := by
    refine ⟨.ofNat (heap.usedBytes.toNat + block.size.toNat), Checked.add32_eq_ok_iff.mpr ?_⟩
    rw [UInt32.toNat_ofNat_of_lt' (by change _ < 2 ^ 32; omega)]
  rcases sum with ⟨usedBytes, sum⟩
  have value := Checked.add32_eq_ok_iff.mp sum
  refine ⟨{ heap.put slot (some { block with free := false }) with usedBytes }, ?_, rfl, rfl, ?_⟩
  · simp [Heap.grant, present, sum]
  · exact laid.mark false usedBytes (by simp [free, value])

/-- Rounding, searching, cutting and handing out together never fault. -/
theorem Sound.allocate {entries : List Placed} (sound : heap.Sound entries) (size : UInt32) :
    ∃ reply after result, (Heap.allocate size).Yields heap reply after ∧
      Allocation heap entries size reply result ∧ after.Sound result ∧
      after.regionStart = heap.regionStart ∧ after.regionEnd = heap.regionEnd ∧
      ∀ cause, reply = .error cause → after = heap := by
  cases rounding : roundUp size with
  | none =>
      refine ⟨.error .outOfMemory, heap, entries, ?_, .tooLarge rounding, sound, rfl, rfl,
        fun _ _ => rfl⟩
      simp [Heap.allocate, rounding]
  | some rounded =>
      have search := sound.firstFit_eq rounded
      cases first : entries.find? fun entry => fits rounded entry.2 with
      | none =>
        have found : heap.firstFit rounded = none := by rw [search, first, Option.map_none]
        have none_fits : ∀ entry ∈ entries, fits rounded entry.2 = false := by
          simpa using List.find?_eq_none.mp first
        refine ⟨.error .outOfMemory, heap, entries, ?_, .exhausted rounding none_fits, sound, rfl,
          rfl, fun _ _ => rfl⟩
        simp [Heap.allocate, rounding, found]
      | some entry =>
        rcases entry with ⟨slot, block⟩
        have found : heap.firstFit rounded = some slot := by rw [search, first, Option.map_some]
        rcases List.find?_eq_some_iff_append.mp first with ⟨fitting, front, back, rfl, missed⟩
        have earlier : ∀ entry ∈ front, fits rounded entry.2 = false := by
          simpa using missed
        have listed : (slot, block) ∈ front ++ (slot, block) :: back := by simp
        have present := sound.block_eq listed
        have free : block.free = true := by
          simp only [fits, Bool.and_eq_true] at fitting
          exact fitting.1
        have separated := sound.separated
        rw [List.map_append, List.map_cons] at separated
        by_cases uncut : splitThreshold rounded < block.size → heap.spareSlot = none
        · rcases sound.grant free with ⟨after, granted, regionStart, regionEnd, laid⟩
          refine ⟨.ok block.address, after, _, ?_, .whole rounding rfl earlier fitting uncut,
            ⟨laid, ?_⟩, regionStart, regionEnd, fun _ impossible => nomatch impossible⟩
          · by_cases large : splitThreshold rounded < block.size
            · simp [Heap.allocate, rounding, found, present, large, uncut large, granted]
            · simp [Heap.allocate, rounding, found, present, large, granted]
          · rw [List.map_append, List.map_cons]
            exact separated_used separated rfl
        · simp only [Classical.not_imp, ← ne_eq, Option.ne_none_iff_exists'] at uncut
          rcases uncut with ⟨large, spare, spared⟩
          have enough := splitThreshold_lt_iff.mp large
          rcases sound.split free (slots_spareSlot spared) (roundUp_eq_some rounding).2.2
              (by omega) with
            ⟨rest, restAddress, restSize, restFree, restNext, between, cutting, startKept,
              endKept, usedKept, laidCut⟩
          rcases laidCut.grant free with ⟨after, granted, regionStart, regionEnd, laid⟩
          refine ⟨.ok block.address, after, _, ?_, .cut rounding rfl earlier fitting large spared
            restAddress restSize restFree restNext, ⟨laid, ?_⟩, regionStart.trans startKept,
            regionEnd.trans endKept, fun _ impossible => nomatch impossible⟩
          · simp [Heap.allocate, rounding, found, present, large, spared, cutting, granted]
          · rw [List.map_append, List.map_cons, List.map_cons]
            exact separated_cut separated free rfl restFree

end Changes

end KernelCore.Heap
