import KernelCore.Proofs.Heap.Allocation

/-!
# Giving blocks back to the heap

What taking a block back does to the block list. `Heap.Release` lists the possible outcomes: no
block begins at the address, the block there is free already, or it becomes free and is merged with
its free neighbours. `Heap.Sound.free` says that taking back ends in one of these ways whatever the
address, without a fault, and that the heap stays sound.
-/

namespace KernelCore.Heap

/-- A block that has taken over the header and the payload of the block after it. -/
def joined (block other : Block) : Block :=
  { block with
    size := block.size + (other.size + Layout.blockHeaderSize)
    next := other.next }

/-- A free block before others, merged with the first of them if that is free too. -/
def mergeNext (slot : BlockSlot) (block : Block) : List Placed → List Placed
  | [] => [(slot, block)]
  | (next, other) :: rest =>
      if other.free then (slot, joined block other) :: rest
      else (slot, block) :: (next, other) :: rest

/-- Blocks before a free one, the last of them merged with it if that is free too. -/
def mergeLast (front : List Placed) (slot : BlockSlot) (block : Block) (back : List Placed) :
    List Placed :=
  match front.getLast? with
  | none => (slot, block) :: back
  | some (previous, other) =>
      if other.free then front.dropLast ++ (previous, joined other block) :: back
      else front ++ (slot, block) :: back

/-- What taking back the block at an address leads to, for a heap with the given blocks. -/
inductive Release (entries : List Placed) (address : UInt32) :
    Except HeapError Unit → List Placed → Prop where
  /-- No block begins at the address. -/
  | unknown (none_there : ∀ entry ∈ entries, entry.2.address ≠ address) :
      Release entries address (.error .unknownAddress) entries
  /-- The block that begins there is free. -/
  | double {entry : Placed} (listed : entry ∈ entries) (there : entry.2.address = address)
      (free : entry.2.free = true) :
      Release entries address (.error .doubleFree) entries
  /-- The block that begins there becomes free. -/
  | freed {front back merged : List Placed} {slot : BlockSlot} {block joint : Block}
      (listed : entries = front ++ (slot, block) :: back)
      (there : block.address = address) (used : block.free = false)
      (after : mergeNext slot { block with free := true } back = (slot, joint) :: merged) :
      Release entries address (.ok ()) (mergeLast front slot joint merged)

section Search

variable {heap : Heap} {entries front back : List Placed} {slot : BlockSlot} {block : Block}

theorem findM?_eq_ok {Element : Type} {list : List Element} {check : Element → Except Fault Bool}
    {test : Element → Bool} (agree : ∀ element ∈ list, check element = .ok (test element)) :
    list.findM? check = .ok (list.find? test) := by
  induction list with
  | nil => rfl
  | cons head rest ih =>
      have first := agree head List.mem_cons_self
      have others := ih fun element mem => agree element (List.mem_cons_of_mem _ mem)
      cases passes : test head <;>
        simp [List.findM?, List.find?, first, passes, others, bind, Except.bind, pure, Except.pure]

theorem Laid.search_eq (laid : heap.Laid entries) (passes : Block → Bool) :
    (heap.chain.findM? fun slot => return passes (← heap.block slot)) =
      .ok ((entries.find? fun entry => passes entry.2).map Prod.fst) := by
  let test : BlockSlot → Bool := fun slot => (heap.slots[slot]).any passes
  have agree : ∀ entry ∈ entries, test entry.1 = passes entry.2 := by
    intro entry mem
    have present := laid.slot_eq mem
    simp only [test]
    rw [present, Option.any_some]
  have plain : ∀ slot ∈ heap.chain,
      (return passes (← heap.block slot) : Except Fault Bool) = .ok (test slot) := by
    intro slot mem
    rw [laid.chain_eq] at mem
    rcases List.mem_map.mp mem with ⟨entry, listed, rfl⟩
    rw [laid.block_eq listed, agree entry listed]
    rfl
  have same : entries.find? (test ∘ Prod.fst) = entries.find? fun entry => passes entry.2 :=
    List.find?_congr agree
  rw [findM?_eq_ok plain, laid.chain_eq, List.find?_map, same]

theorem Laid.findAddress_eq (laid : heap.Laid entries) (address : UInt32) :
    heap.findAddress address =
      .ok ((entries.find? fun entry => entry.2.address == address).map Prod.fst) :=
  laid.search_eq (·.address == address)

/-- The block that links to another is the last of those before it. -/
theorem Laid.findBefore_eq (laid : heap.Laid (front ++ (slot, block) :: back)) :
    heap.findBefore slot = .ok (front.getLast?.map Prod.fst) := by
  refine (laid.search_eq (·.next == some slot)).trans (congrArg Except.ok ?_)
  -- a block links to the one after it, so one that links to `slot` has `slot` after it
  have linking : ∀ init entry rest, front ++ (slot, block) :: back = init ++ entry :: rest →
      entry.2.next = rest.head?.map Prod.fst := by
    intro init entry rest listed
    exact Laid.next_eq (listed ▸ laid)
  have distinct := laid.distinct
  rw [List.map_append, List.map_cons, List.nodup_middle, List.nodup_cons, List.mem_append,
    not_or] at distinct
  rcases distinct with ⟨⟨notBefore, notAfter⟩, -⟩
  rcases List.eq_nil_or_concat' front with rfl | ⟨init, previous, rfl⟩
  · rw [List.find?_eq_none.mpr]
    · rfl
    · intro entry mem links
      rcases List.append_of_mem mem with ⟨before, rest, listed⟩
      have next := linking before entry rest listed
      rw [eq_of_beq links, ← List.head?_map] at next
      have inRest := List.mem_of_mem_head? next.symm
      have tail : rest = back.drop before.length := by
        simpa using (congrArg (List.drop (before.length + 1)) listed).symm
      rw [tail, List.map_drop] at inRest
      exact notAfter (List.mem_of_mem_drop inRest)
  · have first : ((init ++ [previous]) ++ (slot, block) :: back).find?
        (fun entry => entry.2.next == some slot) = some previous := by
      refine List.find?_eq_some_iff_append.mpr ⟨?_, init, (slot, block) :: back, by simp, ?_⟩
      · have next := linking init previous ((slot, block) :: back) (by simp)
        simp [next]
      · intro entry mem
        rcases List.append_of_mem mem with ⟨before, rest, rfl⟩
        have next := linking before entry (rest ++ previous :: (slot, block) :: back) (by simp)
        simp only [next, Bool.not_eq_true', beq_eq_false_iff_ne, ne_eq]
        intro head
        apply notBefore
        cases rest <;> simp_all
    rw [first, List.getLast?_concat]

end Search

section Merging

variable {heap : Heap} {front back : List Placed} {slot next : BlockSlot} {block other : Block}

/-- Absorbing a free block into the free block before it keeps the layout. -/
theorem Laid.absorb (laid : heap.Laid (front ++ (slot, block) :: (next, other) :: back))
    (free : block.free = true) (otherFree : other.free = true) :
    ∃ after, heap.absorb slot next = .ok after ∧ after.regionStart = heap.regionStart ∧
      after.regionEnd = heap.regionEnd ∧
      after.Laid (front ++ (slot, joined block other) :: back) := by
  have header : Layout.blockHeaderSize.toNat = 16 := rfl
  have mem : (slot, block) ∈ front ++ (slot, block) :: (next, other) :: back := by simp
  have otherMem : (next, other) ∈ front ++ (slot, block) :: (next, other) :: back := by simp
  have inside : other.address.toNat + other.size.toNat ≤ heap.regionEnd.toNat :=
    (laid.bounds otherMem).2
  have regionEnd := heap.regionEnd.toNat_lt
  have differs : slot ≠ next := by
    have distinct := laid.distinct
    simp only [List.map_append, List.map_cons, List.nodup_append, List.nodup_cons,
      List.mem_cons, not_or] at distinct
    exact distinct.2.1.1.1
  have adjacent : other.address.toNat = block.address.toNat + block.size.toNat + 16 := by
    have tiles := laid.tiled
    rw [List.map_append, tiles_append] at tiles
    rcases tiles with ⟨_, _, _, following, _⟩
    exact following
  have gainFits : other.size.toNat + Layout.blockHeaderSize.toNat < 2 ^ 32 := by omega
  have gainSum := Checked.add32_of_lt gainFits
  have gain := Checked.add32_eq_ok_iff.mp gainSum
  have sizeFits : block.size.toNat + (other.size + Layout.blockHeaderSize).toNat < 2 ^ 32 := by
    omega
  have sizeSum := Checked.add32_of_lt sizeFits
  have size := Checked.add32_eq_ok_iff.mp sizeSum
  refine ⟨(heap.put slot (some (joined block other))).put next none, ?_, rfl, rfl, ?_⟩
  · simp only [Heap.absorb, laid.block_eq mem, laid.block_eq otherMem, gainSum, sizeSum, bind,
      Except.bind, pure, Except.pure]
    rfl
  · refine Laid.replace [(slot, block), (next, other)] [(slot, joined block other)] laid
      { regionStart := rfl, regionEnd := rfl, head := rfl, path := ?_, distinct := by simp,
        outside := ?_, gone := ?_, spare := by simp, tiled := ?_, counted := ?_, aligned := ?_ }
    · rintro cursor past ⟨start, -, -, -, onward⟩
      refine ⟨start, ?_, onward⟩
      rw [slots_put, if_neg differs.symm, slots_put, if_pos rfl]
    · intro place old _
      simp only [List.map_cons, List.map_nil, List.mem_cons, List.not_mem_nil, or_false,
        not_or] at old
      rw [slots_put, if_neg (Ne.symm old.2), slots_put, if_neg (Ne.symm old.1)]
    · intro place old new
      have place_eq : place = next := by
        simp only [List.map_cons, List.map_nil, List.mem_cons, List.not_mem_nil, or_false]
          at old new
        exact old.resolve_left new
      rw [place_eq, slots_put, if_pos rfl]
    · rintro first past ⟨start, _, ended⟩
      change other.address.toNat + other.size.toNat = past at ended
      refine ⟨start, ?_⟩
      change block.address.toNat + (block.size + (other.size + Layout.blockHeaderSize)).toNat = past
      omega
    · simp [put, joined, free, otherFree]
    · intro entry listed
      rw [List.mem_singleton.mp listed]
      exact laid.aligned (slot, block) mem

theorem Laid.mergeAfter (laid : heap.Laid (front ++ (slot, block) :: back))
    (free : block.free = true) :
    ∃ after joint merged, heap.mergeAfter slot = .ok after ∧
      mergeNext slot block back = (slot, joint) :: merged ∧ joint.free = true ∧
      after.regionStart = heap.regionStart ∧ after.regionEnd = heap.regionEnd ∧
      after.Laid (front ++ (slot, joint) :: merged) := by
  have present : heap.block slot = .ok block := laid.block_eq (by simp)
  have following := laid.next_eq
  cases back with
  | nil =>
      refine ⟨heap, block, [], ?_, rfl, free, rfl, rfl, laid⟩
      simp [Heap.mergeAfter, present, following, bind, Except.bind, pure, Except.pure]
  | cons entry rest =>
      rcases entry with ⟨next, other⟩
      have otherPresent : heap.block next = .ok other := laid.block_eq (by simp)
      cases otherFree : other.free with
      | false =>
          refine ⟨heap, block, (next, other) :: rest, ?_, by simp [mergeNext, otherFree], free,
            rfl, rfl, laid⟩
          simp [Heap.mergeAfter, present, otherPresent, following, otherFree, bind, Except.bind,
            pure, Except.pure]
      | true =>
          rcases laid.absorb free otherFree with ⟨after, absorbed, regionStart, regionEnd, merged⟩
          refine ⟨after, joined block other, rest, ?_, by simp [mergeNext, otherFree], free,
            regionStart, regionEnd, merged⟩
          simp [Heap.mergeAfter, present, otherPresent, following, otherFree, absorbed, bind,
            Except.bind]

theorem Laid.mergeBefore (laid : heap.Laid (front ++ (slot, block) :: back))
    (free : block.free = true) :
    ∃ after, heap.mergeBefore slot = .ok after ∧
      after.regionStart = heap.regionStart ∧ after.regionEnd = heap.regionEnd ∧
      after.Laid (mergeLast front slot block back) := by
  have before := laid.findBefore_eq
  rcases List.eq_nil_or_concat' front with rfl | ⟨init, ⟨previous, other⟩, rfl⟩
  · refine ⟨heap, ?_, rfl, rfl, laid⟩
    simp [Heap.mergeBefore, before, bind, Except.bind, pure, Except.pure]
  · have otherPresent : heap.block previous = .ok other := laid.block_eq (by simp)
    cases otherFree : other.free with
    | false =>
        refine ⟨heap, ?_, rfl, rfl, by simpa [mergeLast, otherFree] using laid⟩
        simp [Heap.mergeBefore, before, otherPresent, otherFree, bind, Except.bind, pure,
          Except.pure]
    | true =>
        rw [List.append_assoc, List.singleton_append] at laid
        rcases laid.absorb otherFree free with ⟨after, absorbed, regionStart, regionEnd, merged⟩
        refine ⟨after, ?_, regionStart, regionEnd, by simpa [mergeLast, otherFree] using merged⟩
        simp [Heap.mergeBefore, before, otherPresent, otherFree, absorbed, bind, Except.bind]

end Merging

section Separation

variable {front back : List Placed} {slot : BlockSlot} {block joint : Block} {merged : List Placed}

theorem separated_mergeNext (separated : (back.map Prod.snd).IsChain Separate)
    (after : mergeNext slot block back = (slot, joint) :: merged) :
    (merged.map Prod.snd).IsChain Separate ∧
      ∀ other ∈ (merged.map Prod.snd).head?, other.free = false := by
  cases back with
  | nil =>
      simp only [mergeNext, List.cons.injEq] at after
      rw [← after.2]
      exact ⟨separated, by simp⟩
  | cons entry rest =>
      rcases entry with ⟨next, other⟩
      rw [List.map_cons] at separated
      cases otherFree : other.free with
      | false =>
          simp only [mergeNext, otherFree, Bool.false_eq_true, if_false, List.cons.injEq] at after
          rw [← after.2]
          refine ⟨separated, ?_⟩
          intro head mem
          cases mem
          exact otherFree
      | true =>
          simp only [mergeNext, otherFree, if_true, List.cons.injEq] at after
          rw [← after.2]
          rcases List.isChain_cons.mp separated with ⟨seam, restChain⟩
          refine ⟨restChain, ?_⟩
          intro head mem
          simpa [Separate, otherFree] using seam head mem

theorem separated_mergeLast (frontChain : (front.map Prod.snd).IsChain Separate)
    (backChain : (back.map Prod.snd).IsChain Separate)
    (backUsed : ∀ other ∈ (back.map Prod.snd).head?, other.free = false) :
    ((mergeLast front slot block back).map Prod.snd).IsChain Separate := by
  have joint : ∀ other : Block, (other :: back.map Prod.snd).IsChain Separate := by
    intro other
    refine List.isChain_cons.mpr ⟨?_, backChain⟩
    intro head mem
    simp [Separate, backUsed head mem]
  rcases List.eq_nil_or_concat' front with rfl | ⟨init, ⟨previous, other⟩, rfl⟩
  · exact joint block
  · rw [List.map_append] at frontChain
    rcases List.isChain_append.mp frontChain with ⟨initChain, -, seam⟩
    cases otherFree : other.free with
    | false =>
        have merge : mergeLast (init ++ [(previous, other)]) slot block back =
            init ++ [(previous, other)] ++ (slot, block) :: back := by
          simp [mergeLast, otherFree]
        rw [merge, List.map_append, List.map_append, List.map_cons]
        refine List.isChain_append.mpr ⟨frontChain, joint block, ?_⟩
        intro last mem head _
        simp only [List.map_nil, List.getLast?_concat, Option.mem_some_iff] at mem
        simp [Separate, ← mem, otherFree]
    | true =>
        have merge : mergeLast (init ++ [(previous, other)]) slot block back =
            init ++ (previous, joined other block) :: back := by
          simp [mergeLast, otherFree]
        rw [merge, List.map_append, List.map_cons]
        refine List.isChain_append.mpr ⟨initChain, joint _, ?_⟩
        intro last mem head headMem
        cases headMem
        have apart := seam last mem other rfl
        simpa [Separate, joined, otherFree] using apart

end Separation

/-- Searching for a block, freeing it and merging it never fault. -/
theorem Sound.free {heap : Heap} {entries : List Placed} (sound : heap.Sound entries)
    (address : UInt32) :
    ∃ reply after result, (Heap.free address).Yields heap reply after ∧
      Release entries address reply result ∧ after.Sound result ∧
      after.regionStart = heap.regionStart ∧ after.regionEnd = heap.regionEnd ∧
      ∀ cause, reply = .error cause → after = heap := by
  have search := sound.findAddress_eq address
  cases first : entries.find? fun entry => entry.2.address == address with
  | none =>
      rw [first, Option.map_none] at search
      have none_there : ∀ entry ∈ entries, entry.2.address ≠ address := by
        simpa using List.find?_eq_none.mp first
      refine ⟨.error .unknownAddress, heap, entries, ?_, .unknown none_there, sound, rfl, rfl,
        fun _ _ => rfl⟩
      simp [Heap.free, search]
  | some entry =>
      rcases entry with ⟨slot, block⟩
      rw [first, Option.map_some] at search
      rcases List.find?_eq_some_iff_append.mp first with ⟨there, front, back, rfl, -⟩
      have there : block.address = address := eq_of_beq there
      have listed : (slot, block) ∈ front ++ (slot, block) :: back := by simp
      have present := sound.block_eq listed
      cases used : block.free with
      | true =>
          refine ⟨.error .doubleFree, heap, _, ?_, .double listed there used, sound, rfl, rfl,
            fun _ _ => rfl⟩
          simp [Heap.free, search, present, used]
      | false =>
          have counted := sound.counted
          simp only [List.map_append, List.map_cons, usedSize_append, usedSize_cons, used,
            Bool.false_eq_true, if_false] at counted
          have difference : ∃ usedBytes,
              Checked.sub32 heap.usedBytes block.size = .ok usedBytes := by
            refine ⟨.ofNat (heap.usedBytes.toNat - block.size.toNat),
              Checked.sub32_eq_ok_iff.mpr ?_⟩
            have small := heap.usedBytes.toNat_lt
            rw [UInt32.toNat_ofNat_of_lt' (by change _ < 2 ^ 32; omega)]
            omega
          rcases difference with ⟨usedBytes, difference⟩
          have value := Checked.sub32_eq_ok_iff.mp difference
          have marked := sound.toLaid.mark true usedBytes (by simp [used, value])
          rcases marked.mergeAfter rfl with
            ⟨between, joint, merged, mergedAfter, after, jointFree, startMid, endMid, laidMid⟩
          rcases laidMid.mergeBefore jointFree with
            ⟨final, mergedBefore, startEnd, endEnd, laidEnd⟩
          refine ⟨.ok (), final, _, ?_, .freed rfl there used after, ⟨laidEnd, ?_⟩,
            startEnd.trans startMid, endEnd.trans endMid, fun _ impossible => nomatch impossible⟩
          · simp [Heap.free, search, present, used, difference, mergedAfter, mergedBefore]
          · have separated := sound.separated
            rw [List.map_append, List.map_cons] at separated
            rcases List.isChain_append.mp separated with ⟨frontChain, rearChain, -⟩
            rcases separated_mergeNext (List.isChain_cons.mp rearChain).2 after with
              ⟨mergedChain, mergedUsed⟩
            exact separated_mergeLast frontChain mergedChain mergedUsed

end KernelCore.Heap
