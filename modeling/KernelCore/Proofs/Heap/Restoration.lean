import KernelCore.Proofs.Heap.Ledger

/-!
# Undoing an allocation

A block that is given back right after it was handed out leaves no trace. If it had been cut, it
takes its rest over again, and it is merged with nothing else: the block that it was cut from was
free, so its neighbours were not. Since a heap is determined by its region and its block list, the
heap is then the same as before, down to the slots that hold its blocks.
-/

namespace KernelCore.Heap

section Lists

variable {heap other after : Heap} {entries front back : List Placed} {slot : BlockSlot}
  {block : Block}

/-- The region and the block list say all there is to say about a heap. -/
theorem Laid.eq_of_laid (laid : heap.Laid entries) (again : other.Laid entries)
    (regionStart : other.regionStart = heap.regionStart)
    (regionEnd : other.regionEnd = heap.regionEnd) : other = heap := by
  have slots : other.slots = heap.slots := by
    apply Vector.ext
    intro place inside
    by_cases listed : (⟨place, inside⟩ : BlockSlot) ∈ entries.map Prod.fst
    · rcases List.mem_map.mp listed with ⟨⟨slot, block⟩, mem, rfl⟩
      exact (again.slot_eq mem).trans (laid.slot_eq mem).symm
    · have vacant := mt (laid.occupied ⟨place, inside⟩) listed
      have vacantToo := mt (again.occupied ⟨place, inside⟩) listed
      exact (not_not.mp vacantToo).trans (not_not.mp vacant).symm
  have head : other.head = heap.head := by
    have path := laid.path
    have pathToo := again.path
    cases entries with
    | nil => exact Eq.trans pathToo (Eq.symm path)
    | cons entry rest => exact pathToo.1.trans path.1.symm
  have usedBytes : other.usedBytes = heap.usedBytes := by
    apply UInt32.toNat_inj.mp
    exact again.counted.trans laid.counted.symm
  cases heap
  cases other
  simp_all

/-- No two entries of a sound heap's list begin at the same address. -/
theorem Sound.split_unique (sound : heap.Sound (front ++ (slot, block) :: back))
    {left right : List Placed} {place : BlockSlot} {found : Block}
    (same : front ++ (slot, block) :: back = left ++ (place, found) :: right)
    (there : found.address = block.address) :
    left = front ∧ place = slot ∧ found = block ∧ right = back := by
  have addresses := Ledger.addresses_nodup sound
  rw [List.map_map] at addresses
  have inList : (place, found) ∈ front ++ (slot, block) :: back := by simp [same]
  have entry : (place, found) = (slot, block) :=
    List.inj_on_of_nodup_map addresses inList (by simp) there
  have distinct : (front ++ (slot, block) :: back).Nodup := addresses.of_map
  have outside : (slot, block) ∉ front ∧ (slot, block) ∉ back := by
    rw [List.nodup_middle, List.nodup_cons, List.mem_append, not_or] at distinct
    exact distinct.1
  rw [entry] at same
  rcases (List.append_cons_inj_of_notMem outside.1 outside.2).mp same with ⟨lefts, -, rights⟩
  simp only [Prod.mk.injEq] at entry
  exact ⟨lefts.symm, entry.1, entry.2, rights.symm⟩

/-- Giving back the address of a used block frees that block and merges it. -/
theorem Sound.release_used (sound : heap.Sound (front ++ (slot, block) :: back))
    (used : block.free = false) {reply : Except HeapError Unit} {final : List Placed}
    (outcome : Release (front ++ (slot, block) :: back) block.address reply final) :
    reply = .ok () ∧ ∃ joint merged,
      mergeNext slot { block with free := true } back = (slot, joint) :: merged ∧
      final = mergeLast front slot joint merged := by
  generalize same : front ++ (slot, block) :: back = entries at outcome
  cases outcome with
  | unknown none_there =>
      subst same
      exact absurd rfl (none_there (slot, block) (by simp))
  | @double entry listed there free =>
      rcases List.append_of_mem listed with ⟨left, right, rfl⟩
      rcases sound.split_unique same there with ⟨-, -, found, -⟩
      rw [found, used] at free
      exact Bool.noConfusion free
  | @freed left right merged place found joint listed there wasUsed onward =>
      subst listed
      rcases sound.split_unique same there with ⟨rfl, rfl, rfl, rfl⟩
      exact ⟨rfl, joint, merged, onward, rfl⟩

theorem mergeNext_of_used (used : ∀ entry ∈ back.head?, entry.2.free = false) :
    mergeNext slot block back = (slot, block) :: back := by
  cases back with
  | nil => rfl
  | cons entry rest => simp [mergeNext, used entry rfl]

theorem mergeLast_of_used (used : ∀ entry ∈ front.getLast?, entry.2.free = false) :
    mergeLast front slot block back = front ++ (slot, block) :: back := by
  rcases List.eq_nil_or_concat' front with rfl | ⟨init, last, rfl⟩
  · rfl
  · simp [mergeLast, used last (by simp)]

/-- The neighbours of a free block are used. -/
theorem Sound.neighbours_used (sound : heap.Sound (front ++ (slot, block) :: back))
    (free : block.free = true) :
    (∀ entry ∈ front.getLast?, entry.2.free = false) ∧
      ∀ entry ∈ back.head?, entry.2.free = false := by
  have separated := sound.separated
  rw [List.map_append, List.map_cons] at separated
  rcases List.isChain_append.mp separated with ⟨-, rear, before⟩
  have after := (List.isChain_cons.mp rear).1
  constructor
  · intro entry last
    have apart := before entry.2 (by simp_all) block rfl
    simpa [Separate, free] using apart
  · intro entry first
    have apart := after entry.2 (by simp_all)
    simpa [Separate, free] using apart

/-- A block that is handed out and taken back at once is merged with what it was cut from, and with
nothing else. -/
theorem Sound.release_allocated (sound : heap.Sound entries) {size address : UInt32}
    {granted final : List Placed} {reply : Except HeapError Unit}
    (outcome : Allocation heap entries size (.ok address) granted)
    (soundAfter : after.Sound granted) (release : Release granted address reply final) :
    reply = .ok () ∧ final = entries := by
  cases outcome with
  | @whole rounded front back slot block rounding listed earlier fitting uncut =>
      subst listed
      have free : block.free = true := by
        simp only [fits, Bool.and_eq_true] at fitting
        exact fitting.1
      rcases sound.neighbours_used free with ⟨before, behind⟩
      have back_again : { block with free := true } = block := by rw [← free]
      rcases soundAfter.release_used rfl release with ⟨rfl, joint, merged, onward, rfl⟩
      simp only [back_again, mergeNext_of_used behind, List.cons.injEq, Prod.mk.injEq,
        true_and] at onward
      rw [← onward.1, ← onward.2]
      exact ⟨rfl, mergeLast_of_used before⟩
  | @cut rounded front back slot spare block rest rounding listed earlier fitting large spared
      restAddress restSize restFree restNext =>
      subst listed
      have free : block.free = true := by
        simp only [fits, Bool.and_eq_true] at fitting
        exact fitting.1
      rcases sound.neighbours_used free with ⟨before, -⟩
      have total : rounded + (rest.size + Layout.blockHeaderSize) = block.size := by
        have bound := block.size.toNat_lt
        have inner : (rest.size + Layout.blockHeaderSize).toNat =
            rest.size.toNat + Layout.blockHeaderSize.toNat := by
          rw [UInt32.toNat_add, Nat.mod_eq_of_lt (by omega)]
        apply UInt32.toNat_inj.mp
        rw [UInt32.toNat_add, inner, Nat.mod_eq_of_lt (by omega)]
        omega
      have back_again :
          joined { block with size := rounded, free := true, next := some spare } rest = block := by
        rw [joined, total, restNext, ← free]
      rcases soundAfter.release_used rfl release with ⟨rfl, joint, merged, onward, rfl⟩
      simp only [mergeNext, restFree, if_true, back_again, List.cons.injEq, Prod.mk.injEq,
        true_and] at onward
      rw [← onward.1, ← onward.2]
      exact ⟨rfl, mergeLast_of_used before⟩

/-- A request that is refused leaves the heap as it was. -/
theorem Sound.allocate_refused (sound : heap.Sound entries) {size : UInt32} {cause : HeapError}
    (run : (Heap.allocate size).Yields heap (.error cause) after) : after = heap := by
  rcases sound.allocate size with ⟨reply, other, listed, again, -, -, -, -, unchanged⟩
  rcases run.unique again with ⟨rfl, rfl⟩
  exact unchanged cause rfl

/-- What is handed out ends where the region ends, or before. -/
theorem Sound.allocate_inside (sound : heap.Sound entries) {size address : UInt32}
    (run : (Heap.allocate size).Yields heap (.ok address) after) :
    address.toNat + size.toNat ≤ heap.regionEnd.toNat := by
  rcases sound.allocate size with
    ⟨reply, other, granted, again, outcome, soundAfter, -, regionEnd, -⟩
  rcases run.unique again with ⟨rfl, rfl⟩
  rcases outcome.handedOut_perm with ⟨extent, rounded, out, rounding, enough⟩
  rcases mem_handedOut.mp (out.symm.subset List.mem_cons_self) with ⟨entry, mem, -, there, same⟩
  have inside := (soundAfter.bounds mem).2
  rw [there, same, regionEnd] at inside
  have least := (roundUp_eq_some rounding).1
  have covered := UInt32.le_iff_toNat_le.mp enough
  omega

/-- Giving a block back right after it was handed out restores the heap. -/
theorem Sound.free_of_allocate (sound : heap.Sound entries) {size address : UInt32}
    (run : (Heap.allocate size).Yields heap (.ok address) after) :
    (Heap.free address).Yields after (.ok ()) heap := by
  rcases sound.allocate size with
    ⟨reply, other, granted, again, outcome, soundAfter, regionStart, regionEnd, -⟩
  rcases run.unique again with ⟨rfl, rfl⟩
  rcases soundAfter.free address with
    ⟨reply, final, result, freed, release, soundFinal, startKept, endKept, -⟩
  rcases sound.release_allocated outcome soundAfter release with ⟨rfl, rfl⟩
  rw [sound.toLaid.eq_of_laid soundFinal.toLaid (startKept.trans regionStart)
    (endKept.trans regionEnd)] at freed
  exact freed

end Lists

end KernelCore.Heap
