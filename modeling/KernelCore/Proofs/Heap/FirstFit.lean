import KernelCore.Proofs.Heap.Extents

/-!
# First fit

How the heap answers a request, told by what callers see. The request is refused exactly if no free
extent is large enough, and then nothing changes. Else the lowest free extent that is large enough
is handed out, cut down to what is needed if that leaves enough over and a slot is left to keep it
in, and all other extents stay where they are on the list.
-/

namespace KernelCore.Heap

/-- The answer to a request for `size` bytes, and the heap that it leaves. -/
structure FirstFit (heap : Heap) (extents : List Extent) (size : UInt32)
    (reply : Except HeapError UInt32) (after : Heap) : Prop where
  /-- The rounded size is not a word, or no free extent has as many bytes. -/
  refused : reply = .error .outOfMemory ↔
    UInt32.size ≤ size.toNat + 3 ∨ ∀ extent ∈ extents, ¬extent.Fits (need size)
  unchanged : ∀ cause, reply = .error cause → cause = .outOfMemory ∧ after = heap
  granted : ∀ address, reply = .ok address → ∃ front chosen back,
    extents = front ++ chosen :: back ∧ chosen.address = address.toNat ∧
      chosen.Fits (need size) ∧
      (∀ other ∈ extents, other.Fits (need size) → chosen.address ≤ other.address) ∧
      after.regionStart = heap.regionStart ∧ after.regionEnd = heap.regionEnd ∧
      if need size + 32 < chosen.size ∧ extents.length < 512 then
        after.extents = .ok (front ++ ⟨chosen.address, need size, false⟩ ::
          ⟨chosen.address + need size + 16, chosen.size - need size - 16, true⟩ :: back) ∧
        after.usedBytes.toNat = heap.usedBytes.toNat + need size
      else
        after.extents = .ok (front ++ { chosen with free := false } :: back) ∧
        after.usedBytes.toNat = heap.usedBytes.toNat + chosen.size

section Extents

variable {front back : List Extent} {chosen : Extent} {need : Nat}

/-- The first extent that fits is the one with the lowest address. -/
theorem lowest_of_first
    (ascending : (front ++ chosen :: back).Pairwise fun left right => left.address < right.address)
    (earlier : ∀ other ∈ front, ¬other.Fits need) :
    ∀ other ∈ front ++ chosen :: back, other.Fits need → chosen.address ≤ other.address := by
  intro other mem fits
  have later := (List.pairwise_append.mp ascending).2.1
  rcases List.mem_append.mp mem with inFront | inRear
  · exact absurd fits (earlier other inFront)
  · rcases List.mem_cons.mp inRear with rfl | inBack
    · exact Nat.le_refl _
    · exact Nat.le_of_lt ((List.pairwise_cons.mp later).1 other inBack)

/-- The used bytes are more by those that are handed out. -/
theorem sum_used_handOut (free : chosen.free = true) (given : List Extent) :
    ((used (front ++ given ++ back)).map Extent.size).sum =
      ((used (front ++ chosen :: back)).map Extent.size).sum +
        ((used given).map Extent.size).sum := by
  simp only [used, List.filter_append, List.filter_cons, free, Bool.not_true, Bool.false_eq_true,
    if_false, List.map_append, List.sum_append]
  omega

/-- An extent is cut if enough would be left of it and there is a slot for the rest. -/
theorem handOut_cases (chosen : Extent) (need count : Nat) :
    (need + 32 < chosen.size ∧ count < 512 ∧
      chosen.handOut need count = [⟨chosen.address, need, false⟩,
        ⟨chosen.address + need + 16, chosen.size - need - 16, true⟩]) ∨
      (¬(need + 32 < chosen.size ∧ count < 512) ∧
        chosen.handOut need count = [{ chosen with free := false }]) := by
  by_cases large : need + 32 < chosen.size ∧ count < 512
  · exact Or.inl ⟨large.1, large.2, if_pos large⟩
  · exact Or.inr ⟨large, if_neg large⟩

end Extents

/-- After any calls on a heap that began without a region, every request is answered by first
fit. -/
theorem first_fit_of_calls (calls : List Call) (size : UInt32) :
    ∃ heap extents reply after, (calls.forM Call.act).Yields empty () heap ∧
      heap.extents = .ok extents ∧ (allocate size).Yields heap reply after ∧
      FirstFit heap extents size reply after := by
  rcases sound_of_calls calls with ⟨heap, entries, run, sound, -⟩
  rcases sound.places size with
    ⟨reply, after, result, served, placement, soundAfter, start, past, unchanged⟩
  have ascending := sound.ascending
  have before := sound.usedBytes_eq
  have bytes := soundAfter.usedBytes_eq
  have seen := soundAfter.extents_eq
  refine ⟨heap, shape entries, reply, after, run, sound.extents_eq, served,
    placement.refused_iff, ?_, ?_⟩
  · rintro cause rfl
    refine ⟨?_, unchanged cause rfl⟩
    generalize shape result = extentsAfter at placement
    cases placement
    rfl
  · rintro address rfl
    generalize shape result = extentsAfter at placement bytes seen
    cases placement with
    | @placed _ front back chosen small listed there fits earlier =>
        rw [listed] at before ascending
        rw [sum_used_handOut fits.1, ← before] at bytes
        refine ⟨front, chosen, back, listed, there, fits, ?_, start, past, ?_⟩
        · rw [listed]
          exact lowest_of_first ascending earlier
        · rcases handOut_cases chosen (need size) (shape entries).length with
            ⟨large, room, given⟩ | ⟨uncut, given⟩
          · rw [given] at bytes seen
            rw [if_pos ⟨large, room⟩]
            exact ⟨by simpa using seen, by simpa [used] using bytes⟩
          · rw [given] at bytes seen
            rw [if_neg uncut]
            exact ⟨by simpa using seen, by simpa [used] using bytes⟩

end KernelCore.Heap
