import KernelCore.Proofs.Heap.Ledger
import KernelCore.Proofs.Safety

/-!
# Walks along the block list

The heap is searched by following the links of its list, and nothing but the list itself puts an end
to that. `Heap.Ends` says that a walk along it meets blocks only, and comes to an end. A request
walks along the list as it finds it; taking a block back walks along it once more when the block is
free and merged with the one after it. On a sound heap all these walks end, no request faults, and
the sizes of the free blocks have a sum.
-/

namespace KernelCore.Heap

/-- The blocks of the heap can be listed, and are as they should be. -/
def Whole (heap : Heap) : Prop :=
  ∃ entries, heap.Sound entries

/-- Followed from the first block on, the links lead to blocks only, and they end: what the heap
takes for its list is not cut off. -/
def Ends (heap : Heap) : Prop :=
  ∃ entries, heap.Path heap.head entries none ∧ heap.chain = entries.map Prod.fst

/-- The heaps along whose lists a request walks. -/
inductive Walked (heap : Heap) : Request → Heap → Prop where
  | asFound (request : Request) : Walked heap request heap
  | merged {address usedBytes : UInt32} {slot : BlockSlot} {block : Block} {between : Heap}
      (found : heap.findAddress address = .ok (some slot)) (present : heap.block slot = .ok block)
      (used : block.free = false)
      (counted : Checked.sub32 heap.usedBytes block.size = .ok usedBytes)
      (after : mergeAfter slot
        { heap.put slot (some { block with free := true }) with usedBytes } = .ok between) :
      Walked heap (.free address) between

section Requests

theorem safe_allocate (size : UInt32) : (allocate size).Safe Whole := by
  rintro before ⟨entries, sound⟩
  rcases sound.allocate size with ⟨reply, after, result, run, -, stays, -⟩
  exact ⟨reply, after, run, result, stays⟩

theorem safe_free (address : UInt32) : (free address).Safe Whole := by
  rintro before ⟨entries, sound⟩
  rcases sound.free address with ⟨reply, after, result, run, -, stays, -⟩
  exact ⟨reply, after, run, result, stays⟩

theorem safe_reset (first past : UInt32) : (reset first past).Safe Whole := by
  intro before whole
  rcases reset_cases before first past with ⟨after, result, run, sound, -⟩ | ⟨-, run⟩
  · exact ⟨_, after, run, result, sound⟩
  · exact ⟨_, before, run, whole⟩

end Requests

section Walks

variable {heap other : Heap} {entries : List Placed} {request : Request}

theorem Laid.ends (laid : heap.Laid entries) : heap.Ends :=
  ⟨entries, laid.path, laid.chain_eq⟩

/-- All walks that a request makes end. -/
theorem Walked.ends (walked : heap.Walked request other) (sound : heap.Sound entries) :
    other.Ends := by
  cases walked with
  | asFound request => exact sound.toLaid.ends
  | @merged address usedBytes slot block between found present used counted after =>
      rw [sound.findAddress_eq address, Except.ok.injEq, Option.map_eq_some_iff] at found
      rcases found with ⟨⟨place, entry⟩, first, rfl⟩
      rcases List.find?_eq_some_iff_append.mp first with ⟨-, front, back, rfl, -⟩
      have listed : (place, entry) ∈ front ++ (place, entry) :: back := by simp
      have same := (sound.block_eq listed).symm.trans present
      rw [Except.ok.injEq] at same
      subst same
      have difference := Checked.sub32_eq_ok_iff.mp counted
      have marked := sound.toLaid.mark true usedBytes (by simp [used, difference])
      rcases marked.mergeAfter rfl with ⟨final, joint, merged, done, -, -, -, -, laid⟩
      rw [after, Except.ok.injEq] at done
      rw [done]
      exact laid.ends

end Walks

section Sums

variable {heap : Heap} {entries : List Placed}

theorem foldlM_add32 (blocks : List Block) (sum : UInt32)
    (fits : sum.toNat + (blocks.map (·.size.toNat)).sum < 2 ^ 32) :
    ∃ total, blocks.foldlM (fun sum block => Checked.add32 sum block.size) sum = .ok total ∧
      total.toNat = sum.toNat + (blocks.map (·.size.toNat)).sum := by
  induction blocks generalizing sum with
  | nil => exact ⟨sum, rfl, rfl⟩
  | cons block rest ih =>
      rw [List.map_cons, List.sum_cons] at fits ⊢
      have added := Checked.add32_of_lt (show sum.toNat + block.size.toNat < 2 ^ 32 by omega)
      have value := Checked.add32_eq_ok_iff.mp added
      rcases ih (sum + block.size) (by omega) with ⟨total, done, same⟩
      refine ⟨total, ?_, by omega⟩
      rw [List.foldlM_cons, added]
      exact done

/-- The free bytes of a sound heap can be counted. -/
theorem Laid.freeBytes_eq (laid : heap.Laid entries) :
    ∃ total, heap.freeBytes = .ok total ∧
      total.toNat = (((entries.map Prod.snd).filter Block.free).map (·.size.toNat)).sum := by
  have bound := heap.regionEnd.toNat_lt
  have total := laid.tiled.total
  have fewer : (((entries.map Prod.snd).filter Block.free).map (·.size.toNat)).sum ≤
      ((entries.map Prod.snd).map (·.size.toNat)).sum :=
    (List.filter_sublist.map _).sum_le_sum fun _ _ => Nat.zero_le _
  rcases foldlM_add32 ((entries.map Prod.snd).filter Block.free) 0
    (by rw [UInt32.toNat_zero]; omega) with ⟨sum, done, same⟩
  refine ⟨sum, ?_, by rw [same, UInt32.toNat_zero, Nat.zero_add]⟩
  rw [freeBytes, laid.blocks_eq]
  exact done

end Sums

end KernelCore.Heap
