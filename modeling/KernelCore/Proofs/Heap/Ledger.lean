import KernelCore.Proofs.Heap.Release

/-!
# Runs of the heap

What holds after any sequence of calls. The block list is sound after whatever was asked of a heap
that began empty. Since it was last reset, the blocks that are not free are those that were handed
out and not taken back: a `Ledger` keeps a `Grant` for each, and no two grants share a byte.
-/

namespace KernelCore

namespace Heap

/-- What a caller may ask of a heap. -/
inductive Request where
  | allocate (size : UInt32)
  | free (address : UInt32)
  deriving DecidableEq, Repr

/-- What may be done with a heap. -/
inductive Call where
  | reset (first past : UInt32)
  | request (request : Request)
  deriving DecidableEq, Repr

/-- Does what is called for, whether it is refused or not. -/
def Call.act : Call → Operation Heap Unit
  | .reset first past => discard (Heap.reset first past).result
  | .request (.allocate size) => discard (Heap.allocate size).result
  | .request (.free address) => discard (Heap.free address).result

/-- The addresses and sizes of the blocks that are not free. -/
def handedOut (entries : List Placed) : List (UInt32 × UInt32) :=
  (entries.filter (!·.2.free)).map fun entry => (entry.2.address, entry.2.size)

@[simp]
theorem handedOut_append (front back : List Placed) :
    handedOut (front ++ back) = handedOut front ++ handedOut back := by
  simp [handedOut]

theorem handedOut_cons_free {slot : BlockSlot} {block : Block} (back : List Placed)
    (free : block.free = true) : handedOut ((slot, block) :: back) = handedOut back := by
  simp [handedOut, free]

theorem handedOut_cons_used {slot : BlockSlot} {block : Block} (back : List Placed)
    (used : block.free = false) :
    handedOut ((slot, block) :: back) = (block.address, block.size) :: handedOut back := by
  simp [handedOut, used]

theorem mem_handedOut {entries : List Placed} {address size : UInt32} :
    (address, size) ∈ handedOut entries ↔
      ∃ entry ∈ entries, entry.2.free = false ∧ entry.2.address = address ∧
        entry.2.size = size := by
  simp only [handedOut, List.mem_map, List.mem_filter, Bool.not_eq_true', Prod.mk.injEq]
  grind

theorem Allocation.refused {heap : Heap} {entries result : List Placed} {size : UInt32}
    {cause : HeapError} (outcome : Allocation heap entries size (.error cause) result) :
    result = entries := by
  cases outcome with
  | tooLarge noSize => rfl
  | exhausted rounding none_fits => rfl

theorem Release.refused {entries result : List Placed} {address : UInt32} {cause : HeapError}
    (outcome : Release entries address (.error cause) result) : result = entries := by
  cases outcome with
  | unknown none_there => rfl
  | double listed there free => rfl

/-- A granted request adds one block to those handed out, one large enough for it. -/
theorem Allocation.handedOut_perm {heap : Heap} {entries result : List Placed}
    {size address : UInt32} (outcome : Allocation heap entries size (.ok address) result) :
    ∃ granted rounded, (handedOut result).Perm ((address, granted) :: handedOut entries) ∧
      roundUp size = some rounded ∧ rounded ≤ granted := by
  cases outcome with
  | @whole rounded front back slot block rounding listed earlier fitting uncut =>
      simp only [fits, Bool.and_eq_true, decide_eq_true_eq] at fitting
      refine ⟨block.size, rounded, ?_, rounding, fitting.2⟩
      rw [listed, handedOut_append, handedOut_append, handedOut_cons_used _ rfl,
        handedOut_cons_free _ fitting.1]
      exact List.perm_middle
  | @cut rounded front back slot spare block rest rounding listed earlier fitting large spared
      restAddress restSize restFree restNext =>
      simp only [fits, Bool.and_eq_true, decide_eq_true_eq] at fitting
      refine ⟨rounded, rounded, ?_, rounding, UInt32.le_refl rounded⟩
      rw [listed, handedOut_append, handedOut_append, handedOut_cons_used _ rfl,
        handedOut_cons_free _ restFree, handedOut_cons_free _ fitting.1]
      exact List.perm_middle

theorem handedOut_mergeLast {front back : List Placed} {slot : BlockSlot} {block : Block}
    (free : block.free = true) :
    handedOut (mergeLast front slot block back) = handedOut front ++ handedOut back := by
  rcases List.eq_nil_or_concat' front with rfl | ⟨init, ⟨previous, other⟩, rfl⟩
  · exact handedOut_cons_free back free
  · cases otherFree : other.free with
    | false =>
        simp only [mergeLast, List.getLast?_concat, otherFree, Bool.false_eq_true, if_false,
          handedOut_append, handedOut_cons_free back free]
    | true =>
        have before : handedOut (init ++ [(previous, other)]) = handedOut init := by
          simp [handedOut, otherFree]
        have joint : (joined other block).free = true := otherFree
        simp only [mergeLast, List.getLast?_concat, otherFree, if_true, List.dropLast_concat,
          handedOut_append, before]
        rw [handedOut_cons_free back joint]

/-- Taking a block back drops it from those handed out, and leaves the others in their order. -/
theorem Release.handedOut_split {entries result : List Placed} {address : UInt32}
    (outcome : Release entries address (.ok ()) result) :
    ∃ front granted back, handedOut entries = front ++ (address, granted) :: back ∧
      handedOut result = front ++ back := by
  cases outcome with
  | @freed front back merged slot block joint listed there used after =>
      have onward : joint.free = true ∧ handedOut merged = handedOut back := by
        cases back with
        | nil =>
            simp only [mergeNext, List.cons.injEq, Prod.mk.injEq, true_and] at after
            rw [← after.1, ← after.2]
            exact ⟨rfl, rfl⟩
        | cons entry rest =>
            rcases entry with ⟨next, other⟩
            cases otherFree : other.free with
            | false =>
                simp only [mergeNext, otherFree, Bool.false_eq_true, if_false, List.cons.injEq,
                  Prod.mk.injEq, true_and] at after
                rw [← after.1, ← after.2]
                exact ⟨rfl, rfl⟩
            | true =>
                simp only [mergeNext, otherFree, if_true, List.cons.injEq, Prod.mk.injEq,
                  true_and] at after
                rw [← after.1, ← after.2]
                exact ⟨rfl, (handedOut_cons_free rest otherFree).symm⟩
      refine ⟨handedOut front, block.size, handedOut back, ?_, ?_⟩
      · rw [listed, handedOut_append, handedOut_cons_used _ used, there]
      · rw [handedOut_mergeLast onward.1, onward.2]

theorem Release.handedOut_perm {entries result : List Placed} {address : UInt32}
    (outcome : Release entries address (.ok ()) result) :
    ∃ granted, (handedOut entries).Perm ((address, granted) :: handedOut result) := by
  rcases outcome.handedOut_split with ⟨front, granted, back, before, after⟩
  refine ⟨granted, ?_⟩
  rw [before, after]
  exact List.perm_middle

theorem sound_empty : empty.Sound [] where
  path := rfl
  distinct := List.nodup_nil
  occupied slot occupied := absurd (Vector.getElem_replicate slot.isLt) occupied
  tiled := rfl
  counted := rfl
  aligned _ mem := absurd mem List.not_mem_nil
  separated := List.isChain_nil

theorem sound_single {first past : UInt32} {block : Block} (free : block.free = true)
    (last : block.next = none)
    (start : block.address.toNat = first.toNat + Layout.blockHeaderSize.toNat)
    (reach : block.address.toNat + block.size.toNat = past.toNat) :
    ({ regionStart := first, regionEnd := past, slots := empty.slots.set 0 (some block),
       head := some 0, usedBytes := 0 } : Heap).Sound [(0, block)] where
  path := ⟨rfl, Vector.getElem_set_self _, last⟩
  distinct := List.nodup_singleton 0
  occupied slot occupied := by
    by_cases isFirst : (0 : BlockSlot) = slot
    · simp [isFirst]
    · exfalso
      apply occupied
      have differs : (0 : Nat) ≠ slot.val := fun same => isFirst (Fin.ext same)
      change (empty.slots.set 0 (some block))[slot.val] = none
      rw [Vector.getElem_set_ne _ _ differs]
      exact Vector.getElem_replicate _
  tiled := ⟨start, reach⟩
  counted := by simp [free]
  aligned entry mem := by
    have header : Layout.blockHeaderSize.toNat = 16 := rfl
    have align : Layout.heapAlign.toNat = 4 := rfl
    rw [List.mem_singleton.mp mem]
    simp only [start, header, align]
    omega
  separated := List.isChain_singleton block

/-- A region that leaves room for a header and more becomes one free block, whatever the heap was
before; any other region is refused. -/
theorem reset_cases (heap : Heap) (first past : UInt32) :
    (∃ after entries, (reset first past).Yields heap (.ok ()) after ∧ after.Sound entries ∧
      handedOut entries = [] ∧ after.regionStart = first ∧ after.regionEnd = past) ∨
      ((past ≤ first ∨ past - first ≤ Layout.blockHeaderSize) ∧
        (reset first past).Yields heap (.error .regionTooSmall) heap) := by
  have header : Layout.blockHeaderSize.toNat = 16 := rfl
  by_cases small : past ≤ first ∨ past - first ≤ Layout.blockHeaderSize
  · right
    refine ⟨small, ?_⟩
    simp [reset, ofRegion, small]
  · left
    have room : first.toNat + 16 < past.toNat := by
      rw [not_or, UInt32.not_le, UInt32.not_le] at small
      have difference := UInt32.toNat_sub_of_le _ _ (UInt32.le_of_lt small.1)
      simp only [UInt32.lt_iff_toNat_lt, header] at small
      omega
    have bound := past.toNat_lt
    have addressSum := Checked.add32_of_lt
      (show first.toNat + Layout.blockHeaderSize.toNat < 2 ^ 32 by omega)
    have address := Checked.add32_eq_ok_iff.mp addressSum
    have sizeSum := Checked.sub32_of_le
      (show (first + Layout.blockHeaderSize).toNat ≤ past.toNat by omega)
    have size := Checked.sub32_eq_ok_iff.mp sizeSum
    let block : Block :=
      { address := first + Layout.blockHeaderSize
        size := past - (first + Layout.blockHeaderSize)
        free := true
        next := none }
    have sound : Sound
        { regionStart := first, regionEnd := past, slots := empty.slots.set 0 (some block),
          head := some 0, usedBytes := 0 } [(0, block)] :=
      sound_single rfl rfl address ((Nat.add_comm _ _).trans size)
    refine ⟨_, [(0, block)], ?_, sound, rfl, rfl, rfl⟩
    have made : ofRegion first past = .ok (.ok
        { regionStart := first, regionEnd := past, slots := empty.slots.set 0 (some block),
          head := some 0, usedBytes := 0 }) := by
      simp [ofRegion, small, addressSum, sizeSum, bind, Except.bind, pure, Except.pure, block]
    simp [reset, made]

theorem Call.act_sound (call : Call) (heap : Heap) (sound : ∃ entries, heap.Sound entries) :
    ∃ after, call.act.Yields heap () after ∧ ∃ entries, after.Sound entries := by
  rcases sound with ⟨entries, sound⟩
  cases call with
  | reset first past =>
      rcases reset_cases heap first past with
        ⟨after, result, run, soundAfter, -⟩ | ⟨-, run⟩
      · exact ⟨after, Operation.yields_discard run, result, soundAfter⟩
      · exact ⟨heap, Operation.yields_discard run, entries, sound⟩
  | request request =>
      cases request with
      | allocate size =>
          rcases sound.allocate size with ⟨reply, after, result, run, -, soundAfter, -⟩
          exact ⟨after, Operation.yields_discard run, result, soundAfter⟩
      | free address =>
          rcases sound.free address with ⟨reply, after, result, run, -, soundAfter, -⟩
          exact ⟨after, Operation.yields_discard run, result, soundAfter⟩

/-- After any calls on a heap that began without a region, the links lead through distinct slots,
which are all that are occupied, and end; the blocks fill the region without gaps and overlaps; no
two free blocks are next to each other; and the used bytes are those of the used blocks. -/
theorem wellFormed_of_calls (calls : List Call) :
    ∃ heap entries, (calls.forM Call.act).Yields empty () heap ∧
      heap.Path heap.head entries none ∧ heap.chain = entries.map Prod.fst ∧
      heap.blocks = .ok (entries.map Prod.snd) ∧ (entries.map Prod.fst).Nodup ∧
      (∀ slot, slot ∈ entries.map Prod.fst ↔ getElem heap.slots slot slot.isLt ≠ none) ∧
      Tiles heap.regionStart.toNat heap.regionEnd.toNat (entries.map Prod.snd) ∧
      (entries = [] ↔ heap.regionStart = heap.regionEnd) ∧
      (entries.map Prod.snd).Pairwise (fun left right => left.address < right.address) ∧
      heap.regionStart.toNat + ((entries.map (·.2.size.toNat)).sum +
        Layout.blockHeaderSize.toNat * entries.length) = heap.regionEnd.toNat ∧
      (entries.map Prod.snd).IsChain Separate ∧
      heap.usedBytes.toNat = usedSize (entries.map Prod.snd) := by
  rcases Operation.yields_forM Call.act_sound calls ⟨[], sound_empty⟩ with
    ⟨heap, run, entries, sound⟩
  have total := sound.tiled.total
  rw [List.map_map, List.length_map] at total
  refine ⟨heap, entries, run, sound.path, sound.chain_eq, sound.blocks_eq, sound.distinct, ?_,
    sound.tiled, ?_, ?_, total, sound.separated, sound.counted⟩
  · intro slot
    refine ⟨?_, sound.occupied slot⟩
    intro listed
    rcases List.mem_map.mp listed with ⟨entry, mem, rfl⟩
    rw [sound.slot_eq mem]
    exact Option.some_ne_none _
  · rw [← UInt32.toNat_inj]
    constructor
    · rintro rfl
      exact sound.tiled
    · intro same
      have header : Layout.blockHeaderSize.toNat = 16 := rfl
      rw [header] at total
      exact List.length_eq_zero_iff.mp (by omega)
  · apply sound.tiled.pairwise.imp
    intro left right apart
    have header : Layout.blockHeaderSize.toNat = 16 := rfl
    rw [UInt32.lt_iff_toNat_lt]
    omega

end Heap

open Heap

/-- A block that was handed out and not taken back. -/
structure Grant where
  /-- What the caller got. -/
  address : UInt32
  /-- What the caller asked for. -/
  requested : UInt32
  /-- The size of the block at the address as it was handed out. -/
  granted : Option UInt32
  deriving DecidableEq, Repr

/-- A heap with what its callers hold. -/
structure Ledger where
  heap : Heap
  grants : List Grant

namespace Ledger

/-- Does an operation on the heap. -/
def onHeap {Value : Type} (action : Operation Heap Value) : Operation Ledger Value :=
  action.within (fun ⟨heap, grants⟩ => (heap, grants)) Ledger.mk

/-- Serves a request and keeps account of what callers hold: an address is live once an allocation
returned it, until it is freed successfully. -/
def serve : Request → Operation Ledger Unit
  | .allocate size => do
      if let .ok address ← onHeap (Heap.allocate size).result then
        let blocks ← (← get).heap.blocks
        let granted := (blocks.find? (·.address == address)).map Block.size
        modify fun ledger =>
          { ledger with grants := { address, requested := size, granted } :: ledger.grants }
  | .free address => do
      if let .ok () ← onHeap (Heap.free address).result then
        modify fun ledger =>
          { ledger with grants := ledger.grants.filter (·.address ≠ address) }

/-- The used blocks of a heap over the given region are those that callers hold. -/
structure Backed (first past : UInt32) (ledger : Ledger) (entries : List Placed) : Prop where
  sound : ledger.heap.Sound entries
  regionStart : ledger.heap.regionStart = first
  regionEnd : ledger.heap.regionEnd = past
  held : (ledger.grants.map fun grant => (grant.address, grant.granted)).Perm
    ((handedOut entries).map fun block => (block.1, some block.2))
  covered : ∀ grant ∈ ledger.grants, ∃ granted rounded, grant.granted = some granted ∧
    roundUp grant.requested = some rounded ∧ rounded ≤ granted

theorem yields_onHeap {Value : Type} {action : Operation Heap Value} {before after : Ledger}
    {value : Value} :
    (onHeap action).Yields before value after ↔
      ∃ heap, action.Yields before.heap value heap ∧
        after = { heap, grants := before.grants } :=
  Operation.yields_within

theorem addresses_nodup {heap : Heap} {entries : List Placed} (sound : heap.Sound entries) :
    ((entries.map Prod.snd).map Block.address).Nodup := by
  have header : Layout.blockHeaderSize.toNat = 16 := rfl
  refine List.Pairwise.map Block.address ?_ sound.tiled.pairwise
  intro left right apart same
  rw [same] at apart
  omega

theorem filter_address {heap : Heap} {entries : List Placed} (sound : heap.Sound entries)
    {entry : Placed} (mem : entry ∈ entries) :
    (entries.map Prod.snd).filter (·.address == entry.2.address) = [entry.2] := by
  have distinct := addresses_nodup sound
  rcases List.append_of_mem mem with ⟨front, back, rfl⟩
  simp only [List.map_append, List.map_cons, List.nodup_append, List.nodup_cons,
    List.mem_cons] at distinct
  rcases distinct with ⟨-, ⟨notBack, -⟩, apart⟩
  have frontNone : (front.map Prod.snd).filter (·.address == entry.2.address) = [] := by
    apply List.filter_eq_nil_iff.mpr
    intro block mem
    simpa using apart block.address (List.mem_map_of_mem mem) entry.2.address (Or.inl rfl)
  have backNone : (back.map Prod.snd).filter (·.address == entry.2.address) = [] := by
    apply List.filter_eq_nil_iff.mpr
    intro block mem same
    exact notBack (eq_of_beq same ▸ List.mem_map_of_mem mem)
  rw [List.map_append, List.map_cons, List.filter_append, frontNone, List.filter_cons, backNone]
  simp

variable {first past : UInt32} {ledger : Ledger} {entries : List Placed}

theorem Backed.block_of_grant (backed : Backed first past ledger entries) {grant : Grant}
    (mem : grant ∈ ledger.grants) :
    ∃ entry ∈ entries, entry.2.free = false ∧ entry.2.address = grant.address ∧
      grant.granted = some entry.2.size := by
  have listed := backed.held.subset (List.mem_map_of_mem mem)
  rcases List.mem_map.mp listed with ⟨⟨address, size⟩, out, same⟩
  rcases mem_handedOut.mp out with ⟨entry, mem, used, rfl, rfl⟩
  simp only [Prod.mk.injEq] at same
  exact ⟨entry, mem, used, same.1, same.2.symm⟩

theorem Backed.fresh (backed : Backed first past ledger entries) {size address : UInt32}
    {result : List Placed} (outcome : Allocation ledger.heap entries size (.ok address) result) :
    ∀ grant ∈ ledger.grants, grant.address ≠ address := by
  intro grant mem same
  rcases backed.block_of_grant mem with ⟨entry, listed, used, there, -⟩
  have taken : ∃ block ∈ entries.map Prod.snd, block.free = true ∧ block.address = address := by
    cases outcome with
    | @whole rounded front back slot block rounding here earlier fitting uncut =>
        simp only [fits, Bool.and_eq_true] at fitting
        exact ⟨block, by simp [here], fitting.1, rfl⟩
    | @cut rounded front back slot spare block rest rounding here earlier fitting large spared
        restAddress restSize restFree restNext =>
        simp only [fits, Bool.and_eq_true] at fitting
        exact ⟨block, by simp [here], fitting.1, rfl⟩
  rcases taken with ⟨block, blockMem, free, blockThere⟩
  have inFilter : block ∈ (entries.map Prod.snd).filter (·.address == entry.2.address) :=
    List.mem_filter.mpr ⟨blockMem, by simp [blockThere, there, same]⟩
  rw [filter_address backed.sound listed, List.mem_singleton] at inFilter
  rw [inFilter, used] at free
  exact Bool.noConfusion free

theorem handedOut_nodup {heap : Heap} {entries : List Placed} (sound : heap.Sound entries) :
    ((handedOut entries).map Prod.fst).Nodup := by
  have distinct := addresses_nodup sound
  rw [List.map_map] at distinct
  have inside : ((handedOut entries).map Prod.fst).Sublist
      (entries.map (Block.address ∘ Prod.snd)) := by
    rw [handedOut, List.map_map]
    exact List.filter_sublist.map _
  exact distinct.sublist inside

theorem serve_allocate_backed (backed : Backed first past ledger entries) (size : UInt32) :
    ∃ after result, (serve (.allocate size)).Yields ledger () after ∧
      Backed first past after result := by
  rcases backed.sound.allocate size with
    ⟨reply, heap, result, run, outcome, sound, startKept, endKept, -⟩
  cases reply with
  | error cause =>
      refine ⟨{ heap, grants := ledger.grants }, result, ?_, sound,
        startKept.trans backed.regionStart, endKept.trans backed.regionEnd, ?_, backed.covered⟩
      · refine Operation.yields_bind.mpr ⟨_, _, yields_onHeap.mpr ⟨heap, run, rfl⟩, ?_⟩
        simp
      · rw [outcome.refused]
        exact backed.held
  | ok address =>
      rcases outcome.handedOut_perm with ⟨granted, rounded, out, rounding, enough⟩
      have taken : (address, granted) ∈ handedOut result := out.symm.subset List.mem_cons_self
      rcases mem_handedOut.mp taken with ⟨entry, mem, used, there, extent⟩
      have found : (result.map Prod.snd).find? (·.address == address) = some entry.2 := by
        rw [← List.head?_filter, ← there, filter_address sound mem, List.head?_cons]
      refine ⟨{ heap, grants := ⟨address, size, some granted⟩ :: ledger.grants }, result, ?_, sound,
        startKept.trans backed.regionStart, endKept.trans backed.regionEnd, ?_, ?_⟩
      · refine Operation.yields_bind.mpr ⟨_, _, yields_onHeap.mpr ⟨heap, run, rfl⟩, ?_⟩
        simp [sound.blocks_eq, found, extent]
      · exact (backed.held.cons (address, some granted)).trans
          (out.map fun block : UInt32 × UInt32 => (block.1, some block.2)).symm
      · intro grant mem
        rcases List.mem_cons.mp mem with rfl | mem
        · exact ⟨granted, rounded, rfl, rounding, enough⟩
        · exact backed.covered grant mem

theorem serve_free_backed (backed : Backed first past ledger entries) (address : UInt32) :
    ∃ after result, (serve (.free address)).Yields ledger () after ∧
      Backed first past after result := by
  rcases backed.sound.free address with
    ⟨reply, heap, result, run, outcome, sound, startKept, endKept, -⟩
  cases reply with
  | error cause =>
      refine ⟨{ heap, grants := ledger.grants }, result, ?_, sound,
        startKept.trans backed.regionStart, endKept.trans backed.regionEnd, ?_, backed.covered⟩
      · refine Operation.yields_bind.mpr ⟨_, _, yields_onHeap.mpr ⟨heap, run, rfl⟩, ?_⟩
        simp
      · rw [outcome.refused]
        exact backed.held
  | ok _ =>
      rcases outcome.handedOut_perm with ⟨granted, out⟩
      refine ⟨{ heap, grants := ledger.grants.filter (·.address ≠ address) }, result, ?_, sound,
        startKept.trans backed.regionStart, endKept.trans backed.regionEnd, ?_, ?_⟩
      · refine Operation.yields_bind.mpr ⟨_, _, yields_onHeap.mpr ⟨heap, run, rfl⟩, ?_⟩
        simp
      -- No other block begins there, so the filter drops the grant of the freed block alone.
      · have apart : address ∉ (handedOut result).map Prod.fst := by
          have distinct := (out.map Prod.fst).nodup_iff.mp (handedOut_nodup backed.sound)
          exact (List.nodup_cons.mp distinct).1
        have held := (backed.held.trans (out.map _)).filter fun block => block.1 ≠ address
        have others : (List.map (fun block : UInt32 × UInt32 => (block.1, some block.2))
            (handedOut result)).filter (fun block => block.1 ≠ address) =
              (handedOut result).map fun block => (block.1, some block.2) := by
          apply List.filter_eq_self.mpr
          intro block mem
          rcases List.mem_map.mp mem with ⟨out, listed, rfl⟩
          simp only [decide_eq_true_eq]
          rintro rfl
          exact apart (List.mem_map_of_mem listed)
        rw [List.filter_map, List.map_cons, List.filter_cons_of_neg (by simp), others] at held
        exact held
      · intro grant mem
        exact backed.covered grant (List.mem_of_mem_filter mem)

/-- No request faults, and each keeps the account right. -/
theorem serve_backed (request : Request) (ledger : Ledger)
    (backed : ∃ entries, Backed first past ledger entries) :
    ∃ after, (serve request).Yields ledger () after ∧
      ∃ entries, Backed first past after entries := by
  rcases backed with ⟨entries, backed⟩
  cases request with
  | allocate size =>
      rcases serve_allocate_backed backed size with ⟨after, result, run, backedAfter⟩
      exact ⟨after, run, result, backedAfter⟩
  | free address =>
      rcases serve_free_backed backed address with ⟨after, result, run, backedAfter⟩
      exact ⟨after, run, result, backedAfter⟩

/-- A grant's block is the only one at its address, is used, has the size it had when it was handed
out, and is large enough and aligned as the region is. -/
structure Holds (first past : UInt32) (blocks : List Block) (grant : Grant) (block : Block) :
    Prop where
  only : blocks.filter (·.address == grant.address) = [block]
  used : block.free = false
  unchanged : grant.granted = some block.size
  enough : (grant.requested.toNat + 3) / 4 * 4 ≤ block.size.toNat
  aligned : block.address.toNat % 4 = first.toNat % 4
  above : first.toNat + Layout.blockHeaderSize.toNat ≤ block.address.toNat
  below : block.address.toNat + block.size.toNat ≤ past.toNat

theorem backed_of_reset {old heap : Heap}
    (accepted : (Heap.reset first past).Yields old (.ok ()) heap) :
    ∃ entries, Backed first past ⟨heap, []⟩ entries := by
  rcases Heap.reset_cases old first past with
    ⟨after, entries, run, sound, nothing, regionStart, regionEnd⟩ | ⟨-, refused⟩
  · rcases accepted.unique run with ⟨-, rfl⟩
    refine ⟨entries, sound, regionStart, regionEnd, ?_, ?_⟩
    · rw [nothing]
      exact List.Perm.refl []
    · intro grant mem
      exact absurd mem List.not_mem_nil
  · cases (accepted.unique refused).1

theorem Backed.addresses_nodup (backed : Backed first past ledger entries) :
    (ledger.grants.map Grant.address).Nodup := by
  have addresses := backed.held.map Prod.fst
  rw [List.map_map, List.map_map] at addresses
  exact addresses.nodup_iff.mpr (handedOut_nodup backed.sound)

theorem Backed.holds (backed : Backed first past ledger entries) {grant : Grant}
    (mem : grant ∈ ledger.grants) :
    ∃ block, Holds first past (entries.map Prod.snd) grant block := by
  have sound := backed.sound
  have align : Layout.heapAlign.toNat = 4 := rfl
  rcases backed.block_of_grant mem with ⟨entry, listed, used, there, extent⟩
  rcases backed.covered grant mem with ⟨granted, rounded, same, rounding, enough⟩
  rw [extent, Option.some.injEq] at same
  subst same
  have bounds := sound.bounds listed
  rw [backed.regionStart, backed.regionEnd] at bounds
  have aligned := sound.aligned entry listed
  rw [backed.regionStart, align] at aligned
  refine ⟨entry.2, ?_, used, extent, ?_, aligned, bounds.1, bounds.2⟩
  · rw [← there]
    exact filter_address sound listed
  · have least := roundUp_eq_some rounding
    rw [align] at least
    rw [UInt32.le_iff_toNat_le] at enough
    omega

/-- Of two grants, the one at the lower address ends before the header of the other begins. -/
theorem Backed.apart (backed : Backed first past ledger entries) {lower upper : Grant}
    (lowerMem : lower ∈ ledger.grants) (upperMem : upper ∈ ledger.grants)
    (below : lower.address < upper.address) {size : UInt32} (extent : lower.granted = some size) :
    lower.address.toNat + size.toNat + Layout.blockHeaderSize.toNat ≤ upper.address.toNat := by
  rcases backed.block_of_grant lowerMem with ⟨left, leftListed, -, leftThere, leftExtent⟩
  rcases backed.block_of_grant upperMem with ⟨right, rightListed, -, rightThere, -⟩
  rw [extent, Option.some.injEq] at leftExtent
  rw [← leftThere, ← rightThere, UInt32.lt_iff_toNat_lt] at below
  rw [leftExtent, ← leftThere, ← rightThere]
  have ordered := backed.sound.tiled.pairwise
  rw [List.pairwise_map] at ordered
  rcases List.append_of_mem leftListed with ⟨front, back, rfl⟩
  rw [List.pairwise_append, List.pairwise_cons] at ordered
  rcases List.mem_append.mp rightListed with inFront | inRear
  · have reversed := ordered.2.2 right inFront left List.mem_cons_self
    omega
  · rcases List.mem_cons.mp inRear with rfl | inBack
    · omega
    · exact ordered.2.1.1 right inBack

/-- Since the heap was given its region, whatever was asked of it: an allocation never returns an
address that is live, each live address is that of a used block which stayed as it was handed out,
and the block of one live address ends before the header of the next begins. -/
theorem grants_disjoint {first past : UInt32} {old heap : Heap}
    (accepted : (Heap.reset first past).Yields old (.ok ()) heap) (requests : List Request) :
    ∃ ledger blocks, (requests.forM serve).Yields ⟨heap, []⟩ () ledger ∧
      ledger.heap.blocks = .ok blocks ∧
      (∀ size address after, (Heap.allocate size).Yields ledger.heap (.ok address) after →
        ∀ grant ∈ ledger.grants, grant.address ≠ address) ∧
      (ledger.grants.map Grant.address).Nodup ∧
      (∀ grant ∈ ledger.grants, ∃ block, Holds first past blocks grant block) ∧
      ∀ lower ∈ ledger.grants, ∀ upper ∈ ledger.grants, lower.address < upper.address →
        ∀ size, lower.granted = some size →
          lower.address.toNat + size.toNat + Layout.blockHeaderSize.toNat ≤
            upper.address.toNat := by
  rcases Operation.yields_forM serve_backed requests (backed_of_reset accepted) with
    ⟨ledger, run, entries, backed⟩
  refine ⟨ledger, entries.map Prod.snd, run, backed.sound.blocks_eq, ?_, backed.addresses_nodup,
    ?_, ?_⟩
  · intro size address after served
    rcases backed.sound.allocate size with ⟨reply, heap, result, again, outcome, -⟩
    rcases served.unique again with ⟨rfl, -⟩
    exact backed.fresh outcome
  · intro grant mem
    exact backed.holds mem
  · intro lower lowerMem upper upperMem below size extent
    exact backed.apart lowerMem upperMem below extent

/-- Three allocations, two of them of no bytes at all, of which the first is freed again. -/
theorem grants_disjoint_after_free :
    ∃ heap, (Heap.reset 0x200000 0x204000).Yields .empty (.ok ()) heap ∧
      ∃ ledger blocks,
        ([.allocate 0, .allocate 10, .allocate 0, .free 0x200010].forM serve).Yields
          ⟨heap, []⟩ () ledger ∧
        ledger.heap.blocks = .ok blocks ∧
        ledger.grants = [⟨0x20003c, 0, some 0⟩, ⟨0x200020, 10, some 12⟩] ∧
        ∀ grant ∈ ledger.grants, ∃ block, Holds 0x200000 0x204000 blocks grant block := by
  let block : Block := { address := 0x200010, size := 0x3ff0, free := true, next := none }
  let heap : Heap :=
    { regionStart := 0x200000, regionEnd := 0x204000, slots := empty.slots.set 0 (some block),
      head := some 0, usedBytes := 0 }
  have accepted : (Heap.reset 0x200000 0x204000).Yields .empty (.ok ()) heap := ⟨_, rfl⟩
  rcases grants_disjoint accepted [.allocate 0, .allocate 10, .allocate 0, .free 0x200010] with
    ⟨ledger, blocks, run, listed, -, -, holds, -⟩
  refine ⟨heap, accepted, ledger, blocks, run, listed, ?_, holds⟩
  have evaluated :
      (match ([.allocate 0, .allocate 10, .allocate 0, .free 0x200010].forM serve) ⟨heap, []⟩ with
        | .ok outcome => outcome.state.grants
        | .error _ => []) = [⟨0x20003c, 0, some 0⟩, ⟨0x200020, 10, some 12⟩] := by
    decide +kernel
  rcases run with ⟨effects, run⟩
  rw [run] at evaluated
  exact evaluated

end Ledger

end KernelCore
