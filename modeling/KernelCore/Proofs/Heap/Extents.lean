import KernelCore.Proofs.Heap.Ledger

/-!
# The heap as its callers see it

Callers see of a block where it is, how large it is, and whether it is free; which slot holds it and
what it links to is the heap's own business. `Heap.extents` lists what they see, in the order of
addresses, and `Heap.Placement` and `Heap.Return` say what the two requests do to that list.

Since the blocks fill the region and no two free ones are next to each other, the used extents
determine all others: `Heap.covering` puts a single free extent into each gap between them.
-/

namespace KernelCore

/-- What callers see of a block. -/
structure Extent where
  /-- Where the payload begins. -/
  address : Nat
  /-- Bytes of payload. -/
  size : Nat
  /-- Whether it can be handed out. -/
  free : Bool
  deriving DecidableEq, Repr

def Block.extent (block : Block) : Extent :=
  ⟨block.address.toNat, block.size.toNat, block.free⟩

namespace Extent

/-- The extent can be handed out for so many bytes. -/
def Fits (need : Nat) (extent : Extent) : Prop :=
  extent.free = true ∧ need ≤ extent.size

/-- What an extent on a list of `count` gives way to when it is handed out for `need` bytes. What is
not needed is cut off, if there is enough of it and the list is not at its full length. -/
def handOut (extent : Extent) (need count : Nat) : List Extent :=
  if need + Layout.blockHeaderSize.toNat + Layout.splitSlop.toNat < extent.size ∧
      count < Layout.maxHeapBlocks then
    [⟨extent.address, need, false⟩,
      ⟨extent.address + need + Layout.blockHeaderSize.toNat,
        extent.size - need - Layout.blockHeaderSize.toNat, true⟩]
  else
    [{ extent with free := false }]

end Extent

namespace Heap

/-- What callers see of the heap, in the order of addresses. -/
def extents (heap : Heap) : Except Fault (List Extent) :=
  return (← heap.blocks).map Block.extent

/-- What callers see of the blocks on a list. -/
def shape (entries : List Placed) : List Extent :=
  entries.map (·.2.extent)

/-- The extents that are not free. -/
def used (extents : List Extent) : List Extent :=
  extents.filter (!·.free)

/-- The bytes that a request is rounded up to. -/
def need (size : UInt32) : Nat :=
  (size.toNat + 3) / 4 * 4

/-- A single free extent from `first` to `past`, if there is anything between them. -/
def gap (first past : Nat) : List Extent :=
  if first = past then []
  else
    [⟨first + Layout.blockHeaderSize.toNat, past - (first + Layout.blockHeaderSize.toNat), true⟩]

/-- The given extents, each behind its header, and a single free extent in each gap that they leave
between `first` and `past`. -/
def covering (first past : Nat) : List Extent → List Extent
  | [] => gap first past
  | extent :: rest =>
      gap first (extent.address - Layout.blockHeaderSize.toNat) ++
        extent :: covering (extent.address + extent.size) past rest

/-- What a request for `size` bytes leads to, as callers see it. -/
inductive Placement (size : UInt32) (extents : List Extent) :
    Except HeapError UInt32 → List Extent → Prop where
  /-- The request cannot be rounded, or no free extent is large enough. -/
  | refused (lacking : UInt32.size ≤ size.toNat + 3 ∨
      ∀ extent ∈ extents, ¬extent.Fits (need size)) :
      Placement size extents (.error .outOfMemory) extents
  /-- The first extent that fits is handed out. -/
  | placed {address : UInt32} {front back : List Extent} {chosen : Extent}
      (small : size.toNat + 3 < UInt32.size)
      (listed : extents = front ++ chosen :: back)
      (there : chosen.address = address.toNat)
      (fits : chosen.Fits (need size))
      (earlier : ∀ other ∈ front, ¬other.Fits (need size)) :
      Placement size extents (.ok address)
        (front ++ chosen.handOut (need size) extents.length ++ back)

/-- What taking back an address leads to, as callers see it. -/
inductive Return (first past : Nat) (extents : List Extent) (address : UInt32) :
    Except HeapError Unit → List Extent → Prop where
  /-- No extent begins there. -/
  | unknown (none_there : ∀ extent ∈ extents, extent.address ≠ address.toNat) :
      Return first past extents address (.error .unknownAddress) extents
  /-- The extent that begins there is free. -/
  | double {extent : Extent} (listed : extent ∈ extents) (there : extent.address = address.toNat)
      (free : extent.free = true) :
      Return first past extents address (.error .doubleFree) extents
  /-- The extent that begins there is one of those that are used, and the others stay. -/
  | freed {extent : Extent} (listed : extent ∈ extents) (there : extent.address = address.toNat)
      (used : extent.free = false) :
      Return first past extents address (.ok ())
        (covering first past ((Heap.used extents).filter (·.address ≠ address.toNat)))

section Views

variable {heap : Heap} {entries : List Placed}

theorem shape_eq (entries : List Placed) :
    shape entries = (entries.map Prod.snd).map Block.extent := by
  rw [shape, List.map_map]
  rfl

@[simp]
theorem length_shape (entries : List Placed) : (shape entries).length = entries.length :=
  List.length_map _

@[simp]
theorem shape_append (front back : List Placed) :
    shape (front ++ back) = shape front ++ shape back :=
  List.map_append

@[simp]
theorem shape_cons (entry : Placed) (rest : List Placed) :
    shape (entry :: rest) = entry.2.extent :: shape rest :=
  rfl

theorem mem_shape {extent : Extent} :
    extent ∈ shape entries ↔ ∃ entry ∈ entries, entry.2.extent = extent := by
  rw [shape, List.mem_map]

theorem Laid.extents_eq (laid : heap.Laid entries) : heap.extents = .ok (shape entries) := by
  rw [extents, laid.blocks_eq, shape_eq]
  rfl

/-- The used bytes are those of the used extents. -/
theorem usedSize_eq (blocks : List Block) :
    usedSize blocks = ((used (blocks.map Block.extent)).map Extent.size).sum := by
  rw [usedSize, used, List.filter_map, List.map_map]
  rfl

theorem Laid.usedBytes_eq (laid : heap.Laid entries) :
    heap.usedBytes.toNat = ((used (shape entries)).map Extent.size).sum := by
  rw [laid.counted, usedSize_eq, shape_eq]

/-- Each extent begins after all those that come before it. -/
theorem Laid.ascending (laid : heap.Laid entries) :
    (shape entries).Pairwise fun left right => left.address < right.address := by
  have header : Layout.blockHeaderSize.toNat = 16 := rfl
  rw [shape_eq]
  refine List.Pairwise.map Block.extent ?_ laid.tiled.pairwise
  intro left right apart
  change left.address.toNat < right.address.toNat
  omega

/-- An extent is told by where it begins. -/
theorem eq_of_address {extents : List Extent}
    (ascending : extents.Pairwise fun left right => left.address < right.address)
    {left right : Extent} (leftMem : left ∈ extents) (rightMem : right ∈ extents)
    (same : left.address = right.address) : left = right := by
  have distinct : (extents.map Extent.address).Nodup :=
    List.pairwise_map.mpr (ascending.imp Nat.ne_of_lt)
  exact List.inj_on_of_nodup_map distinct leftMem rightMem same

end Views

section Coverings

variable {first past : Nat} {extent : Extent} {rest : List Extent}

@[simp]
theorem used_nil : used [] = [] :=
  rfl

theorem used_cons_free (free : extent.free = true) : used (extent :: rest) = used rest :=
  List.filter_cons_of_neg (by simp [free])

theorem used_cons_used (notFree : extent.free = false) :
    used (extent :: rest) = extent :: used rest :=
  List.filter_cons_of_pos (by simp [notFree])

theorem covering_cons (before : Nat)
    (start : extent.address = before + Layout.blockHeaderSize.toNat) :
    covering first past (extent :: rest) =
      gap first before ++ extent :: covering (extent.address + extent.size) past rest := by
  rw [covering, start, Nat.add_sub_cancel]

/-- An extent that begins where the stretch does leaves no gap before it. -/
theorem covering_cons_adjacent (start : extent.address = first + Layout.blockHeaderSize.toNat) :
    covering first past (extent :: rest) =
      extent :: covering (extent.address + extent.size) past rest := by
  rw [covering_cons first start, gap, if_pos rfl, List.nil_append]

/-- A free extent is all that there is from where its header begins to where it ends. -/
theorem gap_of_free {last : Nat} (free : extent.free = true)
    (start : extent.address = first + Layout.blockHeaderSize.toNat)
    (ended : extent.address + extent.size = last) : gap first last = [extent] := by
  have header : Layout.blockHeaderSize.toNat = 16 := rfl
  rcases extent with ⟨address, size, mark⟩
  have apart : first ≠ last := by
    simp only at start ended
    omega
  simp only [gap, if_neg apart, List.cons.injEq, Extent.mk.injEq, and_true] at *
  exact ⟨start.symm, by omega, free.symm⟩

/-- Blocks that fill a stretch, with no two free ones next to each other, are determined by those
that are used. -/
theorem Tiles.eq_covering {blocks : List Block} (tiles : Tiles first past blocks)
    (separated : blocks.IsChain Separate) :
    blocks.map Block.extent = covering first past (used (blocks.map Block.extent)) := by
  induction blocks generalizing first with
  | nil =>
      have same : first = past := tiles
      simp [covering, gap, same]
  | cons block rest ih =>
      rcases tiles with ⟨start, onward⟩
      have others := ih onward separated.tail
      cases free : block.free with
      | false =>
          rw [List.map_cons, used_cons_used free, covering_cons_adjacent start]
          exact congrArg (block.extent :: ·) others
      | true =>
          have isGap : gap first (block.address.toNat + block.size.toNat) = [block.extent] :=
            gap_of_free free start rfl
          rw [List.map_cons, used_cons_free free]
          cases rest with
          | nil =>
              have ended : block.address.toNat + block.size.toNat = past := onward
              rw [ended] at isGap
              exact isGap.symm
          | cons next more =>
              -- The block after a free one is used, so the free one is all of the gap before it.
              have nextUsed : next.free = false := by
                have apart := (List.isChain_cons_cons.mp separated).1
                simpa [Separate, free] using apart
              rw [List.map_cons, used_cons_used nextUsed, covering_cons_adjacent onward.1] at others
              rw [List.map_cons, used_cons_used nextUsed, covering_cons _ onward.1, isGap, others]
              rfl

theorem Sound.shape_eq_covering {heap : Heap} {entries : List Placed}
    (sound : heap.Sound entries) :
    shape entries =
      covering heap.regionStart.toNat heap.regionEnd.toNat (used (shape entries)) := by
  rw [shape_eq]
  exact sound.tiled.eq_covering sound.separated

end Coverings

section Requests

variable {heap after : Heap} {entries result : List Placed} {size address : UInt32}

theorem roundUp_eq_none_iff : roundUp size = none ↔ UInt32.size ≤ size.toNat + 3 := by
  have align : Layout.heapAlign.toNat = 4 := rfl
  simp only [roundUp, align, ite_eq_right_iff, reduceCtorEq, imp_false, Nat.not_lt]

theorem toNat_of_roundUp {rounded : UInt32} (rounding : roundUp size = some rounded) :
    size.toNat + 3 < UInt32.size ∧ rounded.toNat = need size := by
  have align : Layout.heapAlign.toNat = 4 := rfl
  rcases roundUp_eq_some rounding with ⟨enough, least, multiple⟩
  rw [align] at least multiple
  refine ⟨Nat.lt_of_not_le fun tooLarge => ?_, ?_⟩
  · rw [roundUp_eq_none_iff.mpr tooLarge] at rounding
    cases rounding
  · rw [need]
    omega

theorem fits_iff {rounded : UInt32} (rounding : roundUp size = some rounded) {block : Block} :
    fits rounded block = true ↔ block.extent.Fits (need size) := by
  rw [fits, Bool.and_eq_true, decide_eq_true_iff, UInt32.le_iff_toNat_le,
    (toNat_of_roundUp rounding).2]
  rfl

/-- No slot is lost, so one is spare as long as there are fewer blocks than slots. -/
theorem Laid.spareSlot_eq_none_iff (laid : heap.Laid entries) :
    heap.spareSlot = none ↔ ¬entries.length < Layout.maxHeapBlocks := by
  constructor
  · intro full
    have all : ∀ slot : BlockSlot, slot ∈ entries.map Prod.fst := by
      intro slot
      apply laid.occupied
      have present := Vector.findFinIdx?_eq_none_iff.mp full _ (Vector.getElem_mem slot.isLt)
      simpa using present
    have covers : (Finset.univ : Finset BlockSlot) ⊆ (entries.map Prod.fst).toFinset :=
      fun slot _ => List.mem_toFinset.mpr (all slot)
    have count := (Finset.card_le_card covers).trans (List.toFinset_card_le _)
    simpa using count
  · intro full
    cases spared : heap.spareSlot with
    | none => rfl
    | some spare =>
        exfalso
        have vacant : spare ∉ entries.map Prod.fst := by
          intro listed
          rcases List.mem_map.mp listed with ⟨entry, mem, rfl⟩
          have present := laid.slot_eq mem
          rw [slots_spareSlot spared] at present
          cases present
        have count := (List.nodup_cons.mpr ⟨vacant, laid.distinct⟩).length_le_card
        simp only [List.length_cons, List.length_map, Fintype.card_fin] at count
        exact full count

theorem not_fits {rounded : UInt32} (rounding : roundUp size = some rounded)
    (missed : ∀ entry ∈ entries, fits rounded entry.2 = false) :
    ∀ extent ∈ shape entries, ¬extent.Fits (need size) := by
  intro extent mem large
  rcases mem_shape.mp mem with ⟨entry, listed, rfl⟩
  have passes := (fits_iff rounding).mpr large
  rw [missed entry listed] at passes
  cases passes

/-- The extent of the first block that fits is the first extent that fits. -/
theorem placement_of_first {rounded : UInt32} {front back : List Placed} {slot : BlockSlot}
    {block : Block} {given : List Extent} (rounding : roundUp size = some rounded)
    (listed : entries = front ++ (slot, block) :: back)
    (earlier : ∀ entry ∈ front, fits rounded entry.2 = false)
    (fitting : fits rounded block = true)
    (handed : block.extent.handOut (need size) entries.length = given) :
    Placement size (shape entries) (.ok block.address) (shape front ++ given ++ shape back) := by
  have same : shape entries = shape front ++ block.extent :: shape back := by simp [listed]
  rw [← handed, ← length_shape entries]
  exact .placed (toNat_of_roundUp rounding).1 same rfl ((fits_iff rounding).mp fitting)
    (not_fits rounding earlier)

/-- What a request does to the blocks is what it does to the extents. -/
theorem Laid.placement (laid : heap.Laid entries) {reply : Except HeapError UInt32}
    (outcome : Allocation heap entries size reply result) :
    Placement size (shape entries) reply (shape result) := by
  have header : Layout.blockHeaderSize.toNat = 16 := rfl
  cases outcome with
  | tooLarge noSize => exact .refused (Or.inl (roundUp_eq_none_iff.mp noSize))
  | exhausted rounding none_fits => exact .refused (Or.inr (not_fits rounding none_fits))
  | @whole rounded front back slot block rounding listed earlier fitting uncut =>
      have total := (toNat_of_roundUp rounding).2
      have handed : block.extent.handOut (need size) entries.length =
          [{ block.extent with free := false }] := by
        refine if_neg fun ⟨large, room⟩ => ?_
        rw [← total] at large
        exact laid.spareSlot_eq_none_iff.mp (uncut (splitThreshold_lt_iff.mpr large)) room
      have placed := placement_of_first rounding listed earlier fitting handed
      rw [List.append_assoc] at placed
      rw [shape_append]
      exact placed
  | @cut rounded front back slot spare block rest rounding listed earlier fitting large spared
      restAddress restSize restFree restNext =>
      have total := (toNat_of_roundUp rounding).2
      have room : entries.length < Layout.maxHeapBlocks := by
        by_contra full
        rw [laid.spareSlot_eq_none_iff.mpr full] at spared
        cases spared
      have handed : block.extent.handOut (need size) entries.length =
          [⟨block.address.toNat, rounded.toNat, false⟩, rest.extent] := by
        rw [Extent.handOut, if_pos ⟨total ▸ splitThreshold_lt_iff.mp large, room⟩, ← total]
        have address : block.extent.address = block.address.toNat := rfl
        have extent : block.extent.size = block.size.toNat := rfl
        simp only [Block.extent, restFree, List.cons.injEq, Extent.mk.injEq, and_true, true_and]
        omega
      have placed := placement_of_first rounding listed earlier fitting handed
      rw [List.append_assoc] at placed
      rw [shape_append]
      exact placed

/-- A request is refused only for want of an extent that fits. -/
theorem Placement.refused_iff {extents after : List Extent} {reply : Except HeapError UInt32}
    (placement : Placement size extents reply after) :
    reply = .error .outOfMemory ↔
      UInt32.size ≤ size.toNat + 3 ∨ ∀ extent ∈ extents, ¬extent.Fits (need size) := by
  cases placement with
  | refused lacking => exact iff_of_true rfl lacking
  | @placed address front back chosen small listed there fits earlier =>
      refine iff_of_false (fun impossible => nomatch impossible) ?_
      rintro (large | none_fits)
      · omega
      · exact none_fits chosen (by simp [listed]) fits

theorem used_shape (entries : List Placed) :
    used (shape entries) =
      (handedOut entries).map fun block => ⟨block.1.toNat, block.2.toNat, false⟩ := by
  induction entries with
  | nil => rfl
  | cons entry rest ih =>
      rcases entry with ⟨slot, block⟩
      cases free : block.free with
      | true => rw [shape_cons, used_cons_free free, handedOut_cons_free rest free, ih]
      | false =>
          rw [shape_cons, used_cons_used free, handedOut_cons_used rest free, ih]
          simp [Block.extent, free]

/-- No two blocks begin at one address, so the block that is taken back is told by its own. -/
theorem Sound.handedOut_filter (sound : heap.Sound entries)
    (outcome : Release entries address (.ok ()) result) :
    handedOut result = (handedOut entries).filter (·.1 ≠ address) := by
  rcases outcome.handedOut_split with ⟨front, granted, back, before, after⟩
  have distinct := Ledger.handedOut_nodup sound
  rw [before, List.map_append, List.map_cons, List.nodup_middle, List.nodup_cons,
    List.mem_append, not_or] at distinct
  have stay : ∀ part : List (UInt32 × UInt32), address ∉ part.map Prod.fst →
      part.filter (·.1 ≠ address) = part := by
    intro part absent
    apply List.filter_eq_self.mpr
    intro block mem
    rw [decide_eq_true_iff]
    rintro rfl
    exact absent (List.mem_map_of_mem mem)
  rw [before, after, List.filter_append, List.filter_cons_of_neg (by simp),
    stay front distinct.1.1, stay back distinct.1.2]

/-- What taking back an address does to the blocks is what it does to the extents. -/
theorem Sound.returns (sound : heap.Sound entries) (soundAfter : after.Sound result)
    (regionStart : after.regionStart = heap.regionStart)
    (regionEnd : after.regionEnd = heap.regionEnd) {reply : Except HeapError Unit}
    (outcome : Release entries address reply result) :
    Return heap.regionStart.toNat heap.regionEnd.toNat (shape entries) address reply
      (shape result) := by
  cases reply with
  | error cause =>
      cases outcome with
      | unknown none_there =>
          refine .unknown fun extent mem there => ?_
          rcases mem_shape.mp mem with ⟨entry, listed, rfl⟩
          exact none_there entry listed (UInt32.toNat_inj.mp there)
      | @double entry listed there free =>
          exact .double (mem_shape.mpr ⟨entry, listed, rfl⟩) (congrArg UInt32.toNat there) free
  | ok _ =>
      have taken : (used (shape entries)).filter (·.address ≠ address.toNat) =
          used (shape result) := by
        rw [used_shape, used_shape, sound.handedOut_filter outcome, List.filter_map]
        simp [Function.comp_def, UInt32.toNat_inj]
      have covered := soundAfter.shape_eq_covering
      rw [regionStart, regionEnd, ← taken] at covered
      rw [covered]
      cases outcome with
      | @freed front back merged slot block joint listed there used after =>
          have mem : block.extent ∈ shape entries := by simp [listed]
          exact .freed mem (congrArg UInt32.toNat there) used

theorem Sound.places (sound : heap.Sound entries) (size : UInt32) :
    ∃ reply after result, (Heap.allocate size).Yields heap reply after ∧
      Placement size (shape entries) reply (shape result) ∧ after.Sound result ∧
      after.regionStart = heap.regionStart ∧ after.regionEnd = heap.regionEnd ∧
      ∀ cause, reply = .error cause → after = heap := by
  rcases sound.allocate size with
    ⟨reply, after, result, run, outcome, soundAfter, start, past, unchanged⟩
  exact ⟨reply, after, result, run, sound.placement outcome, soundAfter, start, past, unchanged⟩

theorem Sound.takesBack (sound : heap.Sound entries) (address : UInt32) :
    ∃ reply after result, (Heap.free address).Yields heap reply after ∧
      Return heap.regionStart.toNat heap.regionEnd.toNat (shape entries) address reply
        (shape result) ∧
      after.Sound result ∧ after.regionStart = heap.regionStart ∧
      after.regionEnd = heap.regionEnd ∧ ∀ cause, reply = .error cause → after = heap := by
  rcases sound.free address with
    ⟨reply, after, result, run, outcome, soundAfter, start, past, unchanged⟩
  exact ⟨reply, after, result, run, sound.returns soundAfter start past outcome, soundAfter, start,
    past, unchanged⟩

end Requests

section Runs

variable {heap after : Heap} {first past : UInt32}

/-- The heap has no region, or one with room for a block's header and more. -/
def Spacious (heap : Heap) : Prop :=
  heap.regionStart = heap.regionEnd ∨
    heap.regionStart.toNat + Layout.blockHeaderSize.toNat < heap.regionEnd.toNat

theorem room_of_reset (accepted : (reset first past).Yields heap (.ok ()) after) :
    first.toNat + Layout.blockHeaderSize.toNat < past.toNat := by
  by_contra full
  have small : past ≤ first ∨ past - first ≤ Layout.blockHeaderSize := by
    rw [or_iff_not_imp_left, UInt32.not_le]
    intro less
    rw [UInt32.le_iff_toNat_le, UInt32.toNat_sub_of_le _ _ (UInt32.le_of_lt less)]
    omega
  have refused : (reset first past).Yields heap (.error .regionTooSmall) heap := by
    simp [reset, ofRegion, small]
  cases (accepted.unique refused).1

theorem Call.act_spacious (call : Call) (sound : ∃ entries, heap.Sound entries)
    (spacious : heap.Spacious) (run : call.act.Yields heap () after) : after.Spacious := by
  rcases sound with ⟨entries, sound⟩
  rcases call with ⟨first, past⟩ | size | address
  · rcases Operation.yields_map.mp run with ⟨reply, run, -⟩
    rcases reset_cases heap first past with ⟨fresh, _, made, -, -, start, ended⟩ | ⟨-, refused⟩
    · rcases made.unique run with ⟨-, rfl⟩
      right
      rw [start, ended]
      exact room_of_reset made
    · rw [(run.unique refused).2]
      exact spacious
  · rcases Operation.yields_map.mp run with ⟨reply, run, -⟩
    rcases sound.places size with ⟨_, _, _, again, -, -, start, ended, -⟩
    rw [(run.unique again).2, Spacious, start, ended]
    exact spacious
  · rcases Operation.yields_map.mp run with ⟨reply, run, -⟩
    rcases sound.takesBack address with ⟨_, _, _, again, -, -, start, ended, -⟩
    rw [(run.unique again).2, Spacious, start, ended]
    exact spacious

/-- Any calls on a heap that began without a region end, and leave a heap whose list is sound. -/
theorem sound_of_calls (calls : List Call) :
    ∃ heap entries, (calls.forM Call.act).Yields empty () heap ∧ heap.Sound entries ∧
      heap.Spacious := by
  have step : ∀ call before, (∃ entries, before.Sound entries) ∧ before.Spacious →
      ∃ after, (Call.act call).Yields before () after ∧
        (∃ entries, after.Sound entries) ∧ after.Spacious := by
    intro call before ⟨sound, spacious⟩
    rcases call.act_sound before sound with ⟨after, run, soundAfter⟩
    exact ⟨after, run, soundAfter, call.act_spacious sound spacious run⟩
  rcases Operation.yields_forM step calls ⟨⟨[], sound_empty⟩, Or.inl rfl⟩ with
    ⟨heap, run, ⟨entries, sound⟩, spacious⟩
  exact ⟨heap, entries, run, sound, spacious⟩

end Runs

end Heap

end KernelCore
