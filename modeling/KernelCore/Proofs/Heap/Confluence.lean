import KernelCore.Proofs.Heap.History
import KernelCore.Proofs.Heap.Restoration

/-!
# The order of freeing

The used extents determine the free ones, and freeing an address takes one extent from the used ones
and leaves the others. So what is left after several are freed depends on which they were, and not
on their order, although each step merges other blocks. Two heaps with the same region and the same
extents answer all requests alike, whatever slots hold their blocks.
-/

namespace KernelCore.Heap

section Determinism

/-- Where a list is split at the first element that passes, it is split in one way only. -/
theorem split_unique {Element : Type} {passes : Element → Prop}
    {front back left right : List Element} {chosen found : Element}
    (same : front ++ chosen :: back = left ++ found :: right)
    (earlier : ∀ element ∈ front, ¬passes element) (pass : passes chosen)
    (alsoEarlier : ∀ element ∈ left, ¬passes element) (alsoPass : passes found) :
    front = left ∧ chosen = found ∧ back = right := by
  rcases List.append_eq_append_iff.mp same with ⟨more, rfl, rest⟩ | ⟨more, rfl, rest⟩
  · cases more with
    | nil => simpa using rest
    | cons first more =>
        cases rest
        exact absurd pass (alsoEarlier chosen (by simp))
  · cases more with
    | nil => simpa [eq_comm] using rest
    | cons first more =>
        cases rest
        exact absurd alsoPass (earlier found (by simp))

variable {first past : Nat} {size address : UInt32} {extents result other : List Extent}

/-- The extents settle how a request is answered. -/
theorem Placement.unique {reply answer : Except HeapError UInt32}
    (one : Placement size extents reply result) (two : Placement size extents answer other) :
    reply = answer ∧ result = other := by
  cases one with
  | refused lacking =>
      have refused := two.refused_iff.mpr lacking
      subst refused
      cases two
      exact ⟨rfl, rfl⟩
  | @placed address front back chosen small listed there fits earlier =>
      cases two with
      | refused lacking =>
          rcases lacking with large | none_fits
          · omega
          · exact absurd fits (none_fits chosen (by simp [listed]))
      | placed _ alsoListed alsoThere alsoFits alsoEarlier =>
          rcases split_unique (listed.symm.trans alsoListed) earlier fits alsoEarlier alsoFits with
            ⟨rfl, rfl, rfl⟩
          rw [UInt32.toNat_inj.mp (there.symm.trans alsoThere)]
          exact ⟨rfl, rfl⟩

theorem Return.unique {reply answer : Except HeapError Unit}
    (ascending : extents.Pairwise fun left right => left.address < right.address)
    (one : Return first past extents address reply result)
    (two : Return first past extents address answer other) : reply = answer ∧ result = other := by
  cases one with
  | unknown none_there =>
      cases two with
      | unknown _ => exact ⟨rfl, rfl⟩
      | double listed there _ => exact absurd there (none_there _ listed)
      | freed listed there _ => exact absurd there (none_there _ listed)
  | double listed there free =>
      cases two with
      | unknown none_there => exact absurd there (none_there _ listed)
      | double _ _ _ => exact ⟨rfl, rfl⟩
      | freed alsoListed alsoThere used =>
          rw [eq_of_address ascending listed alsoListed (there.trans alsoThere.symm), used] at free
          cases free
  | freed listed there used =>
      cases two with
      | unknown none_there => exact absurd there (none_there _ listed)
      | double alsoListed alsoThere free =>
          rw [eq_of_address ascending listed alsoListed (there.trans alsoThere.symm), free] at used
          cases used
      | freed _ _ _ => exact ⟨rfl, rfl⟩

end Determinism

section Answers

variable {heap other : Heap}

/-- The heaps differ in nothing that callers see. -/
def Resembles (heap other : Heap) : Prop :=
  ∃ entries others, heap.Sound entries ∧ other.Sound others ∧
    other.regionStart = heap.regionStart ∧ other.regionEnd = heap.regionEnd ∧
    shape others = shape entries

/-- Whatever requests are made of both heaps, they are answered in the same way. -/
def AnswersLike (heap other : Heap) : Prop :=
  ∀ requests : List Request, ∃ history after final,
    (requests.mapM Request.deal).Yields heap history after ∧
      (requests.mapM Request.deal).Yields other history final

theorem Resembles.deal (resembles : heap.Resembles other) (request : Request) :
    ∃ dealing after final, request.deal.Yields heap dealing after ∧
      request.deal.Yields other dealing final ∧ after.Resembles final := by
  rcases resembles with ⟨entries, others, sound, soundOther, start, ended, same⟩
  cases request with
  | allocate size =>
      rcases sound.places size with
        ⟨reply, after, result, run, placement, soundAfter, startAfter, endAfter, -⟩
      rcases soundOther.places size with
        ⟨answer, final, results, again, alsoPlaced, soundFinal, startFinal, endFinal, -⟩
      rw [same] at alsoPlaced
      rcases placement.unique alsoPlaced with ⟨rfl, sameResult⟩
      refine ⟨.allocated size reply, after, final, Operation.yields_map.mpr ⟨reply, run, rfl⟩,
        Operation.yields_map.mpr ⟨reply, again, rfl⟩, result, results, soundAfter, soundFinal, ?_,
        ?_, sameResult.symm⟩
      · rw [startFinal, start, startAfter]
      · rw [endFinal, ended, endAfter]
  | free address =>
      rcases sound.takesBack address with
        ⟨reply, after, result, run, returned, soundAfter, startAfter, endAfter, -⟩
      rcases soundOther.takesBack address with
        ⟨answer, final, results, again, alsoReturned, soundFinal, startFinal, endFinal, -⟩
      rw [same, start, ended] at alsoReturned
      rcases returned.unique sound.ascending alsoReturned with ⟨rfl, sameResult⟩
      refine ⟨.freed address reply, after, final, Operation.yields_map.mpr ⟨reply, run, rfl⟩,
        Operation.yields_map.mpr ⟨reply, again, rfl⟩, result, results, soundAfter, soundFinal, ?_,
        ?_, sameResult.symm⟩
      · rw [startFinal, start, startAfter]
      · rw [endFinal, ended, endAfter]

theorem Resembles.answersLike (resembles : heap.Resembles other) : heap.AnswersLike other := by
  intro requests
  induction requests generalizing heap other with
  | nil => exact ⟨[], heap, other, Operation.yields_pure.mpr ⟨rfl, rfl⟩,
      Operation.yields_pure.mpr ⟨rfl, rfl⟩⟩
  | cons request rest ih =>
      rcases resembles.deal request with ⟨dealing, between, middle, begun, begunToo, onward⟩
      rcases ih onward with ⟨history, after, final, ended, endedToo⟩
      exact ⟨dealing :: history, after, final,
        Operation.yields_mapM_cons.mpr ⟨dealing, between, history, begun, ended, rfl⟩,
        Operation.yields_mapM_cons.mpr ⟨dealing, middle, history, begunToo, endedToo, rfl⟩⟩

theorem Resembles.usedBytes_eq (resembles : heap.Resembles other) :
    other.usedBytes = heap.usedBytes := by
  rcases resembles with ⟨entries, others, sound, soundOther, -, -, same⟩
  apply UInt32.toNat_inj.mp
  rw [sound.usedBytes_eq, soundOther.usedBytes_eq, same]

theorem Resembles.extents_eq (resembles : heap.Resembles other) : other.extents = heap.extents := by
  rcases resembles with ⟨entries, others, sound, soundOther, -, -, same⟩
  rw [sound.extents_eq, soundOther.extents_eq, same]

/-- Heaps of one region with the same used extents have the same free ones. -/
theorem Sound.resembles {entries others : List Placed} (sound : heap.Sound entries)
    (soundOther : other.Sound others) (start : other.regionStart = heap.regionStart)
    (ended : other.regionEnd = heap.regionEnd) (same : used (shape others) = used (shape entries)) :
    heap.Resembles other := by
  refine ⟨entries, others, sound, soundOther, start, ended, ?_⟩
  rw [sound.shape_eq_covering, soundOther.shape_eq_covering, start, ended, same]

end Answers

section Orders

/-- All the addresses are freed in the given order, and none is refused. -/
def Frees (heap : Heap) (order : List UInt32) (after : Heap) : Prop :=
  ((order.map Request.free).mapM Request.deal).Yields heap (order.map (Dealing.freed · (.ok ())))
    after

/-- The addresses are distinct, and each of them is that of a used extent. -/
def Returnable (extents : List Extent) (order : List UInt32) : Prop :=
  order.Nodup ∧ ∀ address ∈ order, ∃ extent ∈ used extents, extent.address = address.toNat

/-- The used extents that begin at none of the addresses. -/
def remaining (extents : List Extent) (order : List UInt32) : List Extent :=
  (used extents).filter (·.address ∉ order.map UInt32.toNat)

variable {heap after : Heap} {entries : List Placed} {first past : Nat} {extents : List Extent}
  {address : UInt32} {order : List UInt32}

theorem mem_used {extent : Extent} :
    extent ∈ used extents ↔ extent ∈ extents ∧ extent.free = false := by
  simp [used]

theorem used_gap : used (gap first past) = [] := by
  unfold gap
  split <;> rfl

/-- The extents that are put into the gaps are free. -/
theorem used_covering (allUsed : ∀ extent ∈ extents, extent.free = false) :
    used (covering first past extents) = extents := by
  induction extents generalizing first with
  | nil => exact used_gap
  | cons extent rest ih =>
      have others : used (covering (extent.address + extent.size) past rest) = rest :=
        ih fun extent mem => allUsed extent (List.mem_cons_of_mem _ mem)
      have gapped : used (gap first (extent.address - Layout.blockHeaderSize.toNat)) = [] := used_gap
      rw [used] at gapped
      rw [covering, used, List.filter_append, gapped, List.nil_append]
      exact (used_cons_used (allUsed extent List.mem_cons_self)).trans (congrArg _ others)

/-- The address of a used extent can be freed, and the other used extents stay. -/
theorem Return.of_used {reply : Except HeapError Unit} {result : List Extent}
    (ascending : extents.Pairwise fun left right => left.address < right.address)
    (there : ∃ extent ∈ used extents, extent.address = address.toNat)
    (outcome : Return first past extents address reply result) :
    reply = .ok () ∧ used result = (used extents).filter (·.address ≠ address.toNat) := by
  rcases there with ⟨extent, mem, there⟩
  rcases mem_used.mp mem with ⟨mem, isUsed⟩
  cases outcome with
  | unknown none_there => exact absurd there (none_there extent mem)
  | double listed alsoThere free =>
      rw [eq_of_address ascending listed mem (alsoThere.trans there.symm), isUsed] at free
      cases free
  | freed listed alsoThere isUsed =>
      refine ⟨rfl, used_covering fun extent mem => ?_⟩
      exact (mem_used.mp (List.mem_of_mem_filter mem)).2

/-- However many are freed, in whatever order, what is left is what was not among them. -/
theorem Sound.frees (sound : heap.Sound entries) (returnable : Returnable (shape entries) order) :
    ∃ after result, heap.Frees order after ∧ after.Sound result ∧
      after.regionStart = heap.regionStart ∧ after.regionEnd = heap.regionEnd ∧
      used (shape result) = remaining (shape entries) order := by
  induction order generalizing heap entries with
  | nil =>
      refine ⟨heap, entries, Operation.yields_pure.mpr ⟨rfl, rfl⟩, sound, rfl, rfl, ?_⟩
      simp [remaining]
  | cons address rest ih =>
      rcases returnable with ⟨distinct, there⟩
      rcases List.nodup_cons.mp distinct with ⟨fresh, distinct⟩
      rcases sound.takesBack address with
        ⟨reply, between, middle, freed, outcome, soundBetween, start, ended, -⟩
      rcases outcome.of_used sound.ascending (there address List.mem_cons_self) with ⟨rfl, left⟩
      have onward : Returnable (shape middle) rest := by
        refine ⟨distinct, fun other mem => ?_⟩
        rcases there other (List.mem_cons_of_mem _ mem) with ⟨extent, isUsed, same⟩
        refine ⟨extent, ?_, same⟩
        rw [left]
        apply List.mem_filter_of_mem isUsed
        rw [decide_eq_true_iff, same, ne_eq, UInt32.toNat_inj]
        rintro rfl
        exact fresh mem
      rcases ih soundBetween onward with ⟨after, result, run, soundAfter, startAfter, endAfter, rests⟩
      refine ⟨after, result, ?_, soundAfter, startAfter.trans start, endAfter.trans ended, ?_⟩
      · exact Operation.yields_mapM_cons.mpr ⟨.freed address (.ok ()), between, _,
          Operation.yields_map.mpr ⟨.ok (), freed, rfl⟩, run, rfl⟩
      · rw [rests, remaining, remaining, left, List.filter_filter]
        apply List.filter_congr
        intro extent _
        rw [Bool.and_comm]
        simp

/-- Which addresses are freed matters, and not in which order. -/
theorem remaining_perm {other : List UInt32} (same : order.Perm other) :
    remaining extents other = remaining extents order := by
  apply List.filter_congr
  intro extent _
  simp [same.mem_iff]

theorem Returnable.perm {other : List UInt32} (returnable : Returnable extents order)
    (same : order.Perm other) : Returnable extents other :=
  ⟨same.nodup_iff.mp returnable.1, fun address mem => returnable.2 address (same.mem_iff.mpr mem)⟩

end Orders

/-- Freeing undoes allocating, and several can be freed in any order. -/
structure Confluent (heap : Heap) (extents : List Extent) : Prop where
  /-- What is freed right after it was handed out leaves the heap as it was. -/
  undone : ∀ size address after, (allocate size).Yields heap (.ok address) after →
    (free address).Yields after (.ok ()) heap
  /-- The used extents that are not freed stay, with a single free one in each gap. -/
  canonical : ∀ order, Returnable extents order → ∃ after, heap.Frees order after ∧
    after.extents = .ok (covering heap.regionStart.toNat heap.regionEnd.toNat
      (remaining extents order)) ∧
    after.usedBytes.toNat = ((remaining extents order).map Extent.size).sum
  any_order : ∀ order other, Returnable extents order → order.Perm other →
    ∃ after final, heap.Frees order after ∧ heap.Frees other final ∧
      final.extents = after.extents ∧ final.usedBytes = after.usedBytes ∧ after.AnswersLike final
  /-- Freeing all that is used is as good as resetting. -/
  all : ∀ order, Returnable extents order → remaining extents order = [] →
    heap.regionStart ≠ heap.regionEnd → ∃ after fresh, heap.Frees order after ∧
      (reset heap.regionStart heap.regionEnd).Yields after (.ok ()) fresh ∧
      fresh.extents = .ok [⟨heap.regionStart.toNat + 16,
        heap.regionEnd.toNat - (heap.regionStart.toNat + 16), true⟩] ∧
      after.extents = fresh.extents ∧ after.usedBytes = fresh.usedBytes ∧ fresh.AnswersLike after

/-- A heap with nothing used is like one that was just reset to its region. -/
theorem Sound.resembles_fresh {heap after : Heap} {result : List Placed} (spacious : heap.Spacious)
    (region : heap.regionStart ≠ heap.regionEnd) (sound : after.Sound result)
    (start : after.regionStart = heap.regionStart) (ended : after.regionEnd = heap.regionEnd)
    (nothing : used (shape result) = []) :
    ∃ fresh, (reset heap.regionStart heap.regionEnd).Yields after (.ok ()) fresh ∧
      fresh.extents = .ok (gap heap.regionStart.toNat heap.regionEnd.toNat) ∧
      fresh.Resembles after := by
  rcases reset_cases after heap.regionStart heap.regionEnd with
    ⟨fresh, blank, run, soundFresh, nothingOut, startFresh, endFresh⟩ | ⟨small, -⟩
  · have nothingUsed : used (shape blank) = [] := by rw [used_shape, nothingOut, List.map_nil]
    refine ⟨fresh, run, ?_, soundFresh.resembles sound (start.trans startFresh.symm)
      (ended.trans endFresh.symm) (nothing.trans nothingUsed.symm)⟩
    rw [soundFresh.extents_eq, soundFresh.shape_eq_covering, nothingUsed, startFresh,
      endFresh]
    rfl
  · have room := spacious.resolve_left region
    have header : Layout.blockHeaderSize.toNat = 16 := rfl
    have less : heap.regionStart.toNat ≤ heap.regionEnd.toNat := by omega
    rw [UInt32.le_iff_toNat_le, UInt32.le_iff_toNat_le,
      UInt32.toNat_sub_of_le _ _ (UInt32.le_iff_toNat_le.mpr less)] at small
    omega

/-- After any calls on a heap that began without a region, freeing undoes allocating, and what is
left after several are freed, and how the heap answers from then on, does not depend on the order
in which they are. -/
theorem confluent_of_calls (calls : List Call) :
    ∃ heap extents, (calls.forM Call.act).Yields empty () heap ∧ heap.extents = .ok extents ∧
      Confluent heap extents := by
  rcases sound_of_calls calls with ⟨heap, entries, run, sound, spacious⟩
  refine ⟨heap, shape entries, run, sound.extents_eq, ?_, ?_, ?_, ?_⟩
  · intro size address after allocated
    exact sound.free_of_allocate allocated
  · intro order returnable
    rcases sound.frees returnable with ⟨after, result, freed, soundAfter, start, ended, rests⟩
    refine ⟨after, freed, ?_, ?_⟩
    · rw [soundAfter.extents_eq, soundAfter.shape_eq_covering, rests, start, ended]
    · rw [soundAfter.usedBytes_eq, rests]
  · intro order other returnable same
    rcases sound.frees returnable with ⟨after, result, freed, soundAfter, start, ended, rests⟩
    rcases sound.frees (returnable.perm same) with
      ⟨final, results, freedToo, soundFinal, startFinal, endFinal, restsFinal⟩
    have resembles : after.Resembles final :=
      soundAfter.resembles soundFinal (startFinal.trans start.symm) (endFinal.trans ended.symm)
        (by rw [restsFinal, rests, remaining_perm same])
    exact ⟨after, final, freed, freedToo, resembles.extents_eq, resembles.usedBytes_eq,
      resembles.answersLike⟩
  · intro order returnable nothing region
    rcases sound.frees returnable with ⟨after, result, freed, soundAfter, start, ended, rests⟩
    rcases soundAfter.resembles_fresh spacious region start ended (rests.trans nothing) with
      ⟨fresh, accepted, single, resembles⟩
    have apart : heap.regionStart.toNat ≠ heap.regionEnd.toNat :=
      fun same => region (UInt32.toNat_inj.mp same)
    rw [gap, if_neg apart] at single
    exact ⟨after, fresh, freed, accepted, single, resembles.extents_eq, resembles.usedBytes_eq,
      resembles.answersLike⟩

end KernelCore.Heap
