import KernelCore.Proofs.FrameBitmap.UsedFrames

/-!
# The frames below the reserved end

The kernel image, the heap and the stacks lie below the reserved end, and their frames start out
used. Nothing keeps them so but the callers: `FrameBitmap.free` clears the bit of any tracked frame
that is used, a reserved one too. Once that has happened, `FrameBitmap.allocate` hands the frame
out, and `FrameBitmap.outstanding`, which takes the reserved frames for used, has nothing to
subtract them from.

As long as nobody gives a reserved frame back, all of them stay used.
-/

namespace KernelCore

namespace FrameBitmap

section Reserved

variable {bitmap : FrameBitmap}

/-- If the reserved frames are used, the outstanding frames are the other used ones. -/
theorem WellFormed.outstanding (wellFormed : bitmap.WellFormed)
    (fits : bitmap.reservedFrames ≤ bitmap.totalFrames)
    (reserved : ∀ number < bitmap.reservedFrames, bitmap.isSet number = true) :
    bitmap.outstanding =
      .ok {number ∈ bitmap.usedFrames | bitmap.reservedFrames ≤ number}.card := by
  have below : {number ∈ bitmap.usedFrames | ¬bitmap.reservedFrames ≤ number} =
      Finset.range bitmap.reservedFrames := by
    ext number
    rw [Finset.mem_filter, mem_usedFrames, Finset.mem_range, Nat.not_le]
    constructor
    · exact fun mem => mem.2
    · exact fun less => ⟨⟨Nat.lt_of_lt_of_le less fits, reserved number less⟩, less⟩
  have split := Finset.card_filter_add_card_filter_not (s := bitmap.usedFrames)
    fun number => bitmap.reservedFrames ≤ number
  have counted := wellFormed.card_usedFrames
  rw [below, Finset.card_range] at split
  have free : bitmap.freeFrames ≤ bitmap.totalFrames := by omega
  have enough : bitmap.reservedFrames ≤ bitmap.totalFrames - bitmap.freeFrames := by omega
  have rest : bitmap.totalFrames - bitmap.freeFrames - bitmap.reservedFrames =
      {number ∈ bitmap.usedFrames | bitmap.reservedFrames ≤ number}.card := by omega
  rw [FrameBitmap.outstanding, Checked.sub, if_pos free, ← rest]
  exact if_pos enough

theorem reset_with_65536 : (reset 65536 8192).Yields empty (.ok ()) (fresh 16 2) :=
  ((reset_cases empty 65536 8192).resolve_right fun refused => absurd refused.1 (by decide)).2

/-- If no reserved frame is given back, whatever else is asked for and given back in whatever
order, then the reserved frames stay used and are never handed out, and the outstanding frames are
counted without a fault as the used frames beyond them. -/
theorem reserved_stays_used (old : FrameBitmap) (totalBytes : Nat) (reservedEnd : UInt32)
    {start : FrameBitmap} (ready : (reset totalBytes reservedEnd).Yields old (.ok ()) start)
    {requests : List Request}
    (spared : ∀ frame, .free frame ∈ requests → start.reservedFrames ≤ frame.number.val) :
    ∃ final, (requests.forM Request.act).Yields start () final ∧
      (∀ frame : Frame, frame.number.val < start.reservedFrames → final.isUsed frame = true) ∧
      (∀ frame after, FrameBitmap.allocate.Yields final (some frame) after →
        start.reservedFrames ≤ frame.number.val) ∧
      final.outstanding =
        .ok {number ∈ final.usedFrames | start.reservedFrames ≤ number}.card := by
  rcases reset_cases old totalBytes reservedEnd with ⟨less, done⟩ | ⟨-, refused⟩
  case inr => exact nomatch (refused.unique ready).1
  rcases done.unique ready with ⟨-, rfl⟩
  set total := min totalBytes Layout.maxPhysicalMemory / Layout.frameSize
  set reserved := (reservedEnd.toNat + Layout.frameSize - 1) / Layout.frameSize
  have small : total ≤ Layout.maxFrames := Nat.div_le_div_right (Nat.min_le_right _ _)
  rcases (wellFormed_fresh reserved small).serveAll requests with
    ⟨final, served, wellFormed, keeps⟩
  have used : ∀ number < reserved, final.isSet number = true := by
    intro number inside
    apply keeps.used number
    · simp [isSet_fresh, inside]
    · intro frame mem same
      exact absurd (spared frame mem) (by rw [same]; exact Nat.not_le.mpr inside)
  have same : final.reservedFrames = reserved := keeps.reserved
  refine ⟨final, served, ?_, ?_, ?_⟩
  · intro frame inside
    rw [isUsed, used _ inside, Bool.or_true]
  · intro frame after granted
    rcases wellFormed.allocate with ⟨reply, _, answered, allocation, -⟩
    rcases answered.unique granted with ⟨rfl, rfl⟩
    cases allocation with
    | taken tracked clear least bits fewer total sameReserved =>
        by_contra inside
        rw [used _ (Nat.lt_of_not_le inside)] at clear
        exact Bool.noConfusion clear
  · have counted := wellFormed.outstanding
      (by rw [same, keeps.total]; exact Nat.le_of_lt less) (by rw [same]; exact used)
    rwa [same] at counted

/-- Two frames of 16 are reserved. A frame is handed out, given back and handed out again. -/
theorem reserved_stays_used_after_free :
    ∃ start final, (reset 65536 8192).Yields empty (.ok ()) start ∧
      (List.forM [.allocate, .free (.ofNumber 2), .allocate] Request.act).Yields start () final ∧
      final.isUsed (.ofNumber 1) = true ∧ final.outstanding = .ok 1 := by
  have spared : ∀ frame, .free frame ∈ [Request.allocate, .free (.ofNumber 2), .allocate] →
      (fresh 16 2).reservedFrames ≤ frame.number.val := by
    intro frame mem
    simp only [List.mem_cons, reduceCtorEq, Request.free.injEq, List.not_mem_nil, false_or,
      or_false] at mem
    rw [mem]
    decide
  rcases reserved_stays_used empty 65536 8192 reset_with_65536 spared with
    ⟨final, served, used, -, -⟩
  rcases Operation.yields_of_evaluation
      (List.forM [.allocate, .free (.ofNumber 2), .allocate] Request.act) (fresh 16 2)
      (fun _ state => state.outstanding == .ok 1) (by decide +kernel) with
    ⟨_, state, evaluated, counted⟩
  rcases served.unique evaluated with ⟨-, rfl⟩
  exact ⟨_, final, reset_with_65536, served, used _ (by decide), eq_of_beq counted⟩

/-- A reserved frame can be given back. It is then free, the count of the outstanding frames
fails, and the frame is the next one to be handed out. -/
theorem reserved_frame_handed_out :
    ∃ start freed again, (reset 65536 8192).Yields empty (.ok ()) start ∧
      start.reservedFrames = 2 ∧
      (FrameBitmap.free (.ofNumber 0)).Yields start (.ok ()) freed ∧
      freed.isUsed (.ofNumber 0) = false ∧ freed.outstanding = .error .subOverflow ∧
      FrameBitmap.allocate.Yields freed (some (.ofNumber 0)) again := by
  rcases Operation.yields_of_evaluation (FrameBitmap.free (.ofNumber 0)).result (fresh 16 2)
      (fun reply freed => reply == .ok () && freed == release 0 (fresh 16 2))
      (by decide +kernel) with ⟨reply, freed, done, evaluated⟩
  rw [Bool.and_eq_true, beq_iff_eq, beq_iff_eq] at evaluated
  rcases evaluated with ⟨rfl, rfl⟩
  rcases Operation.yields_of_evaluation FrameBitmap.allocate (release 0 (fresh 16 2))
      (fun reply _ => reply == some (.ofNumber 0)) (by decide +kernel) with
    ⟨reply, again, granted, evaluated⟩
  rcases eq_of_beq evaluated with rfl
  exact ⟨_, _, again, reset_with_65536, rfl, done, by decide +kernel, by decide +kernel, granted⟩

end Reserved

end FrameBitmap

end KernelCore
