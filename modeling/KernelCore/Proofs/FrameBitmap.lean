import KernelCore.FrameBitmap
import KernelCore.Proofs.Operation

/-!
# What the frame bitmap hands out and takes back

A bitmap is well formed if it has a bit for each tracked frame, if all its other bits are set, and
if it counts its clear bits. `FrameBitmap.Allocation` and `FrameBitmap.Release` list the possible
outcomes of the two requests in terms of bits alone. On a well-formed bitmap every request ends in
one of these ways, without a fault, and the bitmap stays well formed.
-/

namespace KernelCore

namespace Frame

theorem number_ofNumber {number : Nat} (small : number < Layout.addressableFrames) :
    (ofNumber number).number.val = number :=
  Nat.mod_eq_of_lt small

theorem ofNumber_number (frame : Frame) : ofNumber frame.number.val = frame := by
  rcases frame with ⟨number⟩
  simp only [ofNumber, mk.injEq]
  exact Fin.ext (Nat.mod_eq_of_lt number.isLt)

theorem number_inj {left right : Frame} : left.number.val = right.number.val ↔ left = right := by
  constructor
  · intro same
    rw [← ofNumber_number left, same, ofNumber_number]
  · rintro rfl
    rfl

end Frame

namespace FrameBitmap

/-- There is a bit for each tracked frame, the other bits are set, and clear bits are counted. -/
structure WellFormed (bitmap : FrameBitmap) : Prop where
  tracked : bitmap.totalFrames ≤ Layout.maxFrames
  sized : bitmap.words.size =
    (bitmap.totalFrames + Layout.bitmapEntrySize - 1) / Layout.bitmapEntrySize
  beyond : ∀ number, bitmap.totalFrames ≤ number → bitmap.isSet number = true
  counted : bitmap.freeFrames =
    (List.range bitmap.totalFrames).countP fun number => !bitmap.isSet number

/-- What a request for a frame leads to. -/
inductive Allocation (bitmap : FrameBitmap) : Option Frame → FrameBitmap → Prop where
  /-- Every frame is used. -/
  | exhausted (full : ∀ number, bitmap.isSet number = true) : Allocation bitmap none bitmap
  /-- The first frame that is not used is handed out. -/
  | taken {frame : Frame} {after : FrameBitmap}
      (tracked : frame.number.val < bitmap.totalFrames)
      (clear : bitmap.isSet frame.number.val = false)
      (least : ∀ number < frame.number.val, bitmap.isSet number = true)
      (bits : ∀ number,
        after.isSet number = (bitmap.isSet number || decide (frame.number.val = number)))
      (fewer : after.freeFrames + 1 = bitmap.freeFrames)
      (total : after.totalFrames = bitmap.totalFrames)
      (reserved : after.reservedFrames = bitmap.reservedFrames) :
      Allocation bitmap (some frame) after

namespace Allocation

variable {bitmap after : FrameBitmap} {frame : Frame} {reply : Option Frame}

theorem was_free (allocation : Allocation bitmap (some frame) after) :
    bitmap.isSet frame.number.val = false := by
  cases allocation with
  | taken tracked clear least bits fewer total reserved => exact clear

theorem isSet (allocation : Allocation bitmap (some frame) after) (number : Nat) :
    after.isSet number = (bitmap.isSet number || decide (frame.number.val = number)) := by
  cases allocation with
  | taken tracked clear least bits fewer total reserved => exact bits number

theorem is_used (allocation : Allocation bitmap (some frame) after) :
    after.isSet frame.number.val = true := by
  rw [allocation.isSet, decide_eq_true rfl, Bool.or_true]

theorem least (allocation : Allocation bitmap (some frame) after) :
    ∀ number < frame.number.val, bitmap.isSet number = true := by
  cases allocation with
  | taken tracked clear least bits fewer total reserved => exact least

theorem fewer (allocation : Allocation bitmap (some frame) after) :
    after.freeFrames + 1 = bitmap.freeFrames := by
  cases allocation with
  | taken tracked clear least bits fewer total reserved => exact fewer

theorem total (allocation : Allocation bitmap reply after) :
    after.totalFrames = bitmap.totalFrames := by
  cases allocation with
  | exhausted full => rfl
  | taken tracked clear least bits fewer total reserved => exact total

/-- A frame that is used stays so while others are taken. -/
theorem stays_used (allocation : Allocation bitmap reply after) {number : Nat}
    (used : bitmap.isSet number = true) : after.isSet number = true := by
  cases allocation with
  | exhausted full => exact used
  | taken tracked clear least bits fewer total reserved => rw [bits, used, Bool.true_or]

/-- The frame that is handed out is the first that is free. -/
theorem eq_of_least (allocation : Allocation bitmap (some frame) after) {other : Frame}
    (free : bitmap.isSet other.number.val = false)
    (below : ∀ number < other.number.val, bitmap.isSet number = true) : frame = other := by
  apply Frame.number_inj.mp
  rcases Nat.lt_trichotomy frame.number.val other.number.val with less | same | more
  · exact Bool.noConfusion (allocation.was_free.symm.trans (below _ less))
  · exact same
  · exact Bool.noConfusion (free.symm.trans (allocation.least _ more))

end Allocation

/-- What giving a frame back leads to. -/
inductive Release (bitmap : FrameBitmap) (frame : Frame) :
    Except FrameError Unit → FrameBitmap → Prop where
  | outOfRange (past : bitmap.totalFrames ≤ frame.number.val) :
      Release bitmap frame (.error .outOfRange) bitmap
  | alreadyFree (tracked : frame.number.val < bitmap.totalFrames)
      (clear : bitmap.isSet frame.number.val = false) :
      Release bitmap frame (.error .alreadyFree) bitmap
  | freed {after : FrameBitmap} (tracked : frame.number.val < bitmap.totalFrames)
      (used : bitmap.isSet frame.number.val = true)
      (bits : ∀ number,
        after.isSet number = (bitmap.isSet number && decide (frame.number.val ≠ number)))
      (more : after.freeFrames = bitmap.freeFrames + 1)
      (total : after.totalFrames = bitmap.totalFrames)
      (reserved : after.reservedFrames = bitmap.reservedFrames) :
      Release bitmap frame (.ok ()) after

/-- Giving a frame back clears its bit and no other. -/
theorem Release.isSet {bitmap after : FrameBitmap} {frame : Frame} {reply : Except FrameError Unit}
    (release : Release bitmap frame reply after) {number : Nat}
    (tracked : number < bitmap.totalFrames) :
    after.isSet number = (bitmap.isSet number && decide (frame.number.val ≠ number)) := by
  cases release with
  | outOfRange past =>
      have differs : frame.number.val ≠ number := by omega
      rw [decide_eq_true differs, Bool.and_true]
  | alreadyFree _ clear =>
      by_cases here : frame.number.val = number
      · rw [← here, clear, Bool.false_and]
      · rw [decide_eq_true here, Bool.and_true]
  | freed _ used bits more total reserved => exact bits number

/-- All other frames are left as they are. -/
theorem Release.others {bitmap after : FrameBitmap} {frame : Frame} {reply : Except FrameError Unit}
    (release : Release bitmap frame reply after) {number : Nat}
    (other : frame.number.val ≠ number) : after.isSet number = bitmap.isSet number := by
  cases release with
  | outOfRange past => rfl
  | alreadyFree _ clear => rfl
  | freed _ used bits more total reserved => rw [bits, decide_eq_true other, Bool.and_true]

theorem Release.total {bitmap after : FrameBitmap} {frame : Frame} {reply : Except FrameError Unit}
    (release : Release bitmap frame reply after) : after.totalFrames = bitmap.totalFrames := by
  cases release with
  | outOfRange past => rfl
  | alreadyFree _ clear => rfl
  | freed _ used bits more total reserved => exact total

section Words

variable {word : UInt32} {bitmap : FrameBitmap}

theorem word_eq_full_iff :
    word = Layout.fullBitmapEntry ↔
      ∀ index < Layout.bitmapEntrySize, wordBit word index = true := by
  constructor
  · rintro rfl index inside
    exact wordBit_full inside
  · intro bits
    apply UInt32.toNat_inj.mp
    apply Nat.eq_of_testBit_eq
    intro index
    by_cases inside : index < Layout.bitmapEntrySize
    · exact (bits index inside).trans (wordBit_full inside).symm
    · have size : Layout.bitmapEntrySize = 32 := rfl
      have wide : 2 ^ 32 ≤ 2 ^ index := Nat.pow_le_pow_right (by decide) (by omega)
      rw [Nat.testBit_lt_two_pow (Nat.lt_of_lt_of_le word.toNat_lt wide),
        Nat.testBit_lt_two_pow (Nat.lt_of_lt_of_le (UInt32.toNat_lt _) wide)]

/-- In a word that is not full, the least clear bit is one of its 32 bits, is clear, and comes
before all clear bits. -/
theorem lowestClear_spec (notFull : word ≠ Layout.fullBitmapEntry) :
    lowestClear word < Layout.bitmapEntrySize ∧ wordBit word (lowestClear word) = false ∧
      ∀ index < lowestClear word, wordBit word index = true := by
  have clear : ∃ index ∈ List.range Layout.bitmapEntrySize, (!wordBit word index) = true := by
    rw [ne_eq, word_eq_full_iff, Classical.not_forall] at notFull
    rcases notFull with ⟨index, clear⟩
    rw [Classical.not_imp] at clear
    exact ⟨index, List.mem_range.mpr clear.1, by simpa using clear.2⟩
  have found := List.findIdx_lt_length_of_exists clear
  have inside : lowestClear word < Layout.bitmapEntrySize := by
    simpa [lowestClear] using found
  refine ⟨inside, ?_, ?_⟩
  · have here := List.findIdx_getElem (w := found)
    rw [List.getElem_range] at here
    simpa [lowestClear] using here
  · intro index before
    have earlier := List.not_of_lt_findIdx (i := index) before
    rw [List.getElem_range] at earlier
    simpa using earlier

theorem word_of_clear {number : Nat} (clear : bitmap.isSet number = false) :
    ∃ inside : number / Layout.bitmapEntrySize < bitmap.words.size,
      bitmap.words[number / Layout.bitmapEntrySize] ≠ Layout.fullBitmapEntry := by
  have bound : number % Layout.bitmapEntrySize < Layout.bitmapEntrySize :=
    Nat.mod_lt _ (by decide)
  have notFull : bitmap.word (number / Layout.bitmapEntrySize) ≠ Layout.fullBitmapEntry := by
    intro full
    rw [isSet, full, wordBit_full bound] at clear
    exact Bool.noConfusion clear
  by_cases inside : number / Layout.bitmapEntrySize < bitmap.words.size
  · refine ⟨inside, ?_⟩
    simpa [word, inside] using notFull
  · exact absurd (by simp [word, inside]) notFull

theorem firstClear_eq_some {number : Nat} (found : bitmap.firstClear = some number) :
    bitmap.isSet number = false ∧ ∀ other < number, bitmap.isSet other = true := by
  have size : Layout.bitmapEntrySize = 32 := rfl
  simp only [firstClear, Option.map_eq_some_iff] at found
  rcases found with ⟨index, found, rfl⟩
  rw [Array.findIdx?_eq_some_iff_getElem] at found
  rcases found with ⟨inside, notFull, before⟩
  have wordIs : bitmap.word index = bitmap.words[index] := by
    simp [word, inside]
  rw [bne_iff_ne, ← wordIs] at notFull
  rcases lowestClear_spec notFull with ⟨within, clear, lower⟩
  have quotient : (index * Layout.bitmapEntrySize + lowestClear (bitmap.word index)) /
      Layout.bitmapEntrySize = index := by
    rw [size] at within ⊢
    omega
  have remainder : (index * Layout.bitmapEntrySize + lowestClear (bitmap.word index)) %
      Layout.bitmapEntrySize = lowestClear (bitmap.word index) := by
    rw [size] at within ⊢
    omega
  refine ⟨?_, ?_⟩
  · rw [isSet, quotient, remainder]
    exact clear
  · intro other less
    apply Bool.of_not_eq_false
    intro otherClear
    rcases word_of_clear otherClear with ⟨otherInside, otherNotFull⟩
    rcases Nat.lt_trichotomy (other / Layout.bitmapEntrySize) index with earlier | same | later
    · have full := before _ earlier
      simp only [bne_iff_ne, ne_eq, Classical.not_not] at full
      exact otherNotFull full
    · have earlier : other % Layout.bitmapEntrySize < lowestClear (bitmap.word index) := by
        rw [size] at same less ⊢
        omega
      rw [isSet, same, lower _ earlier] at otherClear
      exact Bool.noConfusion otherClear
    · rw [size] at later less within
      omega

theorem firstClear_eq_none (notFound : bitmap.firstClear = none) (number : Nat) :
    bitmap.isSet number = true := by
  apply Bool.of_not_eq_false
  intro clear
  rcases word_of_clear clear with ⟨inside, notFull⟩
  simp only [firstClear, Option.map_eq_none_iff, Array.findIdx?_eq_none_iff] at notFound
  have full := notFound _ (Array.getElem_mem inside)
  simp only [bne_eq_false_iff_eq] at full
  exact notFull full

end Words

section Counting

theorem countP_range_of_update (was now : Nat → Bool) {number total : Nat}
    (inside : number < total) (before : was number = true) (after : now number = false)
    (same : ∀ other, number ≠ other → now other = was other) :
    (List.range total).countP was = (List.range total).countP now + 1 := by
  induction total with
  | zero => omega
  | succ total ih =>
      rw [List.range_succ, List.countP_append, List.countP_append]
      by_cases last : number = total
      · have rest : (List.range total).countP now = (List.range total).countP was := by
          apply List.countP_congr
          intro other mem
          rw [same other (by have := List.mem_range.mp mem; omega)]
        subst last
        simp [rest, before, after]
      · have rest := ih (by omega)
        simp only [List.countP_singleton, same total last]
        omega

theorem countP_range_le (reserved total : Nat) :
    ((List.range total).countP fun number => decide (reserved ≤ number)) = total - reserved := by
  induction total with
  | zero => simp
  | succ total ih =>
      rw [List.range_succ, List.countP_append, ih, List.countP_singleton]
      split <;> simp_all <;> omega

end Counting

section Fresh

theorem wordBit_initialWord (total reserved index : Nat) {bit : Nat}
    (inside : bit < Layout.bitmapEntrySize) :
    wordBit (initialWord total reserved index) bit =
      !(decide (reserved ≤ index * Layout.bitmapEntrySize + bit) &&
        decide (index * Layout.bitmapEntrySize + bit < total)) := by
  have upTo : ∀ count ≤ Layout.bitmapEntrySize,
      wordBit ((List.range count).foldl
        (fun word bit =>
          let number := index * Layout.bitmapEntrySize + bit
          if reserved ≤ number ∧ number < total then word else word ||| wordMask bit)
        0) bit =
        (decide (bit < count) && !(decide (reserved ≤ index * Layout.bitmapEntrySize + bit) &&
          decide (index * Layout.bitmapEntrySize + bit < total))) := by
    -- The bits below `count` are settled and all others are still clear.
    intro count
    induction count with
    | zero => simp [wordBit]
    | succ count ih =>
        intro enough
        have before := ih (by omega)
        rw [List.range_succ, List.foldl_append]
        simp only [List.foldl_cons, List.foldl_nil]
        by_cases here : bit = count
        · subst here
          split
          · rename_i free
            rw [before]
            simp [free]
          · rename_i used
            rw [wordBit_or, before, wordBit_wordMask _ _ inside]
            simp only [Bool.not_and, decide_true, Bool.or_true, Nat.lt_add_one, Bool.true_and]
            rw [← Bool.not_and, ← Bool.decide_and, decide_eq_false used]
            rfl
        · have same : decide (bit < count + 1) = decide (bit < count) := by
            apply decide_eq_decide.mpr
            omega
          rw [same, ← before]
          split
          · rfl
          · rw [wordBit_or, wordBit_wordMask _ _ enough]
            simp [Ne.symm here]
  rw [initialWord, upTo _ (Nat.le_refl _)]
  simp [inside]

theorem isSet_fresh (total reserved number : Nat) :
    (fresh total reserved).isSet number =
      !(decide (reserved ≤ number) && decide (number < total)) := by
  have size : Layout.bitmapEntrySize = 32 := rfl
  have bound : number % Layout.bitmapEntrySize < Layout.bitmapEntrySize :=
    Nat.mod_lt _ (by decide)
  by_cases inside : number / Layout.bitmapEntrySize <
      (total + Layout.bitmapEntrySize - 1) / Layout.bitmapEntrySize
  · have first : (fresh total reserved).word (number / Layout.bitmapEntrySize) =
        initialWord total reserved (number / Layout.bitmapEntrySize) := by
      simp [fresh, word, inside]
    rw [isSet, first, wordBit_initialWord _ _ _ bound, Nat.div_add_mod']
  · have past : ¬number < total := by
      rw [size] at inside
      omega
    have first : (fresh total reserved).word (number / Layout.bitmapEntrySize) =
        Layout.fullBitmapEntry := by
      simp [fresh, word, inside]
    rw [isSet, first, wordBit_full bound]
    simp [past]

theorem wellFormed_fresh {total : Nat} (reserved : Nat) (small : total ≤ Layout.maxFrames) :
    (fresh total reserved).WellFormed where
  tracked := small
  sized := by simp [fresh]
  beyond number past := by
    have outside : ¬number < total := Nat.not_lt.mpr past
    rw [isSet_fresh, decide_eq_false outside, Bool.and_false]
    rfl
  counted := by
    refine (countP_range_le reserved total).symm.trans (List.countP_congr ?_)
    intro number mem
    rw [isSet_fresh, decide_eq_true (List.mem_range.mp mem), Bool.and_true, Bool.not_not]

theorem wellFormed_empty : empty.WellFormed where
  tracked := Nat.zero_le _
  sized := rfl
  beyond number _ := wordBit_full (Nat.mod_lt _ (by decide))
  counted := rfl

/-- A bitmap is set up for at most 1 GiB, or the request is refused and nothing changes. -/
theorem reset_cases (bitmap : FrameBitmap) (totalBytes : Nat) (reservedEnd : UInt32) :
    let total := min totalBytes Layout.maxPhysicalMemory / Layout.frameSize
    let reserved := (reservedEnd.toNat + Layout.frameSize - 1) / Layout.frameSize
    (reserved < total ∧
      (reset totalBytes reservedEnd).Yields bitmap (.ok ()) (fresh total reserved)) ∨
      (total ≤ reserved ∧
        (reset totalBytes reservedEnd).Yields bitmap (.error .insufficientMemory) bitmap) := by
  intro total reserved
  by_cases small : total ≤ reserved
  · right
    refine ⟨small, ?_⟩
    by_cases ignored : Layout.maxPhysicalMemory < totalBytes <;>
      simp [reset, ignored, total, reserved, small]
  · left
    refine ⟨Nat.lt_of_not_le small, ?_⟩
    by_cases ignored : Layout.maxPhysicalMemory < totalBytes <;>
      simp [reset, ignored, total, reserved, small]

end Fresh

section Requests

variable {bitmap : FrameBitmap}

theorem WellFormed.word_lt (wellFormed : bitmap.WellFormed) {number : Nat}
    (tracked : number < bitmap.totalFrames) :
    number / Layout.bitmapEntrySize < bitmap.words.size := by
  have size : Layout.bitmapEntrySize = 32 := rfl
  rw [wellFormed.sized, size]
  omega

theorem WellFormed.lt_of_clear (wellFormed : bitmap.WellFormed) {number : Nat}
    (clear : bitmap.isSet number = false) : number < bitmap.totalFrames := by
  apply Nat.lt_of_not_le
  intro past
  rw [wellFormed.beyond number past] at clear
  exact Bool.noConfusion clear

theorem WellFormed.fits (wellFormed : bitmap.WellFormed) {number : Nat}
    (tracked : number < bitmap.totalFrames) : number < Layout.addressableFrames := by
  have most : Layout.maxFrames < Layout.addressableFrames := by decide
  exact Nat.lt_trans (Nat.lt_of_lt_of_le tracked wellFormed.tracked) most

theorem WellFormed.take (wellFormed : bitmap.WellFormed) {number : Nat}
    (clear : bitmap.isSet number = false) :
    ∃ after, FrameBitmap.take number bitmap = .ok after ∧ after.WellFormed ∧
      after.freeFrames + 1 = bitmap.freeFrames ∧ after.totalFrames = bitmap.totalFrames ∧
      after.reservedFrames = bitmap.reservedFrames := by
  have tracked := wellFormed.lt_of_clear clear
  have most : 0 < bitmap.freeFrames := by
    rw [wellFormed.counted]
    exact List.countP_pos_iff.mpr ⟨number, List.mem_range.mpr tracked, by simp [clear]⟩
  have done : FrameBitmap.take number bitmap = .ok
      { bitmap with
        freeFrames := bitmap.freeFrames - 1
        words := bitmap.words.modify (number / Layout.bitmapEntrySize)
          (· ||| wordMask (number % Layout.bitmapEntrySize)) } := by
    rcases bitmap with ⟨total, free, reserved, words⟩
    have enough : 1 ≤ free := most
    simp only [FrameBitmap.take, Checked.sub, enough, if_true]
    rfl
  refine ⟨_, done, ⟨wellFormed.tracked, ?_, ?_, ?_⟩, Nat.sub_add_cancel most, rfl, rfl⟩
  · exact Array.size_modify.trans wellFormed.sized
  · intro other past
    rw [isSet_take done, wellFormed.beyond other past, Bool.true_or]
  · have before := wellFormed.counted
    rw [countP_range_of_update _ (fun other => !(bitmap.isSet other || decide (number = other)))
      tracked (by simp [clear]) (by simp) (fun other differs => by simp [differs])] at before
    simp only [isSet_take done]
    exact Nat.sub_eq_of_eq_add before

theorem WellFormed.release (wellFormed : bitmap.WellFormed) {number : Nat}
    (tracked : number < bitmap.totalFrames) (used : bitmap.isSet number = true) :
    (FrameBitmap.release number bitmap).WellFormed := by
  have bits : ∀ other, (FrameBitmap.release number bitmap).isSet other =
      (bitmap.isSet other && decide (number ≠ other)) := by
    intro other
    exact isSet_release bitmap number other (wellFormed.word_lt tracked)
  refine ⟨wellFormed.tracked, ?_, ?_, ?_⟩
  · exact Array.size_modify.trans wellFormed.sized
  · intro other past
    have differs : number ≠ other := Nat.ne_of_lt (Nat.lt_of_lt_of_le tracked past)
    rw [bits, wellFormed.beyond other past, decide_eq_true differs]
    rfl
  · have more := countP_range_of_update
      (fun other => !(bitmap.isSet other && decide (number ≠ other)))
      (fun other => !bitmap.isSet other) tracked (by simp) (by simp [used])
      (fun other differs => by simp [differs])
    simp only [bits]
    exact (congrArg (· + 1) wellFormed.counted).trans more.symm

theorem WellFormed.freeFrames_eq_zero (wellFormed : bitmap.WellFormed)
    (full : ∀ number, bitmap.isSet number = true) : bitmap.freeFrames = 0 := by
  rw [wellFormed.counted, List.countP_eq_zero]
  intro number _
  simp [full number]

/-- A request for a frame does not fault and keeps the bitmap well formed. -/
theorem WellFormed.allocate (wellFormed : bitmap.WellFormed) :
    ∃ reply after, FrameBitmap.allocate.Yields bitmap reply after ∧
      Allocation bitmap reply after ∧ after.WellFormed := by
  cases found : bitmap.firstClear with
  | none =>
      refine ⟨none, bitmap, ⟨[], ?_⟩, .exhausted (firstClear_eq_none found), wellFormed⟩
      simp [FrameBitmap.allocate, found]
  | some number =>
      rcases firstClear_eq_some found with ⟨clear, least⟩
      have tracked := wellFormed.lt_of_clear clear
      have same := Frame.number_ofNumber (wellFormed.fits tracked)
      rcases wellFormed.take clear with ⟨after, done, wellFormedAfter, fewer, total, reserved⟩
      refine ⟨some (.ofNumber number), after, ⟨[], ?_⟩, .taken ?_ ?_ ?_ ?_ fewer total reserved,
        wellFormedAfter⟩
      · simp [FrameBitmap.allocate, found, tracked, done]
      · rw [same]
        exact tracked
      · rw [same]
        exact clear
      · rw [same]
        exact least
      · rw [same]
        exact isSet_take done

/-- Giving a frame back does not fault and keeps the bitmap well formed. -/
theorem WellFormed.free (wellFormed : bitmap.WellFormed) (frame : Frame) :
    ∃ reply after, (FrameBitmap.free frame).Yields bitmap reply after ∧
      Release bitmap frame reply after ∧ after.WellFormed := by
  by_cases past : bitmap.totalFrames ≤ frame.number.val
  · refine ⟨_, bitmap, ?_, .outOfRange past, wellFormed⟩
    simp [FrameBitmap.free, and_assoc, past]
  · have tracked := Nat.lt_of_not_le past
    cases used : bitmap.isSet frame.number.val with
    | false =>
        refine ⟨_, bitmap, ?_, .alreadyFree tracked used, wellFormed⟩
        simp [FrameBitmap.free, and_assoc, past, used]
    | true =>
        refine ⟨_, FrameBitmap.release frame.number.val bitmap, ?_, .freed tracked used ?_ rfl rfl
          rfl,
          wellFormed.release tracked used⟩
        · simp [FrameBitmap.free, and_assoc, past, used]
        · intro number
          exact isSet_release bitmap _ number (wellFormed.word_lt tracked)

end Requests

end FrameBitmap

end KernelCore
