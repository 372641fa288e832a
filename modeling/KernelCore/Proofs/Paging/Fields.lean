import KernelCore.Proofs.Paging.Entries

/-!
# The two fields of an entry

The upper twenty bits of an entry are the number of a frame, and its lower twelve bits are flags. An
entry is given whole words of flags, though: the bits of such a word that lie above the flags are
laid over the number of the frame. So what an entry names is settled by all the flags that it was
ever given, while what it says of its flags is settled by the latest ones.
-/

namespace KernelCore

namespace PageFlags

theorem toNat_truncate (flags : PageFlags) :
    flags.truncate.bits.toNat = flags.bits.toNat % 2 ^ 9 := by
  have mask : all.bits.toNat = 2 ^ 9 - 1 := rfl
  rw [truncate, UInt32.toNat_and, mask, Nat.and_two_pow_sub_one_eq_mod]

theorem contains_truncate_present (flags : PageFlags) :
    flags.truncate.contains .present = flags.contains .present := by
  have low : decide (0 < 9) = true := rfl
  rw [contains_present, contains_present, toNat_truncate, Nat.testBit_mod_two_pow, low,
    Bool.true_and]

end PageFlags

namespace Entry

/-- The entry that was made for a frame with some flags and then given others, in order. -/
def ofUpdates (frame : Frame) (first : PageFlags) (later : List PageFlags) : Entry :=
  later.foldl withFlags (ofFrame frame first)

/-- The last flags that were given. -/
def latest (first : PageFlags) (later : List PageFlags) : PageFlags :=
  later.getLast?.getD first

section Fields

variable (entry : Entry) (frame : Frame) (flags : PageFlags)

/-- Flags are read off the low bits of a word, and there only the declared ones. -/
theorem toNat_flags : entry.flags.bits.toNat = entry.word.toNat % 2 ^ 9 := by
  have mask : flagMask.toNat &&& PageFlags.all.bits.toNat = 2 ^ 9 - 1 := rfl
  rw [Entry.flags, PageFlags.truncate, UInt32.toNat_and, UInt32.toNat_and, Nat.and_assoc, mask,
    Nat.and_two_pow_sub_one_eq_mod]

/-- Where two words have the same low bits, the entries have the same flags. -/
theorem flags_eq_truncate (same : entry.word.toNat % 2 ^ 9 = flags.bits.toNat % 2 ^ 9) :
    entry.flags = flags.truncate := by
  rw [← toNat_flags, ← PageFlags.toNat_truncate] at same
  exact congrArg PageFlags.mk (UInt32.toNat_inj.mp same)

theorem flags_ofFrame : (ofFrame frame flags).flags = flags.truncate := by
  apply flags_eq_truncate
  have start : frame.start.word.toNat = frame.number.val * 2 ^ 12 := frame.toNat_start
  have clear : frame.number.val * 2 ^ 12 % 2 ^ 9 = 0 := by omega
  rw [ofFrame, UInt32.toNat_or, start, Nat.or_mod_two_pow, clear, Nat.zero_or]

theorem flags_withFlags : (entry.withFlags flags).flags = flags.truncate := by
  apply flags_eq_truncate
  have mask : (~~~flagMask).toNat % 2 ^ 9 = 0 := rfl
  rw [withFlags, UInt32.toNat_or, UInt32.toNat_and, Nat.or_mod_two_pow, Nat.and_mod_two_pow, mask,
    Nat.and_zero, Nat.zero_or]

end Fields

section Updates

variable {entry : Entry} {bit : Nat}

/-- After any updates the flags are those of the latest one. -/
theorem flags_foldl_withFlags (later : List PageFlags) {latest : PageFlags}
    (known : entry.flags = latest.truncate) :
    (later.foldl withFlags entry).flags = (later.getLast?.getD latest).truncate := by
  induction later generalizing entry latest with
  | nil => exact known
  | cons flags rest ih =>
      rw [List.foldl_cons, ih (flags_withFlags entry flags), List.getLast?_cons, Option.getD_some]

/-- A bit of the frame is set if it was, or if one of the updates has set it. -/
theorem testBit_foldl_withFlags (later : List PageFlags) :
    (later.foldl withFlags entry).field.number.val.testBit bit =
      (entry.field.number.val.testBit bit ||
        later.any fun flags => flags.bits.toNat.testBit (12 + bit)) := by
  induction later generalizing entry with
  | nil => rw [List.foldl_nil, List.any_nil, Bool.or_false]
  | cons flags rest ih =>
      rw [List.foldl_cons, ih, number_withFlags, Nat.testBit_or, Nat.testBit_shiftRight,
        List.any_cons, Bool.or_assoc]

end Updates

/-- Whatever flags an entry for a frame is made with and is then given: its flags are the declared
ones among the latest, and it is in force exactly if the latest have it so. Its frame has the bits
of the number that it was made with and those that lie above the flags in any of the words it was
given; it is still the frame that the entry was made for exactly if those add nothing. -/
theorem fields_of_updates (frame : Frame) (first : PageFlags) (later : List PageFlags) :
    (ofUpdates frame first later).flags = (latest first later).truncate ∧
      (ofUpdates frame first later).frame =
        (if (latest first later).contains .present then some (ofUpdates frame first later).field
          else none) ∧
      (∀ bit, (ofUpdates frame first later).field.number.val.testBit bit =
        (frame.number.val.testBit bit ||
          (first :: later).any fun flags => flags.bits.toNat.testBit (12 + bit))) ∧
      ((ofUpdates frame first later).field = frame ↔
        ∀ flags ∈ first :: later, ∀ bit, flags.bits.toNat.testBit (12 + bit) = true →
          frame.number.val.testBit bit = true) := by
  have known := flags_foldl_withFlags later (flags_ofFrame frame first)
  have bits : ∀ bit, (ofUpdates frame first later).field.number.val.testBit bit =
      (frame.number.val.testBit bit ||
        (first :: later).any fun flags => flags.bits.toNat.testBit (12 + bit)) := by
    intro bit
    rw [ofUpdates, testBit_foldl_withFlags, number_ofFrame, Nat.testBit_or,
      Nat.testBit_shiftRight, List.any_cons, Bool.or_assoc]
  refine ⟨known, ?_, bits, ?_⟩
  · rw [frame_eq_field, isPresent, ofUpdates, known, PageFlags.contains_truncate_present, latest]
  · constructor
    · intro kept flags given bit stray
      have here := bits bit
      rw [kept, List.any_eq_true.mpr ⟨flags, given, stray⟩, Bool.or_true] at here
      exact here
    · intro within
      refine Frame.eq_of_number (Nat.eq_of_testBit_eq fun bit => ?_)
      rw [bits bit, Bool.or_eq_left_iff_imp, List.any_eq_true]
      rintro ⟨flags, given, stray⟩
      exact within flags given bit stray

/-- One bit above the flags, and the entry names the next frame. -/
theorem stray_bit_names_other_frame :
    PageFlags.contains ⟨0x1001⟩ .present = true ∧
      (ofFrame (.ofNumber 0) ⟨0x1001⟩).frame = some (.ofNumber 1) ∧
      (ofFrame (.ofNumber 0) ⟨0x1001⟩).field ≠ .ofNumber 0 := by
  decide

end Entry

end KernelCore
