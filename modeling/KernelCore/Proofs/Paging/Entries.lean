import KernelCore.Paging.Table
import KernelCore.Proofs.FrameBitmap

/-!
# Entries and what memory holds

An entry keeps the frame it names apart from its flags, as long as the flags stay within the low
twelve bits. Memory that is written in one place keeps its entries in all others.
-/

namespace KernelCore

theorem Frame.toNat_start (frame : Frame) :
    frame.start.word.toNat = frame.number.val * Layout.frameSize := by
  have size : Layout.frameSize = 4096 := rfl
  have bound : frame.number.val < 0x100000 := frame.number.isLt
  rw [Frame.start, size]
  exact UInt32.toNat_ofNat_of_lt' (by change _ < 2 ^ 32; omega)

theorem Frame.eq_of_number {left right : Frame} (same : left.number.val = right.number.val) :
    left = right :=
  congrArg Frame.mk (Fin.ext same)

theorem Directory.frame_ne {left right : Directory} (differs : left ≠ right) :
    left.frame ≠ right.frame :=
  fun same => differs (congrArg Directory.mk same)

namespace PageFlags

/-- The flags fit into the low bits of an entry, and among them is the one that puts it in force. -/
structure Structural (flags : PageFlags) : Prop where
  low : flags.bits.toNat < 2 ^ 12
  present : flags.bits.toNat.testBit 0 = true

theorem contains_present (flags : PageFlags) :
    flags.contains .present = flags.bits.toNat.testBit 0 := by
  have small : (flags.bits &&& present.bits).toNat = flags.bits.toNat % 2 := by
    rw [UInt32.toNat_and]
    exact Nat.and_one_is_mod _
  have one : present.bits.toNat = 1 := rfl
  rw [Nat.testBit_zero, contains, Bool.eq_iff_iff, beq_iff_eq, ← UInt32.toNat_inj, small, one,
    decide_eq_true_iff]

theorem Structural.union {flags more : PageFlags} (structural : flags.Structural)
    (low : more.bits.toNat < 2 ^ 12) : (flags.union more).Structural where
  low := by
    rw [PageFlags.union, UInt32.toNat_or]
    exact Nat.or_lt_two_pow structural.low low
  present := by
    rw [PageFlags.union, UInt32.toNat_or, Nat.testBit_or, structural.present, Bool.true_or]

theorem truncate_lt (flags : PageFlags) : flags.truncate.bits.toNat < 2 ^ 12 := by
  have most : flags.truncate.bits.toNat ≤ all.bits.toNat := by
    rw [truncate, UInt32.toNat_and]
    exact Nat.and_le_right
  have bound : all.bits.toNat < 2 ^ 12 := by decide
  omega

/-- The flag is one bit among the low bits of an entry that are declared. -/
def IsBit (flag : PageFlags) : Prop :=
  ∃ bit < 9, flag.bits.toNat = 2 ^ bit

theorem isBit_user : IsBit .user :=
  ⟨2, by decide, rfl⟩

theorem isBit_writable : IsBit .writable :=
  ⟨1, by decide, rfl⟩

theorem contains_eq_testBit (flags : PageFlags) {flag : PageFlags} {bit : Nat}
    (isBit : flag.bits.toNat = 2 ^ bit) :
    flags.contains flag = flags.bits.toNat.testBit bit := by
  rw [contains, Bool.eq_iff_iff, beq_iff_eq, ← UInt32.toNat_inj, UInt32.toNat_and, isBit,
    Nat.and_two_pow]
  have positive := Nat.two_pow_pos bit
  cases flags.bits.toNat.testBit bit <;> simp [positive.ne]

theorem contains_union (left right : PageFlags) {flag : PageFlags} (isBit : flag.IsBit) :
    (left.union right).contains flag = (left.contains flag || right.contains flag) := by
  rcases isBit with ⟨bit, -, isBit⟩
  rw [contains_eq_testBit _ isBit, contains_eq_testBit _ isBit, contains_eq_testBit _ isBit, union,
    UInt32.toNat_or, Nat.testBit_or]

theorem isBit_present : IsBit .present :=
  ⟨0, by decide, rfl⟩

theorem contains_diff_present (flags : PageFlags) :
    (flags.diff .present).contains .present = false := by
  have cleared : (~~~present.bits).toNat.testBit 0 = false := rfl
  rw [contains_present, diff, UInt32.toNat_and, Nat.testBit_and, cleared, Bool.and_false]

end PageFlags

namespace Entry

variable {flag : PageFlags}

theorem flags_lt (entry : Entry) : entry.flags.bits.toNat < 2 ^ 12 :=
  PageFlags.truncate_lt _

theorem isPresent_eq (entry : Entry) : entry.isPresent = entry.word.toNat.testBit 0 := by
  have mask : flagMask.toNat.testBit 0 = true := rfl
  have declared : PageFlags.all.bits.toNat.testBit 0 = true := rfl
  rw [isPresent, PageFlags.contains_present, flags, PageFlags.truncate, UInt32.toNat_and,
    UInt32.toNat_and, Nat.testBit_and, Nat.testBit_and, mask, declared, Bool.and_true,
    Bool.and_true]

theorem structural_flags {entry : Entry} (present : entry.isPresent = true) :
    entry.flags.Structural where
  low := entry.flags_lt
  present := by
    rw [← PageFlags.contains_present]
    exact present

@[simp]
theorem frame_empty : empty.frame = none :=
  rfl

theorem isPresent_of_frame {entry : Entry} {frame : Frame} (named : entry.frame = some frame) :
    entry.isPresent = true := by
  rw [Entry.frame] at named
  split at named
  · assumption
  · cases named

/-- The frame in the upper bits of an entry, whether it is in force or not. -/
def field (entry : Entry) : Frame :=
  .containing ⟨entry.word⟩

theorem frame_eq_field (entry : Entry) :
    entry.frame = if entry.isPresent then some entry.field else none :=
  rfl

theorem number_field (entry : Entry) : entry.field.number.val = entry.word.toNat >>> 12 := by
  have word := entry.word.toNat_lt
  have size : Layout.frameSize = 2 ^ 12 := rfl
  change entry.word.toNat / Layout.frameSize % 2 ^ 20 = _
  rw [size, Nat.shiftRight_eq_div_pow]
  omega

/-- The bits that lie above the flags are laid over the number of the frame. -/
theorem number_ofFrame (frame : Frame) (flags : PageFlags) :
    (ofFrame frame flags).field.number.val = frame.number.val ||| flags.bits.toNat >>> 12 := by
  have start : frame.start.word.toNat = frame.number.val <<< 12 := by
    rw [Nat.shiftLeft_eq]
    exact frame.toNat_start
  rw [number_field, ofFrame, UInt32.toNat_or, start, Nat.shiftRight_or_distrib,
    Nat.shiftLeft_shiftRight]

theorem number_withFlags (entry : Entry) (flags : PageFlags) :
    (entry.withFlags flags).field.number.val =
      entry.field.number.val ||| flags.bits.toNat >>> 12 := by
  have mask : (~~~flagMask).toNat >>> 12 = 2 ^ 20 - 1 := rfl
  have bound : entry.word.toNat >>> 12 < 2 ^ 20 := by
    rw [← number_field]
    exact entry.field.number.isLt
  rw [number_field, number_field, withFlags, UInt32.toNat_or, UInt32.toNat_and,
    Nat.shiftRight_or_distrib, Nat.shiftRight_and_distrib, mask, Nat.and_two_pow_sub_one_eq_mod,
    Nat.mod_eq_of_lt bound]

/-- Flags that fit into the low bits leave the number of the frame alone. -/
theorem or_high_bits {flags : PageFlags} (structural : flags.Structural) (number : Nat) :
    number ||| flags.bits.toNat >>> 12 = number := by
  rw [Nat.shiftRight_eq_div_pow, Nat.div_eq_of_lt structural.low, Nat.or_zero]

/-- An entry for a frame names that frame. -/
theorem frame_ofFrame (frame : Frame) {flags : PageFlags} (structural : flags.Structural) :
    (ofFrame frame flags).frame = some frame := by
  have present : (ofFrame frame flags).isPresent = true := by
    rw [isPresent_eq, ofFrame, UInt32.toNat_or, Nat.testBit_or, structural.present, Bool.or_true]
  have number := (number_ofFrame frame flags).trans (or_high_bits structural _)
  rw [frame_eq_field, if_pos present, Frame.eq_of_number number]

/-- Other flags leave the frame that an entry names as it is. -/
theorem frame_withFlags {entry : Entry} {flags : PageFlags} (present : entry.isPresent = true)
    (structural : flags.Structural) : (entry.withFlags flags).frame = entry.frame := by
  have kept : (entry.withFlags flags).isPresent = true := by
    rw [isPresent_eq, withFlags, UInt32.toNat_or, Nat.testBit_or, structural.present,
      Bool.or_true]
  have number := (number_withFlags entry flags).trans (or_high_bits structural _)
  rw [frame_eq_field, frame_eq_field, if_pos kept, if_pos present, Frame.eq_of_number number]

theorem contains_flags_eq_testBit (entry : Entry) {bit : Nat} (declared : bit < 9)
    (isBit : flag.bits.toNat = 2 ^ bit) :
    entry.flags.contains flag = entry.word.toNat.testBit bit := by
  have mask : flagMask.toNat = 2 ^ 12 - 1 := rfl
  have all : PageFlags.all.bits.toNat = 2 ^ 9 - 1 := rfl
  have low : bit < 12 := Nat.lt_of_lt_of_le declared (by decide)
  rw [PageFlags.contains_eq_testBit _ isBit, flags, PageFlags.truncate, UInt32.toNat_and,
    UInt32.toNat_and, mask, all, Nat.testBit_and, Nat.testBit_and, Nat.testBit_two_pow_sub_one,
    Nat.testBit_two_pow_sub_one, decide_eq_true declared, decide_eq_true low, Bool.and_true,
    Bool.and_true]

/-- An entry for a frame has the flags that it is made with. -/
theorem contains_ofFrame (frame : Frame) (flags : PageFlags) (isBit : flag.IsBit) :
    (ofFrame frame flags).flags.contains flag = flags.contains flag := by
  rcases isBit with ⟨bit, declared, isBit⟩
  have start : frame.start.word.toNat = frame.number.val * 2 ^ 12 := frame.toNat_start
  have high : ¬12 ≤ bit := by omega
  rw [contains_flags_eq_testBit _ declared isBit, ofFrame, UInt32.toNat_or, Nat.testBit_or, start,
    Nat.testBit_mul_two_pow, decide_eq_false high, Bool.false_and, Bool.false_or,
    PageFlags.contains_eq_testBit _ isBit]

theorem contains_withFlags (entry : Entry) (flags : PageFlags) (isBit : flag.IsBit) :
    (entry.withFlags flags).flags.contains flag = flags.contains flag := by
  rcases isBit with ⟨bit, declared, isBit⟩
  have mask : (~~~flagMask).toNat = (2 ^ 20 - 1) * 2 ^ 12 := rfl
  have high : ¬12 ≤ bit := by omega
  rw [contains_flags_eq_testBit _ declared isBit, withFlags, UInt32.toNat_or, UInt32.toNat_and,
    Nat.testBit_or, Nat.testBit_and, mask, Nat.testBit_mul_two_pow, decide_eq_false high,
    Bool.false_and, Bool.and_false, Bool.false_or, PageFlags.contains_eq_testBit _ isBit]

theorem frame_eq_none_of_absent {entry : Entry} (absent : entry.isPresent = false) :
    entry.frame = none := by
  rw [frame, absent]
  rfl

end Entry

namespace Table

@[simp]
theorem getElem_zero {index : Nat} (inside : index < Layout.pageEntries) :
    zero[index] = Entry.empty :=
  Vector.getElem_replicate inside

theorem getElem_set (contents : Table) (place found : Fin Layout.pageEntries)
    (entry : Entry) :
    getElem (contents.set place entry place.isLt) found found.isLt =
      if place = found then entry else getElem contents found found.isLt := by
  by_cases here : place = found
  · subst here
    rw [if_pos rfl]
    exact Vector.getElem_set_self _
  · rw [if_neg here]
    exact Vector.getElem_set_ne _ _ fun same => here (Fin.ext same)

end Table

namespace Memory

variable (memory : Memory) (frame other : Frame) (index place : Fin Layout.pageEntries)

theorem entry_setTable (table : Table) :
    (memory.setTable frame table).entry other index =
      if frame = other then getElem table index index.isLt else memory.entry other index := by
  rw [Memory.entry, table_setTable]
  split <;> rfl

theorem entry_setEntry (entry : Entry) :
    (memory.setEntry frame index entry).entry other place =
      if frame = other ∧ index = place then entry else memory.entry other place := by
  rw [Memory.entry, table_setEntry]
  by_cases here : frame = other
  · subst here
    by_cases same : index = place
    · subst same
      rw [if_pos rfl, if_pos ⟨rfl, rfl⟩]
      exact Vector.getElem_set_self _
    · have differs : index.val ≠ place.val := fun equal => same (Fin.ext equal)
      rw [if_pos rfl, if_neg (fun both => same both.2)]
      exact Vector.getElem_set_ne _ _ differs
  · rw [if_neg here, if_neg (fun both => here both.1)]
    rfl

theorem table_setEntry_ne (entry : Entry) (differs : frame ≠ other) :
    (memory.setEntry frame index entry).table other = memory.table other := by
  rw [table_setEntry, if_neg differs]

theorem table_setTable_ne (table : Table) (differs : frame ≠ other) :
    (memory.setTable frame table).table other = memory.table other := by
  rw [table_setTable, if_neg differs]

end Memory

end KernelCore
