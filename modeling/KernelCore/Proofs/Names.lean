import KernelCore.Process

/-!
# Names of processes

A process has a fixed number of bytes for its name. A name that needs more is cut between two
characters, as late as the bytes allow: what is kept is the longest beginning of the name that fits.
Characters take one to four bytes, so the place of the cut depends on all that come before it, and
nothing behind it is kept, not even a character for which there would be room.
-/

namespace KernelCore

namespace Text

/-- The text `text` starts with `part`. What is left over is a text too, so `part` ends between two
characters. -/
def Begins (part text : String) : Prop :=
  ∃ rest, part ++ rest = text

/-- Among the beginnings of `text` that take at most `room` bytes, `part` is the longest. -/
structure LongestBeginning (room : Nat) (text part : String) : Prop where
  begins : Begins part text
  fits : part.utf8ByteSize ≤ room
  longest : ∀ other, Begins other text → other.utf8ByteSize ≤ room → Begins other part

/-- One more character, unless its encoding needs more of the `room` bytes than are left. -/
def append? (room : Nat) (text : String) (next : Char) : Option String :=
  if text.utf8ByteSize + next.utf8Size ≤ room then some (text.push next) else none

/-- Takes one character after the other, and stops at the first that is refused. -/
def fill (room : Nat) : (text : String) → List Char → String
  | text, [] => text
  | text, next :: rest =>
      match append? room text next with
      | some longer => fill room longer rest
      | none => text

section Begins

variable {part other text : String}

theorem begins_iff : Begins part text ↔ part.toList <+: text.toList := by
  constructor
  · rintro ⟨rest, rfl⟩
    simp
  · rintro ⟨rest, joined⟩
    refine ⟨String.ofList rest, ?_⟩
    apply String.toList_inj.mp
    simpa using joined

theorem Begins.trans (inner : Begins other part) (outer : Begins part text) :
    Begins other text := by
  rw [begins_iff] at *
  exact inner.trans outer

/-- Of two beginnings of one text, one is a beginning of the other. -/
theorem Begins.total (left : Begins part text) (right : Begins other text) :
    Begins part other ∨ Begins other part := by
  simp only [begins_iff] at *
  exact List.prefix_or_prefix_of_prefix left right

theorem Begins.size_le (begins : Begins part text) : part.utf8ByteSize ≤ text.utf8ByteSize := by
  rcases begins with ⟨rest, rfl⟩
  simp [String.utf8ByteSize_append]

theorem Begins.eq_of_size (begins : Begins part text)
    (size : text.utf8ByteSize ≤ part.utf8ByteSize) : part = text := by
  rcases begins with ⟨rest, rfl⟩
  rw [String.utf8ByteSize_append] at size
  have nothing : rest = "" := String.utf8ByteSize_eq_zero_iff.mp (by omega)
  simp [nothing]

theorem Begins.next (begins : Begins part text) :
    part = text ∨ ∃ next, Begins (part.push next) text := by
  rcases begins_iff.mp begins with ⟨rest, joined⟩
  cases rest with
  | nil =>
      left
      apply String.toList_inj.mp
      simpa using joined
  | cons next behind =>
      right
      refine ⟨next, begins_iff.mpr ⟨behind, ?_⟩⟩
      simpa using joined

/-- A beginning of a text ends at the boundary of a character. -/
theorem Begins.isValid (begins : Begins part text) : part.rawEndPos.IsValid text := by
  rcases begins with ⟨rest, rfl⟩
  exact String.Pos.Raw.isValid_iff_exists_append.mpr ⟨part, rest, rfl, rfl⟩

end Begins

section LongestBeginning

variable {room : Nat} {text part other : String}

theorem LongestBeginning.unique (left : LongestBeginning room text part)
    (right : LongestBeginning room text other) : part = other := by
  apply (right.longest part left.begins left.fits).eq_of_size
  exact (left.longest other right.begins right.fits).size_le

/-- A beginning that fits, but no longer does with the character that comes next, is the longest. -/
theorem longestBeginning_of_next (begins : Begins part text) (fits : part.utf8ByteSize ≤ room)
    (full : ∀ next, Begins (part.push next) text → room < (part.push next).utf8ByteSize) :
    LongestBeginning room text part := by
  refine ⟨begins, fits, ?_⟩
  intro other otherBegins otherFits
  rcases otherBegins.total begins with shorter | longer
  · exact shorter
  · rcases longer.next with rfl | ⟨next, more⟩
    · exact ⟨"", String.append_empty⟩
    -- A longer beginning would have the next character as well, which exceeds the room already.
    · have exceeds := full next (more.trans otherBegins)
      have within := more.size_le
      omega

/-- The longest beginning is the whole text, or there is no room for the character behind it. -/
theorem LongestBeginning.whole_or_full (kept : LongestBeginning room text part) :
    part = text ∨ ∃ next, Begins (part.push next) text ∧
      room < (part.push next).utf8ByteSize := by
  rcases kept.begins.next with whole | ⟨next, more⟩
  · exact .inl whole
  · refine .inr ⟨next, more, ?_⟩
    apply Nat.lt_of_not_le
    intro fits
    have within := (kept.longest _ more fits).size_le
    have positive := next.utf8Size_pos
    rw [String.utf8ByteSize_push] at within
    omega

end LongestBeginning

section Cut

variable (room : Nat) (chars : List Char)

theorem takeFitting_prefix : takeFitting room chars <+: chars := by
  fun_induction takeFitting room chars with
  | case1 room => exact List.nil_prefix
  | case2 room first rest fits ih => exact List.cons_prefix_cons.mpr ⟨rfl, ih⟩
  | case3 room first rest exceeds => exact List.nil_prefix

theorem size_takeFitting_le : (String.ofList (takeFitting room chars)).utf8ByteSize ≤ room := by
  fun_induction takeFitting room chars with
  | case1 room => simp
  | case2 room first rest fits ih =>
      simp only [String.ofList_cons, String.utf8ByteSize_append, String.utf8ByteSize_singleton]
      omega
  | case3 room first rest exceeds => simp

/-- The character at which the taking stops would exceed the room. -/
theorem takeFitting_full {next : Char} (more : takeFitting room chars ++ [next] <+: chars) :
    room < (String.ofList (takeFitting room chars)).utf8ByteSize + next.utf8Size := by
  fun_induction takeFitting room chars with
  | case1 room => simp at more
  | case2 room first rest fits ih =>
      have exceeds := ih (List.cons_prefix_cons.mp more).2
      simp only [String.ofList_cons, String.utf8ByteSize_append, String.utf8ByteSize_singleton]
      omega
  | case3 room first rest exceeds =>
      have same : next = first := (List.cons_prefix_cons.mp more).1
      simp only [String.ofList_nil, String.utf8ByteSize_empty, same]
      omega

theorem longestBeginning_cut (text : String) : LongestBeginning room text (cut room text) := by
  apply longestBeginning_of_next
  · rw [begins_iff, cut, String.toList_ofList]
    exact takeFitting_prefix room text.toList
  · exact size_takeFitting_le room text.toList
  · intro next more
    rw [begins_iff, String.toList_push, cut, String.toList_ofList] at more
    rw [String.utf8ByteSize_push, cut]
    exact takeFitting_full room text.toList more

/-- Storage that is filled up to the first refusal keeps what is cut off for the bytes it has left. -/
theorem fill_eq (text : String) (fits : text.utf8ByteSize ≤ room) :
    fill room text chars =
      text ++ String.ofList (takeFitting (room - text.utf8ByteSize) chars) := by
  induction chars generalizing text with
  | nil => simp [fill, takeFitting]
  | cons next rest ih =>
      simp only [fill, append?, takeFitting]
      by_cases accepted : text.utf8ByteSize + next.utf8Size ≤ room
      · have left : next.utf8Size ≤ room - text.utf8ByteSize := by omega
        have longer : (text.push next).utf8ByteSize ≤ room := by
          rw [String.utf8ByteSize_push]
          exact accepted
        simp only [accepted, left, if_true]
        rw [ih _ longer, String.utf8ByteSize_push, Nat.sub_add_eq, String.push_eq_append,
          String.append_assoc, String.ofList_cons]
      · have exceeds : ¬next.utf8Size ≤ room - text.utf8ByteSize := by omega
        simp [accepted, exceeds]

theorem cut_eq_fill (text : String) : cut room text = fill room "" text.toList := by
  simp [fill_eq, cut]

end Cut

/-- The euro sign takes three bytes, and with it the shorter character behind it is lost. -/
example : cut 3 "a€b" = "a" := by
  decide

end Text

/-- Whatever a new process is called, its name is kept as far as its characters can be taken one
after the other into the 31 bytes that there are. What is kept ends at the boundary of a character
and is the one longest beginning of the name that fits: it is the whole name, or the next character
would exceed the bytes. -/
theorem ProcessRecord.keeps_longest_beginning (pid : Pid) (name : String)
    (entry priority timeSlice : UInt32) (resources : ProcessResources) :
    let kept := (fresh pid name entry priority timeSlice resources).name
    kept = Text.fill 31 "" name.toList ∧
      kept.rawEndPos.IsValid name ∧
      Text.LongestBeginning 31 name kept ∧
      (∀ part, Text.LongestBeginning 31 name part → part = kept) ∧
      (kept = name ∨ ∃ next, Text.Begins (kept.push next) name ∧
        31 < (kept.push next).utf8ByteSize) := by
  intro kept
  have longest : Text.LongestBeginning 31 name kept := Text.longestBeginning_cut 31 name
  refine ⟨Text.cut_eq_fill 31 name, longest.begins.isValid, longest, ?_, longest.whole_or_full⟩
  intro part other
  exact other.unique longest

end KernelCore
