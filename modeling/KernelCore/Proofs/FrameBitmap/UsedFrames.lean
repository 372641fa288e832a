import KernelCore.Proofs.FrameBitmap

/-!
# The bitmap as a set of used frames

Words, bits and the counter are how the bitmap is stored; what it stands for is the set of the
tracked frames that are in use, `FrameBitmap.usedFrames`. A bitmap that is well formed answers
every request as this set would, which is `FrameBitmap.Answers`, and the set changes by exactly the
frame that was handed out or given back.

The set is read off the bits, so nothing has to be remembered beside the bitmap: what holds before
a setup is of no consequence for the set after it.
-/

namespace KernelCore

namespace FrameBitmap

/-- The tracked frames that are in use, by number. -/
def usedFrames (bitmap : FrameBitmap) : Finset Nat :=
  {number ∈ Finset.range bitmap.totalFrames | bitmap.isSet number}

/-- Something that is asked of a bitmap once it is set up. -/
inductive Request where
  | allocate
  | free (frame : Frame)

def Request.act : Request → Operation FrameBitmap Unit
  | allocate => discard FrameBitmap.allocate
  | free frame => discard (FrameBitmap.free frame).result

/-- How a request for a frame is answered by a bitmap that stands for its set of used frames. -/
structure Allocates (bitmap : FrameBitmap) (reply : Option Frame) (after : FrameBitmap) :
    Prop where
  total : after.totalFrames = bitmap.totalFrames
  refused : reply = none ↔ ∀ number < bitmap.totalFrames, number ∈ bitmap.usedFrames
  unchanged : reply = none → after = bitmap
  granted : ∀ frame, reply = some frame →
    IsLeast {number | number < bitmap.totalFrames ∧ number ∉ bitmap.usedFrames}
        frame.number.val ∧
      after.usedFrames = insert frame.number.val bitmap.usedFrames

/-- How the return of a frame is answered by a bitmap that stands for its set of used frames. -/
structure Frees (bitmap : FrameBitmap) (frame : Frame) (reply : Except FrameError Unit)
    (after : FrameBitmap) : Prop where
  total : after.totalFrames = bitmap.totalFrames
  outOfRange : reply = .error .outOfRange ↔ bitmap.totalFrames ≤ frame.number.val
  alreadyFree : reply = .error .alreadyFree ↔
    frame.number.val < bitmap.totalFrames ∧ frame.number.val ∉ bitmap.usedFrames
  freed : reply = .ok () ↔ frame.number.val ∈ bitmap.usedFrames
  unchanged : ∀ cause, reply = .error cause → after = bitmap
  removed : reply = .ok () → after.usedFrames = bitmap.usedFrames.erase frame.number.val

/-- The bitmap answers every request as the set of its used frames would. -/
structure Answers (bitmap : FrameBitmap) : Prop where
  counted : bitmap.freeFrames + bitmap.usedFrames.card = bitmap.totalFrames
  used : ∀ frame, bitmap.isUsed frame = true ↔
    bitmap.totalFrames ≤ frame.number.val ∨ frame.number.val ∈ bitmap.usedFrames
  allocate : ∃ reply after, FrameBitmap.allocate.Yields bitmap reply after ∧
    bitmap.Allocates reply after
  free : ∀ frame, ∃ reply after, (FrameBitmap.free frame).Yields bitmap reply after ∧
    bitmap.Frees frame reply after

variable {bitmap after : FrameBitmap}

section Sets

theorem mem_usedFrames {number : Nat} :
    number ∈ bitmap.usedFrames ↔ number < bitmap.totalFrames ∧ bitmap.isSet number = true := by
  simp [usedFrames]

theorem notMem_usedFrames {number : Nat} (tracked : number < bitmap.totalFrames) :
    number ∉ bitmap.usedFrames ↔ bitmap.isSet number = false := by
  simp [mem_usedFrames, tracked]

/-- The tracked frames are the used ones and those that the bitmap counts. -/
theorem WellFormed.card_usedFrames (wellFormed : bitmap.WellFormed) :
    bitmap.freeFrames + bitmap.usedFrames.card = bitmap.totalFrames := by
  have used : bitmap.usedFrames.card =
      (List.range bitmap.totalFrames).countP fun number => bitmap.isSet number := by
    rw [List.countP_eq_length_filter]
    exact congrArg List.length (List.filter_congr fun number _ => Bool.decide_eq_true)
  have all := List.length_eq_countP_add_countP (fun number => bitmap.isSet number)
    (l := List.range bitmap.totalFrames)
  simp only [List.length_range, Bool.not_eq_true, Bool.decide_eq_false] at all
  rw [used, wellFormed.counted, Nat.add_comm]
  exact all.symm

theorem usedFrames_fresh {total reserved : Nat} (less : reserved ≤ total) :
    (fresh total reserved).usedFrames = Finset.range reserved := by
  ext number
  have tracked : (fresh total reserved).totalFrames = total := rfl
  rw [mem_usedFrames, isSet_fresh, tracked, Finset.mem_range]
  simp
  omega

end Sets

section Requests

theorem Allocation.allocates {reply : Option Frame} (allocation : Allocation bitmap reply after) :
    bitmap.Allocates reply after := by
  cases allocation with
  | exhausted full =>
      refine ⟨rfl, ?_, fun _ => rfl, ?_⟩
      · exact iff_of_true rfl fun number tracked => mem_usedFrames.mpr ⟨tracked, full number⟩
      · rintro frame ⟨⟩
  | @taken frame _ tracked clear least bits fewer total reserved =>
      have unused : frame.number.val ∉ bitmap.usedFrames := (notMem_usedFrames tracked).mpr clear
      refine ⟨total, ?_, ?_, ?_⟩
      · exact iff_of_false (Option.some_ne_none frame) fun full => unused (full _ tracked)
      · rintro ⟨⟩
      · rintro _ ⟨⟩
        refine ⟨⟨⟨tracked, unused⟩, ?_⟩, ?_⟩
        · rintro number ⟨inside, absent⟩
          by_contra less
          exact absent (mem_usedFrames.mpr ⟨inside, least number (Nat.lt_of_not_le less)⟩)
        · ext number
          rw [Finset.mem_insert, mem_usedFrames, mem_usedFrames, total, bits]
          grind

theorem Release.frees {frame : Frame} {reply : Except FrameError Unit}
    (release : Release bitmap frame reply after) : bitmap.Frees frame reply after := by
  cases release with
  | outOfRange past =>
      constructor <;> simp [mem_usedFrames, past]
  | alreadyFree tracked clear =>
      constructor <;> simp [mem_usedFrames, clear, tracked]
  | freed tracked used bits more total reserved =>
      refine ⟨total, ?_, ?_, ?_, ?_, ?_⟩
      · simp [tracked]
      · simp [mem_usedFrames, tracked, used]
      · simp [mem_usedFrames, tracked, used]
      · simp
      · intro _
        ext number
        rw [Finset.mem_erase, mem_usedFrames, mem_usedFrames, total, bits]
        grind

/-- A well-formed bitmap stands for the set of its used frames. -/
theorem WellFormed.answers (wellFormed : bitmap.WellFormed) : bitmap.Answers where
  counted := wellFormed.card_usedFrames
  used frame := by
    rw [isUsed, mem_usedFrames]
    grind
  allocate := by
    rcases wellFormed.allocate with ⟨reply, after, done, allocation, -⟩
    exact ⟨reply, after, done, allocation.allocates⟩
  free frame := by
    rcases wellFormed.free frame with ⟨reply, after, done, release, -⟩
    exact ⟨reply, after, done, release.frees⟩

end Requests

section Runs

/-- What requests leave as it was: the sizes, and each used frame that none of them gives back. -/
structure Keeps (requests : List Request) (bitmap after : FrameBitmap) : Prop where
  total : after.totalFrames = bitmap.totalFrames
  reserved : after.reservedFrames = bitmap.reservedFrames
  used : ∀ number, bitmap.isSet number = true →
    (∀ frame, .free frame ∈ requests → frame.number.val ≠ number) → after.isSet number = true

theorem Keeps.cons {request : Request} {rest : List Request} {between : FrameBitmap}
    (first : Keeps [request] bitmap between) (second : Keeps rest between after) :
    Keeps (request :: rest) bitmap after where
  total := second.total.trans first.total
  reserved := second.reserved.trans first.reserved
  used number set spared := by
    have kept := first.used number set fun frame mem =>
      spared frame (List.mem_cons.mpr (Or.inl (List.mem_singleton.mp mem)))
    exact second.used number kept fun frame mem => spared frame (List.mem_cons_of_mem request mem)

theorem Allocation.keeps {reply : Option Frame} (allocation : Allocation bitmap reply after) :
    Keeps [.allocate] bitmap after := by
  cases allocation with
  | exhausted full => exact ⟨rfl, rfl, fun _ set _ => set⟩
  | taken tracked clear least bits fewer total reserved =>
      refine ⟨total, reserved, ?_⟩
      intro number set _
      rw [bits, set, Bool.true_or]

theorem Release.keeps {frame : Frame} {reply : Except FrameError Unit}
    (release : Release bitmap frame reply after) : Keeps [.free frame] bitmap after := by
  cases release with
  | outOfRange past => exact ⟨rfl, rfl, fun _ set _ => set⟩
  | alreadyFree tracked clear => exact ⟨rfl, rfl, fun _ set _ => set⟩
  | freed tracked used bits more total reserved =>
      refine ⟨total, reserved, ?_⟩
      intro number set spared
      have differs := spared frame (List.mem_singleton_self _)
      rw [bits, set, decide_eq_true differs, Bool.and_true]

/-- A request is served without a fault, and the bitmap stays well formed. -/
theorem WellFormed.serve (wellFormed : bitmap.WellFormed) (request : Request) :
    ∃ after, request.act.Yields bitmap () after ∧ after.WellFormed ∧
      Keeps [request] bitmap after := by
  cases request with
  | allocate =>
      rcases wellFormed.allocate with ⟨reply, after, done, allocation, kept⟩
      exact ⟨after, Operation.yields_discard done, kept, allocation.keeps⟩
  | free frame =>
      rcases wellFormed.free frame with ⟨reply, after, done, release, kept⟩
      exact ⟨after, Operation.yields_discard done, kept, release.keeps⟩

/-- Any sequence of requests is served without a fault, and the bitmap stays well formed. -/
theorem WellFormed.serveAll (wellFormed : bitmap.WellFormed) (requests : List Request) :
    ∃ final, (requests.forM Request.act).Yields bitmap () final ∧ final.WellFormed ∧
      Keeps requests bitmap final := by
  induction requests generalizing bitmap with
  | nil =>
      exact ⟨bitmap, Operation.yields_pure.mpr ⟨rfl, rfl⟩, wellFormed, rfl, rfl,
        fun _ set _ => set⟩
  | cons request rest ih =>
      rcases wellFormed.serve request with ⟨between, served, wellFormedBetween, keeps⟩
      rcases ih wellFormedBetween with ⟨final, ended, wellFormedFinal, keepsRest⟩
      exact ⟨final, Operation.yields_bind.mpr ⟨(), between, served, ended⟩, wellFormedFinal,
        keeps.cons keepsRest⟩

/-- Whatever the bitmap held before, a setup is refused and changes nothing, or it leaves the
frames below the reserved end used and all others free; and after any requests from there on, with
whatever frames, the bitmap answers as the set of its used frames. -/
theorem answers_of_requests (old : FrameBitmap) (totalBytes : Nat) (reservedEnd : UInt32) :
    let total := min totalBytes Layout.maxPhysicalMemory / Layout.frameSize
    let reserved := (reservedEnd.toNat + Layout.frameSize - 1) / Layout.frameSize
    (total ≤ reserved ∧
        (reset totalBytes reservedEnd).Yields old (.error .insufficientMemory) old) ∨
      (reserved < total ∧ ∃ start, (reset totalBytes reservedEnd).Yields old (.ok ()) start ∧
        start.totalFrames = total ∧ start.usedFrames = Finset.range reserved ∧
        ∀ requests : List Request, ∃ final,
          (requests.forM Request.act).Yields start () final ∧ final.totalFrames = total ∧
            final.Answers) := by
  intro total reserved
  rcases reset_cases old totalBytes reservedEnd with ⟨less, done⟩ | ⟨most, refused⟩
  · right
    have small : total ≤ Layout.maxFrames := Nat.div_le_div_right (Nat.min_le_right _ _)
    refine ⟨less, fresh total reserved, done, rfl, usedFrames_fresh (Nat.le_of_lt less), ?_⟩
    intro requests
    rcases (wellFormed_fresh reserved small).serveAll requests with
      ⟨final, served, wellFormed, keeps⟩
    exact ⟨final, served, keeps.total, wellFormed.answers⟩
  · exact Or.inl ⟨most, refused⟩

end Runs

end FrameBitmap

end KernelCore
