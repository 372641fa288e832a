import KernelCore.Proofs.Paging.Edits
import KernelCore.Proofs.Paging.Safety

/-!
# What an address space gives back

An address space is destroyed by giving back its private frames one after the other. Its directory
may hold anything: entries that name a frame that is free already, the same frame more than once, or
a frame that is not tracked. Such a frame is refused, and the ones behind it are given back all the
same. `FrameBitmap.Returned` tells what becomes of the bitmap when a list of frames is given back,
and `AddressSpaces.Destroyed` what becomes of the whole.
-/

namespace KernelCore

namespace FrameBitmap

/-- Gives frames back in order, each whatever was answered to those before it. -/
def freeEach (frames : List Frame) : Operation FrameBitmap (List (Except FrameError Unit)) :=
  frames.mapM fun frame => (free frame).result

/-- What is answered to a frame that is given back after the frames `earlier`. -/
def answerTo (bitmap : FrameBitmap) (earlier : List Frame) (frame : Frame) :
    Except FrameError Unit :=
  if bitmap.totalFrames ≤ frame.number.val then
    .error .outOfRange
  else if bitmap.isSet frame.number.val ∧ frame ∉ earlier then
    .ok ()
  else
    .error .alreadyFree

/-- The first refusal, if there is one. -/
def firstRefusal (replies : List (Except FrameError Unit)) : Except FrameError Unit :=
  (replies.find? fun reply => !reply.isOk).getD (.ok ())

theorem firstRefusal_cons (reply : Except FrameError Unit)
    (replies : List (Except FrameError Unit)) :
    firstRefusal (reply :: replies) = reply.bind fun () => firstRefusal replies := by
  cases reply with
  | error cause => rfl
  | ok value => rfl

/-- What has become of a bitmap when frames were given back in this order. -/
structure Returned (before : FrameBitmap) (frames : List Frame)
    (replies : List (Except FrameError Unit)) (after : FrameBitmap) : Prop where
  wellFormed : after.WellFormed
  total : after.totalFrames = before.totalFrames
  reserved : after.reservedFrames = before.reservedFrames
  /-- A tracked frame is accepted if it is used and did not come before in the list. -/
  answers : replies = frames.mapIdx fun index frame => before.answerTo (frames.take index) frame
  /-- Each frame that is accepted is counted. -/
  counted : after.freeFrames = before.freeFrames + replies.countP (·.isOk)
  freed : ∀ frame ∈ frames, frame.number.val < before.totalFrames →
    after.isSet frame.number.val = false
  others : ∀ number, (∀ frame ∈ frames, frame.number.val ≠ number) →
    after.isSet number = before.isSet number

section Returning

variable {before between after : FrameBitmap} {frame : Frame} {frames : List Frame}
  {reply : Except FrameError Unit} {replies : List (Except FrameError Unit)}

theorem Release.answer (release : Release before frame reply after) :
    reply = before.answerTo [] frame := by
  cases release with
  | outOfRange past => simp [answerTo, past]
  | alreadyFree tracked clear => simp [answerTo, Nat.not_le.mpr tracked, clear]
  | freed tracked used bits more total reserved =>
      simp [answerTo, Nat.not_le.mpr tracked, used]

theorem Release.reserved (release : Release before frame reply after) :
    after.reservedFrames = before.reservedFrames := by
  cases release with
  | outOfRange past => rfl
  | alreadyFree tracked clear => rfl
  | freed tracked used bits more total reserved => exact reserved

theorem Release.counted (release : Release before frame reply after) :
    after.freeFrames = before.freeFrames + [reply].countP (·.isOk) := by
  cases release with
  | outOfRange past => rfl
  | alreadyFree tracked clear => rfl
  | freed tracked used bits more total reserved => exact more

/-- A frame that was given back is answered from then on as one that came before. -/
theorem Release.answerTo (release : Release before frame reply after) (earlier : List Frame)
    (other : Frame) : after.answerTo earlier other = before.answerTo (frame :: earlier) other := by
  by_cases past : before.totalFrames ≤ other.number.val
  · simp [FrameBitmap.answerTo, release.total, past]
  · have bit := release.isSet (Nat.lt_of_not_le past)
    have same : frame.number.val ≠ other.number.val ↔ other ≠ frame := by
      rw [ne_eq, Frame.number_inj, eq_comm]
    simp only [FrameBitmap.answerTo, release.total, past, bit, same, if_false, Bool.and_eq_true,
      decide_eq_true_eq, List.mem_cons, not_or, and_assoc]

theorem returned_nil (wellFormed : before.WellFormed) : Returned before [] [] before where
  wellFormed := wellFormed
  total := rfl
  reserved := rfl
  answers := rfl
  counted := rfl
  freed := nofun
  others _ _ := rfl

/-- The first frame is given back, and then all others to the bitmap that this leads to. -/
theorem Returned.cons (release : Release before frame reply between)
    (rest : Returned between frames replies after) :
    Returned before (frame :: frames) (reply :: replies) after where
  wellFormed := rest.wellFormed
  total := rest.total.trans release.total
  reserved := rest.reserved.trans release.reserved
  answers := by
    simp only [List.mapIdx_cons, List.take_zero, List.take_succ_cons, ← release.answerTo,
      ← release.answer, ← rest.answers]
  counted := by
    rw [rest.counted, release.counted, Nat.add_assoc, ← List.countP_append]
    rfl
  freed other mem tracked := by
    by_cases again : other ∈ frames
    · exact rest.freed other again (release.total ▸ tracked)
    · have first : other = frame := (List.mem_cons.mp mem).resolve_right again
      have notAgain : ∀ later ∈ frames, later.number.val ≠ frame.number.val := by
        intro later laterMem same
        exact again (first ▸ Frame.number_inj.mp same ▸ laterMem)
      subst first
      rw [rest.others _ notAgain, release.isSet tracked, decide_eq_false (not_not.mpr rfl),
        Bool.and_false]
  others number apart := by
    rcases List.forall_mem_cons.mp apart with ⟨first, later⟩
    rw [rest.others number later, release.others first]

/-- Frames can always be given back one after the other, without a fault. -/
theorem WellFormed.returned (wellFormed : before.WellFormed) (frames : List Frame) :
    ∃ replies after, (freeEach frames).Yields before replies after ∧
      Returned before frames replies after := by
  induction frames generalizing before with
  | nil => exact ⟨[], before, Operation.yields_pure.mpr ⟨rfl, rfl⟩, returned_nil wellFormed⟩
  | cons frame rest ih =>
      rcases wellFormed.free frame with ⟨reply, between, run, release, wellFormedBetween⟩
      rcases ih wellFormedBetween with ⟨replies, after, ended, returned⟩
      refine ⟨reply :: replies, after, ?_, returned.cons release⟩
      exact Operation.yields_mapM_cons.mpr ⟨reply, between, replies, run, ended, rfl⟩

theorem Returned.spared (returned : Returned before frames replies after) (kept : frame ∉ frames) :
    after.isSet frame.number.val = before.isSet frame.number.val :=
  returned.others _ fun _ gone same => kept (Frame.number_inj.mp same ▸ gone)

/-- Frames that are accounted for can be given back, all of them. -/
theorem Accounts.freeEach {outside : Nat → Prop} (gone : List Frame) {rest : List Frame}
    (wellFormed : before.WellFormed) (accounts : before.Accounts outside (gone ++ rest)) :
    ∃ replies after, (FrameBitmap.freeEach gone).Yields before replies after ∧
      firstRefusal replies = .ok () ∧ after.WellFormed ∧ after.Accounts outside rest ∧
      after.totalFrames = before.totalFrames := by
  induction gone generalizing before with
  | nil =>
      exact ⟨[], before, Operation.yields_pure.mpr ⟨rfl, rfl⟩, rfl, wellFormed, accounts, rfl⟩
  | cons frame others ih =>
      rcases wellFormed.free frame with ⟨reply, between, run, release, wellFormedBetween⟩
      rcases accounts.release release with ⟨rfl, accountsBetween, total⟩
      rcases ih wellFormedBetween accountsBetween with
        ⟨replies, after, ended, granted, wellFormedAfter, accountsAfter, totalAfter⟩
      refine ⟨.ok () :: replies, after, ?_, ?_, wellFormedAfter, accountsAfter,
        totalAfter.trans total⟩
      · exact Operation.yields_mapM_cons.mpr ⟨.ok (), between, replies, run, ended, rfl⟩
      · rw [firstRefusal_cons]
        exact granted

end Returning

end FrameBitmap

namespace AddressSpaces

variable {before after : AddressSpaces} {directory : Directory} {frames : List Frame}
  {replies : List (Except FrameError Unit)} {bitmap : FrameBitmap}

/-- Frames are given back to the bitmap one after the other, whichever are refused. -/
theorem yields_releaseFrames
    (calls : (FrameBitmap.freeEach frames).Yields before.frames replies bitmap) :
    (releaseFrames frames).Yields before (FrameBitmap.firstRefusal replies)
      { before with frames := bitmap } := by
  induction frames generalizing before replies with
  | nil =>
      rcases Operation.yields_pure.mp calls with ⟨rfl, rfl⟩
      exact Operation.yields_pure.mpr ⟨rfl, rfl⟩
  | cons frame rest ih =>
      rcases Operation.yields_mapM_cons.mp calls with
        ⟨reply, between, others, freed, onward, rfl⟩
      have first : (onFrames (FrameBitmap.free frame).result).Yields before reply
          { before with frames := between } := yields_onFrames.mpr ⟨between, freed, rfl⟩
      have later : (releaseFrames rest).Yields { before with frames := between }
          (FrameBitmap.firstRefusal others) { before with frames := bitmap } := ih onward
      rw [FrameBitmap.firstRefusal_cons]
      exact Operation.yields_bind.mpr ⟨reply, _, first, Operation.yields_bind.mpr
        ⟨_, _, later, Operation.yields_pure.mpr ⟨rfl, rfl⟩⟩⟩

theorem yields_destroyDirectory
    (calls : (FrameBitmap.freeEach (before.privateFrames directory)).Yields before.frames replies
      bitmap) :
    (destroyDirectory directory).Yields before (FrameBitmap.firstRefusal replies)
      { before with
        frames := bitmap
        current :=
          if before.current = some directory then before.kernel else before.current } := by
  let switched : AddressSpaces :=
    { before with
      current := if before.current = some directory then before.kernel else before.current }
  have switches : (modify fun spaces =>
      if spaces.current = some directory then { spaces with current := spaces.kernel }
      else spaces : Fallible AddressSpaces FrameError Unit).Yields before (.ok ()) switched := by
    refine Fallible.yields_modify.mpr ⟨rfl, ?_⟩
    by_cases active : before.current = some directory <;> simp [switched, active]
  have released : (releaseFrames (before.privateFrames directory)).Yields switched
      (FrameBitmap.firstRefusal replies) { switched with frames := bitmap } :=
    yields_releaseFrames calls
  refine Fallible.yields_bind.mpr (Or.inr ⟨before, before, by simp, ?_⟩)
  exact Fallible.yields_bind.mpr (Or.inr ⟨(), switched, switches, released⟩)

/-- What has become of everything when an address space was destroyed: its private frames were
given back in their order, with these answers. -/
structure Destroyed (before : AddressSpaces) (directory : Directory)
    (replies : List (Except FrameError Unit)) (result : Except FrameError Unit)
    (after : AddressSpaces) : Prop where
  /-- Every private frame was given back, whatever was answered to those before it. -/
  calls : (FrameBitmap.freeEach (before.privateFrames directory)).Yields before.frames replies
    after.frames
  returned : before.frames.Returned (before.privateFrames directory) replies after.frames
  result : result = FrameBitmap.firstRefusal replies
  /-- A tracked frame that was given back is not used. -/
  unused : ∀ frame ∈ before.privateFrames directory,
    frame.number.val < before.frames.totalFrames → after.frames.isUsed frame = false
  /-- Every other frame is as it was. -/
  others : ∀ frame ∉ before.privateFrames directory,
    after.frames.isSet frame.number.val = before.frames.isSet frame.number.val ∧
      after.frames.isUsed frame = before.frames.isUsed frame
  memory : after.memory = before.memory
  kernel : after.kernel = before.kernel
  current : after.current =
    if before.current = some directory then before.kernel else before.current

/-- Destroying an address space gives back exactly its private frames, also after one of them was
refused, whatever its directory and the kernel's hold. -/
theorem destroyDirectory_returns (founded : before.Founded) (directory : Directory) :
    ∃ replies result after, (destroyDirectory directory).Yields before result after ∧
      before.Destroyed directory replies result after := by
  rcases founded.returned (before.privateFrames directory) with
    ⟨replies, bitmap, calls, returned⟩
  refine ⟨replies, _, _, yields_destroyDirectory calls, calls, returned, rfl, ?_, ?_, rfl, rfl,
    rfl⟩
  · intro frame gone tracked
    have inside : ¬bitmap.totalFrames ≤ frame.number.val := by
      rw [returned.total]
      exact Nat.not_le.mpr tracked
    simp [FrameBitmap.isUsed, inside, returned.freed frame gone tracked]
  · intro frame kept
    refine ⟨returned.spared kept, ?_⟩
    simp only [FrameBitmap.isUsed, returned.total, returned.spared kept]

/-- Of four frames, all of which are used, the first holds the kernel's directory and the second a
table of it. The directory in the third shares this table. It also names the fourth, and that twice,
and a frame that does not exist. -/
def carelessSpaces : AddressSpaces :=
  let names (number : Nat) : Entry := .ofFrame (.ofNumber number) .present
  let root : Table := .ofFn fun index => if index.val = 0 then names 1 else .empty
  let other : Table := .ofFn fun index =>
    match index.val with
    | 0 => names 1
    | 1 | 2 => names 3
    | 3 => names 9
    | _ => .empty
  { frames := .fresh 4 4
    memory := (Memory.zero.setTable (.ofNumber 0) root).setTable (.ofNumber 2) other
    current := some ⟨.ofNumber 2⟩
    kernel := some ⟨.ofNumber 0⟩ }

theorem privateFrames_carelessSpaces :
    carelessSpaces.privateFrames ⟨.ofNumber 2⟩ =
      [.ofNumber 3, .ofNumber 3, .ofNumber 9, .ofNumber 2] := by
  simp only [privateFrames, carelessSpaces, tableFrame, isShared, Memory.entry,
    Memory.table_setTable, if_true, if_neg (by decide : Frame.ofNumber 2 ≠ .ofNumber 0),
    Fin.getElem_fin, Vector.getElem_ofFn]
  decide +kernel

/-- The second and the third of four frames are refused, and the others come back all the same. -/
theorem destroyDirectory_returns_after_refusals :
    carelessSpaces.Founded ∧ ∃ after,
      (destroyDirectory ⟨.ofNumber 2⟩).Yields carelessSpaces (.error .alreadyFree) after ∧
        after.frames.freeFrames = 2 ∧ after.frames.isUsed (.ofNumber 1) = true ∧
        after.frames.isUsed (.ofNumber 2) = false ∧ after.frames.isUsed (.ofNumber 3) = false ∧
        after.current = some ⟨.ofNumber 0⟩ := by
  have founded : carelessSpaces.Founded := FrameBitmap.wellFormed_fresh 4 (by decide)
  rcases destroyDirectory_returns founded ⟨.ofNumber 2⟩ with
    ⟨replies, result, after, run, destroyed⟩
  have answers : replies = [.ok (), .error .alreadyFree, .error .outOfRange, .ok ()] := by
    rw [destroyed.returned.answers, privateFrames_carelessSpaces]
    decide +kernel
  have first : result = .error .alreadyFree := by
    rw [destroyed.result, answers]
    rfl
  have counted := destroyed.returned.counted
  rw [answers] at counted
  have others := destroyed.others (.ofNumber 1)
  have unused := destroyed.unused
  rw [privateFrames_carelessSpaces] at others unused
  refine ⟨founded, after, first ▸ run, counted, ?_, ?_, ?_, destroyed.current⟩
  · rw [(others (by decide)).2]
    decide +kernel
  · exact unused _ (by decide) (by decide)
  · exact unused _ (by decide) (by decide)

end AddressSpaces

end KernelCore
