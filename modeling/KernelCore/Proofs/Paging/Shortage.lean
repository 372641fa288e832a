import KernelCore.Proofs.FrameBitmap.UsedFrames
import KernelCore.Proofs.Paging.Atomicity
import KernelCore.Proofs.Paging.Directories

/-!
# When frames run out below the kernel's directory

The kernel's directory takes a frame for itself and one for each of its tables, and it is made page
by page. If there is no frame left in the middle, what was taken so far is not given back: all frames
that were free are lost. Nothing is lost only if there was nothing to lose. So each request by itself
happens as a whole or not at all, as `requests_atomic` has it, but the sequence of them does not.
-/

namespace KernelCore

namespace FrameBitmap

variable {before after : FrameBitmap} {effects : List Effect}

/-- Every tracked frame is used. -/
def Exhausted (bitmap : FrameBitmap) : Prop :=
  ∀ number < bitmap.totalFrames, bitmap.isSet number = true

theorem exhausted_iff : before.Exhausted ↔ before.usedFrames = Finset.range before.totalFrames := by
  simp only [Exhausted, Finset.ext_iff, mem_usedFrames, Finset.mem_range, and_iff_left_iff_imp]

/-- Whatever the bitmap holds, a frame is refused just if all are used. -/
theorem allocate_refused_iff : allocate before = .ok ⟨none, before, []⟩ ↔ before.Exhausted := by
  cases found : before.firstClear with
  | none =>
      have full : before.Exhausted := fun number _ => firstClear_eq_none found number
      simp [allocate, found, full]
  | some first =>
      rcases firstClear_eq_some found with ⟨clear, earlier⟩
      by_cases tracked : first < before.totalFrames
      · have free : ¬before.Exhausted := fun full => by simp [full first tracked] at clear
        cases done : take first before <;> simp [allocate, found, tracked, done, free]
      · have full : before.Exhausted := fun number inside => earlier number (by omega)
        simp [allocate, found, tracked, full]

/-- Frames were taken, and none was given back. -/
structure Draws (before after : FrameBitmap) : Prop where
  total : after.totalFrames = before.totalFrames
  reserved : after.reservedFrames = before.reservedFrames
  used : ∀ number, before.isSet number = true → after.isSet number = true

theorem Draws.refl (bitmap : FrameBitmap) : Draws bitmap bitmap :=
  ⟨rfl, rfl, fun _ used => used⟩

theorem Draws.trans {between : FrameBitmap} (first : Draws before between)
    (second : Draws between after) : Draws before after where
  total := second.total.trans first.total
  reserved := second.reserved.trans first.reserved
  used number wasUsed := second.used number (first.used number wasUsed)

theorem Spends.draws (spends : Spends before after) : Draws before after := by
  rcases spends with ⟨number, -, bits, -, total, reserved⟩
  exact ⟨total, reserved, fun other used => by rw [bits, used, Bool.true_or]⟩

end FrameBitmap

namespace AddressSpaces

/-- Frames were taken, and the same directories are the active one and the kernel's. -/
structure Draws (before after : AddressSpaces) : Prop where
  frames : before.frames.Draws after.frames
  current : after.current = before.current
  kernel : after.kernel = before.kernel

/-- However the operation comes to an end, it has done no more to the bitmap than take frames, and it
is refused only when all are used. -/
def Draining {Value : Type} (action : Fallible AddressSpaces MapError Value) : Prop :=
  ∀ before reply after, action.Yields before reply after → Draws before after ∧
    ∀ cause, reply = .error cause → cause = .frameAllocationFailed ∧ after.frames.Exhausted

section Rules

variable {Value Result : Type} {before between after : AddressSpaces}
  {first : Fallible AddressSpaces MapError Value}
  {next : Value → Fallible AddressSpaces MapError Result}

theorem Draws.refl (spaces : AddressSpaces) : Draws spaces spaces :=
  ⟨.refl spaces.frames, rfl, rfl⟩

theorem Draws.trans (begun : Draws before between) (ended : Draws between after) :
    Draws before after where
  frames := begun.frames.trans ended.frames
  current := ended.current.trans begun.current
  kernel := ended.kernel.trans begun.kernel

theorem draining_pure {value : Value} :
    Draining (pure value : Fallible AddressSpaces MapError Value) := by
  intro before reply after run
  rcases Fallible.yields_pure.mp run with ⟨rfl, rfl⟩
  exact ⟨.refl _, nofun⟩

theorem draining_lift {action : Operation AddressSpaces Value}
    (keeps : ∀ before value after, action.Yields before value after → Draws before after) :
    Draining (liftM action : Fallible AddressSpaces MapError Value) := by
  intro before reply after run
  rcases Fallible.yields_lift.mp run with ⟨value, done, rfl⟩
  exact ⟨keeps before value after done, nofun⟩

theorem draining_bind (begun : Draining first) (ended : ∀ value, Draining (next value)) :
    Draining (first >>= next) := by
  intro before reply after run
  rcases Fallible.yields_bind.mp run with ⟨cause, refused, rfl⟩ | ⟨value, between, start, finish⟩
  · rcases begun before _ after refused with ⟨draws, refusal⟩
    exact ⟨draws, fun other same => refusal other (congrArg _ (Except.error.inj same))⟩
  · rcases ended value between reply after finish with ⟨draws, refusal⟩
    exact ⟨(begun before _ between start).1.trans draws, refusal⟩

/-- Along a sweep frames are taken by the body alone. -/
theorem draining_sweep {body : Nat → Fallible AddressSpaces MapError Unit}
    (step : ∀ number, Draining (body number)) (count first : Nat) :
    Draining (Fallible.sweep count first body) := by
  induction count generalizing first with
  | zero => exact draining_pure
  | succ count ih =>
      intro before reply after run
      rcases Fallible.yields_sweep_succ.mp run with
        ⟨cause, refused, rfl⟩ | ⟨between, begun, ended⟩
      · exact step first before _ after refused
      · rcases ih (first + 1) between reply after ended with ⟨draws, refusal⟩
        exact ⟨(step first before _ between begun).1.trans draws, refusal⟩

end Rules

section Requests

variable {directory : Directory} {index : Fin Layout.pageEntries}

theorem draining_takeFrame : Draining takeFrame := by
  rintro before reply after ⟨effects, run⟩
  rcases Fallible.bind_eq_ok.mp run with
    ⟨_, refused, -⟩ | ⟨found, between, early, late, begun, ended, rfl⟩
  · rcases Fallible.always_eq_ok.mp refused with ⟨found, -, impossible⟩
    cases impossible
  · rcases Fallible.always_eq_ok.mp begun with ⟨_, begun, same⟩
    cases same
    rcases Operation.within_eq_ok.mp begun with ⟨frames, allocated, rfl⟩
    rcases FrameBitmap.allocate_eq_ok allocated with ⟨rfl, ⟨rfl, rfl⟩ | ⟨some, one⟩⟩
    · have full := FrameBitmap.allocate_refused_iff.mp allocated
      cases ended
      exact ⟨.refl before, fun cause same => ⟨(Except.error.inj same).symm, full⟩⟩
    · rcases Option.isSome_iff_exists.mp some with ⟨frame, rfl⟩
      cases ended
      exact ⟨⟨one.draws, rfl, rfl⟩, nofun⟩

theorem draining_modifyMemory (change : Memory → Memory) :
    Draining (liftM (modifyMemory change) : Fallible AddressSpaces MapError Unit) :=
  draining_lift fun before _ _ run => by
    rw [yields_modifyMemory.mp run]
    exact ⟨.refl before.frames, rfl, rfl⟩

theorem draining_readEntry (frame : Frame) (index : Fin Layout.pageEntries) :
    Draining (liftM (readEntry frame index) : Fallible AddressSpaces MapError Entry) :=
  draining_lift fun before _ _ run => by
    rw [(yields_readEntry.mp run).2]
    exact .refl before

theorem draining_get : Draining (get : Fallible AddressSpaces MapError AddressSpaces) := by
  intro before reply after run
  rcases Fallible.yields_get.mp run with ⟨rfl, rfl⟩
  exact ⟨.refl _, nofun⟩

theorem draining_log (notice : Notice) :
    Draining (log notice : Fallible AddressSpaces MapError Unit) := by
  intro before reply after run
  rcases Fallible.yields_log.mp run with ⟨rfl, rfl⟩
  exact ⟨.refl _, nofun⟩

theorem draining_createDirectory : Draining createDirectory := by
  refine draining_bind draining_takeFrame fun frame => ?_
  exact draining_bind (draining_modifyMemory _) fun _ => draining_pure

theorem draining_writableTable : Draining (writableTable directory index) := by
  refine draining_bind (draining_readEntry _ _) fun entry => ?_
  cases entry.frame with
  | none => exact draining_pure
  | some table =>
      refine draining_bind draining_get fun spaces => ?_
      cases spaces.isShared directory index table with
      | false => exact draining_pure
      | true =>
          refine draining_bind draining_takeFrame fun copy => ?_
          refine draining_bind (draining_modifyMemory _) fun _ => ?_
          refine draining_bind (draining_readEntry _ _) fun entry => ?_
          refine draining_bind (draining_modifyMemory _) fun _ => ?_
          exact draining_bind (draining_log _) fun _ => draining_pure

theorem draining_tableFor (flags : PageFlags) : Draining (tableFor directory index flags) := by
  refine draining_bind draining_writableTable fun found => ?_
  cases found with
  | none =>
      refine draining_bind draining_takeFrame fun table => ?_
      exact draining_bind (draining_modifyMemory _) fun _ => draining_pure
  | some table =>
      cases user : flags.contains .user with
      | false => exact draining_pure
      | true =>
          refine draining_bind (draining_readEntry _ _) fun entry => ?_
          exact draining_bind (draining_modifyMemory _) fun _ => draining_pure

theorem draining_mapIn (virtual : VirtAddr) (physical : PhysAddr) (flags : PageFlags) :
    Draining (mapIn directory virtual physical flags) := by
  refine draining_bind (draining_tableFor flags) fun table => ?_
  refine draining_bind (draining_modifyMemory _) fun _ => draining_lift fun before _ _ run => ?_
  rw [yields_invalidateIn.mp run]
  exact .refl before

end Requests

section Shortage

variable {before after : AddressSpaces} {past : UInt32} {cause : MapError}

/-- What is left when there were not enough frames for the kernel's directory. -/
structure Starved (before after : AddressSpaces) : Prop where
  current : after.current = before.current
  kernel : after.kernel = before.kernel
  total : after.frames.totalFrames = before.frames.totalFrames
  reserved : after.frames.reservedFrames = before.frames.reservedFrames
  /-- Every tracked frame is used, also those that were free. -/
  used : after.frames.usedFrames = Finset.range before.frames.totalFrames
  counted : before.Founded → after.frames.freeFrames = 0
  /-- Nothing is lost just if there was nothing to lose. -/
  lossless : after.frames.usedFrames = before.frames.usedFrames ↔ before.frames.Exhausted
  unchanged : before.frames.Exhausted → after = before

/-- If no frame is free there is not even one for the directory. -/
theorem initKernelDirectory_exhausted (exhausted : before.frames.Exhausted) (past : UInt32) :
    (initKernelDirectory past).Yields before (.error .frameAllocationFailed) before := by
  have refused : (onFrames FrameBitmap.allocate).Yields before none before :=
    yields_onFrames.mpr ⟨before.frames, ⟨[], FrameBitmap.allocate_refused_iff.mpr exhausted⟩, rfl⟩
  simp [initKernelDirectory, createDirectory, takeFrame, refused.iff]

theorem draws_of_refused (run : (initKernelDirectory past).Yields before (.error cause) after) :
    Draws before after ∧ cause = .frameAllocationFailed ∧ after.frames.Exhausted := by
  rcases Fallible.yields_bind.mp run with ⟨_, refused, same⟩ | ⟨directory, made, begun, rest⟩
  · cases same
    rcases draining_createDirectory before _ after refused with ⟨draws, refusal⟩
    exact ⟨draws, refusal _ rfl⟩
  · have drawn := (draining_createDirectory before _ made begun).1
    rcases Fallible.yields_bind.mp rest with ⟨_, refused, same⟩ | ⟨_, mapped, -, finish⟩
    · cases same
      rcases draining_sweep (fun page => draining_mapIn _ _ _) _ _ made _ after refused with
        ⟨draws, refusal⟩
      exact ⟨drawn.trans draws, refusal _ rfl⟩
    · -- Once all pages are mapped nothing can go wrong.
      simp at finish

theorem starved_of_refused (run : (initKernelDirectory past).Yields before (.error cause) after) :
    cause = .frameAllocationFailed ∧ Starved before after := by
  rcases draws_of_refused run with ⟨draws, shortage, exhausted⟩
  have used : after.frames.usedFrames = Finset.range before.frames.totalFrames := by
    rw [FrameBitmap.exhausted_iff.mp exhausted, draws.frames.total]
  refine ⟨shortage, draws.current, draws.kernel, draws.frames.total, draws.frames.reserved, used,
    ?_, ?_, ?_⟩
  · intro founded
    rcases safe_initKernelDirectory past before founded with ⟨reply, final, ended, wellFormed⟩
    rcases run.unique ended with ⟨-, rfl⟩
    have all : ∀ number, after.frames.isSet number = true := by
      intro number
      by_cases tracked : number < after.frames.totalFrames
      · exact exhausted number tracked
      · exact wellFormed.beyond number (Nat.le_of_not_lt tracked)
    exact wellFormed.freeFrames_eq_zero all
  · rw [used, FrameBitmap.exhausted_iff, eq_comm]
  · intro full
    exact (run.unique (initKernelDirectory_exhausted full past)).2

/-- On whatever memory, the first directory of a kernel takes a frame for itself and one for each of
its tables, and is refused just if there are fewer. -/
theorem initKernelDirectory_refused_iff (founded : before.Founded) (noKernel : before.kernel = none)
    (past : UInt32) :
    (∃ after, (initKernelDirectory past).Yields before (.error .frameAllocationFailed) after) ↔
      before.frames.freeFrames ≤ tablesFor (past.toNat / Layout.frameSize) := by
  have nobody : before.Owned (before.frames.isSet · = true) [] [] :=
    ⟨founded, ⟨List.nodup_nil, nofun, nofun, by simp⟩, by simp [noKernel]⟩
  rcases nobody.initKernelDirectory past with
    ⟨cause, after, lost, refused, -, -, -, -, short⟩ | ⟨directory, after, made, building⟩
  · rw [(starved_of_refused refused).1] at refused
    exact iff_of_true ⟨after, refused⟩ (by omega)
  · have enough := building.free
    refine iff_of_false ?_ (by omega)
    rintro ⟨after, refused⟩
    cases (refused.unique made).1

/-- However many tables were made before the frames ran out, none is given back: when the kernel's
directory is refused, all frames that were free are lost. Only the counters that never change and
the directories that are active and the kernel's are as they were. -/
theorem initKernelDirectory_starves (before : AddressSpaces) (past : UInt32) :
    (before.Founded → ∃ reply after, (initKernelDirectory past).Yields before reply after) ∧
      ∀ cause after, (initKernelDirectory past).Yields before (.error cause) after →
        cause = .frameAllocationFailed ∧ Starved before after := by
  refine ⟨fun founded => ?_, fun cause after run => starved_of_refused run⟩
  rcases safe_initKernelDirectory past before founded with ⟨reply, after, run, -⟩
  exact ⟨reply, after, run⟩

/-- Of three free frames the directory takes one and two tables the others, and the third table
finds none. -/
theorem initKernelDirectory_starves_after_two_tables :
    ∃ after, (initKernelDirectory 0xC00000).Yields (ofFrames (.fresh 2051 2048))
        (.error .frameAllocationFailed) after ∧ after.frames.freeFrames = 0 ∧
      after.frames.usedFrames = Finset.range 2051 ∧ after.kernel = none := by
  have founded : (ofFrames (.fresh 2051 2048)).Founded :=
    FrameBitmap.wellFormed_fresh _ (by decide)
  rcases (initKernelDirectory_refused_iff founded rfl 0xC00000).mpr (by decide) with ⟨after, run⟩
  have starved := ((initKernelDirectory_starves _ _).2 _ _ run).2
  exact ⟨after, run, starved.counted founded, starved.used, starved.kernel⟩

/-- A single free frame is taken for the directory. There is none for a table, and the frame that
held the directory is not free any more. -/
theorem frame_lost_by_refusal :
    ∃ after, (initKernelDirectory 4096).Yields (ofFrames (.fresh 2049 2048))
        (.error .frameAllocationFailed) after ∧
      (ofFrames (.fresh 2049 2048)).frames.freeFrames = 1 ∧ after.frames.freeFrames = 0 ∧
      2048 ∉ (ofFrames (.fresh 2049 2048)).frames.usedFrames ∧
      2048 ∈ after.frames.usedFrames := by
  have founded : (ofFrames (.fresh 2049 2048)).Founded :=
    FrameBitmap.wellFormed_fresh _ (by decide)
  have wasUsed : (ofFrames (.fresh 2049 2048)).frames.usedFrames = Finset.range 2048 :=
    FrameBitmap.usedFrames_fresh (by decide)
  rcases (initKernelDirectory_refused_iff founded rfl 4096).mpr (by decide) with ⟨after, run⟩
  have starved := (starved_of_refused run).2
  refine ⟨after, run, rfl, starved.counted founded, ?_, ?_⟩
  · rw [wasUsed]
    exact Finset.notMem_range_self
  · rw [starved.used]
    exact Finset.mem_range.mpr (by decide)

end Shortage

end AddressSpaces

end KernelCore
