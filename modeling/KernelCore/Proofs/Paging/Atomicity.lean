import KernelCore.Proofs.Masking
import KernelCore.Proofs.Paging.Edits
import KernelCore.Proofs.Paging.Safety

/-!
# What a request for memory costs

A request that maps or unmaps a page, or makes an address space, takes at most one frame. All that
can be refused on the way is refused before anything is changed, whatever memory holds: also if
tables name each other, or the frame that is taken is already named somewhere. `Settles` says this
of an operation, and is proved step by step: first there are steps that only read, then one that may
be refused, and then only steps that are `Gratis`.
-/

namespace KernelCore

namespace Fallible

variable {State Cause Value Result : Type}

/-- A sequence has the effects of its first operation, and unless that is refused also those of the
second. -/
theorem bind_eq_ok {first : Fallible State Cause Value} {next : Value → Fallible State Cause Result}
    {before after : State} {reply : Except Cause Result} {effects : List Effect} :
    (first >>= next : Fallible State Cause Result) before = .ok ⟨reply, after, effects⟩ ↔
      (∃ cause, first before = .ok ⟨.error cause, after, effects⟩ ∧ reply = .error cause) ∨
        ∃ value between early late, first before = .ok ⟨.ok value, between, early⟩ ∧
          next value between = .ok ⟨reply, after, late⟩ ∧ effects = early ++ late := by
  change Operation.bind first _ before = _ ↔ _
  apply Operation.bind_eq_ok.trans
  constructor
  · rintro ⟨found, between, early, late, begun, ended, rfl⟩
    cases found with
    | error cause =>
        cases ended
        exact Or.inl ⟨cause, by rw [List.append_nil]; exact begun, rfl⟩
    | ok value => exact Or.inr ⟨value, between, early, late, begun, ended, rfl⟩
  · rintro (⟨cause, begun, rfl⟩ | ⟨value, between, early, late, begun, ended, rfl⟩)
    · exact ⟨.error cause, after, effects, [], begun, rfl, (List.append_nil effects).symm⟩
    · exact ⟨.ok value, between, early, late, begun, ended, rfl⟩

theorem always_eq_ok {action : Operation State Value} {before after : State}
    {reply : Except Cause Value} {effects : List Effect} :
    (always action : Fallible State Cause Value) before = .ok ⟨reply, after, effects⟩ ↔
      ∃ value, action before = .ok ⟨value, after, effects⟩ ∧ reply = .ok value := by
  change (Except.ok <$> action : Operation State (Except Cause Value)) before = _ ↔ _
  rw [map_eq_pure_bind, Operation.bind_eq_ok]
  constructor
  · rintro ⟨value, between, early, late, begun, ended, rfl⟩
    cases ended
    exact ⟨value, by rw [List.append_nil]; exact begun, rfl⟩
  · rintro ⟨value, begun, rfl⟩
    exact ⟨value, after, effects, [], begun, rfl, (List.append_nil effects).symm⟩

end Fallible

namespace FrameBitmap

/-- A frame that was free is used, and that is all that has changed. -/
def Spends (before after : FrameBitmap) : Prop :=
  ∃ number, before.isSet number = false ∧
    (∀ other, after.isSet other = (before.isSet other || decide (number = other))) ∧
    after.freeFrames + 1 = before.freeFrames ∧ after.totalFrames = before.totalFrames ∧
    after.reservedFrames = before.reservedFrames

variable {before after : FrameBitmap} {reply : Option Frame} {effects : List Effect}

theorem spends_of_take {number : Nat} (clear : before.isSet number = false)
    (done : take number before = .ok after) : Spends before after := by
  have bits := isSet_take done
  rcases before with ⟨total, free, reserved, words⟩
  by_cases enough : 1 ≤ free
  · simp only [take, Checked.sub, enough, if_true, bind, Except.bind, pure, Except.pure,
      Except.ok.injEq] at done
    subst done
    exact ⟨number, clear, bits, Nat.sub_add_cancel enough, rfl, rfl⟩
  · simp [take, Checked.sub, enough, bind, Except.bind] at done

/-- Whatever the bitmap holds, a request for a frame takes one, or it changes nothing. -/
theorem allocate_eq_ok (run : allocate before = .ok ⟨reply, after, effects⟩) :
    effects = [] ∧ (reply = none ∧ after = before ∨ reply.isSome ∧ Spends before after) := by
  cases found : before.firstClear with
  | none =>
      simp only [allocate, found, Except.ok.injEq, Outcome.mk.injEq] at run
      rcases run with ⟨rfl, rfl, rfl⟩
      exact ⟨rfl, Or.inl ⟨rfl, rfl⟩⟩
  | some number =>
      by_cases tracked : number < before.totalFrames
      · cases done : take number before with
        | error fault => simp [allocate, found, tracked, done] at run
        | ok taken =>
            simp only [allocate, found, tracked, done, if_true, Except.ok.injEq,
              Outcome.mk.injEq] at run
            rcases run with ⟨rfl, rfl, rfl⟩
            exact ⟨rfl, Or.inr ⟨rfl, spends_of_take (firstClear_eq_some found).1 done⟩⟩
      · simp only [allocate, found, tracked, if_false, Except.ok.injEq, Outcome.mk.injEq] at run
        rcases run with ⟨rfl, rfl, rfl⟩
        exact ⟨rfl, Or.inl ⟨rfl, rfl⟩⟩

end FrameBitmap

namespace AddressSpaces

/-- How an operation that needs a frame just if `spends` holds may come to an end. -/
inductive Settled (before : AddressSpaces) (spends : Prop) {Value : Type} :
    Except MapError Value → AddressSpaces → List Effect → Prop where
  /-- It is refused, nothing has changed, and nothing was told. -/
  | refused {cause : MapError} : Settled before spends (.error cause) before []
  /-- It has taken one frame. -/
  | spent {value : Value} {after : AddressSpaces} {effects : List Effect} (needed : spends)
      (one : before.frames.Spends after.frames) : Settled before spends (.ok value) after effects
  /-- It has taken none. -/
  | spared {value : Value} {after : AddressSpaces} {effects : List Effect} (unneeded : ¬spends)
      (kept : after.frames = before.frames) : Settled before spends (.ok value) after effects

/-- However the operation comes to an end, it is refused without a trace or has taken as many frames
as it needs. -/
def Settles {Value : Type} (action : Fallible AddressSpaces MapError Value)
    (before : AddressSpaces) (spends : Prop) : Prop :=
  ∀ reply after effects, action before = .ok ⟨reply, after, effects⟩ →
    Settled before spends reply after effects

/-- The operation is never refused, and takes no frame and gives none back. -/
def Gratis {Value : Type} (action : Fallible AddressSpaces MapError Value) : Prop :=
  ∀ before reply after, action.Yields before reply after →
    (∃ value, reply = .ok value) ∧ after.frames = before.frames

section Rules

variable {Value Result : Type} {first : Fallible AddressSpaces MapError Value}
  {next : Value → Fallible AddressSpaces MapError Result} {before : AddressSpaces} {spends : Prop}

theorem gratis_pure {value : Value} :
    Gratis (pure value : Fallible AddressSpaces MapError Value) := by
  intro before reply after run
  rcases Fallible.yields_pure.mp run with ⟨rfl, rfl⟩
  exact ⟨⟨value, rfl⟩, rfl⟩

theorem gratis_lift {action : Operation AddressSpaces Value}
    (keeps : ∀ before value after, action.Yields before value after →
      after.frames = before.frames) :
    Gratis (liftM action : Fallible AddressSpaces MapError Value) := by
  intro before reply after run
  rcases Fallible.yields_lift.mp run with ⟨value, done, rfl⟩
  exact ⟨⟨value, rfl⟩, keeps before value after done⟩

theorem gratis_bind (begun : Gratis first) (ended : ∀ value, Gratis (next value)) :
    Gratis (first >>= next) := by
  intro before reply after run
  rcases Fallible.yields_bind.mp run with ⟨cause, refused, rfl⟩ | ⟨value, between, start, finish⟩
  · rcases (begun before _ after refused).1 with ⟨value, impossible⟩
    cases impossible
  · rcases ended value between reply after finish with ⟨answers, frames⟩
    exact ⟨answers, frames.trans (begun before _ between start).2⟩

theorem gratis_modifyMemory (change : Memory → Memory) :
    Gratis (liftM (modifyMemory change) : Fallible AddressSpaces MapError Unit) :=
  gratis_lift fun before value after run => by rw [yields_modifyMemory.mp run]

theorem gratis_readEntry (frame : Frame) (index : Fin Layout.pageEntries) :
    Gratis (liftM (readEntry frame index) : Fallible AddressSpaces MapError Entry) :=
  gratis_lift fun before value after run => by rw [(yields_readEntry.mp run).2]

theorem gratis_invalidateIn (directory : Directory) (address : VirtAddr) :
    Gratis (liftM (invalidateIn directory address) : Fallible AddressSpaces MapError Unit) :=
  gratis_lift fun before value after run => by rw [yields_invalidateIn.mp run]

theorem settles_throw {cause : MapError} :
    Settles (throw cause : Fallible AddressSpaces MapError Value) before spends := by
  intro reply after effects run
  cases run
  exact .refused

theorem settles_pure {value : Value} (unneeded : ¬spends) :
    Settles (pure value : Fallible AddressSpaces MapError Value) before spends := by
  intro reply after effects run
  cases run
  exact .spared unneeded rfl

/-- Reading leaves everything as it is for what follows. -/
theorem settles_of_read {value : Value} (read : first before = .ok ⟨.ok value, before, []⟩)
    (rest : Settles (next value) before spends) : Settles (first >>= next) before spends := by
  intro reply after effects run
  rcases Fallible.bind_eq_ok.mp run with
    ⟨_, refused, -⟩ | ⟨found, between, early, late, begun, ended, rfl⟩
  · cases read.symm.trans refused
  · cases read.symm.trans begun
    exact rest reply after late ended

theorem settles_of_refused {cause : MapError}
    (refused : first before = .ok ⟨.error cause, before, []⟩) :
    Settles (first >>= next) before spends := by
  intro reply after effects run
  rcases Fallible.bind_eq_ok.mp run with ⟨_, again, rfl⟩ | ⟨_, _, _, _, begun, -⟩
  · cases refused.symm.trans again
    exact .refused
  · cases refused.symm.trans begun

/-- After the step that may be refused, nothing more may be, and no more frames be taken. -/
theorem Settles.bind (begun : Settles first before spends)
    (rest : ∀ value between, first.Yields before (.ok value) between → Gratis (next value)) :
    Settles (first >>= next) before spends := by
  intro reply after effects run
  rcases Fallible.bind_eq_ok.mp run with
    ⟨cause, refused, rfl⟩ | ⟨value, between, early, late, start, ended, rfl⟩
  · cases begun _ _ _ refused
    exact .refused
  · rcases rest value between ⟨early, start⟩ between reply after ⟨late, ended⟩ with
      ⟨⟨result, rfl⟩, frames⟩
    cases begun _ _ _ start with
    | spent needed one => exact .spent needed (frames ▸ one)
    | spared unneeded kept => exact .spared unneeded (frames.trans kept)

end Rules

section Requests

variable {before after : AddressSpaces} {directory : Directory} {index : Fin Layout.pageEntries}

/-- The directory names the table at the index that the kernel's directory names there. -/
def SharesTable (spaces : AddressSpaces) (directory : Directory) (index : Fin Layout.pageEntries) :
    Prop :=
  ∃ kernel table, spaces.kernel = some kernel ∧ kernel ≠ directory ∧
    spaces.tableFrame directory index = some table ∧ spaces.tableFrame kernel index = some table

/-- A table has to be made before the directory can be written at the index. -/
def LacksTable (spaces : AddressSpaces) (directory : Directory) (index : Fin Layout.pageEntries) :
    Prop :=
  spaces.tableFrame directory index = none ∨ spaces.SharesTable directory index

theorem sharesTable_iff {table : Frame} (named : before.tableFrame directory index = some table) :
    before.SharesTable directory index ↔ before.isShared directory index table = true := by
  rw [isShared_eq_true]
  constructor
  · rintro ⟨kernel, found, isKernel, differs, alsoNamed, theirs⟩
    cases named.symm.trans alsoNamed
    exact ⟨kernel, isKernel, differs, theirs⟩
  · rintro ⟨kernel, isKernel, differs, theirs⟩
    exact ⟨kernel, table, isKernel, differs, named, theirs⟩

/-- Whatever the bitmap holds, taking a frame changes nothing but the bitmap. -/
theorem settles_takeFrame : Settles takeFrame before True := by
  intro reply after effects run
  rcases Fallible.bind_eq_ok.mp run with
    ⟨_, refused, -⟩ | ⟨found, between, early, late, begun, ended, rfl⟩
  · rcases Fallible.always_eq_ok.mp refused with ⟨found, -, impossible⟩
    cases impossible
  · rcases Fallible.always_eq_ok.mp begun with ⟨_, begun, same⟩
    cases same
    rcases Operation.within_eq_ok.mp begun with ⟨frames, allocated, rfl⟩
    rcases FrameBitmap.allocate_eq_ok allocated with ⟨rfl, ⟨rfl, rfl⟩ | ⟨some, one⟩⟩
    · cases ended
      exact .refused
    · rcases Option.isSome_iff_exists.mp some with ⟨frame, rfl⟩
      cases ended
      exact .spent trivial one

theorem settles_createDirectory : Settles createDirectory before True := by
  refine settles_takeFrame.bind fun frame between _ => ?_
  exact gratis_bind (gratis_modifyMemory _) fun _ => gratis_pure

theorem settles_createProcessDirectory : Settles createProcessDirectory before True := by
  refine settles_createDirectory.bind fun directory between _ => ?_
  refine gratis_bind (gratis_lift fun _ _ _ run => by rw [(Operation.yields_get.mp run).2]) ?_
  intro spaces
  cases spaces.kernel with
  | none => exact gratis_pure
  | some root => exact gratis_bind (gratis_modifyMemory _) fun _ => gratis_pure

/-- The copy of a shared table is the only thing that takes a frame. -/
theorem settles_writableTable {table : Frame}
    (named : before.tableFrame directory index = some table) :
    Settles (writableTable directory index) before (before.SharesTable directory index) := by
  rw [sharesTable_iff named]
  refine settles_of_read rfl ?_
  have entryNames : (before.memory.entry directory.frame index).frame = some table := named
  rw [entryNames]
  refine settles_of_read rfl ?_
  cases shared : before.isShared directory index table with
  | false => exact settles_pure Bool.false_ne_true
  | true =>
      simp only [if_true]
      refine settles_takeFrame.bind fun copy between _ => ?_
      refine gratis_bind (gratis_modifyMemory _) fun _ => ?_
      refine gratis_bind (gratis_readEntry _ _) fun entry => ?_
      refine gratis_bind (gratis_modifyMemory _) fun _ => ?_
      refine gratis_bind (gratis_lift fun _ _ _ run => by rw [Operation.yields_log.mp run]) ?_
      exact fun _ => gratis_pure

/-- Where the directory names a table, there is one to write. -/
theorem writableTable_answers {table : Frame} {found : Option Frame}
    (named : before.tableFrame directory index = some table)
    (run : (writableTable directory index).Yields before (.ok found) after) :
    ∃ writable, found = some writable := by
  have entryNames : (before.memory.entry directory.frame index).frame = some table := named
  cases shared : before.isShared directory index table with
  | false =>
      have own : found = some table ∧ after = before := by
        simpa [writableTable, and_assoc, entryNames, shared] using run
      exact ⟨table, own.1⟩
  | true =>
      simp only [writableTable, Fallible.yields_bind, Fallible.yields_lift, yields_readEntry,
        and_assoc, exists_eq_left, entryNames, Fallible.yields_get, ↓existsAndEq, true_and, shared,
        ↓reduceIte, reduceCtorEq, false_and, and_false, exists_false, false_or, Except.ok.injEq,
        Fallible.yields_pure] at run
      grind

theorem settles_tableFor (flags : PageFlags) :
    Settles (tableFor directory index flags) before (before.LacksTable directory index) := by
  cases named : before.tableFrame directory index with
  | none =>
      have lacks : before.LacksTable directory index ↔ True := iff_true_intro (Or.inl named)
      have missing : writableTable directory index before = .ok ⟨.ok none, before, []⟩ := by
        have entryNames : (before.memory.entry directory.frame index).frame = none := named
        refine Fallible.bind_eq_ok.mpr (Or.inr ⟨_, before, [], [], rfl, ?_, rfl⟩)
        rw [entryNames]
        rfl
      rw [lacks]
      refine settles_of_read missing ?_
      refine settles_takeFrame.bind fun table between _ => ?_
      exact gratis_bind (gratis_modifyMemory _) fun _ => gratis_pure
  | some table =>
      have lacks : before.LacksTable directory index ↔ before.SharesTable directory index := by
        simp [LacksTable, named]
      rw [lacks]
      refine (settles_writableTable named).bind fun found between run => ?_
      rcases writableTable_answers named run with ⟨writable, rfl⟩
      by_cases user : flags.contains .user = true
      · simp only [user, if_true]
        refine gratis_bind (gratis_readEntry _ _) fun entry => ?_
        exact gratis_bind (gratis_modifyMemory _) fun _ => gratis_pure
      · simp only [user]
        exact gratis_pure

theorem settles_mapIn (virtual : VirtAddr) (physical : PhysAddr) (flags : PageFlags) :
    Settles (mapIn directory virtual physical flags) before
      (before.LacksTable directory virtual.directoryIndex) := by
  refine (settles_tableFor flags).bind fun table between _ => ?_
  exact gratis_bind (gratis_modifyMemory _) fun _ => gratis_invalidateIn _ _

/-- What is refused for want of a mapping is refused before the table is copied. -/
theorem settles_unmapIn (virtual : VirtAddr) :
    Settles (unmapIn directory virtual) before
      (before.SharesTable directory virtual.directoryIndex) := by
  refine settles_of_read rfl ?_
  cases translated : before.translateIn directory virtual with
  | none => exact settles_throw
  | some mapping =>
      rcases Option.bind_eq_some_iff.mp translated with ⟨table, named, -⟩
      refine (settles_writableTable named).bind fun found between run => ?_
      rcases writableTable_answers named run with ⟨writable, rfl⟩
      refine gratis_bind (gratis_readEntry _ _) fun entry => ?_
      refine gratis_bind (gratis_modifyMemory _) fun _ => ?_
      exact gratis_bind (gratis_invalidateIn _ _) fun _ => gratis_pure

/-- A request to the active address space is one to a directory, if there is one. -/
theorem settles_active {Value : Type} {action : Directory → Fallible AddressSpaces MapError Value}
    {spends : Directory → Prop} (settles : ∀ directory, Settles (action directory) before
      (spends directory)) :
    Settles (active >>= action) before
      (∃ directory, before.current = some directory ∧ spends directory) := by
  cases isActive : before.current with
  | none => exact settles_of_refused (Fallible.bind_eq_ok.mpr
      (Or.inr ⟨before, before, [], [], rfl, by rw [isActive]; rfl, rfl⟩))
  | some directory =>
      have spent : (∃ other, some directory = some other ∧ spends other) ↔ spends directory := by
        simp
      rw [spent]
      refine settles_of_read ?_ (settles directory)
      refine Fallible.bind_eq_ok.mpr (Or.inr ⟨before, before, [], [], rfl, ?_, rfl⟩)
      rw [isActive]
      rfl

end Requests

/-- The operation happens as a whole or not at all, and takes a frame just if it has to. On a
well-formed bitmap it cannot fault. -/
structure Atomic {Value : Type} (action : Fallible AddressSpaces MapError Value)
    (before : AddressSpaces) (spends : Prop) : Prop where
  ends : before.Founded → ∃ reply after, action.Yields before reply after
  settles : Settles action before spends

theorem Settles.atomic {Value : Type} {action : Fallible AddressSpaces MapError Value}
    {before : AddressSpaces} {spends : Prop} (settles : Settles action before spends)
    (safe : action.Safe Founded) : Atomic action before spends where
  ends founded := by
    rcases safe before founded with ⟨reply, after, run, -⟩
    exact ⟨reply, after, run⟩
  settles := settles

/-- Whatever memory and the bitmap hold, mapping, unmapping and making an address space happen as a
whole or not at all, and take at most one frame: for a table that is missing, for a copy of a table
that is shared, or for a directory. -/
theorem requests_atomic (before : AddressSpaces) :
    (∀ directory virtual physical flags, Atomic (mapIn directory virtual physical flags) before
      (before.tableFrame directory virtual.directoryIndex = none ∨
        before.SharesTable directory virtual.directoryIndex)) ∧
    (∀ virtual physical flags, Atomic (map virtual physical flags) before
      (∃ directory, before.current = some directory ∧
        (before.tableFrame directory virtual.directoryIndex = none ∨
          before.SharesTable directory virtual.directoryIndex))) ∧
    (∀ directory virtual, Atomic (unmapIn directory virtual) before
      (before.SharesTable directory virtual.directoryIndex)) ∧
    (∀ virtual, Atomic (unmap virtual) before
      (∃ directory, before.current = some directory ∧
        before.SharesTable directory virtual.directoryIndex)) ∧
    Atomic createDirectory before True ∧ Atomic createProcessDirectory before True := by
  refine ⟨?_, ?_, ?_, ?_, ?_, ?_⟩
  · intro directory virtual physical flags
    exact (settles_mapIn virtual physical flags).atomic (safe_mapIn _ _ _ _)
  · intro virtual physical flags
    refine (settles_active fun directory => settles_mapIn virtual physical flags).atomic ?_
    exact Fallible.safe_bind safe_active fun directory => safe_mapIn _ _ _ _
  · intro directory virtual
    exact (settles_unmapIn virtual).atomic (safe_unmapIn _ _)
  · intro virtual
    refine (settles_active fun directory => settles_unmapIn virtual).atomic ?_
    exact Fallible.safe_bind safe_active fun directory => safe_unmapIn _ _
  · exact settles_createDirectory.atomic safe_createDirectory
  · exact settles_createProcessDirectory.atomic safe_createProcessDirectory

end AddressSpaces

end KernelCore
