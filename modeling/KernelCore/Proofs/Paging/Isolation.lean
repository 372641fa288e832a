import KernelCore.Proofs.Paging.Directories

/-!
# Isolation of address spaces

What users of the address spaces can rely on, whatever has been done before. A `Tenancy` keeps the
directories that were made and not yet destroyed, and a `Run` is a sequence of calls that use only
those, destroy the kernel's directory never, make it at most once, and leave directories and tables
to the calls that are meant for them. Frames may be taken, freed and written for other purposes at
any time.
-/

namespace KernelCore

open AddressSpaces

/-- Address spaces, and the directories that are in use. -/
structure Tenancy where
  spaces : AddressSpaces
  live : List Directory

namespace Tenancy

/-- What may be asked of the address spaces, and what may be done to frames beside them. -/
inductive Call where
  | createDirectory
  | initKernelDirectory (past : UInt32)
  | createProcessDirectory
  | mapIn (directory : Directory) (virtual : VirtAddr) (physical : PhysAddr) (flags : PageFlags)
  | unmapIn (directory : Directory) (virtual : VirtAddr)
  | switchTo (directory : Directory)
  | destroyDirectory (directory : Directory)
  | takeFrame
  | freeFrame (frame : Frame)
  | writeFrame (frame : Frame) (contents : Table)

/-- No directory yet, on memory that may hold anything. -/
def fresh (frames : FrameBitmap) (memory : Memory) : Tenancy :=
  { spaces := { frames, memory, current := none, kernel := none }, live := [] }

/-- Does an operation on the address spaces. -/
def onSpaces {Value : Type} (action : Operation AddressSpaces Value) : Operation Tenancy Value :=
  action.within (fun ⟨spaces, live⟩ => (spaces, live)) Tenancy.mk

/-- Makes a directory, which is in use from then on. -/
def create (action : Fallible AddressSpaces MapError Directory) : Operation Tenancy Unit := do
  if let .ok directory ← onSpaces action.result then
    modify fun tenancy => { tenancy with live := directory :: tenancy.live }

/-- Does what is called for, whether it is refused or not. -/
def Call.act : Call → Operation Tenancy Unit
  | .createDirectory => create AddressSpaces.createDirectory
  | .initKernelDirectory past => create (AddressSpaces.initKernelDirectory past)
  | .createProcessDirectory => create AddressSpaces.createProcessDirectory
  | .mapIn directory virtual physical flags =>
      discard (onSpaces (AddressSpaces.mapIn directory virtual physical flags).result)
  | .unmapIn directory virtual =>
      discard (onSpaces (AddressSpaces.unmapIn directory virtual).result)
  | .switchTo directory => onSpaces (AddressSpaces.switchTo directory)
  | .destroyDirectory directory => do
      discard (onSpaces (AddressSpaces.destroyDirectory directory).result)
      modify fun tenancy => { tenancy with live := tenancy.live.erase directory }
  | .takeFrame => discard (onSpaces (onFrames FrameBitmap.allocate))
  | .freeFrame frame => discard (onSpaces (onFrames (FrameBitmap.free frame).result))
  | .writeFrame frame contents => onSpaces (modifyMemory (Memory.setTable frame contents))

/-- Whether a call is addressed to the contents of a directory, or destroys it. -/
def Call.Changes (directory : Directory) : Call → Prop
  | .mapIn target _ _ _ => target = directory
  | .unmapIn target _ => target = directory
  | .destroyDirectory target => target = directory
  | _ => False

/-- Whether a frame holds a directory that is in use, or one of its tables. -/
def Structural (tenancy : Tenancy) (frame : Frame) : Prop :=
  ∃ directory ∈ tenancy.live,
    frame = directory.frame ∨ ∃ index, tenancy.spaces.tableFrame directory index = some frame

/-- Whether users keep to the rules with a call. -/
def Permitted (tenancy : Tenancy) : Call → Prop
  | .createDirectory => True
  | .initKernelDirectory past =>
      tenancy.spaces.kernel = none ∨ ∀ directory after,
        ¬(AddressSpaces.initKernelDirectory past).Yields tenancy.spaces (.ok directory) after
  | .createProcessDirectory => True
  | .mapIn directory _ _ _ => directory ∈ tenancy.live
  | .unmapIn directory _ => directory ∈ tenancy.live
  | .switchTo directory => directory ∈ tenancy.live
  | .destroyDirectory directory =>
      directory ∈ tenancy.live ∧ tenancy.spaces.kernel ≠ some directory
  | .takeFrame => True
  | .freeFrame frame => ¬tenancy.Structural frame
  | .writeFrame frame _ => ¬tenancy.Structural frame

/-- Where a sequence of permitted calls leads. -/
inductive Run : Tenancy → List Call → Tenancy → Prop where
  | nil {tenancy : Tenancy} : Run tenancy [] tenancy
  | cons {start between final : Tenancy} {call : Call} {rest : List Call}
      (permitted : start.Permitted call) (step : call.act.Yields start () between)
      (onward : Run between rest final) : Run start (call :: rest) final

/-- No two directories in use have a frame in common that is not the kernel's. -/
def Isolated (tenancy : Tenancy) : Prop :=
  ∃ outside, tenancy.spaces.Owned outside [] tenancy.live

/-- The directory is still in use, and the tables that it had for itself are what they were. -/
structure Kept (before after : Tenancy) (directory : Directory) : Prop where
  live : directory ∈ after.live
  owns : ∀ index table, before.spaces.privateTable directory index = some table →
    after.spaces.privateTable directory index = some table
  pages : ∀ index, before.spaces.privateTable directory index ≠ none →
    after.spaces.pageTable directory index = before.spaces.pageTable directory index

section Calls

variable {tenancy before between after : Tenancy} {directory : Directory}

theorem yields_onSpaces {Value : Type} {action : Operation AddressSpaces Value} {value : Value} :
    (onSpaces action).Yields before value after ↔
      ∃ spaces, action.Yields before.spaces value spaces ∧
        after = { spaces, live := before.live } :=
  Operation.yields_within

theorem yields_discard_onSpaces {Value : Type} {action : Operation AddressSpaces Value}
    {value : Value} {spaces : AddressSpaces} (run : action.Yields before.spaces value spaces) :
    (discard (onSpaces action)).Yields before () { spaces, live := before.live } :=
  Operation.yields_discard (yields_onSpaces.mpr ⟨spaces, run, rfl⟩)

/-- A directory that was destroyed is no longer in use, whatever was answered. -/
theorem yields_destroy {reply : Except FrameError Unit} {spaces : AddressSpaces}
    (run : (AddressSpaces.destroyDirectory directory).Yields before.spaces reply spaces) :
    (Call.destroyDirectory directory).act.Yields before ()
      { spaces, live := before.live.erase directory } := by
  have released : (discard (onSpaces (AddressSpaces.destroyDirectory directory).result)).Yields
      before () { spaces, live := before.live } := yields_discard_onSpaces run
  simp [Call.act, released.iff]

theorem kept_of_sameView {spaces : AddressSpaces} {live : List Directory} (mem : directory ∈ live)
    (same : SameView before.spaces spaces directory) :
    Kept before { spaces, live } directory where
  live := mem
  owns index _ own := (same.owns index).trans own
  pages index _ := same.pages index

theorem Kept.trans (first : Kept before between directory) (second : Kept between after directory) :
    Kept before after directory where
  live := second.live
  owns index table own := second.owns index table (first.owns index table own)
  pages index own := by
    rcases Option.ne_none_iff_exists'.mp own with ⟨table, named⟩
    have still : between.spaces.privateTable directory index ≠ none := by
      rw [first.owns index table named]
      exact Option.some_ne_none table
    exact (second.pages index still).trans (first.pages index own)

theorem notMem_of_not_structural {frame : Frame} (other : ¬tenancy.Structural frame) :
    frame ∉ tenancy.live.flatMap tenancy.spaces.privateFrames := by
  intro mem
  rcases List.mem_flatMap.mp mem with ⟨directory, live, mine⟩
  apply other
  rcases mem_privateFrames.mp mine with ⟨index, named, -⟩ | isFrame
  · exact ⟨directory, live, Or.inr ⟨index, named⟩⟩
  · exact ⟨directory, live, Or.inl isFrame⟩

theorem yields_create_ok {action : Fallible AddressSpaces MapError Directory}
    {spaces : AddressSpaces} (run : action.Yields tenancy.spaces (.ok directory) spaces) :
    (create action).Yields tenancy () { spaces, live := directory :: tenancy.live } := by
  have begun : (onSpaces action.result).Yields tenancy (.ok directory)
      { spaces, live := tenancy.live } := yields_onSpaces.mpr ⟨spaces, run, rfl⟩
  simp [create, begun.iff, and_assoc]

theorem create_step {action : Fallible AddressSpaces MapError Directory}
    (outcome : (∃ cause spaces, action.Yields tenancy.spaces (.error cause) spaces ∧
        (∃ outside, spaces.Owned outside [] tenancy.live) ∧
        ∀ other ∈ tenancy.live, SameView tenancy.spaces spaces other) ∨
      ∃ directory spaces, action.Yields tenancy.spaces (.ok directory) spaces ∧
        (∃ outside, spaces.Owned outside [] (directory :: tenancy.live)) ∧
        ∀ other ∈ tenancy.live, SameView tenancy.spaces spaces other) :
    ∃ after, (create action).Yields tenancy () after ∧ after.Isolated ∧
      ∀ other ∈ tenancy.live, Kept tenancy after other := by
  rcases outcome with ⟨cause, spaces, run, owned, views⟩ | ⟨directory, spaces, run, owned, views⟩
  · have begun : (onSpaces action.result).Yields tenancy (.error cause)
        { spaces, live := tenancy.live } := yields_onSpaces.mpr ⟨spaces, run, rfl⟩
    refine ⟨{ spaces, live := tenancy.live }, ?_, owned, fun other live =>
      kept_of_sameView live (views other live)⟩
    simp [create, begun.iff, and_assoc]
  · exact ⟨{ spaces, live := directory :: tenancy.live }, yields_create_ok run, owned,
      fun other live => kept_of_sameView (List.mem_cons_of_mem _ live) (views other live)⟩

theorem edit_step {Value : Type} {action : Fallible AddressSpaces MapError Value}
    (isolated : tenancy.Isolated) (mem : directory ∈ tenancy.live)
    (edits : Edits action tenancy.spaces directory) :
    ∃ after, (discard (onSpaces action.result)).Yields tenancy () after ∧ after.Isolated ∧
      ∀ other ∈ tenancy.live, directory ≠ other → Kept tenancy after other := by
  rcases isolated with ⟨outside, owned⟩
  rcases edits with ⟨cause, run⟩ | ⟨value, spaces, index, table, contents, run, edit⟩
  · refine ⟨tenancy, yields_discard_onSpaces run, ⟨outside, owned⟩, fun other live _ => ?_⟩
    exact kept_of_sameView live (SameView.refl tenancy.spaces other)
  · refine ⟨{ spaces, live := tenancy.live }, yields_discard_onSpaces run,
      ⟨outside, edit.owned owned mem⟩, fun other live differs => ?_⟩
    refine ⟨live, ?_, ?_⟩
    · intro place found own
      rw [edit.privateTable_of_ne owned mem live differs.symm]
      exact own
    · intro place own
      apply edit.pageTable_of_ne owned mem live differs.symm
      intro named
      rcases edit.kernel_of_named owned mem live differs.symm named with ⟨isKernel, kernelNames⟩
      apply own
      apply privateTable_eq_none_of_shared
      intro found foundNamed
      rw [named, Option.some.injEq] at foundNamed
      exact isShared_eq_true.mpr ⟨directory, isKernel, differs, foundNamed ▸ kernelNames⟩

/-- A call that changes no view, whatever becomes of other frames. -/
theorem quiet_step {Value : Type} {action : Operation AddressSpaces Value} {value : Value}
    (spaces : AddressSpaces) {outside : Nat → Prop}
    (run : action.Yields tenancy.spaces value spaces)
    (owned : spaces.Owned outside [] tenancy.live)
    (views : ∀ other ∈ tenancy.live, SameView tenancy.spaces spaces other) :
    ∃ after, (onSpaces action).Yields tenancy value after ∧ after.Isolated ∧
      ∀ other ∈ tenancy.live, Kept tenancy after other :=
  ⟨{ spaces, live := tenancy.live }, yields_onSpaces.mpr ⟨spaces, run, rfl⟩, ⟨outside, owned⟩,
    fun other live => kept_of_sameView live (views other live)⟩

theorem initKernelDirectory_step (isolated : tenancy.Isolated) (past : UInt32)
    (permitted : tenancy.Permitted (.initKernelDirectory past)) :
    ∃ after, (create (AddressSpaces.initKernelDirectory past)).Yields tenancy () after ∧
      after.Isolated ∧ ∀ other ∈ tenancy.live, Kept tenancy after other := by
  rcases isolated with ⟨outside, owned⟩
  apply create_step
  rcases owned.initKernelDirectory past with
    ⟨cause, spaces, lost, run, lossy, kernel, -, views, -⟩ | ⟨directory, spaces, run, building⟩
  · left
    refine ⟨cause, spaces, run, lossy.disown lost ?_, views⟩
    intro owner isKernel
    exact owned.kernel owner (kernel ▸ isKernel)
  · right
    rcases permitted with noKernel | refused
    · have stillNone : spaces.kernel = none := building.kernel.trans noKernel
      refine ⟨directory, _, run,
        ⟨outside, building.owned.setKernel List.mem_cons_self stillNone⟩, ?_⟩
      intro other live
      exact (building.views other live).trans (building.owned.sameView_setKernel
        List.mem_cons_self stillNone (List.mem_cons_of_mem _ live))
    · exact absurd run (refused _ _)

theorem destroyDirectory_step (isolated : tenancy.Isolated) (mem : directory ∈ tenancy.live)
    (notKernel : tenancy.spaces.kernel ≠ some directory) :
    ∃ after, (Call.destroyDirectory directory).act.Yields tenancy () after ∧ after.Isolated ∧
      ∀ other ∈ tenancy.live, directory ≠ other → Kept tenancy after other := by
  rcases isolated with ⟨outside, owned⟩
  rcases (owned.perm (List.perm_cons_erase mem)).destroyDirectory notKernel with
    ⟨spaces, run, ownedAfter, memory, kernel, -⟩
  refine ⟨{ spaces, live := tenancy.live.erase directory }, yields_destroy run,
    ⟨outside, ownedAfter⟩, ?_⟩
  intro other live differs
  exact kept_of_sameView ((List.mem_erase_of_ne differs.symm).mpr live)
    (SameView.of_memory memory kernel)

theorem takeFrame_step (isolated : tenancy.Isolated) :
    ∃ after, Call.takeFrame.act.Yields tenancy () after ∧ after.Isolated ∧
      ∀ other ∈ tenancy.live, Kept tenancy after other := by
  rcases isolated with ⟨outside, owned⟩
  rcases owned.wellFormed.allocate with ⟨reply, frames, run, allocation, wellFormed⟩
  have taken : (onFrames FrameBitmap.allocate).Yields tenancy.spaces reply
      { tenancy.spaces with frames } := yields_onFrames.mpr ⟨frames, run, rfl⟩
  have accounts : ∃ elsewhere, frames.Accounts elsewhere
      ([] ++ tenancy.live.flatMap tenancy.spaces.privateFrames) := by
    cases reply with
    | none =>
        cases allocation
        exact ⟨outside, owned.accounts⟩
    | some frame => exact ⟨_, (owned.accounts.take allocation).disown [frame]⟩
  rcases accounts with ⟨elsewhere, accounts⟩
  rcases quiet_step _ taken (owned.withFrames wellFormed accounts)
      (fun _ _ => SameView.of_memory rfl rfl) with ⟨after, begun, rest⟩
  exact ⟨after, Operation.yields_discard begun, rest⟩

theorem freeFrame_step (isolated : tenancy.Isolated) {frame : Frame}
    (other : ¬tenancy.Structural frame) :
    ∃ after, (Call.freeFrame frame).act.Yields tenancy () after ∧ after.Isolated ∧
      ∀ other ∈ tenancy.live, Kept tenancy after other := by
  rcases isolated with ⟨outside, owned⟩
  rcases owned.wellFormed.free frame with ⟨reply, frames, run, release, wellFormed⟩
  have freed : (onFrames (FrameBitmap.free frame).result).Yields tenancy.spaces reply
      { tenancy.spaces with frames } := yields_onFrames.mpr ⟨frames, run, rfl⟩
  rcases owned.accounts.releaseOutside (notMem_of_not_structural other) release with
    ⟨elsewhere, accounts⟩
  rcases quiet_step _ freed (owned.withFrames wellFormed accounts)
      (fun _ _ => SameView.of_memory rfl rfl) with ⟨after, begun, rest⟩
  exact ⟨after, Operation.yields_discard begun, rest⟩

theorem writeFrame_step (isolated : tenancy.Isolated) {frame : Frame}
    (other : ¬tenancy.Structural frame) (contents : Table) :
    ∃ after, (Call.writeFrame frame contents).act.Yields tenancy () after ∧ after.Isolated ∧
      ∀ other ∈ tenancy.live, Kept tenancy after other := by
  rcases isolated with ⟨outside, owned⟩
  let spaces : AddressSpaces :=
    { tenancy.spaces with memory := tenancy.spaces.memory.setTable frame contents }
  have untouched : Untouched tenancy.spaces spaces tenancy.live := by
    intro mine mem
    apply Memory.table_setTable_ne
    rintro rfl
    exact notMem_of_not_structural other mem
  refine quiet_step spaces ?_ (untouched.owned owned rfl rfl)
    fun other live => untouched.sameView owned rfl live
  simp [spaces]

/-- A permitted call does not fault, and keeps directories isolated. What a directory has for itself
is not changed by calls that are not addressed to it. -/
theorem Call.act_isolated (call : Call) (isolated : tenancy.Isolated)
    (permitted : tenancy.Permitted call) :
    ∃ after, call.act.Yields tenancy () after ∧ after.Isolated ∧
      ∀ other ∈ tenancy.live, ¬call.Changes other → Kept tenancy after other := by
  have unaddressed : ∀ {action : Operation Tenancy Unit} {changes : Directory → Prop},
      (∃ after, action.Yields tenancy () after ∧ after.Isolated ∧
        ∀ other ∈ tenancy.live, Kept tenancy after other) →
      ∃ after, action.Yields tenancy () after ∧ after.Isolated ∧
        ∀ other ∈ tenancy.live, ¬changes other → Kept tenancy after other := by
    rintro action changes ⟨after, run, isolatedAfter, kept⟩
    exact ⟨after, run, isolatedAfter, fun other live _ => kept other live⟩
  have ⟨outside, owned⟩ := isolated
  cases call with
  | createDirectory =>
      refine unaddressed (create_step ?_)
      rcases owned.createDirectory with ⟨refused, -⟩ | ⟨directory, spaces, run, created, ownedAfter⟩
      · exact Or.inl ⟨_, _, refused, ⟨outside, owned⟩, fun other _ => SameView.refl _ other⟩
      · exact Or.inr ⟨directory, spaces, run, ⟨outside, ownedAfter⟩, fun other live =>
          (created.untouched owned).sameView owned created.kernel live⟩
  | initKernelDirectory past =>
      exact unaddressed (initKernelDirectory_step isolated past permitted)
  | createProcessDirectory =>
      refine unaddressed (create_step ?_)
      rcases owned.createProcessDirectory with
        ⟨refused, -⟩ | ⟨directory, spaces, run, created, ownedAfter⟩
      · exact Or.inl ⟨_, _, refused, ⟨outside, owned⟩, fun other _ => SameView.refl _ other⟩
      · exact Or.inr ⟨directory, spaces, run, ⟨outside, ownedAfter⟩, fun other live =>
          (created.untouched owned).sameView owned created.kernel live⟩
  | mapIn directory virtual physical flags =>
      exact edit_step isolated permitted (owned.edits_mapIn permitted virtual physical flags)
  | unmapIn directory virtual =>
      exact edit_step isolated permitted (owned.edits_unmapIn permitted virtual)
  | switchTo directory =>
      refine unaddressed (quiet_step { tenancy.spaces with current := some directory } ?_
        ⟨owned.wellFormed, owned.accounts, owned.kernel⟩ fun _ _ => SameView.of_memory rfl rfl)
      simp [AddressSpaces.switchTo]
  | destroyDirectory directory =>
      exact destroyDirectory_step isolated permitted.1 permitted.2
  | takeFrame => exact unaddressed (takeFrame_step isolated)
  | freeFrame frame => exact unaddressed (freeFrame_step isolated permitted)
  | writeFrame frame contents =>
      exact unaddressed (writeFrame_step isolated permitted contents)

end Calls

section Runs

variable {tenancy final : Tenancy} {directory : Directory}

theorem isolated_fresh {frames : FrameBitmap} (wellFormed : frames.WellFormed) (memory : Memory) :
    (fresh frames memory).Isolated := by
  refine ⟨fun number => frames.isSet number = true, wellFormed, ⟨List.nodup_nil, ?_, ?_, ?_⟩, ?_⟩
  · intro frame mem
    exact absurd mem List.not_mem_nil
  · intro frame mem
    exact absurd mem List.not_mem_nil
  · intro number _
    simp [fresh]
  · intro kernel isKernel
    cases isKernel

theorem wellFormed_of_reset {totalBytes : Nat} {reservedEnd : UInt32}
    {reply : Except FrameError Unit} {frames : FrameBitmap}
    (begun : (FrameBitmap.reset totalBytes reservedEnd).Yields .empty reply frames) :
    frames.WellFormed := by
  rcases FrameBitmap.reset_cases .empty totalBytes reservedEnd with ⟨-, done⟩ | ⟨-, refused⟩
  · rw [(begun.unique done).2]
    apply FrameBitmap.wellFormed_fresh
    exact Nat.div_le_div_right (Nat.min_le_right _ _)
  · rw [(begun.unique refused).2]
    exact FrameBitmap.wellFormed_empty

theorem isolated_of_reset {totalBytes : Nat} {reservedEnd : UInt32}
    {reply : Except FrameError Unit} {frames : FrameBitmap} (memory : Memory)
    (begun : (FrameBitmap.reset totalBytes reservedEnd).Yields .empty reply frames) :
    (fresh frames memory).Isolated :=
  isolated_fresh (wellFormed_of_reset begun) memory

theorem Run.isolated {calls : List Call} (run : Run tenancy calls final)
    (isolated : tenancy.Isolated) : final.Isolated := by
  induction run with
  | nil => exact isolated
  | cons permitted step onward ih =>
      rename_i start between final call rest
      rcases call.act_isolated isolated permitted with ⟨after, begun, isolatedAfter, -⟩
      rcases step.unique begun with ⟨-, rfl⟩
      exact ih isolatedAfter

theorem Run.append {between : Tenancy} {calls more : List Call} (first : Run tenancy calls between)
    (second : Run between more final) : Run tenancy (calls ++ more) final := by
  induction first with
  | nil => exact second
  | cons permitted step onward ih => exact .cons permitted step (ih second)

/-- What a directory has for itself stays as it is until a call is addressed to the directory. -/
theorem Run.kept {calls : List Call} (run : Run tenancy calls final)
    (isolated : tenancy.Isolated) (live : directory ∈ tenancy.live)
    (others : ∀ call ∈ calls, ¬call.Changes directory) : Kept tenancy final directory := by
  induction run with
  | nil => exact ⟨live, fun _ _ own => own, fun _ _ => rfl⟩
  | cons permitted step onward ih =>
      rename_i start between final call rest
      rcases call.act_isolated isolated permitted with ⟨after, begun, isolatedAfter, kept⟩
      rcases step.unique begun with ⟨-, rfl⟩
      have first := kept directory live (others call List.mem_cons_self)
      exact first.trans (ih isolatedAfter first.live fun call mem =>
        others call (List.mem_cons_of_mem _ mem))

end Runs

section Views

variable {Value : Type} {spaces : AddressSpaces} {outside : Nat → Prop}
  {owners : List Directory} {directory : Directory}

/-- Two directories name the same table at an index. -/
def Shares (spaces : AddressSpaces) (left right : Directory) (index : Fin Layout.pageEntries) :
    Prop :=
  ∃ table, spaces.tableFrame left index = some table ∧ spaces.tableFrame right index = some table

theorem Shares.translateIn_eq {left right : Directory} {address : VirtAddr}
    (shares : Shares spaces left right address.directoryIndex) :
    spaces.translateIn left address = spaces.translateIn right address := by
  rcases shares with ⟨table, leftNames, rightNames⟩
  apply translateIn_congr
  rw [pageTable, pageTable, leftNames, rightNames]

/-- A request that is addressed to a directory and does not fault leaves what is asked of the
result. -/
def Ensures (action : Fallible AddressSpaces MapError Value) (spaces : AddressSpaces)
    (result : AddressSpaces → Prop) : Prop :=
  ∃ reply after, action.Yields spaces reply after ∧ result after

/-- All other directories translate every address as before. -/
def Unseen (live : List Directory) (directory : Directory) (before after : AddressSpaces) : Prop :=
  ∀ other ∈ live, other ≠ directory → ∀ address,
    after.translateIn other address = before.translateIn other address

/-- A directory translates an address as before unless it names the kernel's table there, and then
it translates the address as the kernel does. -/
def SeenByShares (live : List Directory) (kernel : Directory) (before after : AddressSpaces) :
    Prop :=
  ∀ other ∈ live, ∀ address,
    (after.translateIn other address ≠ before.translateIn other address →
      Shares after other kernel address.directoryIndex ∧
        (other ≠ kernel → Shares before other kernel address.directoryIndex)) ∧
      (Shares after other kernel address.directoryIndex →
        after.translateIn other address = after.translateIn kernel address)

theorem ensures_of_edit {action : Fallible AddressSpaces MapError Value}
    {result : AddressSpaces → Prop} (edits : Edits action spaces directory)
    (refused : result spaces)
    (edited : ∀ after index table contents, Edit spaces after directory index table contents →
      result after) : Ensures action spaces result := by
  rcases edits with ⟨cause, run⟩ | ⟨value, after, index, table, contents, run, edit⟩
  · exact ⟨.error cause, spaces, run, refused⟩
  · exact ⟨.ok value, after, run, edited after index table contents edit⟩

/-- Only the kernel's own view and views of its tables change when its directory is edited. -/
theorem seenByShares_of_edit {after : AddressSpaces} {index : Fin Layout.pageEntries}
    {table : Frame} {contents : Table} (owned : spaces.Owned outside [] owners)
    (isKernel : spaces.kernel = some directory)
    (edit : Edit spaces after directory index table contents) :
    SeenByShares owners directory spaces after := by
  have mem := owned.kernel directory isKernel
  have siblings : ∀ place, place ≠ index →
      after.tableFrame directory place = spaces.tableFrame directory place := by
    intro place differs
    exact congrArg Entry.frame (edit.siblings place differs)
  intro other otherMem address
  refine ⟨?_, Shares.translateIn_eq⟩
  intro changed
  by_cases same : other = directory
  -- The kernel sees a change only where it has a table, and it names that table itself.
  · subst same
    refine ⟨?_, fun differs => absurd rfl differs⟩
    cases named : after.tableFrame other address.directoryIndex with
    | some found => exact ⟨found, named, named⟩
    | none =>
        exfalso
        apply changed
        have elsewhere : address.directoryIndex ≠ index := by
          intro here
          rw [here, edit.names] at named
          cases named
        have missing := (siblings _ elsewhere).symm.trans named
        apply translateIn_congr
        rw [pageTable, pageTable, named, missing]
  · have named : spaces.tableFrame other address.directoryIndex = some table := by
      apply Classical.byContradiction
      intro notTable
      exact changed (translateIn_congr (edit.pageTable_of_ne owned mem otherMem same notTable))
    have kernelNames := (edit.kernel_of_named owned mem otherMem same named).2
    refine ⟨⟨table, ?_, ?_⟩, fun _ => ⟨table, named, kernelNames⟩⟩
    · rw [edit.tableFrame_of_ne owned mem otherMem same, named]
    · by_cases here : address.directoryIndex = index
      · rw [here, edit.names]
      · rw [siblings _ here, kernelNames]

theorem unseen_of_edits {action : Fallible AddressSpaces MapError Value}
    (owned : spaces.Owned outside [] owners) (mem : directory ∈ owners)
    (notKernel : spaces.kernel ≠ some directory) (edits : Edits action spaces directory) :
    Ensures action spaces (Unseen owners directory spaces) := by
  refine ensures_of_edit edits (fun _ _ _ _ => rfl) ?_
  intro after index table contents edit other otherMem differs address
  exact (edit.sameView owned mem otherMem differs notKernel).translateIn_eq address

theorem seenByShares_of_edits {action : Fallible AddressSpaces MapError Value}
    (owned : spaces.Owned outside [] owners) (isKernel : spaces.kernel = some directory)
    (edits : Edits action spaces directory) :
    Ensures action spaces (SeenByShares owners directory spaces) := by
  apply ensures_of_edit edits
  · intro other _ address
    exact ⟨fun changed => absurd rfl changed, Shares.translateIn_eq⟩
  · intro after index table contents edit
    exact seenByShares_of_edit owned isKernel edit

end Views

/-- Whatever permitted calls were made: none that is still permitted faults; what is mapped or
unmapped in a directory that is not the kernel's is not seen in any other; what is mapped or
unmapped in the kernel's is seen by those that name its table, as the kernel sees it, and by no
others; and a table that a directory has for itself is not changed but by calls addressed to that
directory. -/
theorem isolation {totalBytes : Nat} {reservedEnd : UInt32} {reply : Except FrameError Unit}
    {frames : FrameBitmap} {memory : Memory} {calls : List Call} {tenancy : Tenancy}
    (begun : (FrameBitmap.reset totalBytes reservedEnd).Yields .empty reply frames)
    (run : Run (fresh frames memory) calls tenancy) :
    (∀ call, tenancy.Permitted call → ∃ after, call.act.Yields tenancy () after) ∧
      (∀ directory ∈ tenancy.live, tenancy.spaces.kernel ≠ some directory →
        (∀ virtual physical flags,
          Ensures (AddressSpaces.mapIn directory virtual physical flags) tenancy.spaces
            (Unseen tenancy.live directory tenancy.spaces)) ∧
        ∀ virtual, Ensures (AddressSpaces.unmapIn directory virtual) tenancy.spaces
          (Unseen tenancy.live directory tenancy.spaces)) ∧
      (∀ kernel, tenancy.spaces.kernel = some kernel →
        (∀ virtual physical flags,
          Ensures (AddressSpaces.mapIn kernel virtual physical flags) tenancy.spaces
            (SeenByShares tenancy.live kernel tenancy.spaces)) ∧
        ∀ virtual, Ensures (AddressSpaces.unmapIn kernel virtual) tenancy.spaces
          (SeenByShares tenancy.live kernel tenancy.spaces)) ∧
      ∀ directory ∈ tenancy.live, ∀ index table,
        tenancy.spaces.privateTable directory index = some table →
        ∀ more final, Run tenancy more final → (∀ call ∈ more, ¬call.Changes directory) →
          directory ∈ final.live ∧ final.spaces.privateTable directory index = some table ∧
          ∀ address : VirtAddr, address.directoryIndex = index →
            final.spaces.translateIn directory address =
              tenancy.spaces.translateIn directory address := by
  have isolated := run.isolated (isolated_of_reset memory begun)
  have ⟨outside, owned⟩ := isolated
  refine ⟨?_, ?_, ?_, ?_⟩
  · intro call permitted
    rcases call.act_isolated isolated permitted with ⟨after, run, -⟩
    exact ⟨after, run⟩
  · intro directory live notKernel
    refine ⟨?_, ?_⟩
    · intro virtual physical flags
      exact unseen_of_edits owned live notKernel (owned.edits_mapIn live virtual physical flags)
    · intro virtual
      exact unseen_of_edits owned live notKernel (owned.edits_unmapIn live virtual)
  · intro kernel isKernel
    have live := owned.kernel kernel isKernel
    refine ⟨?_, ?_⟩
    · intro virtual physical flags
      exact seenByShares_of_edits owned isKernel (owned.edits_mapIn live virtual physical flags)
    · intro virtual
      exact seenByShares_of_edits owned isKernel (owned.edits_unmapIn live virtual)
  · intro directory live index table own more final onward others
    have kept := onward.kept isolated live others
    refine ⟨kept.live, kept.owns index table own, ?_⟩
    rintro address rfl
    apply translateIn_congr
    apply kept.pages
    rw [own]
    exact Option.some_ne_none table

/-- A kernel that maps 4 MiB, and a process directory that still shares its table. -/
theorem isolation_of_copy :
    ∃ frames kernel process tenancy,
      (FrameBitmap.reset 0xC00000 0x800000).Yields .empty (.ok ()) frames ∧
      Run (fresh frames .zero) [.initKernelDirectory 0x400000, .createProcessDirectory] tenancy ∧
      tenancy.live = [process, kernel] ∧ tenancy.spaces.kernel = some kernel ∧
      process ≠ kernel ∧
      ∀ virtual physical flags,
        Ensures (AddressSpaces.mapIn process virtual physical flags) tenancy.spaces
          (Unseen [process, kernel] process tenancy.spaces) := by
  have begun : (FrameBitmap.reset 0xC00000 0x800000).Yields .empty (.ok ())
      (FrameBitmap.fresh 3072 2048) := by
    rcases FrameBitmap.reset_cases .empty 0xC00000 0x800000 with ⟨-, done⟩ | ⟨small, -⟩
    · exact done
    · exact absurd small (by decide)
  have small : 3072 ≤ Layout.maxFrames := by decide
  have isolated := isolated_fresh (FrameBitmap.wellFormed_fresh 2048 small) .zero
  rcases isolated with ⟨outside, owned⟩
  rcases owned.initKernelDirectory 0x400000 with
    ⟨cause, spaces, lost, -, -, -, -, -, short⟩ | ⟨kernel, spaces, made, building⟩
  · exact absurd short (by decide)
  · have ownedKernel := building.owned.setKernel List.mem_cons_self building.kernel
    rcases ownedKernel.createProcessDirectory with
      ⟨-, full⟩ | ⟨process, after, copied, created, ownedAfter⟩
    · have none_free : spaces.frames.freeFrames = 0 :=
        building.owned.wellFormed.freeFrames_eq_zero full
      have free := building.free
      rw [none_free] at free
      exact absurd free (by decide)
    · have run : Run (fresh (FrameBitmap.fresh 3072 2048) .zero)
          [.initKernelDirectory 0x400000, .createProcessDirectory]
          { spaces := after, live := [process, kernel] } :=
        .cons (Or.inl rfl) (yields_create_ok made) (.cons trivial (yields_create_ok copied) .nil)
      have isKernel : after.kernel = some kernel := created.kernel
      have differs : process ≠ kernel := by
        rintro rfl
        exact (List.nodup_cons.mp ownedAfter.nodup_owners).1 List.mem_cons_self
      have notKernel : after.kernel ≠ some process := by
        rw [isKernel]
        exact fun same => differs (Option.some.inj same).symm
      rcases isolation begun run with ⟨-, isolated, -⟩
      exact ⟨_, kernel, process, _, begun, run, rfl, isKernel, differs,
        (isolated process List.mem_cons_self notKernel).1⟩

end Tenancy

end KernelCore
