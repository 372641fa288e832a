import KernelCore.Proofs.Paging.Destruction

/-!
# Making and destroying address spaces

What happens to the address spaces of others when one is made or destroyed: nothing. A new
directory is put into a frame that was nobody's, and has no table for itself. When a directory is
destroyed, its own frame and the tables that it had for itself are given back, and all of them are
accepted.
-/

namespace KernelCore.AddressSpaces

/-- No directory or table of the owners was written. -/
def Untouched (before after : AddressSpaces) (owners : List Directory) : Prop :=
  ∀ frame ∈ owners.flatMap before.privateFrames,
    after.memory.table frame = before.memory.table frame

/-- A directory with the given contents was put into a free frame. -/
structure Created (before after : AddressSpaces) (directory : Directory) (contents : Table) :
    Prop where
  current : after.current = before.current
  kernel : after.kernel = before.kernel
  allocation : FrameBitmap.Allocation before.frames (some directory.frame) after.frames
  wellFormed : after.frames.WellFormed
  holds : after.memory.table directory.frame = contents
  elsewhere : ∀ frame, frame ≠ directory.frame →
    after.memory.table frame = before.memory.table frame

/-- What a new process's directory holds: what the kernel's does. -/
def template (spaces : AddressSpaces) : Table :=
  match spaces.kernel with
  | some kernel => spaces.memory.table kernel.frame
  | none => .zero

section Views

variable {before between after : AddressSpaces} {outside : Nat → Prop} {held : List Frame}
  {owners : List Directory} {directory : Directory} {index : Fin Layout.pageEntries}

namespace SameView

theorem refl (spaces : AddressSpaces) (directory : Directory) :
    SameView spaces spaces directory where
  tables _ := rfl
  owns _ := rfl
  pages _ := rfl

theorem trans (first : SameView before between directory)
    (second : SameView between after directory) : SameView before after directory where
  tables index := (second.tables index).trans (first.tables index)
  owns index := (second.owns index).trans (first.owns index)
  pages index := (second.pages index).trans (first.pages index)

theorem of_memory (memory : after.memory = before.memory) (kernel : after.kernel = before.kernel) :
    SameView before after directory where
  tables index := by rw [tableFrame, tableFrame, memory]
  owns index := by simp only [privateTable, isShared, tableFrame, memory, kernel]
  pages index := by simp only [pageTable, tableFrame, memory]

theorem translateIn_eq (same : SameView before after directory) (address : VirtAddr) :
    after.translateIn directory address = before.translateIn directory address :=
  translateIn_congr (same.pages address.directoryIndex)

end SameView

theorem Untouched.tableFrame (untouched : Untouched before after owners)
    (mem : directory ∈ owners) (index : Fin Layout.pageEntries) :
    after.tableFrame directory index = before.tableFrame directory index := by
  have same := untouched directory.frame
    (List.mem_flatMap.mpr ⟨directory, mem, frame_mem_privateFrames⟩)
  rw [AddressSpaces.tableFrame, AddressSpaces.tableFrame, Memory.entry, Memory.entry, same]

theorem Untouched.sameView (untouched : Untouched before after owners)
    (owned : before.Owned outside held owners) (kernel : after.kernel = before.kernel)
    (mem : directory ∈ owners) : SameView before after directory where
  tables := untouched.tableFrame mem
  owns index := by
    apply privateTable_congr (untouched.tableFrame mem index)
    intro table _
    apply isShared_congr kernel
    intro kernel isKernel _
    rw [untouched.tableFrame (owned.kernel kernel isKernel) index]
  pages index := by
    rw [pageTable, pageTable, untouched.tableFrame mem index]
    cases named : before.tableFrame directory index with
    | none => rfl
    | some table =>
        rcases owned.table_owner mem named with ⟨owner, ownerMem, -, -, tableMem, -⟩
        exact untouched table (List.mem_flatMap.mpr ⟨owner, ownerMem, tableMem⟩)

theorem flatMap_privateFrames_congr
    (same : ∀ directory ∈ owners, SameView before after directory) :
    owners.flatMap after.privateFrames = owners.flatMap before.privateFrames := by
  apply List.flatMap_congr
  intro directory mem
  exact privateFrames_congr (same directory mem).owns

theorem Untouched.owned (untouched : Untouched before after owners)
    (owned : before.Owned outside held owners) (kernel : after.kernel = before.kernel)
    (frames : after.frames = before.frames) : after.Owned outside held owners where
  wellFormed := frames ▸ owned.wellFormed
  accounts := by
    rw [flatMap_privateFrames_congr fun _ mem => untouched.sameView owned kernel mem, frames]
    exact owned.accounts
  kernel directory isKernel := owned.kernel directory (kernel ▸ isKernel)

end Views

namespace Created

variable {before after : AddressSpaces} {outside : Nat → Prop} {held : List Frame}
  {owners : List Directory} {directory : Directory} {contents : Table}

theorem untouched (created : Created before after directory contents)
    (owned : before.Owned outside held owners) : Untouched before after owners := by
  intro frame mem
  apply created.elsewhere
  rintro rfl
  exact owned.accounts.fresh created.allocation (List.mem_append_right _ mem)

/-- A directory that names no tables but the kernel's has only its own frame for itself. -/
theorem owned (created : Created before after directory contents)
    (owned : before.Owned outside held owners)
    (shares : ∀ (index : Fin Layout.pageEntries) table,
      (getElem contents index index.isLt).frame = some table →
      ∃ kernel, before.kernel = some kernel ∧ before.tableFrame kernel index = some table) :
    after.Owned outside held (directory :: owners) := by
  have untouched := created.untouched owned
  have differs : ∀ other ∈ owners, other ≠ directory := by
    rintro other otherMem rfl
    exact (owned.fresh created.allocation otherMem).1 rfl
  have alone : after.privateFrames directory = [directory.frame] := by
    have none_private : ∀ index, after.privateTable directory index = none := by
      intro index
      apply Option.eq_none_iff_forall_ne_some.mpr
      intro table isPrivate
      rcases privateTable_eq_some.mp isPrivate with ⟨named, unshared⟩
      have entry : contents[index].frame = some table := by
        rw [← created.holds]
        exact named
      rcases shares index table entry with ⟨kernel, isKernel, kernelNames⟩
      have kernelMem := owned.kernel kernel isKernel
      rw [← untouched.tableFrame kernelMem index] at kernelNames
      rw [← created.kernel] at isKernel
      rw [isShared_eq_true.mpr ⟨kernel, isKernel, differs kernel kernelMem, kernelNames⟩]
        at unshared
      exact Bool.noConfusion unshared
    rw [privateFrames_eq, List.filterMap_eq_nil_iff.mpr fun index _ => none_private index,
      List.nil_append]
  refine ⟨created.wellFormed, ?_, ?_⟩
  · rw [List.flatMap_cons, alone, flatMap_privateFrames_congr fun _ mem =>
      untouched.sameView owned created.kernel mem]
    exact (owned.accounts.take created.allocation).perm List.perm_middle.symm
  · intro kernel isKernel
    rw [created.kernel] at isKernel
    exact List.mem_cons_of_mem _ (owned.kernel kernel isKernel)

end Created

section Making

variable {spaces : AddressSpaces}

theorem createDirectory_cases (wellFormed : spaces.frames.WellFormed) :
    (createDirectory.Yields spaces (.error .frameAllocationFailed) spaces ∧
      ∀ number, spaces.frames.isSet number = true) ∨
      ∃ directory after, createDirectory.Yields spaces (.ok directory) after ∧
        Created spaces after directory .zero := by
  rcases takeFrame_cases wellFormed with
    ⟨refused, full⟩ | ⟨frame, frames, taken, allocation, wellFormed⟩
  · left
    refine ⟨?_, full⟩
    simp [createDirectory, refused.iff]
  · right
    let memory := spaces.memory.setTable frame .zero
    refine ⟨⟨frame⟩, { spaces with frames, memory }, ?_, rfl, rfl, allocation, wellFormed, ?_, ?_⟩
    · simp [createDirectory, taken.iff, and_assoc, memory]
    · simp [memory, Memory.table_setTable]
    · intro other differs
      exact Memory.table_setTable_ne _ _ _ _ (Ne.symm differs)

/-- A process's directory is put into a free frame, so the kernel's must be in a used one to be
copied. -/
theorem createProcessDirectory_cases (wellFormed : spaces.frames.WellFormed)
    (used : ∀ kernel, spaces.kernel = some kernel →
      spaces.frames.isSet kernel.frame.number.val = true) :
    (createProcessDirectory.Yields spaces (.error .frameAllocationFailed) spaces ∧
      ∀ number, spaces.frames.isSet number = true) ∨
      ∃ directory after, createProcessDirectory.Yields spaces (.ok directory) after ∧
        Created spaces after directory spaces.template := by
  rcases createDirectory_cases wellFormed with
    ⟨refused, full⟩ | ⟨directory, between, begun, created⟩
  · left
    refine ⟨?_, full⟩
    simp [createProcessDirectory, refused.iff]
  · right
    cases isKernel : spaces.kernel with
    | none =>
        have noKernel : between.kernel = none := created.kernel.trans isKernel
        refine ⟨directory, between, ?_, ?_⟩
        · simp [createProcessDirectory, begun.iff, and_assoc, noKernel]
        · rw [template, isKernel]
          exact created
    | some kernel =>
        have sameKernel : between.kernel = some kernel := created.kernel.trans isKernel
        have apart : kernel.frame ≠ directory.frame := by
          intro same
          have clear := created.allocation.was_free
          rw [← same, used kernel isKernel] at clear
          cases clear
        let memory := between.memory.setTable directory.frame (spaces.memory.table kernel.frame)
        refine ⟨directory, { between with memory }, ?_, created.current, created.kernel,
          created.allocation, created.wellFormed, ?_, ?_⟩
        · simp [createProcessDirectory, begun.iff, and_assoc, sameKernel, memory,
            created.elsewhere kernel.frame apart]
        · simp [memory, Memory.table_setTable, template, isKernel]
        · intro frame differs
          rw [← created.elsewhere frame differs]
          exact Memory.table_setTable_ne _ _ _ _ (Ne.symm differs)

end Making

namespace Owned

variable {spaces : AddressSpaces} {outside : Nat → Prop} {held : List Frame}
  {owners : List Directory} {directory : Directory}

theorem createDirectory (owned : spaces.Owned outside held owners) :
    (AddressSpaces.createDirectory.Yields spaces (.error .frameAllocationFailed) spaces ∧
      ∀ number, spaces.frames.isSet number = true) ∨
      ∃ directory after, AddressSpaces.createDirectory.Yields spaces (.ok directory) after ∧
        Created spaces after directory .zero ∧ after.Owned outside held (directory :: owners) := by
  rcases createDirectory_cases owned.wellFormed with refused | ⟨directory, after, run, created⟩
  · exact Or.inl refused
  · refine Or.inr ⟨directory, after, run, created, created.owned owned ?_⟩
    intro index table named
    simp at named

theorem createProcessDirectory (owned : spaces.Owned outside held owners) :
    (AddressSpaces.createProcessDirectory.Yields spaces (.error .frameAllocationFailed) spaces ∧
      ∀ number, spaces.frames.isSet number = true) ∨
      ∃ directory after,
        AddressSpaces.createProcessDirectory.Yields spaces (.ok directory) after ∧
        Created spaces after directory spaces.template ∧
        after.Owned outside held (directory :: owners) := by
  have used : ∀ kernel, spaces.kernel = some kernel →
      spaces.frames.isSet kernel.frame.number.val = true :=
    fun kernel isKernel => (owned.separate (owned.kernel kernel isKernel)).used
  rcases createProcessDirectory_cases owned.wellFormed used with
    refused | ⟨directory, after, run, created⟩
  · exact Or.inl refused
  · refine Or.inr ⟨directory, after, run, created, created.owned owned ?_⟩
    intro index table named
    cases isKernel : spaces.kernel with
    | none => simp [template, isKernel] at named
    | some kernel =>
        rw [template, isKernel] at named
        exact ⟨kernel, rfl, named⟩

/-- Destroying an address space gives back exactly the frames that it had for itself. -/
theorem destroyDirectory (owned : spaces.Owned outside held (directory :: owners))
    (notKernel : spaces.kernel ≠ some directory) :
    ∃ after, (AddressSpaces.destroyDirectory directory).Yields spaces (.ok ()) after ∧
      after.Owned outside held owners ∧ after.memory = spaces.memory ∧
      after.kernel = spaces.kernel ∧
      (∀ frame ∈ spaces.privateFrames directory,
        after.frames.isSet frame.number.val = false) ∧
      after.current =
        if spaces.current = some directory then spaces.kernel else spaces.current := by
  have accounts : spaces.frames.Accounts outside
      (spaces.privateFrames directory ++ (held ++ owners.flatMap spaces.privateFrames)) := by
    have listed := owned.accounts
    rw [List.flatMap_cons] at listed
    exact listed.perm (List.perm_append_comm_assoc _ _ _)
  rcases accounts.freeEach _ owned.wellFormed with
    ⟨replies, frames, calls, granted, wellFormed, accountsAfter, total⟩
  have run := yields_destroyDirectory calls
  rw [granted] at run
  refine ⟨_, run, ⟨wellFormed, ?_, ?_⟩, rfl, rfl,
    fun frame gone => accounts.clear accountsAfter total gone, rfl⟩
  · rw [flatMap_privateFrames_congr fun _ _ => SameView.of_memory rfl rfl]
    exact accountsAfter
  · intro owner isKernel
    rcases List.mem_cons.mp (owned.kernel owner isKernel) with rfl | mem
    · exact absurd isKernel notKernel
    · exact mem

/-- If there is no kernel yet, making an owner the kernel changes nobody's view. -/
theorem sameView_setKernel (owned : spaces.Owned outside held owners) (mem : directory ∈ owners)
    (noKernel : spaces.kernel = none) {owner : Directory} (ownerMem : owner ∈ owners) :
    SameView spaces { spaces with kernel := some directory } owner := by
  have unshared : ∀ owner index table, spaces.isShared owner index table = false := by
    intro owner index table
    simp [isShared, noKernel]
  refine ⟨fun _ => rfl, ?_, fun _ => rfl⟩
  intro index
  refine privateTable_congr rfl ?_
  intro table named
  rw [unshared]
  apply Bool.of_not_eq_true
  intro shared
  rcases isShared_eq_true.mp shared with ⟨kernel, isKernel, differs, kernelNames⟩
  simp only [Option.some.injEq] at isKernel
  subst isKernel
  -- Without a kernel the table would have two owners.
  exact owned.frame_notMem mem ownerMem differs
    (mem_privateFrames.mpr (Or.inl ⟨index, kernelNames, unshared _ _ _⟩))
    (mem_privateFrames.mpr (Or.inl ⟨index, named, unshared _ _ _⟩))

theorem setKernel (owned : spaces.Owned outside held owners) (mem : directory ∈ owners)
    (noKernel : spaces.kernel = none) :
    ({ spaces with kernel := some directory } : AddressSpaces).Owned outside held owners where
  wellFormed := owned.wellFormed
  accounts := by
    rw [flatMap_privateFrames_congr fun _ ownerMem =>
      owned.sameView_setKernel mem noKernel ownerMem]
    exact owned.accounts
  kernel kernel isKernel := by
    simp only [Option.some.injEq] at isKernel
    exact isKernel ▸ mem

end Owned

section Kernel

variable {before now : AddressSpaces} {outside : Nat → Prop} {held : List Frame}
  {owners : List Directory} {directory : Directory} {pages : Nat}

/-- How many tables it takes to map so many pages from the first on. -/
def tablesFor (pages : Nat) : Nat :=
  (pages + (Layout.pageEntries - 1)) / Layout.pageEntries

theorem tablesFor_succ (pages : Nat) : tablesFor (pages + 1) = pages / Layout.pageEntries + 1 := by
  simp only [tablesFor, Layout.pageEntries]
  omega

theorem tablesFor_bounds (pages : Nat) :
    pages / Layout.pageEntries ≤ tablesFor pages ∧
      tablesFor pages ≤ pages / Layout.pageEntries + 1 := by
  simp only [tablesFor, Layout.pageEntries]
  omega

/-- The first pages are mapped in a new directory, and nobody else has noticed. -/
structure Building (before now : AddressSpaces) (outside : Nat → Prop) (held : List Frame)
    (owners : List Directory) (directory : Directory) (pages : Nat) : Prop where
  owned : now.Owned outside held (directory :: owners)
  notKernel : before.kernel ≠ some directory
  kernel : now.kernel = before.kernel
  current : now.current = before.current
  views : ∀ other ∈ owners, SameView before now other
  free : now.frames.freeFrames + tablesFor pages + 1 = before.frames.freeFrames
  tables : ∀ index, now.privateTable directory index = none ↔ tablesFor pages ≤ index.val

/-- The kernel maps a page to the frame with the same address. -/
def pageAddress (page : Nat) : UInt32 :=
  UInt32.ofNat (page * Layout.frameSize)

theorem toNat_pageAddress {page : Nat} (small : page < 2 ^ 20) :
    (pageAddress page).toNat = page * Layout.frameSize :=
  UInt32.toNat_ofNat_of_lt' (by change page * 4096 < 2 ^ 32; omega)

theorem directoryIndex_pageAddress {page : Nat} (small : page < 2 ^ 20) :
    (VirtAddr.directoryIndex ⟨pageAddress page⟩).val = page / Layout.pageEntries := by
  have size : Layout.frameSize = 4096 := rfl
  rw [VirtAddr.directoryIndex, Fin.val_ofNat, toNat_pageAddress small, size]
  change page * 4096 / 2 ^ 22 % 1024 = page / 1024
  omega

/-- Mapping the next page takes a frame if it is the first page of its table, and is refused only if
there is none. -/
theorem Building.step (building : Building before now outside held owners directory pages)
    (small : pages < 2 ^ 20) (flags : PageFlags) :
    (∃ after,
      (mapIn directory ⟨pageAddress pages⟩ ⟨pageAddress pages⟩ flags).Yields now (.ok ()) after ∧
        Building before after outside held owners directory (pages + 1)) ∨
      ((mapIn directory ⟨pageAddress pages⟩ ⟨pageAddress pages⟩ flags).Yields now
          (.error .frameAllocationFailed) now ∧
        now.frames.freeFrames = 0 ∧ tablesFor pages < tablesFor (pages + 1)) := by
  have owned := building.owned
  have position := directoryIndex_pageAddress small
  have mem : directory ∈ directory :: owners := List.mem_cons_self
  have next := tablesFor_succ pages
  have ⟨least, most⟩ := tablesFor_bounds pages
  rcases (owned.separate mem).mapIn ⟨pageAddress pages⟩ ⟨pageAddress pages⟩ flags with
    ⟨refused, missing, full⟩ | ⟨table, after, run, edit⟩
  · right
    rw [building.tables, position] at missing
    exact ⟨refused, owned.wellFormed.freeFrames_eq_zero full, by omega⟩
  · left
    have notKernel : now.kernel ≠ some directory := building.kernel ▸ building.notKernel
    refine ⟨after, run, edit.owned owned mem, building.notKernel,
      edit.kernel.trans building.kernel, edit.current.trans building.current, ?_, ?_, ?_⟩
    · intro other otherMem
      have differs : other ≠ directory := by
        rintro rfl
        exact (List.nodup_cons.mp owned.nodup_owners).1 otherMem
      exact (building.views other otherMem).trans
        (edit.sameView owned mem (List.mem_cons_of_mem _ otherMem) differs notKernel)
    · have free := building.free
      -- A table of the directory's own is there already; any other is new and costs a frame.
      rcases edit.source with ⟨named, unshared, frames⟩ | ⟨allocation, -, shared⟩
      · have present : now.privateTable directory (VirtAddr.directoryIndex ⟨pageAddress pages⟩) ≠
            none := by
          rw [privateTable_eq_some.mpr ⟨named, unshared⟩]
          exact Option.some_ne_none _
        rw [ne_eq, building.tables, position] at present
        rw [frames]
        omega
      · have missing := privateTable_eq_none_of_shared shared
        rw [building.tables, position] at missing
        cases allocation with
        | taken tracked clear least bits fewer total reserved => omega
    · intro index
      by_cases here : index = VirtAddr.directoryIndex ⟨pageAddress pages⟩
      · rw [here, edit.privateTable_edited owned mem, position, next]
        simp
      · have apart : index.val ≠ pages / Layout.pageEntries := by
          intro same
          exact here (Fin.ext (same.trans position.symm))
        rw [edit.privateTable_sibling owned mem here, building.tables]
        omega

theorem Created.building (created : Created before now directory .zero)
    (owned : before.Owned outside held owners)
    (ownedNow : now.Owned outside held (directory :: owners)) :
    Building before now outside held owners directory 0 where
  owned := ownedNow
  notKernel isKernel := (owned.fresh created.allocation (owned.kernel directory isKernel)).1 rfl
  kernel := created.kernel
  current := created.current
  views other otherMem := (created.untouched owned).sameView owned created.kernel otherMem
  free := by
    cases created.allocation with
    | taken tracked clear least bits fewer total reserved => exact fewer
  tables index := by
    have missing : now.tableFrame directory index = none := by
      rw [tableFrame, Memory.entry, created.holds]
      simp
    have zero : tablesFor 0 = 0 := rfl
    simp [privateTable, missing, zero]

/-- The kernel's directory maps the pages it is to map, or there were not enough frames, and then
nobody notices but by the frames that are lost. -/
theorem Owned.initKernelDirectory (owned : before.Owned outside held owners) (past : UInt32) :
    (∃ cause after lost,
      (AddressSpaces.initKernelDirectory past).Yields before (.error cause) after ∧
        after.Owned outside held (lost ++ owners) ∧ after.kernel = before.kernel ∧
        after.current = before.current ∧ (∀ other ∈ owners, SameView before after other) ∧
        before.frames.freeFrames < tablesFor (past.toNat / Layout.frameSize) + 1) ∨
      ∃ directory after,
        (AddressSpaces.initKernelDirectory past).Yields before (.ok directory)
            { after with kernel := some directory } ∧
          Building before after outside held owners directory (past.toNat / Layout.frameSize) := by
  rcases owned.createDirectory with
    ⟨refused, full⟩ | ⟨directory, between, begun, created, ownedBetween⟩
  · left
    refine ⟨.frameAllocationFailed, before, [], ?_, owned, rfl, rfl,
      fun other _ => SameView.refl before other, ?_⟩
    · simp [AddressSpaces.initKernelDirectory, refused.iff]
    · rw [owned.wellFormed.freeFrames_eq_zero full]
      omega
  · have small : past.toNat / Layout.frameSize ≤ 2 ^ 20 := by
      have size : Layout.frameSize = 4096 := rfl
      have bound := past.toNat_lt
      rw [size]
      omega
    have step : ∀ pages now, pages < past.toNat / Layout.frameSize →
        Building before now outside held owners directory pages →
        (∃ after, (AddressSpaces.mapIn directory ⟨pageAddress pages⟩ ⟨pageAddress pages⟩
            (PageFlags.present.union .writable)).Yields now (.ok ()) after ∧
          Building before after outside held owners directory (pages + 1)) ∨
        ∃ cause after, (AddressSpaces.mapIn directory ⟨pageAddress pages⟩ ⟨pageAddress pages⟩
            (PageFlags.present.union .writable)).Yields now (.error cause) after ∧
          ∃ pages, pages < past.toNat / Layout.frameSize ∧
            Building before after outside held owners directory pages ∧
            after.frames.freeFrames = 0 ∧ tablesFor pages < tablesFor (pages + 1) := by
      intro pages now below building
      rcases building.step (Nat.lt_of_lt_of_le below small) (PageFlags.present.union .writable)
        with done | ⟨refused, noneLeft, more⟩
      · exact Or.inl done
      · exact Or.inr ⟨_, now, refused, pages, below, building, noneLeft, more⟩
    rcases Fallible.yields_sweep step (past.toNat / Layout.frameSize) 0 (Nat.zero_add _)
        (created.building owned ownedBetween) with
      ⟨after, run, building⟩ | ⟨cause, after, run, pages, below, building, noneLeft, more⟩
    · right
      refine ⟨directory, after, ?_, building⟩
      refine Fallible.yields_bind.mpr (Or.inr ⟨directory, between, begun, ?_⟩)
      refine Fallible.yields_bind.mpr (Or.inr ⟨(), after, run, ?_⟩)
      simp
    · left
      refine ⟨cause, after, [directory], ?_, building.owned, building.kernel, building.current,
        building.views, ?_⟩
      · refine Fallible.yields_bind.mpr (Or.inr ⟨directory, between, begun, ?_⟩)
        exact Fallible.yields_bind.mpr (Or.inl ⟨cause, run, rfl⟩)
      · have free := building.free
        have monotone : tablesFor (pages + 1) ≤ tablesFor (past.toNat / Layout.frameSize) :=
          Nat.div_le_div_right (Nat.add_le_add_right below _)
        omega

theorem Owned.of_initKernelDirectory (owned : before.Owned outside held owners)
    (noKernel : before.kernel = none) {past : UInt32} {after : AddressSpaces}
    (run : (AddressSpaces.initKernelDirectory past).Yields before (.ok directory) after) :
    after.Owned outside held (directory :: owners) ∧ after.kernel = some directory ∧
      after.current = before.current := by
  rcases owned.initKernelDirectory past with
    ⟨cause, spaces, lost, refused, -⟩ | ⟨made, spaces, done, building⟩
  · cases (run.unique refused).1
  · rcases run.unique done with ⟨same, rfl⟩
    rw [Except.ok.injEq] at same
    subst same
    exact ⟨building.owned.setKernel List.mem_cons_self (building.kernel.trans noKernel), rfl,
      building.current⟩

end Kernel

end KernelCore.AddressSpaces
