import KernelCore.Proofs.Paging.Coherence

/-!
# Permissions on the way to a page

The processor grants an access to a page only if the directory's entry grants it as well as the
page's own, while `translateIn` reports the flags of the page alone. `Permissive` says of an index
of a directory that its entry grants what pages below it do. What happens to an address space keeps
it so, with one exception: a page for users that is entered in a table of the kernel's raises the
entry of the kernel's directory, but not those of other directories that name the table.
-/

namespace KernelCore

namespace AddressSpaces

/-- The entry of a directory at an index grants what pages below it do: it can be written through,
and it lets users through if a page for users is mapped below it, unless there is an excuse. -/
structure Permissive (spaces : AddressSpaces) (directory : Directory)
    (index : Fin Layout.pageEntries) (excused : Prop) : Prop where
  writable : spaces.tableFrame directory index ≠ none →
    (spaces.memory.entry directory.frame index).flags.contains .writable = true
  user : ∀ place : Fin Layout.pageEntries,
    (getElem (spaces.pageTable directory index) place place.isLt).frame ≠ none →
    (getElem (spaces.pageTable directory index) place place.isLt).flags.contains .user = true →
      (spaces.memory.entry directory.frame index).flags.contains .user = true ∨ excused

section Entries

variable {spaces after : AddressSpaces} {outside : Nat → Prop} {held : List Frame}
  {owners : List Directory} {directory : Directory} {index : Fin Layout.pageEntries}
  {table : Frame} {flags : PageFlags}

/-- The entry of a directory at an index grants what it did and what a page asks for, and no
more. -/
structure Raised (before after : AddressSpaces) (directory : Directory)
    (index : Fin Layout.pageEntries) (flags : PageFlags) : Prop where
  writable : (before.tableFrame directory index ≠ none →
      (before.memory.entry directory.frame index).flags.contains .writable = true) →
    (after.memory.entry directory.frame index).flags.contains .writable = true
  user : (after.memory.entry directory.frame index).flags.contains .user = true ↔
    flags.contains .user = true ∨ before.tableFrame directory index ≠ none ∧
      (before.memory.entry directory.frame index).flags.contains .user = true

theorem Raised.congr {edited : AddressSpaces} (raised : Raised spaces after directory index flags)
    (same : edited.memory.entry directory.frame index =
      after.memory.entry directory.frame index) : Raised spaces edited directory index flags where
  writable was := same ▸ raised.writable was
  user := same ▸ raised.user

namespace Owned

theorem writableTable_keeps (owned : spaces.Owned outside held owners) (mem : directory ∈ owners)
    (run : (AddressSpaces.writableTable directory index).Yields spaces (.ok (some table)) after)
    {flag : PageFlags} (isBit : flag.IsBit) :
    (after.memory.entry directory.frame index).flags.contains flag =
      (spaces.memory.entry directory.frame index).flags.contains flag := by
  cases named : (spaces.memory.entry directory.frame index).frame with
  | none => simp [AddressSpaces.writableTable, and_assoc, named] at run
  | some found =>
      cases shared : spaces.isShared directory index found with
      | false =>
          simp [AddressSpaces.writableTable, and_assoc, named, shared] at run
          rw [run.2]
      | true =>
          rcases takeFrame_cases owned.wellFormed with
            ⟨refused, -⟩ | ⟨copy, frames, taken, allocation, -⟩
          · simp [AddressSpaces.writableTable, and_assoc, named, shared, refused.iff] at run
          · have notFrame := (owned.fresh allocation mem).1
            simp [AddressSpaces.writableTable, and_assoc, named, shared, taken.iff,
              Memory.entry_setTable, notFrame] at run
            rcases run with ⟨rfl, rfl⟩
            simp [Memory.entry_setEntry, Entry.contains_ofFrame _ _ isBit]

theorem writableTable_named
    (run : (AddressSpaces.writableTable directory index).Yields spaces (.ok (some table)) after) :
    spaces.tableFrame directory index ≠ none := by
  intro missing
  rw [tableFrame] at missing
  simp [AddressSpaces.writableTable, and_assoc, missing] at run

theorem writableTable_missing (owned : spaces.Owned outside held owners) (mem : directory ∈ owners)
    (run : (AddressSpaces.writableTable directory index).Yields spaces (.ok none) after) :
    spaces.tableFrame directory index = none ∧ after = spaces := by
  rcases (owned.separate mem).writableTable index with
    ⟨missing, done⟩ | ⟨refused, -⟩ | ⟨table, edited, done, -⟩
  · exact ⟨missing, (run.unique done).2⟩
  · cases (run.unique refused).1
  · cases (run.unique done).1

theorem tableFor_raises (owned : spaces.Owned outside held owners) (mem : directory ∈ owners)
    (run : (AddressSpaces.tableFor directory index flags).Yields spaces (.ok table) after) :
    Raised spaces after directory index flags := by
  rcases Fallible.yields_bind.mp run with ⟨_, -, refuted⟩ | ⟨found, between, begun, ended⟩
  · cases refuted
  cases found with
  | some own =>
      have named := writableTable_named begun
      have writable := owned.writableTable_keeps mem begun PageFlags.isBit_writable
      have user := owned.writableTable_keeps mem begun PageFlags.isBit_user
      by_cases asks : flags.contains .user = true
      · simp [asks, and_assoc] at ended
        rcases ended with ⟨rfl, rfl⟩
        refine ⟨fun was => ?_, ?_⟩ <;>
          simp only [Memory.entry_setEntry, and_self, if_true,
            Entry.contains_withFlags _ _ PageFlags.isBit_writable,
            Entry.contains_withFlags _ _ PageFlags.isBit_user,
            PageFlags.contains_union _ _ PageFlags.isBit_writable,
            PageFlags.contains_union _ _ PageFlags.isBit_user, writable]
        · rw [was named, Bool.true_or]
        · exact iff_of_true (Bool.or_true _) (Or.inl asks)
      · simp [asks] at ended
        rcases ended with ⟨rfl, rfl⟩
        refine ⟨fun was => writable.trans (was named), ?_⟩
        rw [user]
        simp only [asks, Bool.false_eq_true, false_or]
        exact (and_iff_right named).symm
  | none =>
      rcases owned.writableTable_missing mem begun with ⟨missing, rfl⟩
      rcases takeFrame_cases owned.wellFormed with
        ⟨refused, -⟩ | ⟨fresh, frames, taken, allocation, -⟩
      · simp [refused.iff] at ended
      · have notFrame := (owned.fresh allocation mem).1
        simp [taken.iff, and_assoc] at ended
        rcases ended with ⟨rfl, rfl⟩
        refine ⟨fun _ => ?_, ?_⟩ <;>
          simp only [Memory.entry_setEntry, and_self, if_true,
            Entry.contains_ofFrame _ _ PageFlags.isBit_writable,
            Entry.contains_ofFrame _ _ PageFlags.isBit_user]
        · split
          · rfl
          · rfl
        · by_cases asks : flags.contains .user = true
          · rw [if_pos asks]
            exact iff_of_true rfl (Or.inl asks)
          · rw [if_neg asks]
            refine iff_of_false (by decide) ?_
            rintro (asked | ⟨named, -⟩)
            · exact asks asked
            · exact named missing

/-- Mapping a page raises the directory's entry to what the page asks for. -/
theorem mapIn_raises (owned : spaces.Owned outside held owners) (mem : directory ∈ owners)
    {virtual : VirtAddr} {physical : PhysAddr}
    (run : (AddressSpaces.mapIn directory virtual physical flags).Yields spaces (.ok ()) after) :
    Raised spaces after directory virtual.directoryIndex flags := by
  rcases Fallible.yields_bind.mp run with ⟨_, -, refuted⟩ | ⟨table, between, begun, ended⟩
  · cases refuted
  rcases (owned.separate mem).tableFor virtual.directoryIndex flags with
    ⟨refused, -⟩ | ⟨found, edited, done, edit⟩
  · cases (begun.unique refused).1
  · rcases begun.unique done with ⟨same, rfl⟩
    cases same
    have apart := (owned.separate mem).table_ne edit
    simp at ended
    subst ended
    refine (owned.tableFor_raises mem begun).congr ?_
    simp only [Memory.entry_setEntry, apart, false_and, if_false]

/-- Removing a mapping leaves what the directory's entry grants as it was. -/
theorem unmapIn_raises (owned : spaces.Owned outside held owners) (mem : directory ∈ owners)
    {virtual : VirtAddr} {frame : Frame}
    (run : (AddressSpaces.unmapIn directory virtual).Yields spaces (.ok frame) after) :
    Raised spaces after directory virtual.directoryIndex .none := by
  cases mapped : spaces.translateIn directory virtual with
  | none => simp [AddressSpaces.unmapIn, and_assoc, mapped] at run
  | some found =>
      rcases (owned.separate mem).writableTable virtual.directoryIndex with
        ⟨missing, begun⟩ | ⟨refused, -⟩ | ⟨table, between, begun, edit⟩
      · simp [AddressSpaces.unmapIn, and_assoc, mapped, begun.iff] at run
      · simp [AddressSpaces.unmapIn, and_assoc, mapped, refused.iff] at run
      · have named := writableTable_named begun
        have apart := (owned.separate mem).table_ne edit
        have raised : Raised spaces between directory virtual.directoryIndex .none := by
          refine ⟨fun was => ?_, ?_⟩
          · exact (owned.writableTable_keeps mem begun PageFlags.isBit_writable).trans (was named)
          · rw [owned.writableTable_keeps mem begun PageFlags.isBit_user]
            have plain : PageFlags.none.contains .user = false := by decide
            simp only [plain, Bool.false_eq_true, false_or]
            exact (and_iff_right named).symm
        simp [AddressSpaces.unmapIn, and_assoc, mapped, begun.iff] at run
        rcases run with ⟨rfl, rfl⟩
        refine raised.congr ?_
        simp only [Memory.entry_setEntry, apart, false_and, if_false]

end Owned

end Entries

section Permissions

variable {spaces before after : AddressSpaces} {outside : Nat → Prop} {held : List Frame}
  {owners : List Directory} {directory other root : Directory} {index : Fin Layout.pageEntries}
  {table : Frame} {flags : PageFlags} {virtual : VirtAddr} {entry : Entry} {excused : Prop}

/-- A page for users is entered in a table of the kernel's that another directory names. -/
structure Slighted (spaces : AddressSpaces) (target : Directory) (virtual : VirtAddr)
    (flags : PageFlags) (directory : Directory) (index : Fin Layout.pageEntries) : Prop where
  user : flags.contains .user = true
  here : virtual.directoryIndex = index
  isKernel : spaces.kernel = some target
  differs : directory ≠ target
  shares : Tenancy.Shares spaces directory target index

theorem pageTable_eq_of_shares {left right : Directory}
    (shares : Tenancy.Shares spaces left right index) :
    spaces.pageTable left index = spaces.pageTable right index := by
  rcases shares with ⟨table, leftNames, rightNames⟩
  rw [pageTable, pageTable, leftNames, rightNames]

namespace Permissive

theorem mono {more : Prop} (permissive : Permissive spaces directory index excused)
    (weaker : excused → more) : Permissive spaces directory index more where
  writable := permissive.writable
  user place present asks := (permissive.user place present asks).imp_right weaker

theorem congr (permissive : Permissive before directory index excused)
    (entry : after.memory.entry other.frame index = before.memory.entry directory.frame index)
    (page : after.pageTable other index = before.pageTable directory index) :
    Permissive after other index excused where
  writable named := by
    rw [entry]
    apply permissive.writable
    rw [tableFrame, ← entry]
    exact named
  user place := by
    rw [entry, page]
    exact permissive.user place

theorem of_missing (missing : spaces.tableFrame directory index = none) :
    Permissive spaces directory index excused where
  writable named := absurd missing named
  user place present _ := by
    refine absurd ?_ present
    rw [pageTable, missing]
    simp

end Permissive

namespace Edit

/-- Where a page is entered, the directory's entry is raised to what the page asks for. -/
theorem permissive_edited {place : Fin Layout.pageEntries}
    (edit : Edit before after directory index table
      ((before.pageTable directory index).set place entry place.isLt))
    (raised : Raised before after directory index flags)
    (asks : entry.frame ≠ none → entry.flags.contains .user = true → flags.contains .user = true)
    (permissive : Permissive before directory index excused) :
    Permissive after directory index excused where
  writable _ := raised.writable permissive.writable
  user found := by
    rw [edit.pageTable_edited, Table.getElem_set]
    split
    · exact fun present user => Or.inl (raised.user.mpr (Or.inl (asks present user)))
    · intro present user
      have named : before.tableFrame directory index ≠ none := by
        intro missing
        rw [pageTable, missing] at present
        simp at present
      exact (permissive.user found present user).imp_left fun was =>
        raised.user.mpr (Or.inr ⟨named, was⟩)

/-- Who else names the table keeps the entry that it had. -/
theorem permissive_shared
    (edit : Edit before after directory virtual.directoryIndex table
      ((before.pageTable directory virtual.directoryIndex).set virtual.tableIndex entry
        virtual.tableIndex.isLt))
    (asks : entry.frame ≠ none → entry.flags.contains .user = true → flags.contains .user = true)
    (owned : before.Owned outside held owners) (mem : directory ∈ owners)
    (otherMem : other ∈ owners) (differs : other ≠ directory)
    (same : after.memory.entry other.frame index = before.memory.entry other.frame index)
    (named : before.tableFrame other index = some table)
    (permissive : Permissive before other index excused) :
    Permissive after other index
      (excused ∨ Slighted before directory virtual flags other index) := by
  rcases edit.kernel_of_named owned mem otherMem differs named with ⟨isKernel, kernelNames⟩
  have shares : Tenancy.Shares before other directory index := ⟨table, named, kernelNames⟩
  -- The kernel names a table at one index only, so this is where the page is entered.
  have here : virtual.directoryIndex = index := by
    have still := edit.tableFrame_kernel isKernel kernelNames
    exact ((edit.owned owned mem).index_unique mem (edit.privateTable_edited owned mem) still).symm
  subst here
  have page : after.pageTable other virtual.directoryIndex =
      (before.pageTable other virtual.directoryIndex).set virtual.tableIndex entry
        virtual.tableIndex.isLt := by
    rw [pageTable_eq_of_shares (edit.shares owned isKernel otherMem differs shares),
      edit.pageTable_edited, pageTable_eq_of_shares shares]
  refine ⟨fun _ => ?_, fun found => ?_⟩
  · rw [same]
    apply permissive.writable
    rw [named]
    exact Option.some_ne_none table
  · rw [page, Table.getElem_set, same]
    split
    · exact fun present user =>
        Or.inr (Or.inr ⟨asks present user, rfl, isKernel, differs, shares⟩)
    · exact fun present user => (permissive.user found present user).imp_right Or.inl

/-- Entering a page leaves the entries of all directories granting what pages below them do, with
one exception. -/
theorem permissive
    (edit : Edit before after directory virtual.directoryIndex table
      ((before.pageTable directory virtual.directoryIndex).set virtual.tableIndex entry
        virtual.tableIndex.isLt))
    (raised : Raised before after directory virtual.directoryIndex flags)
    (asks : entry.frame ≠ none → entry.flags.contains .user = true → flags.contains .user = true)
    (owned : before.Owned outside held owners) (mem : directory ∈ owners)
    (otherMem : other ∈ owners) (permissive : Permissive before other index excused) :
    Permissive after other index
      (excused ∨ Slighted before directory virtual flags other index) := by
  by_cases isDirectory : other = directory
  · subst isDirectory
    by_cases here : index = virtual.directoryIndex
    · subst here
      exact (edit.permissive_edited raised asks permissive).mono Or.inl
    · exact (permissive.congr (edit.siblings index here)
        (edit.pageTable_sibling (owned.separate mem) here)).mono Or.inl
  · have same : after.memory.entry other.frame index = before.memory.entry other.frame index := by
      rw [Memory.entry, Memory.entry, edit.directory_of_ne owned mem otherMem isDirectory]
    by_cases named : before.tableFrame other index = some table
    · exact edit.permissive_shared asks owned mem otherMem isDirectory same named permissive
    · exact (permissive.congr same
        (edit.pageTable_of_ne owned mem otherMem isDirectory named)).mono Or.inl

end Edit

namespace Owned

theorem permissive_mapIn (owned : before.Owned outside held owners) (mem : directory ∈ owners)
    {physical : PhysAddr}
    (run : (AddressSpaces.mapIn directory virtual physical flags).Yields before (.ok ()) after)
    (otherMem : other ∈ owners) (permissive : Permissive before other index excused) :
    Permissive after other index
      (excused ∨ Slighted before directory virtual flags other index) := by
  rcases (owned.separate mem).mapIn virtual physical flags with
    ⟨refused, -⟩ | ⟨table, edited, done, edit⟩
  · cases (run.unique refused).1
  · rcases run.unique done with ⟨-, rfl⟩
    refine edit.permissive (owned.mapIn_raises mem run) (fun _ user => ?_) owned mem otherMem
      permissive
    rwa [Entry.contains_ofFrame _ _ PageFlags.isBit_user] at user

theorem permissive_unmapIn (owned : before.Owned outside held owners) (mem : directory ∈ owners)
    {frame : Frame}
    (run : (AddressSpaces.unmapIn directory virtual).Yields before (.ok frame) after)
    (otherMem : other ∈ owners) (permissive : Permissive before other index excused) :
    Permissive after other index excused := by
  rcases (owned.separate mem).unmapIn virtual with
    ⟨-, refused⟩ | ⟨physical, flags, -, ⟨refused, -⟩ | ⟨table, edited, done, edit⟩⟩
  · cases (run.unique refused).1
  · cases (run.unique refused).1
  · rcases run.unique done with ⟨-, rfl⟩
    refine (edit.permissive (owned.unmapIn_raises mem run) (fun present _ => ?_) owned mem otherMem
      permissive).mono ?_
    · refine absurd (Entry.frame_eq_none_of_absent ?_) present
      exact (Entry.contains_withFlags _ _ PageFlags.isBit_present).trans
        (PageFlags.contains_diff_present _)
    · rintro (already | slighted)
      · exact already
      · exact absurd slighted.user (by decide)

end Owned

/-- A new directory has the entries of the kernel's, and all others are left alone. -/
theorem Created.permissive {contents : Table}
    (created : Created before after directory contents)
    (owned : before.Owned outside held owners) (otherMem : other ∈ owners)
    (permissive : Permissive before other index excused) :
    Permissive after other index excused := by
  have untouched := created.untouched owned
  refine permissive.congr ?_ ((untouched.sameView owned created.kernel otherMem).pages index)
  rw [Memory.entry, Memory.entry, untouched other.frame
    (List.mem_flatMap.mpr ⟨other, otherMem, frame_mem_privateFrames⟩)]

theorem Created.permissive_copy
    (created : Created before after directory before.template)
    (owned : before.Owned outside held owners) (isKernel : before.kernel = some root)
    (permissive : Permissive before root index excused) :
    Permissive after directory index excused := by
  have entry : after.memory.entry directory.frame index =
      before.memory.entry root.frame index := by
    rw [Memory.entry, created.holds, template, isKernel]
    rfl
  refine permissive.congr entry ?_
  have named : after.tableFrame directory index = before.tableFrame root index :=
    congrArg Entry.frame entry
  rw [pageTable, pageTable, named]
  cases found : before.tableFrame root index with
  | none => rfl
  | some table =>
      apply created.elsewhere
      rintro rfl
      exact (owned.fresh created.allocation (owned.kernel root isKernel)).2 index found

/-- The entries of a directory grant what pages below them do, and none lets users through. -/
structure Guarded (spaces : AddressSpaces) (directory : Directory) : Prop where
  permissive : ∀ index, Permissive spaces directory index False
  plain : ∀ index, spaces.tableFrame directory index ≠ none →
    (spaces.memory.entry directory.frame index).flags.contains .user = false

/-- A page that is not for users leaves a directory guarded. -/
theorem Owned.guarded_mapIn (owned : before.Owned outside held owners) (mem : directory ∈ owners)
    {physical : PhysAddr} (kept : flags.contains .user = false)
    (run : (AddressSpaces.mapIn directory virtual physical flags).Yields before (.ok ()) after)
    (guarded : Guarded before directory) : Guarded after directory where
  permissive index := by
    refine (owned.permissive_mapIn mem run mem (guarded.permissive index)).mono ?_
    rintro (never | slighted)
    · exact never
    · rw [slighted.user] at kept
      cases kept
  plain index named := by
    by_cases here : index = virtual.directoryIndex
    · subst here
      apply Bool.of_not_eq_true
      rw [(owned.mapIn_raises mem run).user, kept]
      rintro (never | ⟨was, user⟩)
      · cases never
      · rw [guarded.plain _ was] at user
        cases user
    · rcases (owned.separate mem).mapIn virtual physical flags with
        ⟨refused, -⟩ | ⟨table, edited, done, edit⟩
      · cases (run.unique refused).1
      · rcases run.unique done with ⟨-, rfl⟩
        have same := edit.siblings index here
        rw [tableFrame, same] at named
        rw [same]
        exact guarded.plain index named

theorem Building.guarded_step {pages : Nat}
    (building : Building before spaces outside held owners directory pages)
    (small : pages < 2 ^ 20) (kept : flags.contains .user = false)
    (guarded : Guarded spaces directory) :
    (∃ after,
      (AddressSpaces.mapIn directory ⟨pageAddress pages⟩ ⟨pageAddress pages⟩ flags).Yields spaces
          (.ok ()) after ∧
        Building before after outside held owners directory (pages + 1) ∧
        Guarded after directory) ∨
      ∃ cause after,
        (AddressSpaces.mapIn directory ⟨pageAddress pages⟩ ⟨pageAddress pages⟩ flags).Yields spaces
          (.error cause) after ∧ True := by
  rcases building.step small flags with ⟨after, run, built⟩ | ⟨refused, -⟩
  · exact Or.inl ⟨after, run, built,
      building.owned.guarded_mapIn List.mem_cons_self kept run guarded⟩
  · exact Or.inr ⟨_, _, refused, trivial⟩

/-- The kernel's directory is guarded once it maps what it is to map. -/
theorem Owned.guarded_initKernelDirectory (owned : before.Owned outside held owners)
    {past : UInt32}
    (run : (AddressSpaces.initKernelDirectory past).Yields before (.ok directory) after) :
    Guarded after directory := by
  rcases Fallible.yields_bind.mp run with ⟨_, -, refuted⟩ | ⟨made, between, begun, ended⟩
  · cases refuted
  rcases owned.createDirectory with ⟨refused, -⟩ | ⟨found, blank, done, created, ownedBlank⟩
  · cases (begun.unique refused).1
  rcases begun.unique done with ⟨same, rfl⟩
  cases same
  have missing : ∀ index, between.tableFrame made index = none := by
    intro index
    rw [tableFrame, Memory.entry, created.holds]
    simp
  have empty : Guarded between made :=
    ⟨fun index => .of_missing (missing index), fun index named => absurd (missing index) named⟩
  have small : past.toNat / Layout.frameSize ≤ 2 ^ 20 := by
    have size : Layout.frameSize = 4096 := rfl
    have bound := past.toNat_lt
    rw [size]
    omega
  rcases Fallible.yields_bind.mp ended with ⟨_, -, refuted⟩ | ⟨_, swept, sweeping, ended⟩
  · cases refuted
  have step : ∀ pages now, pages < past.toNat / Layout.frameSize →
      (Building before now outside held owners made pages ∧ Guarded now made) →
      (∃ after, (AddressSpaces.mapIn made ⟨pageAddress pages⟩ ⟨pageAddress pages⟩
          (PageFlags.present.union .writable)).Yields now (.ok ()) after ∧
        Building before after outside held owners made (pages + 1) ∧ Guarded after made) ∨
      ∃ cause after, (AddressSpaces.mapIn made ⟨pageAddress pages⟩ ⟨pageAddress pages⟩
          (PageFlags.present.union .writable)).Yields now (.error cause) after ∧ True := by
    rintro pages now below ⟨building, guarded⟩
    exact building.guarded_step (Nat.lt_of_lt_of_le below small) (by decide) guarded
  rcases Fallible.yields_sweep step (past.toNat / Layout.frameSize) 0 (Nat.zero_add _)
      ⟨created.building owned ownedBlank, empty⟩ with
    ⟨final, completed, -, guarded⟩ | ⟨cause, final, refused, -⟩
  · rcases sweeping.unique completed with ⟨-, rfl⟩
    simp at ended
    rcases ended with ⟨rfl, rfl⟩
    exact ⟨fun index => (guarded.permissive index).congr rfl rfl, guarded.plain⟩
  · cases (sweeping.unique refused).1

end Permissions

end AddressSpaces

end KernelCore
