import KernelCore.Proofs.Paging.Translation

/-!
# Directories that can be edited

Address spaces in which every directory in use can be edited one page at a time, whatever the
kernel's directory is and whoever shares tables with whom. Directories that are made, edits, and
frames that are taken for other purposes keep it so, and also frames that are given back, as long
as none of them holds a directory in use or one of its tables.
-/

namespace KernelCore

/-- Every directory in use can be edited one page at a time, and none serves as a table. -/
structure AddressSpaces.Sheltered (spaces : AddressSpaces) (live : List Directory) : Prop where
  wellFormed : spaces.frames.WellFormed
  distinct : live.Nodup
  separate : ∀ directory ∈ live, Separate spaces directory
  apart : ∀ directory ∈ live, ∀ other ∈ live, ∀ index,
    spaces.tableFrame directory index ≠ some other.frame

namespace AddressSpaces

variable {spaces before after : AddressSpaces} {live : List Directory} {directory other : Directory}
  {index place : Fin Layout.pageEntries} {table found : Frame} {contents : Table}

/-- What a directory needs depends on the entries of its own frame and on which frames are used. -/
theorem Separate.of_entries (separate : Separate before directory)
    (wellFormed : after.frames.WellFormed)
    (same : after.memory.table directory.frame = before.memory.table directory.frame)
    (used : after.frames.isSet directory.frame.number.val = true)
    (tables : ∀ index table, before.tableFrame directory index = some table →
      after.frames.isSet table.number.val = true) : Separate after directory := by
  have names : ∀ index, after.tableFrame directory index = before.tableFrame directory index := by
    intro index
    rw [tableFrame, tableFrame, Memory.entry, Memory.entry, same]
  refine ⟨wellFormed, used, ?_, ?_, ?_⟩
  · intro index table named
    exact tables index table (names index ▸ named)
  · intro index
    rw [names]
    exact separate.apart index
  · intro index place table named again
    rw [names] at named again
    exact separate.once index place table named again

theorem Edit.tableFrame_cases (edit : Edit before after directory index table contents)
    (named : after.tableFrame directory place = some found) :
    (place = index ∧ found = table) ∨
      (place ≠ index ∧ before.tableFrame directory place = some found) := by
  by_cases here : place = index
  · rw [here, edit.names, Option.some.injEq] at named
    exact Or.inl ⟨here, named.symm⟩
  · refine Or.inr ⟨here, ?_⟩
    rw [← named]
    exact (congrArg Entry.frame (edit.siblings place here)).symm

namespace Sheltered

/-- Frames that are neither directories nor tables may be used for other purposes. -/
theorem withFrames (sheltered : before.Sheltered live) (wellFormed : after.frames.WellFormed)
    (memory : ∀ directory ∈ live,
      after.memory.table directory.frame = before.memory.table directory.frame)
    (directories : ∀ directory ∈ live, after.frames.isSet directory.frame.number.val = true)
    (tables : ∀ directory ∈ live, ∀ index table, before.tableFrame directory index = some table →
      after.frames.isSet table.number.val = true) : after.Sheltered live where
  wellFormed := wellFormed
  distinct := sheltered.distinct
  separate directory mem := (sheltered.separate directory mem).of_entries wellFormed
    (memory directory mem) (directories directory mem) (tables directory mem)
  apart directory mem other otherMem index := by
    rw [tableFrame, Memory.entry, memory directory mem]
    exact sheltered.apart directory mem other otherMem index

/-- Taking frames disturbs no directory. -/
theorem take (sheltered : before.Sheltered live) (wellFormed : after.frames.WellFormed)
    (memory : ∀ directory ∈ live,
      after.memory.table directory.frame = before.memory.table directory.frame)
    (keeps : ∀ number, before.frames.isSet number = true → after.frames.isSet number = true) :
    after.Sheltered live :=
  sheltered.withFrames wellFormed memory
    (fun directory mem => keeps _ (sheltered.separate directory mem).used)
    fun directory mem index table named =>
      keeps _ ((sheltered.separate directory mem).tablesUsed index table named)

/-- The table that is edited is in no directory's frame. -/
theorem table_ne (sheltered : before.Sheltered live) (mem : directory ∈ live)
    (edit : Edit before after directory index table contents) (otherMem : other ∈ live) :
    table ≠ other.frame := by
  rintro rfl
  rcases edit.source with ⟨named, -, -⟩ | ⟨allocation, -, -⟩
  · exact sheltered.apart directory mem other otherMem index named
  · exact ((sheltered.separate other otherMem).fresh allocation).1 rfl

/-- The directory that is edited can be edited again. -/
theorem separate_edited (sheltered : before.Sheltered live) (mem : directory ∈ live)
    (edit : Edit before after directory index table contents) : Separate after directory := by
  have separate := sheltered.separate directory mem
  have notTable : ∀ place found, before.tableFrame directory place = some found →
      place ≠ index → found ≠ table := by
    rintro place found named elsewhere rfl
    rcases edit.source with ⟨own, -, -⟩ | ⟨allocation, -, -⟩
    · exact elsewhere (separate.once index place found own named)
    · exact (separate.fresh allocation).2 place named
  have tableUsed : after.frames.isSet table.number.val = true := by
    rcases edit.source with ⟨own, -, -⟩ | ⟨allocation, -, -⟩
    · exact edit.keeps_used (separate.tablesUsed index table own)
    · exact allocation.is_used
  refine ⟨edit.wellFormed sheltered.wellFormed, edit.keeps_used separate.used, ?_, ?_, ?_⟩
  · intro place found named
    rcases edit.tableFrame_cases named with ⟨-, rfl⟩ | ⟨-, was⟩
    · exact tableUsed
    · exact edit.keeps_used (separate.tablesUsed place found was)
  · intro place named
    rcases edit.tableFrame_cases named with ⟨-, same⟩ | ⟨-, was⟩
    · exact sheltered.table_ne mem edit mem same.symm
    · exact separate.apart place was
  · intro left right found named again
    rcases edit.tableFrame_cases named with ⟨rfl, rfl⟩ | ⟨elsewhere, was⟩
    · rcases edit.tableFrame_cases again with ⟨same, -⟩ | ⟨elsewhere, was⟩
      · exact same
      · exact absurd rfl (notTable right found was elsewhere)
    · rcases edit.tableFrame_cases again with ⟨-, rfl⟩ | ⟨-, wasAgain⟩
      · exact absurd rfl (notTable left found was elsewhere)
      · exact separate.once left right found was wasAgain

/-- All directories in use can be edited after one of them was. -/
theorem edit (sheltered : before.Sheltered live) (mem : directory ∈ live)
    (edit : Edit before after directory index table contents) : after.Sheltered live := by
  have others : ∀ other ∈ live, other ≠ directory →
      after.memory.table other.frame = before.memory.table other.frame := by
    intro other otherMem differs
    exact edit.elsewhere other.frame (Directory.frame_ne differs)
      (sheltered.table_ne mem edit otherMem).symm
  refine ⟨edit.wellFormed sheltered.wellFormed, sheltered.distinct, ?_, ?_⟩
  · intro other otherMem
    by_cases same : other = directory
    · exact same ▸ sheltered.separate_edited mem edit
    · have separate := sheltered.separate other otherMem
      exact separate.of_entries (edit.wellFormed sheltered.wellFormed) (others other otherMem same)
        (edit.keeps_used separate.used)
        fun place found named => edit.keeps_used (separate.tablesUsed place found named)
  · intro owner ownerMem other otherMem place named
    by_cases same : owner = directory
    · subst same
      rcases edit.tableFrame_cases named with ⟨-, isTable⟩ | ⟨-, was⟩
      · exact sheltered.table_ne mem edit otherMem isTable.symm
      · exact sheltered.apart owner mem other otherMem place was
    · rw [tableFrame, Memory.entry, others owner ownerMem same] at named
      exact sheltered.apart owner ownerMem other otherMem place named

/-- A new directory names no tables, or those of a directory in use. -/
theorem create (sheltered : before.Sheltered live)
    (created : Created before after directory contents)
    (inherits : contents = .zero ∨
      ∃ source ∈ live, contents = before.memory.table source.frame) :
    after.Sheltered (directory :: live) := by
  have fresh : ∀ other ∈ live, directory.frame ≠ other.frame ∧
      ∀ index, before.tableFrame other index ≠ some directory.frame :=
    fun other mem => (sheltered.separate other mem).fresh created.allocation
  have stays := sheltered.take created.wellFormed
    (fun other mem => created.elsewhere other.frame (fresh other mem).1.symm)
    fun number => created.allocation.stays_used
  have inherited : ∀ index table, after.tableFrame directory index = some table →
      ∃ source ∈ live, contents = before.memory.table source.frame ∧
        before.tableFrame source index = some table := by
    intro index table named
    rw [tableFrame, Memory.entry, created.holds] at named
    rcases inherits with isZero | ⟨source, mem, same⟩
    · rw [isZero] at named
      simp at named
    · rw [same] at named
      exact ⟨source, mem, same, named⟩
  have names : ∀ other ∈ live, ∀ index,
      after.tableFrame other index = before.tableFrame other index := by
    intro other mem index
    rw [tableFrame, tableFrame, Memory.entry, Memory.entry,
      created.elsewhere other.frame (fresh other mem).1.symm]
  refine ⟨created.wellFormed, List.nodup_cons.mpr ⟨fun mem => (fresh directory mem).1 rfl,
    sheltered.distinct⟩, ?_, ?_⟩
  · intro other otherMem
    rcases List.mem_cons.mp otherMem with rfl | mem
    · refine ⟨created.wellFormed, created.allocation.is_used, ?_, ?_, ?_⟩
      · intro index table named
        rcases inherited index table named with ⟨source, mem, -, was⟩
        exact created.allocation.stays_used
          ((sheltered.separate source mem).tablesUsed index table was)
      · intro index named
        rcases inherited index _ named with ⟨source, mem, -, was⟩
        exact (fresh source mem).2 index was
      · intro left right table named again
        rcases inherited left table named with ⟨source, mem, same, was⟩
        refine (sheltered.separate source mem).once left right table was ?_
        rw [tableFrame, Memory.entry, created.holds, same] at again
        exact again
    · exact stays.separate other mem
  · intro owner ownerMem other otherMem index named
    have source : ∃ source ∈ live, before.tableFrame source index = some other.frame := by
      rcases List.mem_cons.mp ownerMem with rfl | mem
      · rcases inherited index _ named with ⟨source, mem, -, was⟩
        exact ⟨source, mem, was⟩
      · exact ⟨owner, mem, names owner mem index ▸ named⟩
    rcases source with ⟨source, mem, was⟩
    rcases List.mem_cons.mp otherMem with rfl | otherLive
    · exact (fresh source mem).2 index was
    · exact sheltered.apart source mem other otherLive index was

theorem restrict {others : List Directory} (sheltered : before.Sheltered live)
    (fewer : others.Sublist live) : before.Sheltered others where
  wellFormed := sheltered.wellFormed
  distinct := sheltered.distinct.sublist fewer
  separate other mem := sheltered.separate other (fewer.subset mem)
  apart owner mem other otherMem :=
    sheltered.apart owner (fewer.subset mem) other (fewer.subset otherMem)

/-- The registers that name the active directory and the kernel's do not matter. -/
theorem of_same (sheltered : before.Sheltered live) (frames : after.frames = before.frames)
    (memory : after.memory = before.memory) : after.Sheltered live :=
  sheltered.take (frames ▸ sheltered.wellFormed) (fun _ _ => by rw [memory])
    fun _ used => by rw [frames]; exact used

/-- While the kernel's directory is built, it and all others can be edited. In the end it maps the
pages that it was to map, and nothing else. -/
theorem initKernelDirectory (sheltered : before.Sheltered live) (past : UInt32) :
    (∃ after,
      (AddressSpaces.initKernelDirectory past).Yields before (.error .frameAllocationFailed)
          after ∧ after.Sheltered live) ∨
      ∃ directory after,
        (AddressSpaces.initKernelDirectory past).Yields before (.ok directory) after ∧
          after.Sheltered (directory :: live) ∧
          after.IdentityMapped directory (past.toNat / Layout.frameSize) := by
  rcases createDirectory_cases sheltered.wellFormed with
    ⟨refused, -⟩ | ⟨directory, between, begun, created⟩
  · left
    refine ⟨before, ?_, sheltered⟩
    simp [AddressSpaces.initKernelDirectory, refused.iff]
  · have small : past.toNat / Layout.frameSize ≤ 2 ^ 20 := by
      have bound := past.toNat_lt
      change past.toNat / 4096 ≤ 2 ^ 20
      omega
    have step : ∀ pages now, pages < past.toNat / Layout.frameSize →
        Sheltered now (directory :: live) ∧ IdentityMapped now directory pages →
        (∃ after, (AddressSpaces.mapIn directory ⟨pageAddress pages⟩ ⟨pageAddress pages⟩
            (PageFlags.present.union .writable)).Yields now (.ok ()) after ∧
          Sheltered after (directory :: live) ∧ IdentityMapped after directory (pages + 1)) ∨
        ∃ cause after, (AddressSpaces.mapIn directory ⟨pageAddress pages⟩ ⟨pageAddress pages⟩
            (PageFlags.present.union .writable)).Yields now (.error cause) after ∧
          cause = .frameAllocationFailed ∧ Sheltered after (directory :: live) := by
      rintro pages now below ⟨holds, mapped⟩
      have separate := holds.separate directory List.mem_cons_self
      rcases separate.mapIn ⟨pageAddress pages⟩ ⟨pageAddress pages⟩
          (PageFlags.present.union .writable) with ⟨refused, -⟩ | ⟨table, after, run, edit⟩
      · exact Or.inr ⟨_, now, refused, rfl, holds⟩
      · refine Or.inl ⟨after, run, holds.edit List.mem_cons_self edit, ?_⟩
        exact mapped.next separate (Nat.lt_of_lt_of_le below small) run
    rcases Fallible.yields_sweep step (past.toNat / Layout.frameSize) 0 (Nat.zero_add _)
        ⟨sheltered.create created (Or.inl rfl), created.identityMapped⟩ with
      ⟨after, run, holds, mapped⟩ | ⟨cause, after, run, rfl, holds⟩
    · right
      refine ⟨directory, { after with kernel := some directory }, ?_, holds.of_same rfl rfl, mapped⟩
      refine Fallible.yields_bind.mpr (Or.inr ⟨directory, between, begun, ?_⟩)
      refine Fallible.yields_bind.mpr (Or.inr ⟨(), after, run, ?_⟩)
      simp
    · left
      refine ⟨after, ?_, holds.restrict (List.sublist_cons_self _ _)⟩
      refine Fallible.yields_bind.mpr (Or.inr ⟨directory, between, begun, ?_⟩)
      exact Fallible.yields_bind.mpr (Or.inl ⟨_, run, rfl⟩)

end Sheltered

end AddressSpaces

end KernelCore
