import KernelCore.Paging.AddressSpaces
import KernelCore.Proofs.Paging.Entries

/-!
# Who owns a frame

Every used frame has one owner. `FrameBitmap.Accounts` says so of a list of frames: it has no frame
twice, and the used frames are those on the list and those that are used for other purposes.
`AddressSpaces.Owned` makes up the list from the frames that some address spaces have for
themselves, their directories and the tables that they do not share with the kernel, and from frames
that are held otherwise. A table that is shared counts as the kernel's, so that it stands on the
list once.
-/

namespace KernelCore

namespace FrameBitmap

/-- The used frames are those of the list, which has no frame twice, and others. -/
structure Accounts (bitmap : FrameBitmap) (outside : Nat → Prop) (frames : List Frame) : Prop where
  distinct : frames.Nodup
  tracked : ∀ frame ∈ frames, frame.number.val < bitmap.totalFrames
  apart : ∀ frame ∈ frames, ¬outside frame.number.val
  complete : ∀ number < bitmap.totalFrames, bitmap.isSet number = true ↔
    outside number ∨ ∃ frame ∈ frames, frame.number.val = number

namespace Accounts

variable {bitmap after : FrameBitmap} {outside : Nat → Prop} {frames others : List Frame}
  {frame : Frame}

theorem perm (accounts : bitmap.Accounts outside frames) (reordered : frames.Perm others) :
    bitmap.Accounts outside others where
  distinct := reordered.nodup_iff.mp accounts.distinct
  tracked frame mem := accounts.tracked frame (reordered.mem_iff.mpr mem)
  apart frame mem := accounts.apart frame (reordered.mem_iff.mpr mem)
  complete number tracked := by
    rw [accounts.complete number tracked]
    simp only [reordered.mem_iff]

theorem used (accounts : bitmap.Accounts outside frames) (mem : frame ∈ frames) :
    bitmap.isSet frame.number.val = true :=
  (accounts.complete _ (accounts.tracked frame mem)).mpr (Or.inr ⟨frame, mem, rfl⟩)

theorem fresh (accounts : bitmap.Accounts outside frames)
    (allocation : Allocation bitmap (some frame) after) : frame ∉ frames := by
  intro mem
  cases allocation with
  | taken tracked clear least bits fewer total reserved =>
      rw [accounts.used mem] at clear
      exact Bool.noConfusion clear

theorem take (accounts : bitmap.Accounts outside frames)
    (allocation : Allocation bitmap (some frame) after) :
    after.Accounts outside (frame :: frames) := by
  have fresh := accounts.fresh allocation
  cases allocation with
  | taken tracked clear least bits fewer total reserved =>
      refine ⟨List.nodup_cons.mpr ⟨fresh, accounts.distinct⟩, ?_, ?_, ?_⟩
      · intro other mem
        rw [total]
        rcases List.mem_cons.mp mem with rfl | mem
        · exact tracked
        · exact accounts.tracked other mem
      · intro other mem isOutside
        rcases List.mem_cons.mp mem with rfl | mem
        · rw [(accounts.complete _ tracked).mpr (Or.inl isOutside)] at clear
          exact Bool.noConfusion clear
        · exact accounts.apart other mem isOutside
      · intro number inside
        rw [total] at inside
        rw [bits, Bool.or_eq_true, accounts.complete number inside, decide_eq_true_iff]
        simp only [List.mem_cons, exists_eq_or_imp]
        grind

/-- A frame of the list can be given back, and is then nobody's. -/
theorem release (accounts : bitmap.Accounts outside (frame :: frames))
    {reply : Except FrameError Unit} (release : Release bitmap frame reply after) :
    reply = .ok () ∧ after.Accounts outside frames ∧ after.totalFrames = bitmap.totalFrames := by
  have tracked := accounts.tracked frame List.mem_cons_self
  have used := accounts.used List.mem_cons_self
  cases release with
  | outOfRange past => omega
  | alreadyFree _ clear =>
      rw [used] at clear
      exact Bool.noConfusion clear
  | freed _ _ bits more total reserved =>
      rcases List.nodup_cons.mp accounts.distinct with ⟨notIn, distinct⟩
      refine ⟨rfl, ⟨distinct, ?_, ?_, ?_⟩, total⟩
      · intro other mem
        rw [total]
        exact accounts.tracked other (List.mem_cons_of_mem _ mem)
      · intro other mem
        exact accounts.apart other (List.mem_cons_of_mem _ mem)
      · intro number inside
        rw [total] at inside
        rw [bits, Bool.and_eq_true, accounts.complete number inside, decide_eq_true_iff]
        constructor
        · rintro ⟨isOutside | ⟨other, mem, rfl⟩, differs⟩
          · exact Or.inl isOutside
          · rcases List.mem_cons.mp mem with rfl | mem
            · exact absurd rfl differs
            · exact Or.inr ⟨other, mem, rfl⟩
        · rintro (isOutside | ⟨other, mem, rfl⟩)
          · refine ⟨Or.inl isOutside, ?_⟩
            rintro rfl
            exact accounts.apart frame List.mem_cons_self isOutside
          · refine ⟨Or.inr ⟨other, List.mem_cons_of_mem _ mem, rfl⟩, ?_⟩
            intro same
            rw [Frame.number_inj.mp same] at notIn
            exact notIn mem

/-- Frames that are taken off the list while nothing else changes are free. -/
theorem clear (accounts : bitmap.Accounts outside (others ++ frames))
    (rest : after.Accounts outside frames) (total : after.totalFrames = bitmap.totalFrames)
    (gone : frame ∈ others) : after.isSet frame.number.val = false := by
  have listed : frame ∈ others ++ frames := List.mem_append_left _ gone
  have tracked := accounts.tracked frame listed
  apply Bool.of_not_eq_true
  intro used
  rcases (rest.complete _ (total ▸ tracked)).mp used with isOutside | ⟨other, mem, same⟩
  · exact accounts.apart frame listed isOutside
  · exact (List.nodup_append.mp accounts.distinct).2.2 frame gone other mem
      (Frame.number_inj.mp same.symm)

/-- Frames that are no longer accounted for are used by others. -/
theorem disown (gone : List Frame) (accounts : bitmap.Accounts outside (gone ++ frames)) :
    bitmap.Accounts (fun number => outside number ∨ ∃ frame ∈ gone, frame.number.val = number)
      frames where
  distinct := (List.nodup_append.mp accounts.distinct).2.1
  tracked frame mem := accounts.tracked frame (List.mem_append_right _ mem)
  apart frame mem := by
    rintro (isOutside | ⟨other, isGone, same⟩)
    · exact accounts.apart frame (List.mem_append_right _ mem) isOutside
    · exact (List.nodup_append.mp accounts.distinct).2.2 other isGone frame mem
        (Frame.number_inj.mp same)
  complete number inside := by
    rw [accounts.complete number inside]
    simp only [List.mem_append, or_and_right, exists_or, or_assoc]

theorem releaseOutside (accounts : bitmap.Accounts outside frames) (notIn : frame ∉ frames)
    {reply : Except FrameError Unit} (release : Release bitmap frame reply after) :
    ∃ outside, after.Accounts outside frames := by
  cases release with
  | outOfRange past => exact ⟨outside, accounts⟩
  | alreadyFree tracked clear => exact ⟨outside, accounts⟩
  | freed tracked used bits more total reserved =>
      refine ⟨fun number => outside number ∧ frame.number.val ≠ number, accounts.distinct, ?_, ?_,
        ?_⟩
      · intro other mem
        rw [total]
        exact accounts.tracked other mem
      · intro other mem isOutside
        exact accounts.apart other mem isOutside.1
      · intro number inside
        rw [total] at inside
        rw [bits, Bool.and_eq_true, accounts.complete number inside, decide_eq_true_iff]
        constructor
        · rintro ⟨isOutside | listed, differs⟩
          · exact Or.inl ⟨isOutside, differs⟩
          · exact Or.inr listed
        · rintro (isOutside | ⟨other, mem, rfl⟩)
          · exact ⟨Or.inl isOutside.1, isOutside.2⟩
          · refine ⟨Or.inr ⟨other, mem, rfl⟩, ?_⟩
            intro same
            exact notIn (Frame.number_inj.mp same ▸ mem)

end Accounts

theorem accounts_fresh (total reserved : Nat) :
    (fresh total reserved).Accounts (· < reserved) [] where
  distinct := List.nodup_nil
  tracked _ mem := absurd mem List.not_mem_nil
  apart _ mem := absurd mem List.not_mem_nil
  complete number inside := by
    have tracked : number < total := inside
    simp [isSet_fresh, tracked]

end FrameBitmap

section Lists

variable {Key Value : Type} {keys : List Key} {key : Key} {value : Value}

theorem filterMap_perm_of_update (was now : Key → Option Value) (distinct : keys.Nodup)
    (mem : key ∈ keys) (before : was key = none) (after : now key = some value)
    (same : ∀ other, other ≠ key → now other = was other) :
    (keys.filterMap now).Perm (value :: keys.filterMap was) := by
  rcases List.append_of_mem mem with ⟨front, back, rfl⟩
  rcases List.nodup_middle.mp distinct with distinct
  have notIn := (List.nodup_cons.mp distinct).1
  have rest : ∀ part : List Key, (∀ other ∈ part, other ∈ front ++ back) →
      part.filterMap now = part.filterMap was := by
    intro part inside
    apply List.filterMap_congr
    intro other otherMem
    apply same
    intro equal
    exact notIn (equal ▸ inside other otherMem)
  rw [List.filterMap_append, List.filterMap_append, List.filterMap_cons_some after,
    List.filterMap_cons_none before, rest front fun _ mem => List.mem_append_left _ mem,
    rest back fun _ mem => List.mem_append_right _ mem]
  exact List.perm_middle

theorem flatMap_perm_of_update (was now : Key → List Value) (distinct : keys.Nodup)
    (mem : key ∈ keys) (gain : (now key).Perm (value :: was key))
    (same : ∀ other ∈ keys, other ≠ key → now other = was other) :
    (keys.flatMap now).Perm (value :: keys.flatMap was) := by
  rcases List.append_of_mem mem with ⟨front, back, rfl⟩
  rcases List.nodup_middle.mp distinct with distinct
  have notIn := (List.nodup_cons.mp distinct).1
  have rest : ∀ part : List Key, (∀ other ∈ part, other ∈ front ++ back) →
      part.flatMap now = part.flatMap was := by
    intro part inside
    apply List.flatMap_congr
    intro other otherMem
    have listed := inside other otherMem
    apply same other
    · rcases List.mem_append.mp listed with inFront | inBack
      · exact List.mem_append_left _ inFront
      · exact List.mem_append_right _ (List.mem_cons_of_mem _ inBack)
    · intro equal
      exact notIn (equal ▸ listed)
  rw [List.flatMap_append, List.flatMap_append, List.flatMap_cons, List.flatMap_cons,
    rest front fun _ mem => List.mem_append_left _ mem,
    rest back fun _ mem => List.mem_append_right _ mem]
  apply ((gain.append_right _).append_left _).trans
  exact List.perm_middle

end Lists

namespace AddressSpaces

section Frames

variable {spaces after : AddressSpaces} {directory : Directory} {index : Fin Layout.pageEntries}
  {table frame : Frame}

theorem isShared_eq_true :
    spaces.isShared directory index table = true ↔
      ∃ kernel, spaces.kernel = some kernel ∧ kernel ≠ directory ∧
        spaces.tableFrame kernel index = some table := by
  rw [isShared]
  cases spaces.kernel <;> simp

/-- The kernel shares its tables with others, not others theirs with it. -/
theorem isShared_kernel (isKernel : spaces.kernel = some directory) :
    spaces.isShared directory index table = false := by
  simp [isShared, isKernel]

theorem isShared_congr (kernel : after.kernel = spaces.kernel)
    (same : ∀ kernel, spaces.kernel = some kernel → kernel ≠ directory →
      (after.tableFrame kernel index = some table ↔ spaces.tableFrame kernel index = some table)) :
    after.isShared directory index table = spaces.isShared directory index table := by
  rw [Bool.eq_iff_iff, isShared_eq_true, isShared_eq_true, kernel]
  constructor
  · rintro ⟨other, isKernel, differs, named⟩
    exact ⟨other, isKernel, differs, (same other isKernel differs).mp named⟩
  · rintro ⟨other, isKernel, differs, named⟩
    exact ⟨other, isKernel, differs, (same other isKernel differs).mpr named⟩

/-- The table that a directory has for itself at an index. -/
def privateTable (spaces : AddressSpaces) (directory : Directory)
    (index : Fin Layout.pageEntries) : Option Frame :=
  (spaces.tableFrame directory index).filter fun table => !spaces.isShared directory index table

theorem privateTable_eq_some :
    spaces.privateTable directory index = some table ↔
      spaces.tableFrame directory index = some table ∧
        spaces.isShared directory index table = false := by
  simp [privateTable, Option.filter_eq_some_iff]

theorem privateTable_eq_none_of_shared
    (shared : ∀ table, spaces.tableFrame directory index = some table →
      spaces.isShared directory index table = true) :
    spaces.privateTable directory index = none := by
  apply Option.eq_none_iff_forall_ne_some.mpr
  intro table isPrivate
  rcases privateTable_eq_some.mp isPrivate with ⟨named, unshared⟩
  rw [shared table named] at unshared
  exact Bool.noConfusion unshared

theorem privateFrames_eq (spaces : AddressSpaces) (directory : Directory) :
    spaces.privateFrames directory =
      (List.finRange Layout.pageEntries).filterMap (spaces.privateTable directory) ++
        [directory.frame] :=
  rfl

theorem mem_privateFrames :
    frame ∈ spaces.privateFrames directory ↔
      (∃ index, spaces.tableFrame directory index = some frame ∧
        spaces.isShared directory index frame = false) ∨ frame = directory.frame := by
  simp only [privateFrames_eq, List.mem_append, List.mem_filterMap, List.mem_finRange, true_and,
    privateTable_eq_some, List.mem_singleton]

/-- What a directory has for itself is its own frame and the tables that are not the kernel's. -/
theorem mem_privateFrames_of_kernel {root : Directory} (isKernel : spaces.kernel = some root) :
    frame ∈ spaces.privateFrames directory ↔
      frame = directory.frame ∨
        ∃ index, spaces.tableFrame directory index = some frame ∧
          (directory = root ∨ spaces.tableFrame root index ≠ some frame) := by
  rw [mem_privateFrames, or_comm]
  refine or_congr Iff.rfl (exists_congr fun index => and_congr Iff.rfl ?_)
  rw [← Bool.not_eq_true, isShared_eq_true]
  constructor
  · intro unshared
    by_cases same : directory = root
    · exact Or.inl same
    · refine Or.inr fun named => unshared ⟨root, isKernel, fun equal => same equal.symm, named⟩
  · rintro apart ⟨kernel, found, differs, named⟩
    rw [isKernel, Option.some.injEq] at found
    subst found
    rcases apart with rfl | unnamed
    · exact differs rfl
    · exact unnamed named

theorem frame_mem_privateFrames : directory.frame ∈ spaces.privateFrames directory :=
  mem_privateFrames.mpr (Or.inr rfl)

theorem privateFrames_congr
    (same : ∀ index, after.privateTable directory index = spaces.privateTable directory index) :
    after.privateFrames directory = spaces.privateFrames directory := by
  rw [privateFrames_eq, privateFrames_eq, funext same]

theorem privateTable_congr
    (own : after.tableFrame directory index = spaces.tableFrame directory index)
    (shared : ∀ table, spaces.tableFrame directory index = some table →
      after.isShared directory index table = spaces.isShared directory index table) :
    after.privateTable directory index = spaces.privateTable directory index := by
  rw [privateTable, privateTable, own]
  cases named : spaces.tableFrame directory index with
  | none => rfl
  | some table => rw [Option.filter_some, Option.filter_some, shared table named]

end Frames

/-- A directory and its tables lie in used frames, and no frame serves the directory twice. -/
structure Separate (spaces : AddressSpaces) (directory : Directory) : Prop where
  wellFormed : spaces.frames.WellFormed
  used : spaces.frames.isSet directory.frame.number.val = true
  tablesUsed : ∀ index table, spaces.tableFrame directory index = some table →
    spaces.frames.isSet table.number.val = true
  apart : ∀ index, spaces.tableFrame directory index ≠ some directory.frame
  once : ∀ index place table, spaces.tableFrame directory index = some table →
    spaces.tableFrame directory place = some table → place = index

/-- A frame that is being taken is neither the directory's nor one of its tables'. -/
theorem Separate.fresh {spaces : AddressSpaces} {directory : Directory} {frame : Frame}
    {frames : FrameBitmap} (separate : Separate spaces directory)
    (allocation : FrameBitmap.Allocation spaces.frames (some frame) frames) :
    frame ≠ directory.frame ∧ ∀ index, spaces.tableFrame directory index ≠ some frame := by
  have clear := allocation.was_free
  constructor
  · rintro rfl
    rw [separate.used] at clear
    cases clear
  · intro index named
    rw [separate.tablesUsed index frame named] at clear
    cases clear

/-- The used frames are those that the address spaces of the owners have for themselves, those that
are held otherwise, and others, and no frame is counted twice. -/
structure Owned (spaces : AddressSpaces) (outside : Nat → Prop) (held : List Frame)
    (owners : List Directory) : Prop where
  wellFormed : spaces.frames.WellFormed
  accounts : spaces.frames.Accounts outside (held ++ owners.flatMap spaces.privateFrames)
  kernel : ∀ directory, spaces.kernel = some directory → directory ∈ owners

namespace Owned

variable {spaces : AddressSpaces} {outside : Nat → Prop} {held : List Frame}
  {owners successors : List Directory} {directory other : Directory}
  {index : Fin Layout.pageEntries} {table frame : Frame}

theorem perm (owned : spaces.Owned outside held owners) (reordered : owners.Perm successors) :
    spaces.Owned outside held successors where
  wellFormed := owned.wellFormed
  accounts := owned.accounts.perm ((reordered.flatMap_right _).append_left _)
  kernel directory isKernel := reordered.mem_iff.mp (owned.kernel directory isKernel)

theorem withFrames (owned : spaces.Owned outside held owners) {frames : FrameBitmap}
    {elsewhere : Nat → Prop} {now : List Frame} (wellFormed : frames.WellFormed)
    (accounts : frames.Accounts elsewhere (now ++ owners.flatMap spaces.privateFrames)) :
    ({ spaces with frames } : AddressSpaces).Owned elsewhere now owners :=
  ⟨wellFormed, accounts, owned.kernel⟩

/-- Some owners may be forgotten; their frames are used for other purposes from then on. -/
theorem disown (lost : List Directory) (owned : spaces.Owned outside held (lost ++ owners))
    (kernel : ∀ directory, spaces.kernel = some directory → directory ∈ owners) :
    ∃ elsewhere, spaces.Owned elsewhere held owners := by
  have accounts := owned.accounts
  rw [List.flatMap_append] at accounts
  exact ⟨_, owned.wellFormed, (accounts.perm (List.perm_append_comm_assoc _ _ _)).disown _, kernel⟩

theorem nodup_frames (owned : spaces.Owned outside held owners) :
    (owners.flatMap spaces.privateFrames).Nodup :=
  (List.nodup_append.mp owned.accounts.distinct).2.1

/-- What one owner has for itself no other has. -/
theorem frame_notMem (owned : spaces.Owned outside held owners) (mem : directory ∈ owners)
    (otherMem : other ∈ owners) (differs : directory ≠ other)
    (mine : frame ∈ spaces.privateFrames directory) : frame ∉ spaces.privateFrames other := by
  have apart := (List.nodup_flatMap.mp owned.nodup_frames).2
  have symmetric : Std.Symm (Function.onFun List.Disjoint spaces.privateFrames) :=
    ⟨fun _ _ disjoint _ inLeft inRight => disjoint inRight inLeft⟩
  exact apart.forall mem otherMem differs mine

theorem nodup_owners (owned : spaces.Owned outside held owners) : owners.Nodup := by
  have apart := (List.nodup_flatMap.mp owned.nodup_frames).2
  apply apart.imp
  rintro left right disjoint rfl
  exact disjoint frame_mem_privateFrames frame_mem_privateFrames

/-- Each table of an owner belongs to the owner alone, or to the kernel. -/
theorem table_owner (owned : spaces.Owned outside held owners) (mem : directory ∈ owners)
    (named : spaces.tableFrame directory index = some table) :
    ∃ owner ∈ owners, spaces.tableFrame owner index = some table ∧
      spaces.isShared owner index table = false ∧ table ∈ spaces.privateFrames owner ∧
      (owner = directory ∨ spaces.kernel = some owner) := by
  cases shared : spaces.isShared directory index table with
  | false =>
      exact ⟨directory, mem, named, shared, mem_privateFrames.mpr (Or.inl ⟨index, named, shared⟩),
        Or.inl rfl⟩
  | true =>
      rcases isShared_eq_true.mp shared with ⟨kernel, isKernel, -, kernelNames⟩
      have own : spaces.isShared kernel index table = false := isShared_kernel isKernel
      exact ⟨kernel, owned.kernel kernel isKernel, kernelNames, own,
        mem_privateFrames.mpr (Or.inl ⟨index, kernelNames, own⟩), Or.inr isKernel⟩

theorem table_ne_frame (owned : spaces.Owned outside held owners) (mem : directory ∈ owners)
    (otherMem : other ∈ owners) (named : spaces.tableFrame other index = some table) :
    table ≠ directory.frame := by
  rcases owned.table_owner otherMem named with ⟨owner, ownerMem, ownerNames, own, tableMem, -⟩
  rintro rfl
  by_cases same : owner = directory
  · subst same
    have distinct := (List.nodup_flatMap.mp owned.nodup_frames).1 owner ownerMem
    rw [privateFrames_eq, List.nodup_append] at distinct
    refine distinct.2.2 owner.frame ?_ owner.frame List.mem_cons_self rfl
    exact List.mem_filterMap.mpr
      ⟨index, List.mem_finRange index, privateTable_eq_some.mpr ⟨ownerNames, own⟩⟩
  · exact owned.frame_notMem ownerMem mem same tableMem frame_mem_privateFrames

/-- A table that a directory has for itself stands at one index of the directory. -/
theorem index_unique (owned : spaces.Owned outside held owners) (mem : directory ∈ owners)
    {place : Fin Layout.pageEntries}
    (named : spaces.privateTable directory index = some table)
    (again : spaces.tableFrame directory place = some table) : place = index := by
  have own := privateTable_eq_some.mp named
  cases shared : spaces.isShared directory place table with
  | true =>
      rcases isShared_eq_true.mp shared with ⟨kernel, isKernel, differs, kernelNames⟩
      exact absurd (mem_privateFrames.mpr (Or.inl ⟨place, kernelNames, isShared_kernel isKernel⟩))
        (owned.frame_notMem mem (owned.kernel kernel isKernel) differs.symm
          (mem_privateFrames.mpr (Or.inl ⟨index, own⟩)))
  | false =>
      have distinct := (List.nodup_flatMap.mp owned.nodup_frames).1 directory mem
      rw [privateFrames_eq, List.nodup_append] at distinct
      have apart := List.pairwise_filterMap.mp distinct.1
      apply Classical.byContradiction
      intro elsewhere
      have symmetric : Std.Symm fun left right : Fin Layout.pageEntries =>
          ∀ one, spaces.privateTable directory left = some one →
            ∀ other, spaces.privateTable directory right = some other → one ≠ other :=
        ⟨fun _ _ differ one isOne other isOther same => differ other isOther one isOne same.symm⟩
      exact apart.forall (List.mem_finRange place) (List.mem_finRange index) elsewhere table
        (privateTable_eq_some.mpr ⟨again, shared⟩) table named rfl

theorem ne_of_notMem (owned : spaces.Owned outside held owners)
    (notIn : frame ∉ owners.flatMap spaces.privateFrames) (mem : directory ∈ owners) :
    frame ≠ directory.frame ∧ ∀ index, spaces.tableFrame directory index ≠ some frame := by
  have listed : ∀ owner ∈ owners, ∀ mine ∈ spaces.privateFrames owner, frame ≠ mine := by
    rintro owner ownerMem mine mineMem rfl
    exact notIn (List.mem_flatMap.mpr ⟨owner, ownerMem, mineMem⟩)
  refine ⟨listed directory mem _ frame_mem_privateFrames, ?_⟩
  intro index named
  rcases owned.table_owner mem named with ⟨owner, ownerMem, -, -, tableMem, -⟩
  exact listed owner ownerMem frame tableMem rfl

theorem fresh (owned : spaces.Owned outside held owners) {frames : FrameBitmap}
    (allocation : FrameBitmap.Allocation spaces.frames (some frame) frames)
    (mem : directory ∈ owners) :
    frame ≠ directory.frame ∧ ∀ index, spaces.tableFrame directory index ≠ some frame := by
  refine owned.ne_of_notMem ?_ mem
  intro listed
  exact owned.accounts.fresh allocation (List.mem_append_right _ listed)

/-- A table stands at one index of a directory, also if it is the kernel's. -/
theorem index_eq (owned : spaces.Owned outside held owners) (mem : directory ∈ owners)
    {place : Fin Layout.pageEntries} (named : spaces.tableFrame directory index = some table)
    (again : spaces.tableFrame directory place = some table) : place = index := by
  rcases owned.table_owner mem named with ⟨owner, ownerMem, ownerNames, own, tableMem, -⟩
  rcases owned.table_owner mem again with ⟨second, secondMem, secondNames, _, secondTableMem, -⟩
  by_cases same : owner = second
  · subst same
    exact owned.index_unique ownerMem (privateTable_eq_some.mpr ⟨ownerNames, own⟩) secondNames
  · exact absurd secondTableMem (owned.frame_notMem ownerMem secondMem same tableMem)

theorem separate (owned : spaces.Owned outside held owners) (mem : directory ∈ owners) :
    Separate spaces directory where
  wellFormed := owned.wellFormed
  used := owned.accounts.used
    (List.mem_append_right _ (List.mem_flatMap.mpr ⟨directory, mem, frame_mem_privateFrames⟩))
  tablesUsed index table named := by
    rcases owned.table_owner mem named with ⟨owner, ownerMem, -, -, tableMem, -⟩
    exact owned.accounts.used
      (List.mem_append_right _ (List.mem_flatMap.mpr ⟨owner, ownerMem, tableMem⟩))
  apart index named := owned.table_ne_frame mem mem named rfl
  once index place table named again := owned.index_eq mem named again

end Owned

end AddressSpaces

end KernelCore
