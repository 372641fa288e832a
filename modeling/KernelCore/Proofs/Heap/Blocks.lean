import KernelCore.Heap
import KernelCore.Proofs.Operation

/-!
# The block list of the heap

The heap keeps its blocks in an arena and links them by slot. `Heap.Path` follows the links and
collects the blocks it meets, each with its slot, so that everything else can be said about a plain
list. `Heap.Laid` ties a heap to such a list: the links lead through it, no slot outside it is
occupied, the blocks fill the region without gaps, and the count of used bytes is right.
`Heap.Sound` adds that no two free blocks are next to each other.
-/

namespace KernelCore.Heap

/-- A block with the slot that holds it. -/
abbrev Placed : Type := BlockSlot × Block

/-- The blocks that are met when links are followed from a cursor until another is reached. -/
def Path (heap : Heap) :
    (cursor : Option BlockSlot) → List Placed → (past : Option BlockSlot) → Prop
  | cursor, [], past => cursor = past
  | cursor, (slot, block) :: rest, past =>
      cursor = some slot ∧ getElem heap.slots slot slot.isLt = some block ∧
        heap.Path block.next rest past

/-- The blocks fill the stretch from `first` to `past`, each behind a header of its own. -/
def Tiles : (first past : Nat) → List Block → Prop
  | first, past, [] => first = past
  | first, past, block :: rest =>
      block.address.toNat = first + Layout.blockHeaderSize.toNat ∧
        Tiles (block.address.toNat + block.size.toNat) past rest

/-- Bytes of payload in the blocks that are not free. -/
def usedSize (blocks : List Block) : Nat :=
  ((blocks.filter (!·.free)).map (·.size.toNat)).sum

/-- Not both blocks are free. -/
def Separate (left right : Block) : Prop :=
  ¬(left.free = true ∧ right.free = true)

/-- The heap's blocks, in the order of the links, are the given ones. -/
structure Laid (heap : Heap) (entries : List Placed) : Prop where
  path : heap.Path heap.head entries none
  distinct : (entries.map Prod.fst).Nodup
  occupied : ∀ slot, getElem heap.slots slot slot.isLt ≠ none → slot ∈ entries.map Prod.fst
  tiled : Tiles heap.regionStart.toNat heap.regionEnd.toNat (entries.map Prod.snd)
  counted : heap.usedBytes.toNat = usedSize (entries.map Prod.snd)
  aligned : ∀ entry ∈ entries, entry.2.address.toNat % Layout.heapAlign.toNat =
    heap.regionStart.toNat % Layout.heapAlign.toNat

/-- The heap's blocks are the given ones, and free blocks are merged with their neighbours. -/
structure Sound (heap : Heap) (entries : List Placed) : Prop extends Laid heap entries where
  separated : (entries.map Prod.snd).IsChain Separate

/-- A stretch of the block list may give way to another. Nothing else in the arena changes, and the
new blocks fill the same bytes and are reached and left by the same links as the old ones. -/
structure Replaces (heap other : Heap) (middle fresh : List Placed) : Prop where
  regionStart : other.regionStart = heap.regionStart
  regionEnd : other.regionEnd = heap.regionEnd
  head : other.head = heap.head
  path : ∀ cursor past, heap.Path cursor middle past → other.Path cursor fresh past
  distinct : (fresh.map Prod.fst).Nodup
  outside : ∀ slot, slot ∉ middle.map Prod.fst → slot ∉ fresh.map Prod.fst →
    getElem other.slots slot slot.isLt = getElem heap.slots slot slot.isLt
  gone : ∀ slot ∈ middle.map Prod.fst, slot ∉ fresh.map Prod.fst →
    getElem other.slots slot slot.isLt = none
  spare : ∀ slot ∈ fresh.map Prod.fst,
    slot ∈ middle.map Prod.fst ∨ getElem heap.slots slot slot.isLt = none
  tiled : ∀ first past, Tiles first past (middle.map Prod.snd) →
    Tiles first past (fresh.map Prod.snd)
  counted : other.usedBytes.toNat + usedSize (middle.map Prod.snd) =
    heap.usedBytes.toNat + usedSize (fresh.map Prod.snd)
  aligned : ∀ entry ∈ fresh, entry.2.address.toNat % Layout.heapAlign.toNat =
    heap.regionStart.toNat % Layout.heapAlign.toNat

section Path

variable {heap other : Heap} {cursor past : Option BlockSlot} {entries front back : List Placed}

theorem path_append :
    heap.Path cursor (front ++ back) past ↔
      ∃ middle, heap.Path cursor front middle ∧ heap.Path middle back past := by
  induction front generalizing cursor with
  | nil => simp [Path]
  | cons entry rest ih =>
      simp only [List.cons_append, Path, ih]
      grind

theorem Path.congr (path : heap.Path cursor entries past)
    (same : ∀ entry ∈ entries, other.slots[entry.1] = heap.slots[entry.1]) :
    other.Path cursor entries past := by
  induction entries generalizing cursor with
  | nil => exact path
  | cons entry rest ih =>
      rcases path with ⟨start, found, onward⟩
      refine ⟨start, ?_, ih onward fun entry mem => same entry (List.mem_cons_of_mem _ mem)⟩
      rw [same entry List.mem_cons_self, found]

theorem Path.block_mem (path : heap.Path cursor entries past) {slot : BlockSlot} {block : Block}
    (mem : (slot, block) ∈ entries) : getElem heap.slots slot slot.isLt = some block := by
  induction entries generalizing cursor with
  | nil => exact absurd mem List.not_mem_nil
  | cons entry rest ih =>
      rcases path with ⟨_, found, onward⟩
      rcases List.mem_cons.mp mem with rfl | mem
      · exact found
      · exact ih onward mem

theorem follow_of_path (path : heap.Path cursor entries none) {fuel : Nat}
    (enough : entries.length ≤ fuel) : heap.follow fuel cursor = entries.map Prod.fst := by
  induction entries generalizing cursor fuel with
  | nil =>
      cases path
      cases fuel <;> rfl
  | cons entry rest ih =>
      rcases path with ⟨rfl, found, onward⟩
      cases fuel with
      | zero => simp at enough
      | succ fuel =>
          simp only [follow, found, Option.bind_some, List.map_cons, List.cons.injEq, true_and]
          exact ih onward (by simpa using enough)

end Path

section Tiles

variable {first past : Nat} {blocks front back : List Block}

theorem tiles_append :
    Tiles first past (front ++ back) ↔
      ∃ middle, Tiles first middle front ∧ Tiles middle past back := by
  induction front generalizing first with
  | nil => simp [Tiles]
  | cons block rest ih =>
      simp only [List.cons_append, Tiles, ih]
      grind

theorem Tiles.total (tiles : Tiles first past blocks) :
    first + ((blocks.map (·.size.toNat)).sum + Layout.blockHeaderSize.toNat * blocks.length) =
      past := by
  induction blocks generalizing first with
  | nil => simpa [Tiles] using tiles
  | cons block rest ih =>
      rcases tiles with ⟨start, onward⟩
      have total := ih onward
      simp only [List.map_cons, List.sum_cons, List.length_cons]
      rw [Nat.mul_add, Nat.mul_one]
      omega

theorem Tiles.first_le (tiles : Tiles first past blocks) : first ≤ past := by
  have total := tiles.total
  omega

theorem Tiles.bounds (tiles : Tiles first past blocks) {block : Block} (mem : block ∈ blocks) :
    first + Layout.blockHeaderSize.toNat ≤ block.address.toNat ∧
      block.address.toNat + block.size.toNat ≤ past := by
  induction blocks generalizing first with
  | nil => exact absurd mem List.not_mem_nil
  | cons head rest ih =>
      rcases tiles with ⟨start, onward⟩
      rcases List.mem_cons.mp mem with rfl | mem
      · exact ⟨start.ge, onward.first_le⟩
      · have inside := ih onward mem
        exact ⟨by omega, inside.2⟩

/-- Each block ends before the headers of those that follow it begin. -/
theorem Tiles.pairwise (tiles : Tiles first past blocks) :
    blocks.Pairwise fun left right =>
      left.address.toNat + left.size.toNat + Layout.blockHeaderSize.toNat ≤
        right.address.toNat := by
  induction blocks generalizing first with
  | nil => exact List.Pairwise.nil
  | cons head rest ih =>
      rcases tiles with ⟨_, onward⟩
      exact List.Pairwise.cons (fun block mem => (onward.bounds mem).1) (ih onward)

@[simp]
theorem usedSize_nil : usedSize [] = 0 :=
  rfl

@[simp]
theorem usedSize_cons (block : Block) (rest : List Block) :
    usedSize (block :: rest) = (if block.free then 0 else block.size.toNat) + usedSize rest := by
  cases free : block.free <;> simp [usedSize, free]

@[simp]
theorem usedSize_append (left right : List Block) :
    usedSize (left ++ right) = usedSize left + usedSize right := by
  simp [usedSize]

theorem usedSize_le (blocks : List Block) : usedSize blocks ≤ (blocks.map (·.size.toNat)).sum := by
  induction blocks with
  | nil => exact Nat.le_refl _
  | cons block rest ih =>
      simp only [usedSize_cons, List.map_cons, List.sum_cons]
      split <;> omega

end Tiles

section Laid

variable {heap other : Heap} {entries front back : List Placed}

namespace Laid

theorem length_le (laid : heap.Laid entries) : entries.length ≤ Layout.maxHeapBlocks := by
  simpa using laid.distinct.length_le_card

theorem chain_eq (laid : heap.Laid entries) : heap.chain = entries.map Prod.fst :=
  follow_of_path laid.path laid.length_le

theorem slot_eq (laid : heap.Laid entries) {slot : BlockSlot} {block : Block}
    (mem : (slot, block) ∈ entries) : getElem heap.slots slot slot.isLt = some block :=
  laid.path.block_mem mem

theorem block_eq (laid : heap.Laid entries) {slot : BlockSlot} {block : Block}
    (mem : (slot, block) ∈ entries) : heap.block slot = .ok block := by
  simp [Heap.block, laid.slot_eq mem]

/-- Reading the blocks off the links gives the list. -/
theorem blocks_eq (laid : heap.Laid entries) : heap.blocks = .ok (entries.map Prod.snd) := by
  have reading : ∀ part : List Placed, (∀ entry ∈ part, entry ∈ entries) →
      (part.map Prod.fst).mapM heap.block = .ok (part.map Prod.snd) := by
    intro part sub
    induction part with
    | nil => rfl
    | cons entry rest ih =>
        have first := laid.block_eq (sub entry List.mem_cons_self)
        have others := ih fun entry mem => sub entry (List.mem_cons_of_mem _ mem)
        simp [List.mapM_cons, first, others, bind, Except.bind, pure, Except.pure]
  rw [blocks, laid.chain_eq]
  exact reading entries fun _ mem => mem

theorem bounds (laid : heap.Laid entries) {entry : Placed} (mem : entry ∈ entries) :
    heap.regionStart.toNat + Layout.blockHeaderSize.toNat ≤ entry.2.address.toNat ∧
      entry.2.address.toNat + entry.2.size.toNat ≤ heap.regionEnd.toNat :=
  laid.tiled.bounds (List.mem_map_of_mem mem)

theorem notMem_middle {middle : List Placed} (laid : heap.Laid (front ++ (middle ++ back)))
    {entry : Placed} (mem : entry ∈ front ++ back) : entry.1 ∉ middle.map Prod.fst := by
  have slots := laid.distinct
  simp only [List.map_append, List.nodup_append] at slots
  rcases slots with ⟨-, ⟨-, -, middleBack⟩, frontRest⟩
  intro old
  rcases List.mem_append.mp mem with inFront | inBack
  · exact frontRest entry.1 (List.mem_map_of_mem inFront) entry.1
      (List.mem_append_left _ old) rfl
  · exact middleBack entry.1 old entry.1 (List.mem_map_of_mem inBack) rfl

theorem notMem_fresh {middle fresh : List Placed} (laid : heap.Laid (front ++ (middle ++ back)))
    (replaces : Replaces heap other middle fresh) {entry : Placed} (mem : entry ∈ front ++ back) :
    entry.1 ∉ fresh.map Prod.fst := by
  intro isFresh
  rcases replaces.spare entry.1 isFresh with old | empty
  · exact laid.notMem_middle mem old
  · have here : getElem heap.slots entry.1 entry.1.isLt = some entry.2 := by
      apply laid.slot_eq
      grind
    simp [empty] at here

theorem replace (middle fresh : List Placed) (laid : heap.Laid (front ++ (middle ++ back)))
    (replaces : Replaces heap other middle fresh) : other.Laid (front ++ (fresh ++ back)) := by
  have kept : ∀ entry ∈ front ++ back, other.slots[entry.1] = heap.slots[entry.1] := by
    intro entry mem
    exact replaces.outside entry.1 (laid.notMem_middle mem) (laid.notMem_fresh replaces mem)
  constructor
  · rcases path_append.mp laid.path with ⟨enter, frontPath, rest⟩
    rcases path_append.mp rest with ⟨leave, middlePath, backPath⟩
    rw [replaces.head]
    refine path_append.mpr ⟨enter, frontPath.congr fun entry mem =>
      kept entry (List.mem_append_left _ mem), ?_⟩
    exact path_append.mpr ⟨leave, replaces.path _ _ middlePath, backPath.congr fun entry mem =>
      kept entry (List.mem_append_right _ mem)⟩
  · have slots := laid.distinct
    simp only [List.map_append, List.nodup_append] at slots ⊢
    rcases slots with ⟨frontDistinct, ⟨-, backDistinct, -⟩, frontRest⟩
    refine ⟨frontDistinct, ⟨replaces.distinct, backDistinct, ?_⟩, ?_⟩
    · rintro slot isFresh _ inBack rfl
      rcases List.mem_map.mp inBack with ⟨entry, mem, rfl⟩
      exact laid.notMem_fresh replaces (List.mem_append_right _ mem) isFresh
    · rintro slot inFront _ inRest rfl
      rcases List.mem_map.mp inFront with ⟨entry, mem, rfl⟩
      rcases List.mem_append.mp inRest with isFresh | inBack
      · exact laid.notMem_fresh replaces (List.mem_append_left _ mem) isFresh
      · exact frontRest entry.1 inFront entry.1 (List.mem_append_right _ inBack) rfl
  · intro slot occupied
    by_cases isFresh : slot ∈ fresh.map Prod.fst
    · simp [isFresh]
    · by_cases old : slot ∈ middle.map Prod.fst
      · exact absurd (replaces.gone slot old isFresh) occupied
      · rw [replaces.outside slot old isFresh] at occupied
        have listed := laid.occupied slot occupied
        grind
  · rw [replaces.regionStart, replaces.regionEnd]
    have tiles := laid.tiled
    simp only [List.map_append, tiles_append] at tiles ⊢
    rcases tiles with ⟨enter, frontTiles, leave, middleTiles, backTiles⟩
    exact ⟨enter, frontTiles, leave, replaces.tiled _ _ middleTiles, backTiles⟩
  · have total := laid.counted
    have difference := replaces.counted
    simp only [List.map_append, usedSize_append] at total ⊢
    omega
  · intro entry mem
    rw [replaces.regionStart]
    by_cases isFresh : entry ∈ fresh
    · exact replaces.aligned entry isFresh
    · apply laid.aligned
      grind

end Laid

end Laid

end KernelCore.Heap
