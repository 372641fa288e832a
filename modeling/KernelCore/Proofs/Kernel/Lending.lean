import KernelCore.Proofs.Heap.Holdings
import KernelCore.Proofs.Kernel.Handled
import KernelCore.Proofs.Kernel.Registers

/-!
# Whose heap blocks are in use

Each block of the kernel's heap that is in use has one owner: a live process other than the idle
process, which has its heap there, or a user who got it from the kernel. A `Lending` keeps what
users got. However processes come and go, also if some cannot be created, each block is given back
when its owner ends or gives it back, so that without owners the heap is one free block again.
-/

namespace KernelCore

open ProcessTable

namespace ProcessTable

/-- What the process in a slot was given, unless it is the idle process. -/
def provisionIn (table : ProcessTable) (idle : Pid) (slot : Slot) : Option ProcessResources :=
  (table.occupant slot).bind fun (pid, resources) => if pid = idle then none else some resources

/-- What all live processes but the idle process were given. -/
def provisions (table : ProcessTable) (idle : Pid) : List ProcessResources :=
  (List.finRange Layout.maxProcesses).filterMap (table.provisionIn idle)

section Provisions

variable {before after table : ProcessTable} {idle pid : Pid} {slot : Slot}
  {resources : ProcessResources}

theorem provisionIn_of_occupant (here : table.occupant slot = some (pid, resources))
    (other : pid ≠ idle) : table.provisionIn idle slot = some resources := by
  simp [provisionIn, here, other]

theorem mem_provisions (here : table.occupant slot = some (pid, resources)) (other : pid ≠ idle) :
    resources ∈ table.provisions idle :=
  List.mem_filterMap.mpr ⟨slot, List.mem_finRange slot, provisionIn_of_occupant here other⟩

theorem provisions_eq_live (table : ProcessTable) (idle : Pid) :
    table.provisions idle =
      (table.live.filter fun process => process.pid ≠ idle).map ProcessRecord.resources := by
  have all : table.processes.toList =
      (List.finRange Layout.maxProcesses).map table.process := by
    apply List.ext_getElem
    · simp
    · intro place _ _
      simp [process]
  rw [provisions, live, all, List.filter_map, List.filter_map, List.map_map,
    ← List.filterMap_eq_map, List.filterMap_filter, List.filterMap_filter]
  apply List.filterMap_congr
  intro slot _
  by_cases isLive : (table.process slot).isLive = true
  · by_cases isIdle : (table.process slot).pid = idle
    · simp [provisionIn, occupant, ProcessRecord.identity, isLive, isIdle]
    · simp [provisionIn, occupant, ProcessRecord.identity, isLive, isIdle]
  · simp [provisionIn, occupant, ProcessRecord.identity, isLive]

theorem provisions_congr (same : ∀ slot, after.occupant slot = before.occupant slot) :
    after.provisions idle = before.provisions idle := by
  simp only [provisions, funext fun slot => show after.provisionIn idle slot =
    before.provisionIn idle slot by rw [provisionIn, provisionIn, same slot]]

theorem Entered.provisions_perm (entered : Entered before after slot pid resources)
    (other : pid ≠ idle) :
    (after.provisions idle).Perm (resources :: before.provisions idle) := by
  refine filterMap_perm_of_update _ _ (List.nodup_finRange _)
    (List.mem_finRange slot) ?_ ?_ ?_
  · simp [provisionIn, entered.vacant]
  · rw [provisionIn_of_occupant entered.here other]
  · intro place differs
    rw [provisionIn, provisionIn, entered.others place differs]

theorem Left.provisions_perm {process : ProcessRecord} (left : Left before after slot process)
    (other : process.pid ≠ idle) :
    (before.provisions idle).Perm (process.resources :: after.provisions idle) := by
  refine filterMap_perm_of_update _ _ (List.nodup_finRange _)
    (List.mem_finRange slot) ?_ ?_ ?_
  · simp [provisionIn, left.vacant]
  · rw [provisionIn_of_occupant left.here other]
  · intro place differs
    rw [provisionIn, provisionIn, left.others place differs]

end Provisions

end ProcessTable

namespace Kernel

open Heap

/-- The used blocks of the heap are those of processes and those that users have, and each process
has a heap of its own in its block. -/
structure Provided (kernel : Kernel) (lent : List UInt32) (entries : List Placed) : Prop where
  sound : kernel.heap.Sound entries
  regionStart : kernel.heap.regionStart = Layout.kernelHeapStart
  regionEnd : kernel.heap.regionEnd = Layout.kernelHeapEnd
  housed : kernel.dispatcher.Housed
  idleLive : ∃ slot resources, kernel.table.occupant slot = some (kernel.idle, resources)
  owners : ((handedOut entries).map Prod.fst).Perm
    ((kernel.table.provisions kernel.idle).map ProcessResources.heapStart ++ lent)
  covers : ∀ resources ∈ kernel.table.provisions kernel.idle,
    resources.heapEnd.toNat = resources.heapStart.toNat + Layout.processHeapSize.toNat ∧
      ∃ size, (resources.heapStart, size) ∈ handedOut entries ∧
        Layout.processHeapSize.toNat ≤ size.toNat

section Provided

variable {before after kernel : Kernel} {call : Custody.Call} {answer : Custody.Answer}
  {plan : Option Switch} {lent : List UInt32} {entries : List Placed}

/-- What does not change who lives where does not change whose blocks they are. -/
theorem Provided.congr (provided : before.Provided lent entries) (heap : after.heap = before.heap)
    (idle : after.idle = before.idle) (housed : after.dispatcher.Housed)
    (same : ∀ slot, after.table.occupant slot = before.table.occupant slot) :
    after.Provided lent entries := by
  rcases provided with ⟨sound, regionStart, regionEnd, -, idleLive, owners, covers⟩
  refine ⟨heap ▸ sound, heap ▸ regionStart, heap ▸ regionEnd, housed, ?_, ?_, ?_⟩
  · rcases idleLive with ⟨slot, resources, here⟩
    exact ⟨slot, resources, by rw [same, idle, here]⟩
  · rw [provisions_congr same, idle]
    exact owners
  · rw [provisions_congr same, idle]
    exact covers

theorem occupant_of_decides {request : Dispatcher.Call} (asks : call.request = some request)
    (live : CurrentLive before.table) (decides : Decides request.act before plan after)
    (slot : Slot) : after.table.occupant slot = before.table.occupant slot :=
  (scheduled_of_decides asks live decides).occupant slot

theorem Decides.same {decision : Operation Dispatcher (Option Switch)}
    (decides : Decides decision before plan after) :
    after.heap = before.heap ∧ after.idle = before.idle := by
  rcases decides with ⟨dispatcher, current, decided, rfl⟩
  exact ⟨rfl, rfl⟩

theorem Provided.intact (provided : before.Provided lent entries) : before.Intact :=
  ⟨⟨entries, provided.sound⟩, provided.housed⟩

theorem Provided.decides {request : Dispatcher.Call} (provided : before.Provided lent entries)
    (asks : call.request = some request) (decides : Decides request.act before plan after) :
    after.Provided lent entries :=
  provided.congr decides.same.1 decides.same.2
    (provided.intact.decides request decides).housed
    (occupant_of_decides asks provided.housed.currentLive decides)

/-- A process that is created owns the block that was taken for it. -/
theorem Provided.spawned (provided : before.Provided lent entries) {name : String}
    {entry priority : UInt32} {reply : Except KernelError Pid}
    (spawned : Spawned name entry priority before reply after) :
    ∃ result, after.Provided lent result := by
  have housed := (provided.intact.spawned spawned).housed
  cases spawned with
  | full isFull => exact ⟨entries, provided⟩
  | noBlock refused => exact ⟨entries, provided⟩
  | noFrame refused => exact ⟨entries, provided⟩
  | @created pid heapStart heapEnd heap directory spaces table granted made reach created =>
      rcases provided with ⟨sound, regionStart, regionEnd, -, idleLive, owners, covers⟩
      rcases create_cases created with ⟨_, refuted, -⟩ | ⟨slot, _, same, entered⟩
      · cases refuted
      cases same
      rcases idleLive with ⟨home, idleResources, idleHere⟩
      -- The idle process is there already, so the new id is another one.
      have other : pid ≠ before.idle := by
        rintro rfl
        exact entered.unused home idleResources idleHere
      rcases sound.adds granted with ⟨result, extent, soundAfter, start, past, added, enough⟩
      have perm := entered.provisions_perm other
      refine ⟨result, soundAfter, start.trans regionStart, past.trans regionEnd, housed, ?_, ?_, ?_⟩
      · refine ⟨home, idleResources, ?_⟩
        rw [← idleHere]
        apply entered.others
        rintro rfl
        rw [entered.vacant] at idleHere
        cases idleHere
      · have all := (added.map Prod.fst).trans (owners.cons heapStart)
        exact all.trans ((perm.map ProcessResources.heapStart).append_right lent).symm
      · intro resources mem
        rcases List.mem_cons.mp (perm.subset mem) with rfl | old
        · exact ⟨reach, extent, added.symm.subset List.mem_cons_self, enough⟩
        · rcases covers resources old with ⟨length, size, held, large⟩
          exact ⟨length, size, added.symm.subset (List.mem_cons_of_mem _ held), large⟩

/-- If a block is given back that is not one of a process, those of processes stay. -/
theorem covers_of_removed {result : List Placed} {address granted : UInt32}
    {rest : List ProcessResources}
    (removed : (handedOut entries).Perm ((address, granted) :: handedOut result))
    (distinct : ((handedOut entries).map Prod.fst).Nodup)
    (owners : ((handedOut result).map Prod.fst).Perm
      (rest.map ProcessResources.heapStart ++ lent))
    {resources : ProcessResources} (mem : resources ∈ rest) {size : UInt32}
    (held : (resources.heapStart, size) ∈ handedOut entries) :
    (resources.heapStart, size) ∈ handedOut result := by
  rcases List.mem_cons.mp (removed.subset held) with same | stays
  · rw [Prod.mk.injEq] at same
    have apart := (List.nodup_cons.mp ((removed.map Prod.fst).nodup_iff.mp distinct)).1
    have listed : resources.heapStart ∈ (handedOut result).map Prod.fst :=
      owners.symm.subset (List.mem_append_left _ (List.mem_map_of_mem mem))
    exact absurd (same.1 ▸ listed) apart
  · exact stays

/-- A process that leaves gives its block back. -/
theorem Provided.left (provided : kernel.Provided lent entries) {table : ProcessTable} {slot : Slot}
    {process : ProcessRecord} (left : Left kernel.table table slot process)
    (other : process.pid ≠ kernel.idle)
    (housed : Dispatcher.Housed { kernel.dispatcher with table }) {heap : Heap}
    (released : process.resources.heapStart < process.resources.heapEnd →
      ∃ reply, (Heap.free process.resources.heapStart).Yields kernel.heap reply heap) :
    ∃ result, ({ kernel with heap, dispatcher := { kernel.dispatcher with table } } :
      Kernel).Provided lent result := by
  rcases provided with ⟨sound, regionStart, regionEnd, -, ⟨home, given, idleHere⟩, owners, covers⟩
  have perm := left.provisions_perm other
  rcases covers _ (perm.symm.subset List.mem_cons_self) with ⟨length, extent, held, -⟩
  have some : process.resources.heapStart < process.resources.heapEnd := by
    rw [UInt32.lt_iff_toNat_lt, length]
    exact Nat.lt_add_of_pos_right (by decide)
  rcases released some with ⟨reply, done⟩
  rcases sound.removes (List.mem_map_of_mem held) done with
    ⟨-, result, granted, soundAfter, start, past, removed⟩
  have elsewhere : home ≠ slot := by
    rintro rfl
    rw [left.here, Option.some.injEq, Prod.mk.injEq] at idleHere
    exact other idleHere.1
  have ownersAfter : ((handedOut result).map Prod.fst).Perm
      ((table.provisions kernel.idle).map ProcessResources.heapStart ++ lent) := by
    have all := (removed.map Prod.fst).symm.trans owners
    exact (all.trans ((perm.map ProcessResources.heapStart).append_right lent)).cons_inv
  refine ⟨result, soundAfter, start.trans regionStart, past.trans regionEnd, housed, ?_,
    ownersAfter, ?_⟩
  · exact ⟨home, given, (left.others home elsewhere).trans idleHere⟩
  · intro resources mem
    rcases covers resources (perm.symm.subset (List.mem_cons_of_mem _ mem)) with
      ⟨length, size, stays, large⟩
    exact ⟨length, size, covers_of_removed removed (Ledger.handedOut_nodup sound) ownersAfter mem
      stays, large⟩

/-- When a process ends, its block is free, and those of the others are still theirs. -/
theorem Provided.exited (provided : before.Provided lent entries) {code : Int32}
    (exited : Exited code before plan after) : ∃ result, after.Provided lent result := by
  cases exited with
  | ignored isIdle => exact ⟨entries, provided⟩
  | nobody noCurrent => exact ⟨entries, provided⟩
  | @ended process table freed _ _ other ending returned decided =>
      rcases exit_cases provided.housed.currentLive ending with ⟨refuted, -⟩ | ⟨slot, _, same, left⟩
      · cases refuted
      cases same
      have notIdle : process.pid ≠ before.idle := by
        intro isIdle
        rw [← isIdle] at other
        exact other (currentPid_of_occupant left.current left.here)
      have housed := Dispatcher.Call.act_housed (.exit code) provided.housed
        (Dispatcher.yields_unplanned.mpr ⟨rfl, _, table, ending, rfl⟩)
      rcases provided.left left notIdle housed returned.heap with ⟨result, vacated⟩
      rcases returned.parts with ⟨spaces, heap, rfl⟩
      have freed : ({ before with spaces, heap, dispatcher := { before.dispatcher with table } } :
          Kernel).Provided lent result :=
        vacated.congr rfl rfl housed fun _ => rfl
      have asks : Custody.Call.start.request = some .schedule := rfl
      exact ⟨result, freed.decides asks decided⟩

/-- A call that does not take a block or give one back for a user leaves it to processes. -/
theorem Provided.handled (provided : before.Provided lent entries)
    (handled : Handled before call answer after) (notTaken : ∀ size, call ≠ .kmalloc size)
    (notGiven : ∀ address, call ≠ .kfree address) : ∃ result, after.Provided lent result := by
  cases handled with
  | spawned outcome => exact provided.spawned outcome
  | decided asks decides => exact ⟨entries, provided.decides asks decides⟩
  | exited quits outcome => exact provided.exited outcome
  | @performed switch cpu =>
      have steady := Dispatcher.steady_apply switch before.cpu.registers before.table
      have housed := Dispatcher.Call.act_housed (.perform switch before.cpu.registers)
        provided.housed (Dispatcher.yields_unplanned.mpr
          ⟨rfl, (), _, Operation.yields_modify.mpr rfl, rfl⟩)
      exact ⟨entries, provided.congr rfl rfl housed steady.occupant⟩
  | allocated done => exact absurd rfl (notTaken _)
  | freed done => exact absurd rfl (notGiven _)
  | elsewhere spaces => exact ⟨entries, provided.congr rfl rfl provided.housed fun _ => rfl⟩

/-- A block that a user gets is the user's. -/
theorem Provided.kmalloc (provided : kernel.Provided lent entries) {size address : UInt32}
    {heap : Heap} (done : (Heap.allocate size).Yields kernel.heap (.ok address) heap) :
    ∃ result, ({ kernel with heap } : Kernel).Provided (address :: lent) result := by
  rcases provided with ⟨sound, regionStart, regionEnd, housed, idleLive, owners, covers⟩
  rcases sound.adds done with ⟨result, extent, soundAfter, start, past, added, -⟩
  refine ⟨result, soundAfter, start.trans regionStart, past.trans regionEnd, housed, idleLive,
    ?_, ?_⟩
  · exact ((added.map Prod.fst).trans (owners.cons address)).trans List.perm_middle.symm
  · intro resources mem
    rcases covers resources mem with ⟨length, size, held, large⟩
    exact ⟨length, size, added.symm.subset (List.mem_cons_of_mem _ held), large⟩

/-- A user gives a block back. -/
theorem Provided.kfree (provided : kernel.Provided lent entries) {address : UInt32}
    (mine : address ∈ lent) {reply : Except HeapError Unit} {heap : Heap}
    (done : (Heap.free address).Yields kernel.heap reply heap) :
    reply = .ok () ∧
      ∃ result, ({ kernel with heap } : Kernel).Provided (lent.erase address) result := by
  rcases provided with ⟨sound, regionStart, regionEnd, housed, idleLive, owners, covers⟩
  have held := owners.symm.subset (List.mem_append_right _ mine)
  rcases sound.removes held done with
    ⟨accepted, result, granted, soundAfter, start, past, removed⟩
  have ownersAfter : ((handedOut result).map Prod.fst).Perm
      ((kernel.table.provisions kernel.idle).map ProcessResources.heapStart ++
        lent.erase address) := by
    have all := ((removed.map Prod.fst).symm.trans owners).trans
      ((List.perm_cons_erase mine).append_left _)
    exact (all.trans List.perm_middle).cons_inv
  refine ⟨accepted, result, soundAfter, start.trans regionStart, past.trans regionEnd, housed,
    idleLive, ownersAfter, ?_⟩
  intro resources mem
  rcases covers resources mem with ⟨length, size, stays, large⟩
  exact ⟨length, size, covers_of_removed removed (Ledger.handedOut_nodup sound) ownersAfter mem
    stays, large⟩

/-- After bring-up there is only the idle process, and nothing is taken from the heap. -/
theorem provided_of_begun {idleEntry : UInt32} {config : SchedulerConfig}
    (begun : Begun idleEntry config before (.ok ()) after) :
    ∃ entries, after.Provided [] entries := by
  have housed := (intact_of_ready begun).housed
  rcases lonely_of_begun begun with ⟨-, home, lonely, -, ready⟩
  have nobody : after.table.provisions after.idle = [] := by
    rw [provisions_eq_live, List.map_eq_nil_iff, List.filter_eq_nil_iff]
    intro process live
    rcases occupant_of_mem_live live with ⟨slot, rfl, here⟩
    have isLive : (after.table.process slot).isLive = true :=
      (ProcessRecord.identity_eq_some.mp here).1
    simp [lonely.alone slot isLive, lonely.pid]
  have idleLive := Dispatcher.occupant_of_ready ready
  rw [lonely.pid] at idleLive
  cases begun with
  | ready heap created dispatcher =>
      rcases Heap.reset_cases before.heap Layout.kernelHeapStart Layout.kernelHeapEnd with
        ⟨fresh, entries, reset, sound, nothing, regionStart, regionEnd⟩ | ⟨-, refused⟩
      · have same : after.heap = fresh := (heap.unique reset).2
        refine ⟨entries, same ▸ sound, same ▸ regionStart, same ▸ regionEnd, housed,
          ⟨home, _, idleLive⟩, ?_, ?_⟩
        · rw [nothing, nobody]
          exact .nil
        · rw [nobody]
          exact fun _ mem => absurd mem List.not_mem_nil
      · cases (heap.unique refused).1

end Provided

end Kernel

/-- The kernel with its users, and the addresses of blocks that users have. -/
structure Lending where
  custody : Custody
  lent : List UInt32

namespace Lending

/-- Nobody has got a block yet. -/
def ofKernel (kernel : Kernel) : Lending :=
  { custody := .ofKernel kernel, lent := [] }

def onCustody {Value : Type} (action : Operation Custody Value) : Operation Lending Value :=
  action.within (fun ⟨custody, lent⟩ => (custody, lent)) Lending.mk

/-- Does what is called for, and keeps account of the blocks that users have. -/
def serve : Custody.Call → Operation Lending Unit
  | .kmalloc size => do
      if let .ok address ← onCustody (Custody.onKernel (Kernel.kmalloc size).result) then
        modify fun lending => { lending with lent := address :: lending.lent }
  | .kfree address => do
      if let .ok () ← onCustody (Custody.onKernel (Kernel.kfree address).result) then
        modify fun lending => { lending with lent := lending.lent.erase address }
  | call => onCustody call.act

/-- Users give back only what they have. -/
def Permitted (lending : Lending) : Custody.Call → Prop
  | .kfree address => address ∈ lending.lent
  | _ => True

/-- Where a sequence of permitted calls leads. Between calls, the processor may do whatever it
likes. -/
inductive Run : Lending → List Custody.Call → Lending → Prop where
  | nil {lending : Lending} : Run lending [] lending
  | ran {custody : Custody} {lent : List UInt32} {final : Lending} {rest : List Custody.Call}
      (cpu : Cpu)
      (onward : Run ⟨{ custody with kernel := { custody.kernel with cpu } }, lent⟩ rest final) :
      Run ⟨custody, lent⟩ rest final
  | cons {start between final : Lending} {call : Custody.Call} {rest : List Custody.Call}
      (permitted : start.Permitted call) (step : (serve call).Yields start () between)
      (onward : Run between rest final) : Run start (call :: rest) final

/-- The live processes other than the idle process. -/
def tenants (lending : Lending) : List ProcessRecord :=
  lending.custody.kernel.table.live.filter fun process =>
    process.pid ≠ lending.custody.kernel.idle

/-- From where to where the heaps of processes reach, and the blocks that users have. -/
def stretches (lending : Lending) (blocks : List Block) : List (Nat × Nat) :=
  lending.tenants.map (fun process =>
    (process.resources.heapStart.toNat, process.resources.heapEnd.toNat)) ++
  (blocks.filter fun block => !block.free && block.address ∈ lending.lent).map fun block =>
    (block.address.toNat, block.address.toNat + block.size.toNat)

/-- Each used block of the heap is that of one process or of one user, and nobody has any of the
heap of another. -/
structure Settled (lending : Lending) (blocks : List Block) : Prop where
  owners : ((blocks.filter (!·.free)).map Block.address).Perm
    (lending.tenants.map (·.resources.heapStart) ++ lending.lent)
  distinct : ((blocks.filter (!·.free)).map Block.address).Nodup
  length : ∀ process ∈ lending.tenants, process.resources.heapEnd.toNat =
    process.resources.heapStart.toNat + Layout.processHeapSize.toNat
  inside : ∀ process ∈ lending.tenants, ∃ block ∈ blocks, block.free = false ∧
    block.address = process.resources.heapStart ∧
      process.resources.heapEnd.toNat ≤ block.address.toNat + block.size.toNat
  apart : (lending.stretches blocks).Pairwise fun left right =>
    left.2 ≤ right.1 ∨ right.2 ≤ left.1
  bounded : ∀ stretch ∈ lending.stretches blocks,
    Layout.kernelHeapStart.toNat ≤ stretch.1 ∧ stretch.2 ≤ Layout.kernelHeapEnd.toNat
  single : lending.tenants = [] → lending.lent = [] → ∃ block, blocks = [block] ∧
    block.free = true ∧
      block.address.toNat = Layout.kernelHeapStart.toNat + Layout.blockHeaderSize.toNat ∧
      block.address.toNat + block.size.toNat = Layout.kernelHeapEnd.toNat

section Lending

open Kernel Heap

variable {start before after final lending : Lending} {call : Custody.Call}
  {calls : List Custody.Call} {entries : List Placed}

theorem yields_onCustody {Value : Type} {action : Operation Custody Value} {value : Value} :
    (onCustody action).Yields before value after ↔
      ∃ custody, action.Yields before.custody value custody ∧ after = ⟨custody, before.lent⟩ :=
  Operation.yields_within

/-- The blocks have owners. -/
def Provided (lending : Lending) : Prop :=
  ∃ entries, lending.custody.kernel.Provided lending.lent entries

theorem heap_of_onCustody {Value : Type} {action : Operation Heap Value} {value : Value}
    (done : (onCustody (Custody.onKernel (masked (onHeap action)))).Yields before value after) :
    ∃ heap, action.Yields before.custody.kernel.heap value heap ∧
      after = { before with
        custody := { before.custody with kernel := { before.custody.kernel with heap } } } := by
  rcases yields_onCustody.mp done with ⟨custody, onKernel, rfl⟩
  rcases Custody.yields_onKernel.mp onKernel with ⟨kernel, run, rfl⟩
  rcases yields_masked_onHeap.mp run with ⟨heap, asked, rfl⟩
  exact ⟨heap, asked, rfl⟩

theorem onCustody_of_heap {Value : Type} {action : Operation Heap Value} {value : Value}
    {heap : Heap} (asked : action.Yields before.custody.kernel.heap value heap) :
    (onCustody (Custody.onKernel (masked (onHeap action)))).Yields before value
      { before with
        custody := { before.custody with kernel := { before.custody.kernel with heap } } } :=
  yields_onCustody.mpr ⟨_, Custody.yields_onKernel.mpr
    ⟨_, yields_masked_onHeap.mpr ⟨heap, asked, rfl⟩, rfl⟩, rfl⟩

theorem kmalloc_provided (provided : before.Provided) {size : UInt32}
    (step : (serve (.kmalloc size)).Yields before () after) : after.Provided := by
  rcases Operation.yields_bind.mp step with ⟨reply, between, done, kept⟩
  rcases heap_of_onCustody done with ⟨heap, asked, rfl⟩
  rcases provided with ⟨entries, provided⟩
  cases reply with
  | ok address =>
      rcases Operation.yields_modify.mp kept with rfl
      exact provided.kmalloc asked
  | error cause =>
      rcases Operation.yields_pure.mp kept with ⟨-, rfl⟩
      have same := provided.sound.allocate_refused asked
      exact ⟨entries, provided.congr same rfl provided.housed fun _ => rfl⟩

theorem kfree_provided (provided : before.Provided) {address : UInt32}
    (mine : address ∈ before.lent) (step : (serve (.kfree address)).Yields before () after) :
    after.Provided := by
  rcases Operation.yields_bind.mp step with ⟨reply, between, done, kept⟩
  rcases heap_of_onCustody done with ⟨heap, asked, rfl⟩
  rcases provided with ⟨entries, provided⟩
  rcases provided.kfree mine asked with ⟨rfl, result, provided⟩
  rcases Operation.yields_modify.mp kept with rfl
  exact ⟨result, provided⟩

theorem onCustody_provided (provided : before.Provided)
    (notTaken : ∀ size, call ≠ .kmalloc size) (notGiven : ∀ address, call ≠ .kfree address)
    (step : (onCustody call.act).Yields before () after) : after.Provided := by
  rcases yields_onCustody.mp step with ⟨custody, run, rfl⟩
  rcases provided with ⟨entries, provided⟩
  rcases answer_of_act run with ⟨answer, answered⟩
  exact provided.handled (handled_of_answer ⟨entries, provided.sound⟩ answered) notTaken notGiven

/-- Each permitted call leaves each used block with an owner. -/
theorem serve_provided (provided : before.Provided) (permitted : before.Permitted call)
    (step : (serve call).Yields before () after) : after.Provided := by
  cases call with
  | kmalloc size => exact kmalloc_provided provided step
  | kfree address => exact kfree_provided provided permitted step
  | _ => exact onCustody_provided provided (by simp) (by simp) step

theorem Run.provided (run : Run start calls final) (provided : start.Provided) :
    final.Provided := by
  induction run with
  | nil => exact provided
  | ran cpu onward ih =>
      rcases provided with ⟨entries, provided⟩
      exact ih ⟨entries, provided.congr rfl rfl provided.housed fun _ => rfl⟩
  | cons permitted step onward ih => exact ih (serve_provided provided permitted step)

theorem addresses_of_used (entries : List Placed) :
    ((entries.map Prod.snd).filter (!·.free)).map Block.address =
      (handedOut entries).map Prod.fst := by
  rw [handedOut, List.filter_map, List.map_map, List.map_map]
  rfl

theorem mem_used {address size : UInt32} (held : (address, size) ∈ handedOut entries) :
    ∃ block ∈ entries.map Prod.snd, block.free = false ∧ block.address = address ∧
      block.size = size := by
  rcases mem_handedOut.mp held with ⟨entry, mem, used, there, extent⟩
  exact ⟨entry.2, List.mem_map_of_mem mem, used, there, extent⟩

variable {blocks : List Block}

/-- Each stretch lies inside a block, from where its payload begins. -/
theorem block_of_stretch
    (inside : ∀ process ∈ lending.tenants, ∃ block ∈ blocks, block.free = false ∧
      block.address = process.resources.heapStart ∧
        process.resources.heapEnd.toNat ≤ block.address.toNat + block.size.toNat)
    {stretch : Nat × Nat} (mem : stretch ∈ lending.stretches blocks) :
    ∃ block ∈ blocks, block.address.toNat = stretch.1 ∧
      stretch.2 ≤ block.address.toNat + block.size.toNat := by
  rcases List.mem_append.mp mem with isHeap | isLent
  · rcases List.mem_map.mp isHeap with ⟨process, tenant, rfl⟩
    rcases inside process tenant with ⟨block, listed, -, there, reach⟩
    exact ⟨block, listed, congrArg UInt32.toNat there, reach⟩
  · rcases List.mem_map.mp isLent with ⟨block, listed, rfl⟩
    exact ⟨block, List.mem_of_mem_filter listed, rfl, Nat.le_refl _⟩

/-- No two stretches begin at the same address. -/
theorem stretches_distinct
    (owners : ((blocks.filter (!·.free)).map Block.address).Perm
      (lending.tenants.map (·.resources.heapStart) ++ lending.lent))
    (distinct : ((blocks.filter (!·.free)).map Block.address).Nodup) :
    ((lending.stretches blocks).map Prod.fst).Nodup := by
  have starts : (lending.stretches blocks).map Prod.fst =
      (lending.tenants.map (·.resources.heapStart) ++
        (blocks.filter fun block => !block.free && block.address ∈ lending.lent).map
          Block.address).map UInt32.toNat := by
    simp [stretches, Function.comp_def]
  rw [starts]
  refine List.Nodup.map (fun _ _ => UInt32.toNat_inj.mp) ?_
  rcases List.nodup_append.mp (owners.nodup_iff.mp distinct) with ⟨heaps, -, disjoint⟩
  refine List.nodup_append.mpr ⟨heaps, ?_, ?_⟩
  · refine distinct.sublist (List.Sublist.map _ ?_)
    simp only [← List.filter_filter]
    rw [List.filter_comm]
    exact List.filter_sublist
  · intro first isHeap second isLent
    rcases List.mem_map.mp isLent with ⟨block, listed, rfl⟩
    have passes := (List.mem_filter.mp listed).2
    simp only [Bool.and_eq_true, decide_eq_true_eq] at passes
    exact disjoint first isHeap _ passes.2

/-- No two stretches have a byte in common. -/
theorem stretches_apart {heap : Heap} (laid : heap.Laid entries)
    (inside : ∀ process ∈ lending.tenants, ∃ block ∈ entries.map Prod.snd, block.free = false ∧
      block.address = process.resources.heapStart ∧
        process.resources.heapEnd.toNat ≤ block.address.toNat + block.size.toNat)
    (starts : ((lending.stretches (entries.map Prod.snd)).map Prod.fst).Nodup) :
    (lending.stretches (entries.map Prod.snd)).Pairwise fun left right =>
      left.2 ≤ right.1 ∨ right.2 ≤ left.1 := by
  refine (List.pairwise_map.mp starts).imp_of_mem ?_
  intro left right leftMem rightMem differ
  rcases block_of_stretch inside leftMem with ⟨lower, lowerMem, lowerThere, lowerReach⟩
  rcases block_of_stretch inside rightMem with ⟨upper, upperMem, upperThere, upperReach⟩
  have addresses : lower.address ≠ upper.address := by
    intro same
    exact differ (lowerThere.symm.trans ((congrArg UInt32.toNat same).trans upperThere))
  rcases laid.apart lowerMem upperMem addresses with before | after
  · exact Or.inl (by omega)
  · exact Or.inr (by omega)

/-- The heap of each process is as long as it is to be, and inside the block of the process. -/
theorem extent_of_tenant
    (covers : ∀ resources ∈ lending.tenants.map ProcessRecord.resources,
      resources.heapEnd.toNat = resources.heapStart.toNat + Layout.processHeapSize.toNat ∧
        ∃ size, (resources.heapStart, size) ∈ handedOut entries ∧
          Layout.processHeapSize.toNat ≤ size.toNat)
    {process : ProcessRecord} (tenant : process ∈ lending.tenants) :
    process.resources.heapEnd.toNat =
      process.resources.heapStart.toNat + Layout.processHeapSize.toNat ∧
    ∃ block ∈ entries.map Prod.snd, block.free = false ∧
      block.address = process.resources.heapStart ∧
        process.resources.heapEnd.toNat ≤ block.address.toNat + block.size.toNat := by
  rcases covers process.resources (List.mem_map_of_mem tenant) with ⟨length, size, held, large⟩
  rcases mem_used held with ⟨block, listed, used, there, rfl⟩
  refine ⟨length, block, listed, used, there, ?_⟩
  rw [length, there]
  exact Nat.add_le_add_left large _

theorem Provided.settles (provided : lending.Provided) :
    ∃ blocks, lending.custody.kernel.heap.blocks = .ok blocks ∧ lending.Settled blocks := by
  rcases provided with ⟨entries, sound, regionStart, regionEnd, -, -, owners, covers⟩
  have tenancy : lending.custody.kernel.table.provisions lending.custody.kernel.idle =
      lending.tenants.map ProcessRecord.resources := provisions_eq_live _ _
  rw [tenancy, List.map_map, ← addresses_of_used] at owners
  rw [tenancy] at covers
  have distinct : (((entries.map Prod.snd).filter (!·.free)).map Block.address).Nodup := by
    rw [addresses_of_used]
    exact Ledger.handedOut_nodup sound
  have inside := fun process (tenant : process ∈ lending.tenants) =>
    (extent_of_tenant covers tenant).2
  refine ⟨entries.map Prod.snd, sound.blocks_eq, owners, distinct,
    fun process tenant => (extent_of_tenant covers tenant).1, inside,
    stretches_apart sound.toLaid inside (stretches_distinct owners distinct), ?_, ?_⟩
  · intro stretch mem
    rcases block_of_stretch inside mem with ⟨block, listed, there, reach⟩
    rcases List.mem_map.mp listed with ⟨entry, placed, rfl⟩
    have bounds := sound.bounds placed
    rw [regionStart, regionEnd] at bounds
    omega
  · intro nobody nothing
    rw [nobody, nothing, addresses_of_used] at owners
    have noneOut : handedOut entries = [] := List.map_eq_nil_iff.mp owners.eq_nil
    have room : lending.custody.kernel.heap.regionStart <
        lending.custody.kernel.heap.regionEnd := by
      rw [regionStart, regionEnd]
      decide
    rcases sound.single noneOut room with ⟨block, alone, free, first, past⟩
    rw [regionStart] at first
    rw [regionEnd] at past
    exact ⟨block, alone, free, first, past⟩

/-- However processes come and go after bring-up, and whatever users take from the heap and give
back: each used block has one owner, and when there is none, the heap is a single free block. -/
theorem Run.settled {before started : Kernel} {memory : BootMemory} {idleEntry : UInt32}
    {config : SchedulerConfig}
    (begun : (Kernel.init memory idleEntry config).Yields before (.ok ()) started)
    (run : Run (ofKernel started) calls lending) :
    ∃ blocks, lending.custody.kernel.heap.blocks = .ok blocks ∧ lending.Settled blocks := by
  have provided : (ofKernel started).Provided := provided_of_begun (init_outcome begun)
  exact (run.provided provided).settles

theorem yields_kmalloc {size address : UInt32} {heap : Heap}
    (asked : (Heap.allocate size).Yields before.custody.kernel.heap (.ok address) heap) :
    (serve (.kmalloc size)).Yields before ()
      { custody := { before.custody with kernel := { before.custody.kernel with heap } }
        lent := address :: before.lent } :=
  Operation.yields_bind.mpr ⟨.ok address, _, onCustody_of_heap asked,
    Operation.yields_modify.mpr rfl⟩

theorem yields_kfree {address : UInt32} {heap : Heap}
    (asked : (Heap.free address).Yields before.custody.kernel.heap (.ok ()) heap) :
    (serve (.kfree address)).Yields before ()
      { custody := { before.custody with kernel := { before.custody.kernel with heap } }
        lent := before.lent.erase address } :=
  Operation.yields_bind.mpr ⟨.ok (), _, onCustody_of_heap asked, Operation.yields_modify.mpr rfl⟩

/-- After the heap of a process, there is room in the heap for two more blocks. -/
theorem grants_of_reset {heap between after : Heap} {address : UInt32}
    (reset :
      (Heap.reset Layout.kernelHeapStart Layout.kernelHeapEnd).Yields heap (.ok ()) between)
    (granted : (Heap.allocate Layout.processHeapSize).Yields between (.ok address) after) :
    ∃ first second one two three, (Heap.allocate 0).Yields after (.ok first) one ∧
      (Heap.allocate 100).Yields one (.ok second) two ∧
      (Heap.free second).Yields two (.ok ()) three := by
  rcases Operation.yields_of_evaluation
      (do Heap.reset Layout.kernelHeapStart Layout.kernelHeapEnd
          let _ ← Heap.allocate Layout.processHeapSize
          let _ ← Heap.allocate 0
          Heap.free (← Heap.allocate 100) : Fallible Heap HeapError Unit).result
      Heap.empty (fun reply _ => reply.isOk) (by decide +kernel) with
    ⟨reply, three, run, isOk⟩
  cases reply with
  | error cause => cases isOk
  | ok _ =>
      rcases Fallible.yields_bind.mp (yields_of_reset reset run) with
        ⟨_, -, refuted⟩ | ⟨_, taken, again, run⟩
      · cases refuted
      rcases granted.unique again with ⟨-, rfl⟩
      rcases Fallible.yields_bind.mp run with ⟨_, -, refuted⟩ | ⟨first, one, takes, run⟩
      · cases refuted
      rcases Fallible.yields_bind.mp run with ⟨_, -, refuted⟩ | ⟨second, two, takesMore, gives⟩
      · cases refuted
      exact ⟨first, second, one, two, three, takes, takesMore, gives⟩

/-- One process is there, and a user has one block and has given another one back. -/
theorem Run.settled_with_tenant :
    ∃ started first second lending blocks,
      (Kernel.init ⟨640, 15360⟩ 0x100000 {}).Yields (.new true) (.ok ()) started ∧
      Run (ofKernel started)
        [.start, .spawn "p" 0x108000 1, .kmalloc 0, .kmalloc 100, .kfree second] lending ∧
      lending.tenants ≠ [] ∧ lending.lent = [first] ∧
      lending.custody.kernel.heap.blocks = .ok blocks ∧ lending.Settled blocks := by
  rcases rested_with_16000 {} with ⟨started, plan, rests, root, home, begun, start, -, -, rested⟩
  rcases rested.spawn (by decide) "p" 0x108000 1 with
    ⟨pid, hosts, away, spawned, hosting, isPid, -, -, ready⟩
  have unchanged : rests.heap = started.heap := (decides_of_masked start).same.1
  have reset : (Heap.reset Layout.kernelHeapStart Layout.kernelHeapEnd).Yields Heap.empty (.ok ())
      rests.heap := by
    rw [unchanged]
    cases init_outcome begun with
    | ready heap created dispatcher => exact heap
  rcases grants_of_reset reset hosting.heap with
    ⟨first, second, one, two, three, takes, takesMore, gives⟩
  have run : Run (ofKernel started)
      [.start, .spawn "p" 0x108000 1, .kmalloc 0, .kmalloc 100, .kfree second]
      ⟨.ofKernel { hosts with heap := three }, [second, first].erase second⟩ := by
    refine .cons trivial (yields_onCustody.mpr ⟨_, Custody.step_of_yields start, rfl⟩) ?_
    refine .cons trivial (yields_onCustody.mpr ⟨_, Custody.step_of_yields spawned, rfl⟩) ?_
    refine .cons trivial (yields_kmalloc takes) ?_
    refine .cons trivial (yields_kmalloc takesMore) ?_
    exact .cons List.mem_cons_self (yields_kfree gives) .nil
  rw [List.erase_cons_head] at run
  rcases run.settled begun with ⟨blocks, listed, settled⟩
  refine ⟨started, first, second, _, blocks, begun, run, ?_, rfl, listed, settled⟩
  intro nobody
  have here : hosts.table.occupant away =
      some (pid, (hosts.table.process away).resources) :=
    ProcessRecord.identity_eq_some.mpr ⟨by simp [ProcessRecord.isLive, ready], isPid, rfl⟩
  have other : pid ≠ hosts.idle := by
    intro same
    have older := hosting.table.older
    rw [← same, ← isPid, hosting.table.awayPid] at older
    exact absurd older (Nat.lt_irrefl 2)
  have provided := mem_provisions here other
  rw [provisions_eq_live] at provided
  rcases List.mem_map.mp provided with ⟨process, tenant, -⟩
  exact List.eq_nil_iff_forall_not_mem.mp nobody process tenant

end Lending

end Lending

end KernelCore
