import KernelCore.Proofs.Heap.Restoration
import KernelCore.Proofs.Kernel.Custody
import KernelCore.Proofs.ProcessTable.Records

/-!
# What the kernel's operations come to

The operations of the kernel, each told as what it does to the parts of the kernel: the address
spaces, the heap and the processes. An operation that is masked leaves the processor as it was.
Creating a process is an allocation, a new address space and an entry in the process table, or
nothing at all; ending one gives its address space and its heap back, and another one gets the
processor.
-/

namespace KernelCore.Kernel

open ProcessTable

section Masks

variable {Value : Type} {before after : Kernel} {value : Value}

/-- What a masked operation leads to, but for the flag that it restores. -/
theorem unmasked {action : Operation Kernel Value}
    (run : (masked action).Yields before value after) :
    ∃ cpu final restored, action.Yields { before with cpu } value final ∧
      after = { final with cpu := restored } ∧ (final.cpu = cpu → restored = before.cpu) := by
  rcases yields_masked.mp run with ⟨final, done, rfl⟩
  cases enabled : Maskable.interrupts before with
  | false =>
      simp only [enabled, Bool.false_eq_true, if_false] at done ⊢
      exact ⟨before.cpu, final, final.cpu, done, rfl, id⟩
  | true =>
      simp only [enabled, if_true] at done ⊢
      refine ⟨{ before.cpu with interrupts := false }, final, { final.cpu with interrupts := true },
        done, rfl, ?_⟩
      intro same
      have flag : before.cpu.interrupts = true := enabled
      rw [same, ← flag]

/-- A masked operation ends if the operation ends whatever the flag. -/
theorem yields_of_unmasked {action : Operation Kernel Value}
    (run : ∀ cpu, ∃ value final, action.Yields { before with cpu } value final) :
    ∃ value after, (masked action).Yields before value after := by
  cases enabled : Maskable.interrupts before with
  | false =>
      rcases run before.cpu with ⟨value, final, done⟩
      refine ⟨value, final, yields_masked.mpr ⟨final, ?_, ?_⟩⟩
      · simp only [enabled, Bool.false_eq_true, if_false]
        exact done
      · simp only [enabled, Bool.false_eq_true, if_false]
  | true =>
      rcases run { before.cpu with interrupts := false } with ⟨value, final, done⟩
      refine ⟨value, _, yields_masked.mpr ⟨final, ?_, rfl⟩⟩
      simp only [enabled, if_true]
      exact done

end Masks

section Decisions

variable {before after : Kernel} {plan : Option Switch}
  {decision : Operation Dispatcher (Option Switch)}

/-- The dispatcher has decided, and the address space of the plan is noted. -/
def Decides (decision : Operation Dispatcher (Option Switch)) (before : Kernel)
    (plan : Option Switch) (after : Kernel) : Prop :=
  ∃ dispatcher current, decision.Yields before.dispatcher plan dispatcher ∧
    after = { before with spaces := { before.spaces with current }, dispatcher }

theorem track_outcome {reply : Option Switch} (run : (track plan).Yields before reply after) :
    reply = plan ∧
      ∃ current, after = { before with spaces := { before.spaces with current } } := by
  cases planned : plan.bind Switch.directory with
  | none =>
      simp [track, planned] at run
      exact ⟨run.1, before.spaces.current, run.2⟩
  | some directory =>
      simp [track, planned, yields_onSpaces, AddressSpaces.recordLoaded] at run
      exact ⟨run.2, some directory, run.1⟩

theorem decides_of_track (run : (do track (← onDispatcher decision)).Yields before plan after) :
    Decides decision before plan after := by
  rcases Operation.yields_bind.mp run with ⟨plan, between, done, tracked⟩
  rcases yields_onDispatcher.mp done with ⟨dispatcher, decided, rfl⟩
  rcases track_outcome tracked with ⟨rfl, current, rfl⟩
  exact ⟨dispatcher, current, decided, rfl⟩

theorem decides_of_masked
    (run : (masked do track (← onDispatcher decision)).Yields before plan after) :
    Decides decision before plan after := by
  rcases unmasked run with ⟨cpu, final, restored, done, rfl, same⟩
  rcases decides_of_track done with ⟨dispatcher, current, decided, rfl⟩
  rw [same rfl]
  exact ⟨dispatcher, current, decided, rfl⟩

theorem yields_track (before : Kernel)
    (decided : ∃ plan dispatcher, decision.Yields before.dispatcher plan dispatcher) :
    ∃ plan after, (do track (← onDispatcher decision)).Yields before plan after := by
  rcases decided with ⟨plan, dispatcher, decided⟩
  rcases Accounted.yields_track { before with dispatcher } plan with ⟨after, tracked⟩
  exact ⟨plan, after, Operation.yields_bind.mpr
    ⟨plan, _, yields_onDispatcher.mpr ⟨dispatcher, decided, rfl⟩, tracked⟩⟩

theorem yields_decision
    (decided : ∃ plan dispatcher, decision.Yields before.dispatcher plan dispatcher) :
    ∃ plan after, (masked do track (← onDispatcher decision)).Yields before plan after :=
  yields_of_unmasked fun cpu => yields_track { before with cpu } decided

end Decisions

section Release

variable {before after : Kernel} {value : Unit}

theorem releaseHeap_outcome {address : UInt32}
    (run : (releaseHeap address).Yields before value after) :
    ∃ reply heap, (Heap.free address).Yields before.heap reply heap ∧
      after = { before with heap } := by
  rcases Operation.yields_bind.mp run with ⟨reply, between, done, ended⟩
  rcases yields_onHeap.mp done with ⟨heap, freed, rfl⟩
  refine ⟨reply, heap, freed, ?_⟩
  cases reply with
  | error cause => exact Operation.yields_log.mp ended
  | ok _ => exact (Operation.yields_pure.mp ended).2

theorem releaseDirectory_outcome {directory : Directory}
    (run : (releaseDirectory directory).Yields before value after) :
    ∃ spaces, after = { before with spaces } ∧
      (spaces = before.spaces ∨
        ∃ reply, (AddressSpaces.destroyDirectory directory).Yields before.spaces reply spaces) := by
  by_cases kernel : before.spaces.kernel = some directory
  · simp [releaseDirectory, kernel] at run
    exact ⟨before.spaces, run, Or.inl rfl⟩
  · simp only [releaseDirectory, Operation.yields_bind, Operation.yields_get, ne_eq] at run
    rcases run with ⟨_, _, ⟨rfl, rfl⟩, run⟩
    rw [if_pos kernel] at run
    rcases Operation.yields_bind.mp run with ⟨reply, between, done, ended⟩
    rcases yields_onSpaces.mp done with ⟨spaces, destroyed, rfl⟩
    refine ⟨spaces, ?_, Or.inr ⟨reply, destroyed⟩⟩
    cases reply with
    | error cause => exact Operation.yields_log.mp ended
    | ok _ => exact (Operation.yields_pure.mp ended).2

/-- What a process had is given back: its address space, unless it is the kernel's, and its heap,
if it has one. -/
structure Returned (resources : ProcessResources) (before after : Kernel) : Prop where
  parts : ∃ spaces heap, after = { before with spaces, heap }
  spaces : after.spaces = before.spaces ∨ ∃ directory reply,
    (AddressSpaces.destroyDirectory directory).Yields before.spaces reply after.spaces
  heap : resources.heapStart < resources.heapEnd →
    ∃ reply, (Heap.free resources.heapStart).Yields before.heap reply after.heap
  noHeap : ¬resources.heapStart < resources.heapEnd → after.heap = before.heap

theorem release_outcome {resources : ProcessResources}
    (run : (release resources).Yields before value after) : Returned resources before after := by
  have first : ∃ spaces,
      (spaces = before.spaces ∨ ∃ directory reply,
        (AddressSpaces.destroyDirectory directory).Yields before.spaces reply spaces) ∧
      (if resources.heapStart < resources.heapEnd then releaseHeap resources.heapStart
        else pure ()).Yields { before with spaces } value after := by
    cases given : resources.directory with
    | none =>
        simp only [release, given] at run
        exact ⟨before.spaces, Or.inl rfl, run⟩
    | some directory =>
        simp only [release, given] at run
        rcases Operation.yields_bind.mp run with ⟨_, between, released, run⟩
        rcases releaseDirectory_outcome released with ⟨spaces, rfl, same | ⟨reply, destroyed⟩⟩
        · exact ⟨spaces, Or.inl same, run⟩
        · exact ⟨spaces, Or.inr ⟨directory, reply, destroyed⟩, run⟩
  rcases first with ⟨spaces, vacated, run⟩
  by_cases heap : resources.heapStart < resources.heapEnd
  · rw [if_pos heap] at run
    rcases releaseHeap_outcome run with ⟨reply, heap', freed, rfl⟩
    exact ⟨⟨spaces, heap', rfl⟩, vacated, fun _ => ⟨reply, freed⟩, fun no => absurd heap no⟩
  · rw [if_neg heap] at run
    rcases Operation.yields_pure.mp run with ⟨-, rfl⟩
    exact ⟨⟨spaces, before.heap, rfl⟩, vacated, fun yes => absurd yes heap, fun _ => rfl⟩

end Release

section Spawning

variable {name : String} {entry priority : UInt32} {before after : Kernel}
  {reply : Except KernelError Pid}

/-- What a request for a process comes to. -/
inductive Spawned (name : String) (entry priority : UInt32) (before : Kernel) :
    Except KernelError Pid → Kernel → Prop where
  /-- There is no slot for it. -/
  | full (isFull : before.table.isFull = true) :
      Spawned name entry priority before (.error (.process .tableFull)) before
  /-- There is no block for its heap. -/
  | noBlock {cause : HeapError} {heap : Heap}
      (refused : (Heap.allocate Layout.processHeapSize).Yields before.heap (.error cause) heap) :
      Spawned name entry priority before (.error (.heap cause)) before
  /-- There is no frame for its directory. -/
  | noFrame {cause : MapError} {spaces : AddressSpaces}
      (refused : AddressSpaces.createProcessDirectory.Yields before.spaces (.error cause) spaces) :
      Spawned name entry priority before (.error (.map cause)) before
  /-- It has a block, an address space of its own, and an entry in the process table. -/
  | created {pid : Pid} {heapStart heapEnd : UInt32} {heap : Heap} {directory : Directory}
      {spaces : AddressSpaces} {table : ProcessTable}
      (granted : (Heap.allocate Layout.processHeapSize).Yields before.heap (.ok heapStart) heap)
      (made : AddressSpaces.createProcessDirectory.Yields before.spaces (.ok directory) spaces)
      (reach : heapEnd.toNat = heapStart.toNat + Layout.processHeapSize.toNat)
      (entered : (create name entry priority { directory, heapStart, heapEnd }).Yields before.table
        (.ok pid) table) :
      Spawned name entry priority before (.ok pid)
        { before with spaces, heap, dispatcher := { before.dispatcher with table } }

theorem frames_of_allocate_none {frames after : FrameBitmap}
    (run : FrameBitmap.allocate.Yields frames none after) : after = frames := by
  rcases run with ⟨effects, run⟩
  rw [FrameBitmap.allocate] at run
  split at run
  · simp only [Except.ok.injEq, Outcome.mk.injEq] at run
    exact run.2.1.symm
  · split at run
    · split at run
      · cases run
      · simp at run
    · simp only [Except.ok.injEq, Outcome.mk.injEq] at run
      exact run.2.1.symm

/-- A directory takes a frame and changes memory, and nothing else; without a frame it is
refused. -/
theorem createProcessDirectory_outcome {spaces final : AddressSpaces}
    {answer : Except MapError Directory}
    (run : AddressSpaces.createProcessDirectory.Yields spaces answer final) :
    (answer = .error .frameAllocationFailed ∧ final = spaces) ∨
      ∃ frame frames memory, answer = .ok ⟨frame⟩ ∧ final = { spaces with frames, memory } ∧
        FrameBitmap.allocate.Yields spaces.frames (some frame) frames := by
  simp [AddressSpaces.createProcessDirectory, AddressSpaces.createDirectory,
    AddressSpaces.takeFrame, and_assoc, AddressSpaces.yields_onFrames] at run
  rcases run with ⟨granted, frames, allocated, run⟩
  cases granted with
  | none =>
      have same := frames_of_allocate_none allocated
      simp [and_assoc] at run
      rcases run with ⟨rfl, rfl⟩
      exact Or.inl ⟨rfl, by rw [same]⟩
  | some frame =>
      right
      simp [and_assoc] at run
      cases kernel : spaces.kernel with
      | none =>
          simp [kernel] at run
          rcases run with ⟨rfl, rfl⟩
          exact ⟨frame, frames, _, rfl, rfl, allocated⟩
      | some root =>
          simp [kernel] at run
          rcases run with ⟨rfl, rfl⟩
          exact ⟨frame, frames, _, rfl, rfl, allocated⟩

/-- A refused request leaves the kernel as it was, the heap's blocks and links included: what was
taken is given back, and merged with nothing but what it was cut from. -/
theorem spawn_outcome (heap : ∃ entries, before.heap.Sound entries)
    (run : (spawn name entry priority).Yields before reply after) :
    Spawned name entry priority before reply after := by
  rcases heap with ⟨entries, sound⟩
  rcases unmasked run with ⟨cpu, final, restored, done, rfl, same⟩
  have table : ({ before with cpu } : Kernel).table = before.table := rfl
  by_cases full : before.table.isFull = true
  · simp [table, full] at done
    rcases done with ⟨rfl, rfl⟩
    rw [same rfl]
    exact .full full
  · simp [table, full, and_assoc] at done
    rcases done with ⟨found, refused, rfl⟩ | ⟨heapStart, _, granted, done⟩
    · rcases yields_onHeap.mp refused with ⟨heap, request, rfl⟩
      cases sound.allocate_refused request
      rw [same rfl]
      exact .noBlock request
    rcases yields_onHeap.mp granted with ⟨heap, allocated, rfl⟩
    rcases done with ⟨_, found, refused, ⟨_, released⟩, rfl⟩ |
      ⟨directory, _, mapped, heapEnd, reach, done⟩
    · rcases yields_onSpaces.mp refused with ⟨spaces, request, rfl⟩
      have unchanged : spaces = before.spaces := by
        rcases createProcessDirectory_outcome request with ⟨-, unchanged⟩ | ⟨_, _, _, refuted, -⟩
        · exact unchanged
        · cases refuted
      rcases releaseHeap_outcome released with ⟨answer, restoredHeap, freed, rfl⟩
      rcases freed.unique (sound.free_of_allocate allocated) with ⟨-, rfl⟩
      subst unchanged
      rw [same rfl]
      exact .noFrame request
    rcases yields_onSpaces.mp mapped with ⟨spaces, made, rfl⟩
    rcases done with ⟨_, found, refused, -⟩ | ⟨pid, entered, rfl⟩
    · rcases yields_onTable.mp refused with ⟨_, request, -⟩
      rcases create_records request with ⟨-, isFull, -⟩ | ⟨_, _, _, refuted, -⟩
      · exact absurd isFull full
      · cases refuted
    · rcases yields_onTable.mp entered with ⟨table, created, rfl⟩
      rw [same rfl]
      exact .created allocated made (Checked.add32_eq_ok_iff.mp reach) created

/-- A request for a process is always answered. -/
theorem yields_spawn {root : Directory} {held : List Frame} {created : List Directory}
    (accounted : before.Accounted root held created) (name : String) (entry priority : UInt32) :
    ∃ reply after, (spawn name entry priority).Yields before reply after := by
  refine yields_of_unmasked fun cpu => ?_
  have table : ({ before with cpu } : Kernel).table = before.table := rfl
  by_cases full : before.table.isFull = true
  · simp [table, full]
  rcases accounted.heap with ⟨entries, sound⟩
  rcases sound.allocate Layout.processHeapSize with ⟨answer, heap, -, allocated, -⟩
  have allocating : Fallible.Yields (onHeap (Heap.allocate Layout.processHeapSize))
      { before with cpu } answer { before with cpu, heap } :=
    yields_onHeap.mpr ⟨heap, allocated, rfl⟩
  cases answer with
  | error cause => simp [table, full, allocating.iff]
  | ok heapStart =>
      rcases accounted.owned.createProcessDirectory with
        ⟨refused, -⟩ | ⟨directory, spaces, made, -⟩
      · have mapping : Fallible.Yields (onSpaces AddressSpaces.createProcessDirectory)
            { before with cpu, heap } (.error .frameAllocationFailed) { before with cpu, heap } :=
          yields_onSpaces.mpr ⟨before.spaces, refused, rfl⟩
        have freeing : (releaseHeap heapStart).Yields { before with cpu, heap } ()
            { before with cpu } := by
          have given : (onHeap (Heap.free heapStart).result).Yields { before with cpu, heap }
              (.ok ()) { before with cpu } :=
            yields_onHeap.mpr ⟨before.heap, sound.free_of_allocate allocated, rfl⟩
          exact Operation.yields_bind.mpr ⟨_, _, given, Operation.yields_pure.mpr ⟨rfl, rfl⟩⟩
        simp [table, full, allocating.iff, mapping.iff, freeing.iff]
      · have mapping : Fallible.Yields (onSpaces AddressSpaces.createProcessDirectory)
            { before with cpu, heap } (.ok directory) { before with cpu, spaces, heap } :=
          yields_onSpaces.mpr ⟨spaces, made, rfl⟩
        have reach := Checked.add32_of_lt (Nat.lt_of_le_of_lt (sound.allocate_inside allocated)
          before.heap.regionEnd.toNat_lt)
        let resources : ProcessResources :=
          { directory, heapStart, heapEnd := heapStart + Layout.processHeapSize }
        rcases yields_create before.table name entry priority resources with
          ⟨reply, after, entered⟩
        have entering : Fallible.Yields
            (onDispatcher (Dispatcher.onTable (create name entry priority resources)))
            { before with cpu, spaces, heap } reply
            { before with
              cpu, spaces, heap, dispatcher := { before.dispatcher with table := after } } :=
          yields_onTable.mpr ⟨after, entered, rfl⟩
        cases reply with
        | error cause =>
            rcases create_records entered with ⟨-, isFull, -⟩ | ⟨_, _, _, refuted, -⟩
            · exact absurd isFull full
            · cases refuted
        | ok pid => simp [table, full, allocating.iff, mapping.iff, reach, entering.iff, resources]

end Spawning

section Ending

variable {before after : Kernel} {plan : Option Switch} {code : Int32}

/-- What the end of a process comes to. -/
inductive Exited (code : Int32) (before : Kernel) : Option Switch → Kernel → Prop where
  /-- The idle process does not end. -/
  | ignored (isIdle : before.currentPid = some before.idle) : Exited code before none before
  /-- There is no process to end. -/
  | nobody (noCurrent : before.table.current = none) : Exited code before none before
  /-- The process ends, what it had is given back, and another one gets the processor. -/
  | ended {process : ProcessRecord} {table : ProcessTable} {freed after : Kernel}
      {plan : Option Switch} (other : before.currentPid ≠ some before.idle)
      (ending : (ProcessTable.exit code).Yields before.table (some process) table)
      (returned : Returned process.resources
        { before with dispatcher := { before.dispatcher with table } } freed)
      (decided : Decides Dispatcher.schedule freed plan after) : Exited code before plan after

theorem Returned.withCpu {resources : ProcessResources} (returned : Returned resources before after)
    (cpu : Cpu) : Returned resources { before with cpu } { after with cpu } := by
  rcases returned with ⟨⟨spaces, heap, rfl⟩, vacated, freed, noHeap⟩
  exact ⟨⟨spaces, heap, rfl⟩, vacated, freed, noHeap⟩

theorem Decides.cpu {decision : Operation Dispatcher (Option Switch)}
    (decides : Decides decision before plan after) : after.cpu = before.cpu := by
  rcases decides with ⟨dispatcher, current, -, rfl⟩
  rfl

theorem Decides.withCpu {decision : Operation Dispatcher (Option Switch)}
    (decides : Decides decision before plan after) (cpu : Cpu) :
    Decides decision { before with cpu } plan { after with cpu } := by
  rcases decides with ⟨dispatcher, current, decided, rfl⟩
  exact ⟨dispatcher, current, decided, rfl⟩

theorem Exited.cpu (exited : Exited code before plan after) : after.cpu = before.cpu := by
  cases exited with
  | ignored isIdle => rfl
  | nobody noCurrent => rfl
  | ended other ending returned decided =>
      rcases returned.parts with ⟨spaces, heap, rfl⟩
      exact decided.cpu

/-- The processor has no part in how a process ends. -/
theorem Exited.withCpu (exited : Exited code before plan after) (cpu : Cpu) :
    Exited code { before with cpu } plan { after with cpu } := by
  cases exited with
  | ignored isIdle => exact .ignored isIdle
  | nobody noCurrent => exact .nobody noCurrent
  | ended other ending returned decided =>
      exact .ended other ending (returned.withCpu cpu) (decided.withCpu cpu)

theorem exit_outcome (run : (exit code).Yields before plan after) :
    Exited code before plan after := by
  rcases unmasked run with ⟨cpu, final, restored, done, rfl, same⟩
  have pid : ({ before with cpu } : Kernel).currentPid = before.currentPid := rfl
  by_cases isIdle : before.currentPid = some before.idle
  · simp [pid, isIdle] at done
    rcases done with ⟨rfl, rfl⟩
    rw [same rfl]
    exact .ignored isIdle
  · simp [pid, isIdle] at done
    rcases done with ⟨reply, between, exited, done⟩
    rcases yields_onTable.mp exited with ⟨table, ending, rfl⟩
    cases reply with
    | none =>
        rcases Operation.yields_pure.mp done with ⟨rfl, rfl⟩
        rcases exit_records ending with ⟨-, noCurrent, rfl⟩ | ⟨_, _, -, -, -, refuted⟩
        · rw [same rfl]
          exact .nobody noCurrent
        · cases refuted
    | some process =>
        rcases Operation.yields_bind.mp done with ⟨_, freed, released, done⟩
        have returned := release_outcome released
        rcases decides_of_track done with ⟨dispatcher, current, decided, rfl⟩
        have kept : freed.cpu = cpu := by
          rcases returned.parts with ⟨spaces, heap, rfl⟩
          rfl
        rw [same kept]
        exact .ended isIdle ending (returned.withCpu before.cpu)
          ⟨dispatcher, current, decided, rfl⟩

end Ending

end KernelCore.Kernel
