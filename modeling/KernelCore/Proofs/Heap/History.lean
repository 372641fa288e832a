import KernelCore.Proofs.Heap.Extents

/-!
# What a caller remembers

A history lists what was asked of the heap since it got its region, each request with the answer to
it. An address is live if an allocation returned it and it was not freed since the last one that
did. Freeing an address succeeds exactly if it is live.

Why it is refused otherwise is not told by the history. The heap looks for a block that begins at
the address, and the block of an address that was freed is gone when it was merged into the one
before it. In the same way a block that was never handed out begins at some address.
-/

namespace KernelCore

namespace Heap

/-- A request that was served, with the answer to it. -/
inductive Dealing where
  | allocated (size : UInt32) (reply : Except HeapError UInt32)
  | freed (address : UInt32) (reply : Except HeapError Unit)
  deriving DecidableEq

/-- Serves a request, and tells what was answered. -/
def Request.deal : Request → Operation Heap Dealing
  | .allocate size => Dealing.allocated size <$> (Heap.allocate size).result
  | .free address => Dealing.freed address <$> (Heap.free address).result

/-- Some allocation returned the address. -/
def Returned (history : List Dealing) (address : UInt32) : Prop :=
  ∃ size, .allocated size (.ok address) ∈ history

/-- The address was freed, and since the last allocation that returned it. -/
def FreedSince (history : List Dealing) (address : UInt32) : Prop :=
  ∃ early late, history = early ++ .freed address (.ok ()) :: late ∧
    Returned early address ∧ ¬Returned late address

/-- The address was returned, and was not freed since. -/
def Live (history : List Dealing) (address : UInt32) : Prop :=
  Returned history address ∧ ¬FreedSince history address

section Histories

variable {history : List Dealing} {dealing : Dealing} {address : UInt32}

theorem returned_snoc : Returned (history ++ [dealing]) address ↔
    Returned history address ∨ ∃ size, dealing = .allocated size (.ok address) := by
  simp only [Returned, List.mem_append, List.mem_singleton, exists_or]
  grind

theorem FreedSince.returned (freed : FreedSince history address) : Returned history address := by
  rcases freed with ⟨early, late, rfl, ⟨size, mem⟩, -⟩
  exact ⟨size, List.mem_append_left _ mem⟩

theorem freedSince_snoc : FreedSince (history ++ [dealing]) address ↔
    (¬∃ size, dealing = .allocated size (.ok address)) ∧
      (FreedSince history address ∨
        dealing = .freed address (.ok ()) ∧ Returned history address) := by
  constructor
  · rintro ⟨early, late, split, returned, notLate⟩
    rcases List.eq_nil_or_concat' late with rfl | ⟨late, last, rfl⟩
    · rcases List.append_inj' split rfl with ⟨rfl, same⟩
      cases same
      refine ⟨?_, Or.inr ⟨rfl, returned⟩⟩
      rintro ⟨size, impossible⟩
      cases impossible
    · rw [← List.cons_append, ← List.append_assoc] at split
      rcases List.append_inj' split rfl with ⟨rfl, same⟩
      cases same
      rw [returned_snoc, not_or] at notLate
      exact ⟨notLate.2, Or.inl ⟨early, late, rfl, returned, notLate.1⟩⟩
  · rintro ⟨notReturned, ⟨early, late, rfl, returned, notLate⟩ | ⟨rfl, returned⟩⟩
    · refine ⟨early, late ++ [dealing], by simp, returned, ?_⟩
      rw [returned_snoc, not_or]
      exact ⟨notLate, notReturned⟩
    · exact ⟨history, [], rfl, returned, fun ⟨size, mem⟩ => nomatch mem⟩

/-- An address becomes live when it is returned, and is live until it is freed. -/
theorem live_snoc : Live (history ++ [dealing]) address ↔
    (∃ size, dealing = .allocated size (.ok address)) ∨
      Live history address ∧ dealing ≠ .freed address (.ok ()) := by
  rw [Live, Live, returned_snoc, freedSince_snoc]
  grind

theorem not_live_nil : ¬Live [] address :=
  fun ⟨⟨_, mem⟩, _⟩ => nomatch mem

end Histories

/-- The blocks that are not free are those whose addresses are live. -/
def Remembers (history : List Dealing) (heap : Heap) : Prop :=
  ∃ entries, heap.Sound entries ∧
    ∀ address, Live history address ↔ address ∈ (handedOut entries).map Prod.fst

section Steps

variable {history : List Dealing} {heap : Heap} {entries : List Placed}

theorem mem_addresses {address : UInt32} : address ∈ (handedOut entries).map Prod.fst ↔
    ∃ extent ∈ shape entries, extent.address = address.toNat ∧ extent.free = false := by
  constructor
  · intro mem
    rcases List.mem_map.mp mem with ⟨⟨address, size⟩, listed, rfl⟩
    rcases mem_handedOut.mp listed with ⟨entry, present, used, rfl, -⟩
    exact ⟨entry.2.extent, mem_shape.mpr ⟨entry, present, rfl⟩, rfl, used⟩
  · rintro ⟨extent, mem, there, used⟩
    rcases mem_shape.mp mem with ⟨entry, listed, rfl⟩
    have block : (address, entry.2.size) ∈ handedOut entries :=
      mem_handedOut.mpr ⟨entry, listed, used, UInt32.toNat_inj.mp there, rfl⟩
    exact List.mem_map_of_mem block

/-- Each request that is granted makes one address live or dead, and one that is refused none. -/
theorem Request.deal_remembers (request : Request) (history : List Dealing) (heap : Heap)
    (remembers : Remembers history heap) :
    ∃ dealing after, request.deal.Yields heap dealing after ∧
      Remembers (history ++ [dealing]) after := by
  rcases remembers with ⟨entries, sound, live⟩
  cases request with
  | allocate size =>
      rcases sound.allocate size with ⟨reply, after, result, run, outcome, soundAfter, -⟩
      refine ⟨.allocated size reply, after, Operation.yields_map.mpr ⟨reply, run, rfl⟩, result,
        soundAfter, fun address => ?_⟩
      rw [live_snoc, live]
      cases reply with
      | error cause => simp [outcome.refused]
      | ok fresh =>
          rcases outcome.handedOut_perm with ⟨granted, rounded, out, -⟩
          rw [(out.map Prod.fst).mem_iff]
          simp [eq_comm]
  | free freed =>
      rcases sound.free freed with ⟨reply, after, result, run, outcome, soundAfter, -⟩
      refine ⟨.freed freed reply, after, Operation.yields_map.mpr ⟨reply, run, rfl⟩, result,
        soundAfter, fun address => ?_⟩
      rw [live_snoc, live]
      cases reply with
      | error cause => simp [outcome.refused]
      | ok _ =>
          rw [sound.handedOut_filter outcome]
          simp only [List.mem_map, List.mem_filter, decide_eq_true_eq]
          grind

theorem remembers_of_reset {first past : UInt32} {old : Heap}
    (accepted : (Heap.reset first past).Yields old (.ok ()) heap) : Remembers [] heap := by
  rcases reset_cases old first past with ⟨after, entries, run, sound, nothing, -⟩ | ⟨-, refused⟩
  · rcases accepted.unique run with ⟨-, rfl⟩
    refine ⟨entries, sound, fun address => ?_⟩
    rw [nothing]
    exact iff_of_false not_live_nil List.not_mem_nil
  · cases (accepted.unique refused).1

end Steps

/-- An extent begins at the address. -/
def Begins (extents : List Extent) (address : UInt32) : Prop :=
  ∃ extent ∈ extents, extent.address = address.toNat

/-- How freeing an address is answered, after a history that left the given extents. -/
structure Classified (history : List Dealing) (extents : List Extent) (address : UInt32)
    (reply : Except HeapError Unit) : Prop where
  freed : reply = .ok () ↔ Live history address
  double : reply = .error .doubleFree ↔ ¬Live history address ∧ Begins extents address
  unknown : reply = .error .unknownAddress ↔ ¬Live history address ∧ ¬Begins extents address
  /-- The causes tell addresses that were never returned from those that were freed since, exactly
  if a block begins at the address just in case it was returned. -/
  told : ((reply = .error .unknownAddress ↔ ¬Returned history address) ∧
      (reply = .error .doubleFree ↔ FreedSince history address)) ↔
    (Begins extents address ↔ Returned history address)

/-- An address is live if and only if the extent that begins there is used. -/
theorem classified_of_return {first past : Nat} {history : List Dealing}
    {extents after : List Extent} {address : UInt32} {reply : Except HeapError Unit}
    (ascending : extents.Pairwise fun left right => left.address < right.address)
    (live : Live history address ↔
      ∃ extent ∈ extents, extent.address = address.toNat ∧ extent.free = false)
    (outcome : Return first past extents address reply after) :
    Classified history extents address reply := by
  have begins : Live history address → Begins extents address := by
    intro isLive
    rcases live.mp isLive with ⟨extent, mem, there, -⟩
    exact ⟨extent, mem, there⟩
  have answers : (reply = .ok () ↔ Live history address) ∧
      (reply = .error .doubleFree ↔ ¬Live history address ∧ Begins extents address) ∧
      (reply = .error .unknownAddress ↔ ¬Live history address ∧ ¬Begins extents address) := by
    cases outcome with
    | unknown none_there =>
        have none_begins : ¬Begins extents address := fun ⟨extent, mem, there⟩ =>
          none_there extent mem there
        simp [none_begins, mt begins none_begins]
    | @double extent listed there free =>
        have isBlock : Begins extents address := ⟨extent, listed, there⟩
        have notLive : ¬Live history address := by
          rw [live]
          rintro ⟨other, mem, alsoThere, used⟩
          rw [eq_of_address ascending mem listed (alsoThere.trans there.symm), free] at used
          cases used
        simp [isBlock, notLive]
    | @freed extent listed there used =>
        have isLive : Live history address := live.mpr ⟨extent, listed, there, used⟩
        simp [isLive]
  rcases answers with ⟨freed, double, unknown⟩
  refine ⟨freed, double, unknown, ?_⟩
  by_cases isLive : Live history address
  · simp [double, unknown, isLive, isLive.1, isLive.2, begins isLive]
  · have dead : FreedSince history address ↔ Returned history address :=
      ⟨FreedSince.returned, fun returned => by_contra fun kept => isLive ⟨returned, kept⟩⟩
    simp [double, unknown, isLive, dead, not_iff_not]

/-- After any requests to a heap that was given a region, freeing an address succeeds exactly if the
address is live, and is refused otherwise without a trace. The cause depends on whether a block
begins there, which for an address that is not live is not always what the history tells. -/
theorem free_classified {first past : UInt32} {old heap : Heap}
    (accepted : (Heap.reset first past).Yields old (.ok ()) heap) (requests : List Request)
    (address : UInt32) :
    ∃ history before extents reply after, (requests.mapM Request.deal).Yields heap history before ∧
      before.extents = .ok extents ∧ (Heap.free address).Yields before reply after ∧
      Classified history extents address reply ∧ ∀ cause, reply = .error cause → after = before := by
  rcases Operation.yields_mapM Request.deal_remembers requests (remembers_of_reset accepted) with
    ⟨history, before, run, entries, sound, live⟩
  rcases sound.takesBack address with ⟨reply, after, result, freed, outcome, -, -, -, unchanged⟩
  refine ⟨history, before, shape entries, reply, after, run, sound.extents_eq, freed, ?_, unchanged⟩
  exact classified_of_return sound.ascending ((live address).trans mem_addresses) outcome

/-- Gives a heap its region, serves requests and frees an address, and tells all the answers. -/
def trial (first past : UInt32) (requests : List Request) (address : UInt32) :
    Operation Heap (Except HeapError Unit × List Dealing × Except HeapError Unit) := do
  let accepted ← (Heap.reset first past).result
  let history ← requests.mapM Request.deal
  let reply ← (Heap.free address).result
  return (accepted, history, reply)

/-- How a heap deals with requests can be found by evaluating it. -/
theorem free_of_trial (first past : UInt32) (requests : List Request) (address : UInt32)
    {history : List Dealing} {reply : Except HeapError Unit}
    (evaluated : (trial first past requests address empty).map Outcome.value =
      .ok (.ok (), history, reply)) :
    ∃ heap before after, (Heap.reset first past).Yields empty (.ok ()) heap ∧
      (requests.mapM Request.deal).Yields heap history before ∧
      (Heap.free address).Yields before reply after := by
  cases ended : trial first past requests address empty with
  | error fault =>
      rw [ended] at evaluated
      cases evaluated
  | ok outcome =>
      rcases outcome with ⟨answers, after, effects⟩
      rw [ended] at evaluated
      cases evaluated
      have run : (trial first past requests address).Yields empty _ after := ⟨effects, ended⟩
      rcases Operation.yields_bind.mp run with ⟨accepted, heap, reset, run⟩
      rcases Operation.yields_bind.mp run with ⟨served, before, dealt, run⟩
      rcases Operation.yields_bind.mp run with ⟨answer, final, freed, run⟩
      rcases Operation.yields_pure.mp run with ⟨same, -⟩
      cases same
      exact ⟨heap, before, final, reset, dealt, freed⟩

/-- The first of two allocations is freed, and freeing it again is refused as a double free. -/
theorem free_classified_of_first :
    ∃ heap, (Heap.reset 0x200000 0x204000).Yields empty (.ok ()) heap ∧
      ∃ history before extents reply after,
        ([.allocate 32, .allocate 32, .free 0x200010].mapM Request.deal).Yields heap history
          before ∧
        before.extents = .ok extents ∧ (Heap.free 0x200010).Yields before reply after ∧
        Classified history extents 0x200010 reply ∧
        (∀ cause, reply = .error cause → after = before) ∧ reply = .error .doubleFree := by
  have evaluated : (trial 0x200000 0x204000 [.allocate 32, .allocate 32, .free 0x200010] 0x200010
      empty).map Outcome.value = .ok (.ok (), [.allocated 32 (.ok 0x200010),
        .allocated 32 (.ok 0x200040), .freed 0x200010 (.ok ())], .error .doubleFree) := by
    decide +kernel
  rcases free_of_trial _ _ _ _ evaluated with ⟨heap, other, final, accepted, served, refused⟩
  rcases free_classified accepted [.allocate 32, .allocate 32, .free 0x200010] 0x200010 with
    ⟨history, before, extents, reply, after, run, listed, freed, classified, unchanged⟩
  obtain ⟨-, rfl⟩ := run.unique served
  refine ⟨heap, accepted, history, before, extents, reply, after, run, listed, freed, classified,
    unchanged, ?_⟩
  exact (freed.unique refused).1

/-- Two neighbours are freed, so the second is merged into the first. Freeing the second again is
refused as if it had never been returned. -/
theorem unknown_after_merge :
    ∃ heap history before after, (Heap.reset 0x200000 0x204000).Yields empty (.ok ()) heap ∧
      ([.allocate 32, .allocate 32, .free 0x200010, .free 0x200040].mapM Request.deal).Yields heap
        history before ∧
      FreedSince history 0x200040 ∧
      (Heap.free 0x200040).Yields before (.error .unknownAddress) after := by
  let early : List Dealing :=
    [.allocated 32 (.ok 0x200010), .allocated 32 (.ok 0x200040), .freed 0x200010 (.ok ())]
  have evaluated : (trial 0x200000 0x204000 [.allocate 32, .allocate 32, .free 0x200010,
      .free 0x200040] 0x200040 empty).map Outcome.value =
        .ok (.ok (), early ++ [.freed 0x200040 (.ok ())], .error .unknownAddress) := by
    decide +kernel
  rcases free_of_trial _ _ _ _ evaluated with ⟨heap, before, after, accepted, served, refused⟩
  refine ⟨heap, _, before, after, accepted, served, ?_, refused⟩
  exact ⟨early, [], rfl, ⟨32, by simp [early]⟩, fun ⟨_, mem⟩ => nomatch mem⟩

end Heap

end KernelCore
