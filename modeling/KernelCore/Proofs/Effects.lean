import KernelCore.Proofs.Operation

/-!
# What an operation tells the processor

`Operation.Tells` says of an operation, begun in a state, that all its effects are as told of the
value that it ends with. An operation is silent if it never tells the processor anything. As with
what an operation leads to, both are proved step by step along the operation.
-/

namespace KernelCore

namespace Operation

variable {State Whole Value Result : Type}

/-- Whatever the operation, begun in the state, ends with, its effects are as told. -/
def Tells (action : Operation State Value) (before : State) (told : Value → Effect → Prop) : Prop :=
  ∀ value after effects, action before = .ok ⟨value, after, effects⟩ →
    ∀ effect ∈ effects, told value effect

/-- The operation never tells the processor anything. -/
def Silent (action : Operation State Value) : Prop :=
  ∀ before, action.Tells before fun _ effect => ∀ event, effect ≠ .cpu event

section Tells

variable {action first : Operation State Value} {next : Value → Operation State Result}
  {before : State} {value : Value} {told : Value → Effect → Prop}

/-- In a sequence, what the first operation tells must be right for whatever comes of it. -/
theorem tells_sequence {told : Result → Effect → Prop}
    (begun : first.Tells before fun value effect =>
      ∀ between result after, (next value).Yields between result after → told result effect)
    (ended : ∀ value between, first.Yields before value between →
      (next value).Tells between told) : (first >>= next).Tells before told := by
  intro result after effects run effect mem
  rw [bind_apply] at run
  cases start : first before with
  | error fault => simp [start, bind, Except.bind] at run
  | ok outcome =>
      cases finish : next outcome.value outcome.state with
      | error fault => simp [start, finish, bind, Except.bind] at run
      | ok final =>
          simp only [start, finish, bind, Except.bind, pure, Except.pure, Except.ok.injEq,
            Outcome.mk.injEq] at run
          rcases run with ⟨rfl, rfl, rfl⟩
          rcases List.mem_append.mp mem with early | late
          · exact begun _ _ _ start effect early _ _ _ ⟨final.effects, finish⟩
          · exact ended _ _ ⟨outcome.effects, start⟩ _ _ _ finish effect late

theorem tells_bind {told : Result → Effect → Prop}
    (begun : ∀ result, first.Tells before fun _ => told result)
    (ended : ∀ value between, first.Yields before value between →
      (next value).Tells between told) : (first >>= next).Tells before told :=
  tells_sequence
    (fun value after effects run effect mem _ result _ _ =>
      begun result value after effects run effect mem)
    ended

theorem tells_perform {effects : List Effect} {told : Unit → Effect → Prop}
    (all : ∀ effect ∈ effects, told () effect) :
    (perform effects : Operation State Unit).Tells before told := by
  intro value after others run
  change Except.ok _ = Except.ok _ at run
  simp only [Except.ok.injEq, Outcome.mk.injEq] at run
  rcases run with ⟨-, -, rfl⟩
  exact all

/-- An operation that only reads and changes the state has no effects. -/
theorem tells_modifyGet {change : State → Value × State} :
    (modifyGet change).Tells before told := by
  intro value after effects run effect mem
  change Except.ok _ = Except.ok _ at run
  simp only [Except.ok.injEq, Outcome.mk.injEq] at run
  rw [← run.2.2] at mem
  exact absurd mem List.not_mem_nil

theorem tells_pure : (pure value : Operation State Value).Tells before told := by
  change (modifyGet fun state => (value, state)).Tells before told
  exact tells_modifyGet

theorem tells_modify {change : State → State} {told : Unit → Effect → Prop} :
    (modify change : Operation State Unit).Tells before told := by
  change (modifyGet fun state => ((), change state)).Tells before told
  exact tells_modifyGet

theorem Tells.mono {other : Value → Effect → Prop} (tells : action.Tells before told)
    (weaker : ∀ value effect, told value effect → other value effect) :
    action.Tells before other :=
  fun value after effects run effect mem =>
    weaker value effect (tells value after effects run effect mem)

theorem tells_map {change : Value → Result} {told : Result → Effect → Prop}
    (tells : action.Tells before fun value => told (change value)) :
    (change <$> action).Tells before told := by
  rw [map_eq_pure_bind]
  refine tells_sequence (tells.mono ?_) fun _ _ _ => tells_pure
  intro value effect fine between result after ended
  rcases yields_pure.mp ended with ⟨rfl, -⟩
  exact fine

theorem Silent.tells (silent : action.Silent)
    (others : ∀ value effect, (∀ event, effect ≠ .cpu event) → told value effect) :
    action.Tells before told :=
  (silent before).mono others

theorem silent_pure : (pure value : Operation State Value).Silent :=
  fun _ => tells_pure

theorem silent_modify {change : State → State} :
    (modify change : Operation State Unit).Silent :=
  fun _ => tells_modify

theorem silent_get : (get : Operation State State).Silent := by
  intro before
  change (modifyGet fun state => (state, state)).Tells before _
  exact tells_modifyGet

theorem silent_set {state : State} : (set state : Operation State Unit).Silent := by
  intro before
  change (modifyGet fun _ => ((), state)).Tells before _
  exact tells_modifyGet

theorem silent_log {notice : Notice} : (log notice : Operation State Unit).Silent :=
  fun _ => tells_perform (by simp)

theorem silent_liftM {result : Except Fault Value} :
    (liftM result : Operation State Value).Silent := by
  cases result with
  | error fault =>
      intro before value after effects run
      cases run
  | ok found => exact silent_pure

theorem silent_bind (begun : first.Silent) (ended : ∀ value, (next value).Silent) :
    (first >>= next).Silent :=
  fun before => tells_bind (fun _ => begun before) fun value between _ => ended value between

theorem silent_map (silent : action.Silent) (change : Value → Result) :
    (change <$> action).Silent := by
  rw [map_eq_pure_bind]
  exact silent_bind silent fun _ => silent_pure

theorem silent_within {Part Rest : Type} {split : Whole → Part × Rest}
    {join : Part → Rest → Whole} {action : Operation Part Value} (silent : action.Silent) :
    (action.within split join).Silent := by
  intro before value after effects run
  simp only [within] at run
  cases done : action (split before).1 with
  | error fault => simp [done] at run
  | ok outcome =>
      simp only [done, Except.ok.injEq, Outcome.mk.injEq] at run
      rcases run with ⟨rfl, -, rfl⟩
      exact silent _ _ _ _ done

theorem tells_signal {event : Event} {told : Unit → Effect → Prop} (fine : told () (.cpu event)) :
    (signal event : Operation State Unit).Tells before told :=
  tells_perform (by simpa using fine)

section Masking

variable [Maskable State]

theorem tells_acquire {told : Guard → Effect → Prop}
    (masks : ∀ guard, told guard (.cpu .disableInterrupts)) :
    Guard.acquire.Tells before told := by
  refine tells_bind (fun _ => tells_modifyGet) ?_
  intro enabled between _
  cases enabled with
  | false => exact tells_pure
  | true =>
      refine tells_bind (fun guard => tells_bind (fun _ => tells_signal (masks guard)) ?_) ?_
      · exact fun _ _ _ => tells_modify
      · exact fun _ _ _ => tells_pure

theorem tells_drop {guard : Guard} {told : Unit → Effect → Prop}
    (masks : told () (.cpu .enableInterrupts)) : guard.drop.Tells before told := by
  rcases guard with ⟨_ | _⟩
  · exact tells_pure
  · exact tells_bind (fun _ => tells_signal masks) fun _ _ _ => tells_modify

/-- A masked operation tells what the operation does, and that interrupts go off and on. -/
theorem tells_masked
    (masks : ∀ value, told value (.cpu .disableInterrupts) ∧ told value (.cpu .enableInterrupts))
    (tells : ∀ start, action.Tells start told) : (masked action).Tells before told := by
  refine tells_bind (fun value => tells_acquire fun _ => (masks value).1) ?_
  intro guard start _
  refine tells_sequence ?_ ?_
  · refine (tells start).mono ?_
    intro value effect fine between result after ended
    rcases yields_bind.mp ended with ⟨_, _, -, same⟩
    rcases yields_pure.mp same with ⟨rfl, -⟩
    exact fine
  · intro value between _
    exact tells_bind (fun result => tells_drop (masks result).2) fun _ _ _ => tells_pure

end Masking

end Tells

end Operation

namespace Fallible

variable {State Cause Other Value Result : Type}

/-- Whatever the operation, begun in the state, ends with, its effects are as told. -/
def Tells (action : Fallible State Cause Value) (before : State)
    (told : Except Cause Value → Effect → Prop) : Prop :=
  Operation.Tells action before told

/-- The operation never tells the processor anything. -/
def Silent (action : Fallible State Cause Value) : Prop :=
  Operation.Silent action

section Tells

variable {action first : Fallible State Cause Value} {next : Value → Fallible State Cause Result}
  {handler : Cause → Fallible State Cause Value} {before : State}

theorem tells_bind {told : Except Cause Result → Effect → Prop}
    (begun : ∀ result, first.Tells before fun _ => told result)
    (ended : ∀ value between, first.Yields before (.ok value) between →
      (next value).Tells between told) : Tells (first >>= next) before told := by
  refine Operation.tells_bind begun ?_
  intro reply between done
  cases reply with
  | error cause => exact Operation.tells_pure
  | ok value => exact ended value between done

theorem tells_tryCatch {told : Except Cause Value → Effect → Prop}
    (begun : ∀ result, action.Tells before fun _ => told result)
    (handled : ∀ cause between, action.Yields before (.error cause) between →
      (handler cause).Tells between told) : Tells (tryCatch action handler) before told := by
  refine Operation.tells_bind begun ?_
  intro reply between done
  cases reply with
  | error cause => exact handled cause between done
  | ok value => exact Operation.tells_pure

/-- An operation that is never refused, before a value that does not depend on it. -/
theorem tells_before {work : Operation State Value} {result : Result}
    {told : Except Cause Result → Effect → Prop}
    (tells : work.Tells before fun _ => told (.ok result)) :
    Tells (do let _ ← (liftM work : Fallible State Cause Value); pure result) before told := by
  refine Operation.tells_sequence (Operation.tells_map (tells.mono ?_)) ?_
  · intro value effect fine between reply after ended
    rcases yields_pure.mp ended with ⟨rfl, -⟩
    exact fine
  · intro reply between done
    cases reply with
    | error cause => exact Operation.tells_pure
    | ok value => exact Operation.tells_pure

theorem silent_pure {value : Value} : Silent (pure value : Fallible State Cause Value) :=
  Operation.silent_pure

theorem silent_throw {cause : Cause} : Silent (throw cause : Fallible State Cause Value) :=
  Operation.silent_pure

theorem silent_bind (begun : first.Silent) (ended : ∀ value, (next value).Silent) :
    Silent (first >>= next) :=
  fun before => tells_bind (fun _ => begun before) fun value between _ => ended value between

theorem silent_tryCatch (begun : action.Silent) (handled : ∀ cause, (handler cause).Silent) :
    Silent (tryCatch action handler) :=
  fun before => tells_tryCatch (fun _ => begun before) fun cause between _ => handled cause between

theorem silent_lift {action : Operation State Value} (silent : action.Silent) :
    Silent (liftM action : Fallible State Cause Value) :=
  Operation.silent_map silent _

theorem silent_get : Silent (get : Fallible State Cause State) :=
  silent_lift Operation.silent_get

theorem silent_set {state : State} : Silent (set state : Fallible State Cause Unit) :=
  silent_lift Operation.silent_set

theorem silent_modify {change : State → State} :
    Silent (modify change : Fallible State Cause Unit) :=
  silent_lift Operation.silent_modify

theorem silent_log {notice : Notice} : Silent (log notice : Fallible State Cause Unit) :=
  silent_lift Operation.silent_log

theorem silent_liftM {computed : Except Fault Value} :
    Silent (liftM computed : Fallible State Cause Value) :=
  silent_lift Operation.silent_liftM

theorem silent_mapCause {change : Cause → Other} (silent : action.Silent) :
    (mapCause change action).Silent :=
  Operation.silent_map silent _

end Tells

end Fallible

end KernelCore
