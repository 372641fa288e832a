import KernelCore.Proofs.Operation

/-!
# Operations that cannot fault

`Operation.Safe` says that an operation ends without a fault wherever an invariant holds, and that
the invariant holds again when it ends. This is proved step by step along the operation: what is
safe one after the other is safe. An operation that may be refused is safe if it ends with a value
or with a refusal.
-/

namespace KernelCore

namespace Operation

variable {State Whole Value Result : Type}

/-- From inside, the operation ends without a fault, and it stays inside. -/
def Safe (action : Operation State Value) (inside : State → Prop) : Prop :=
  ∀ before, inside before → ∃ value after, action.Yields before value after ∧ inside after

section Rules

variable {action first : Operation State Value} {next : Value → Operation State Result}
  {value : Value} {inside : State → Prop}

theorem safe_pure : (pure value : Operation State Value).Safe inside :=
  fun before within => ⟨value, before, yields_pure.mpr ⟨rfl, rfl⟩, within⟩

theorem safe_bind (begun : first.Safe inside) (ended : ∀ value, (next value).Safe inside) :
    (first >>= next).Safe inside := by
  intro before within
  rcases begun before within with ⟨value, between, start, stays⟩
  rcases ended value between stays with ⟨result, after, finish, staysAfter⟩
  exact ⟨result, after, yields_bind.mpr ⟨value, between, start, finish⟩, staysAfter⟩

theorem safe_map (safe : action.Safe inside) (change : Value → Result) :
    (change <$> action).Safe inside := by
  rw [map_eq_pure_bind]
  exact safe_bind safe fun _ => safe_pure

theorem safe_get : (get : Operation State State).Safe inside :=
  fun before within => ⟨before, before, yields_get.mpr ⟨rfl, rfl⟩, within⟩

theorem safe_set {state : State} (within : inside state) :
    (set state : Operation State Unit).Safe inside :=
  fun _ _ => ⟨(), state, yields_set.mpr rfl, within⟩

theorem safe_modify {change : State → State}
    (stays : ∀ state, inside state → inside (change state)) :
    (modify change : Operation State Unit).Safe inside :=
  fun before within => ⟨(), change before, yields_modify.mpr rfl, stays before within⟩

theorem safe_modifyGet {change : State → Value × State}
    (stays : ∀ state, inside state → inside (change state).2) :
    (MonadState.modifyGet change : Operation State Value).Safe inside :=
  fun before within => ⟨_, _, yields_modifyGet.mpr rfl, stays before within⟩

theorem safe_perform {effects : List Effect} :
    (perform effects : Operation State Unit).Safe inside :=
  fun before within => ⟨(), before, yields_perform.mpr rfl, within⟩

/-- An operation on a part of the state is safe if the part has an invariant of its own, which
holds of it inside and without which nothing is lost. -/
theorem safe_within {Part Rest : Type} {split : Whole → Part × Rest} {join : Part → Rest → Whole}
    {action : Operation Part Value} {inside : Whole → Prop} {good : Part → Prop}
    (safe : action.Safe good) (enter : ∀ whole, inside whole → good (split whole).1)
    (leave : ∀ whole part, inside whole → good part → inside (join part (split whole).2)) :
    (action.within split join).Safe inside := by
  intro before within
  rcases safe (split before).1 (enter before within) with ⟨value, part, run, stays⟩
  exact ⟨value, _, yields_within.mpr ⟨part, run, rfl⟩, leave before part within stays⟩

/-- A masked operation is safe if the flag has no part in the invariant. -/
theorem safe_masked [Maskable State] (safe : action.Safe inside)
    (keeps : ∀ enabled state, inside state → inside (Maskable.withInterrupts enabled state)) :
    (masked action).Safe inside := by
  intro before within
  have start : inside
      (if Maskable.interrupts before then Maskable.withInterrupts false before else before) := by
    split
    · exact keeps false before within
    · exact within
  rcases safe _ start with ⟨value, between, run, stays⟩
  refine ⟨value, _, yields_masked.mpr ⟨between, run, rfl⟩, ?_⟩
  split
  · exact keeps true between stays
  · exact stays

end Rules

end Operation

namespace Fallible

variable {State Cause Other Value Result : Type}

/-- From inside, the operation ends without a fault, refused or not, and it stays inside. -/
def Safe (action : Fallible State Cause Value) (inside : State → Prop) : Prop :=
  Operation.Safe action inside

section Rules

variable {action first : Fallible State Cause Value} {next : Value → Fallible State Cause Result}
  {handler : Cause → Fallible State Cause Value} {inside : State → Prop}

theorem safe_pure {value : Value} : Safe (pure value : Fallible State Cause Value) inside :=
  Operation.safe_pure

theorem safe_throw {cause : Cause} : Safe (throw cause : Fallible State Cause Value) inside :=
  Operation.safe_pure

/-- What follows needs to be safe only for values with which the first operation can end. -/
theorem safe_bind_of (fine : Value → Prop)
    (begun : ∀ before, inside before → ∃ reply between, first.Yields before reply between ∧
      inside between ∧ ∀ value, reply = .ok value → fine value)
    (ended : ∀ value, fine value → (next value).Safe inside) : Safe (first >>= next) inside := by
  intro before within
  rcases begun before within with ⟨reply, between, start, stays, answers⟩
  cases reply with
  | error cause =>
      exact ⟨.error cause, between, yields_bind.mpr (Or.inl ⟨cause, start, rfl⟩), stays⟩
  | ok value =>
      rcases ended value (answers value rfl) between stays with ⟨result, after, finish, staysAfter⟩
      exact ⟨result, after, yields_bind.mpr (Or.inr ⟨value, between, start, finish⟩), staysAfter⟩

theorem safe_bind (begun : first.Safe inside) (ended : ∀ value, (next value).Safe inside) :
    Safe (first >>= next) inside := by
  refine safe_bind_of (fun _ => True) ?_ fun value _ => ended value
  intro before within
  rcases begun before within with ⟨reply, between, start, stays⟩
  exact ⟨reply, between, start, stays, fun _ _ => trivial⟩

theorem safe_tryCatch (begun : action.Safe inside)
    (handled : ∀ cause, (handler cause).Safe inside) :
    Safe (tryCatch action handler) inside := by
  refine Operation.safe_bind begun fun reply => ?_
  cases reply with
  | error cause => exact handled cause
  | ok value => exact Operation.safe_pure

theorem safe_lift {action : Operation State Value} (safe : action.Safe inside) :
    Safe (liftM action : Fallible State Cause Value) inside :=
  Operation.safe_map safe _

theorem safe_get : Safe (get : Fallible State Cause State) inside :=
  safe_lift Operation.safe_get

theorem safe_perform {effects : List Effect} :
    Safe (perform effects : Fallible State Cause Unit) inside :=
  safe_lift Operation.safe_perform

theorem safe_liftM {computed : Except Fault Value} {value : Value}
    (done : computed = .ok value) :
    Safe (liftM computed : Fallible State Cause Value) inside :=
  fun before within => ⟨.ok value, before, yields_liftM.mpr ⟨value, done, rfl, rfl⟩, within⟩

theorem safe_mapCause {change : Cause → Other} (safe : action.Safe inside) :
    (mapCause change action).Safe inside :=
  Operation.safe_map safe _

theorem safe_sweep {body : Nat → Fallible State Cause Unit}
    (step : ∀ number, (body number).Safe inside) (count first : Nat) :
    (sweep count first body).Safe inside := by
  intro before within
  have stepwise : ∀ number start, number < first + count → inside start →
      (∃ after, (body number).Yields start (.ok ()) after ∧ inside after) ∨
        ∃ cause after, (body number).Yields start (.error cause) after ∧ inside after := by
    intro number start _ stays
    rcases step number start stays with ⟨cause | _, after, run, staysAfter⟩
    · exact Or.inr ⟨cause, after, run, staysAfter⟩
    · exact Or.inl ⟨after, run, staysAfter⟩
  rcases yields_sweep stepwise count first rfl within with
    ⟨final, run, stays⟩ | ⟨cause, final, run, stays⟩
  · exact ⟨.ok (), final, run, stays⟩
  · exact ⟨.error cause, final, run, stays⟩

end Rules

end Fallible

end KernelCore
