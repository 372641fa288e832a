import KernelCore.Cpu
import KernelCore.Fault
import KernelCore.Notice

/-!
# Operations

An `Operation` on a state of type `State` either stops with a fault or ends with an `Outcome`: a
value, the state it leaves, and its effects in the order in which they happened. Effects are told,
never read back, so an operation cannot depend on what was logged or sent before.

A `Fallible` operation may be refused. A refusal is a value, and the state and the effects up to
it remain: that a refused operation leaves no trace is never a matter of course, but something to
be proved of it.
-/

namespace KernelCore

/-- Something an operation does besides changing the state. -/
inductive Effect where
  | cpu (event : Event)
  | log (notice : Notice)
  | print (bytes : List UInt8)
  deriving DecidableEq, Repr

/-- What an operation leaves behind. -/
structure Outcome (State Value : Type) where
  value : Value
  state : State
  effects : List Effect

/-- A computation on a state that has effects and may stop with a fault. -/
def Operation (State Value : Type) : Type :=
  State → Except Fault (Outcome State Value)

/-- An operation that may be refused for a cause of type `Cause`. -/
abbrev Fallible (State Cause Value : Type) : Type :=
  ExceptT Cause (Operation State) Value

/-- The monads in which the effects of an operation take place. -/
class HasEffects (M : Type → Type) where
  /-- Has the given effects, in order. -/
  perform : List Effect → M Unit

export HasEffects (perform)

namespace Operation

variable {State Whole Value Result Cause : Type}

/-- Does nothing and answers with a value. -/
@[inline]
protected def pure (value : Value) : Operation State Value :=
  fun state => .ok ⟨value, state, []⟩

/-- Does one operation and then another, which depends on the value of the first. -/
@[inline]
protected def bind (first : Operation State Value) (next : Value → Operation State Result) :
    Operation State Result :=
  fun state =>
    match first state with
    | .error fault => .error fault
    | .ok ⟨value, between, effects⟩ =>
        match next value between with
        | .error fault => .error fault
        | .ok ⟨result, final, more⟩ => .ok ⟨result, final, effects ++ more⟩

@[always_inline]
instance : Monad (Operation State) where
  pure := Operation.pure
  bind := Operation.bind

/-- Doing one operation after another is associative, and doing nothing changes nothing. -/
instance : LawfulMonad (Operation State) :=
  LawfulMonad.mk' _
    (fun action => funext fun state => by
      change Operation.bind action (fun value => Operation.pure (id value)) state = action state
      simp only [Operation.bind, Operation.pure]
      cases action state <;> simp)
    (fun value next => funext fun state => by
      change Operation.bind (Operation.pure value) next state = next value state
      simp only [Operation.bind, Operation.pure]
      cases next value state <;> simp)
    (fun first second third => funext fun state => by
      change Operation.bind (Operation.bind first second) third state =
        Operation.bind first (fun value => Operation.bind (second value) third) state
      simp only [Operation.bind]
      cases first state with
      | error fault => rfl
      | ok outcome =>
          cases next : second outcome.value outcome.state with
          | error fault => simp [next]
          | ok between =>
              cases last : third between.value between.state <;> simp [next, last])

@[simp]
theorem pure_apply (value : Value) (state : State) :
    (pure value : Operation State Value) state = .ok ⟨value, state, []⟩ :=
  rfl

/-- In a sequence the effects of the first operation come before those of the second. -/
theorem bind_apply (first : Operation State Value) (next : Value → Operation State Result)
    (state : State) :
    (first >>= next) state = do
      let outcome ← first state
      let final ← next outcome.value outcome.state
      return { final with effects := outcome.effects ++ final.effects } := by
  change Operation.bind first next state = _
  simp only [Operation.bind]
  cases first state with
  | error fault => rfl
  | ok outcome =>
      simp only [bind, Except.bind, pure, Except.pure]
      cases next outcome.value outcome.state <;> rfl

/-- Stops with a fault, if there is one. -/
@[inline]
def ofExcept (result : Except Fault Value) : Operation State Value :=
  fun state =>
    match result with
    | .error fault => .error fault
    | .ok value => .ok ⟨value, state, []⟩

@[always_inline]
instance : MonadLift (Except Fault) (Operation State) where
  monadLift := Operation.ofExcept

/-- Replaces the state by a function of it that also gives a value. -/
@[inline]
def modifyGet (change : State → Value × State) : Operation State Value :=
  fun state =>
    match change state with
    | (value, state) => .ok ⟨value, state, []⟩

@[always_inline]
instance : MonadStateOf State (Operation State) where
  get := fun state => .ok ⟨state, state, []⟩
  set := fun state _ => .ok ⟨(), state, []⟩
  modifyGet := Operation.modifyGet

/-- Reading the state has no effects. -/
theorem get_bind_apply (next : State → Operation State Result) (state : State) :
    (get >>= next) state = next state state := by
  rw [bind_apply]
  change (do
    let final ← next state state
    return { final with effects := [] ++ final.effects }) = _
  cases next state state <;> rfl

@[always_inline]
instance : HasEffects (Operation State) where
  perform := fun effects state => .ok ⟨(), state, effects⟩

/-- Does an operation on a part of the state, given how the whole is split into that part and the
rest, and put together again. -/
@[inline]
def within {Part Rest : Type} (split : Whole → Part × Rest) (join : Part → Rest → Whole)
    (action : Operation Part Value) : Operation Whole Value :=
  fun whole =>
    match split whole with
    | (part, rest) =>
        match action part with
        | .error fault => .error fault
        | .ok ⟨value, part, effects⟩ => .ok ⟨value, join part rest, effects⟩

/-- The loop behind `Fallible.sweep`, with the effects so far in reverse order. -/
def sweepFrom (body : Nat → Operation State (Except Cause Unit)) :
    (count first : Nat) → List Effect → Operation State (Except Cause Unit)
  | 0, _, told => fun state => .ok ⟨.ok (), state, told.reverse⟩
  | count + 1, first, told => fun state =>
      match body first state with
      | .error fault => .error fault
      | .ok ⟨.error cause, state, effects⟩ =>
          .ok ⟨.error cause, state, (effects.reverseAux told).reverse⟩
      | .ok ⟨.ok (), state, effects⟩ =>
          sweepFrom body count (first + 1) (effects.reverseAux told) state

end Operation

@[always_inline]
instance {M : Type → Type} {Cause : Type} [Monad M] [HasEffects M] :
    HasEffects (ExceptT Cause M) where
  perform effects := ExceptT.lift (perform effects)

variable {M : Type → Type} [HasEffects M]

/-- Tells the processor to do something. -/
@[inline]
def signal (event : Event) : M Unit :=
  perform [.cpu event]

/-- Logs an occurrence. -/
@[inline]
def log (notice : Notice) : M Unit :=
  perform [.log notice]

/-- Hands bytes to the console. -/
@[inline]
def print (bytes : List UInt8) : M Unit :=
  perform [.print bytes]

namespace Fallible

variable {State Cause Value : Type}

/-- Does `body` for `count` successive numbers from `first` on, until it is refused. -/
def sweep (count first : Nat) (body : Nat → Fallible State Cause Unit) :
    Fallible State Cause Unit :=
  Operation.sweepFrom body count first []

/-- Refuses for another cause, as the given function has it. -/
@[inline]
def mapCause {Other : Type} (change : Cause → Other) (action : Fallible State Cause Value) :
    Fallible State Other Value :=
  (Except.mapError change <$> action : Operation State (Except Other Value))

/-- An operation that is never refused. -/
@[inline]
def always (action : Operation State Value) : Fallible State Cause Value :=
  ExceptT.lift action

/-- Answers with the cause if the operation is refused. -/
@[inline]
def result (action : Fallible State Cause Value) : Operation State (Except Cause Value) :=
  action

end Fallible

end KernelCore
