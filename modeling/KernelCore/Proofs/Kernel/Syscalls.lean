import KernelCore.Proofs.Kernel.Faultless
import KernelCore.Proofs.Masking

/-!
# What comes of a system call

A system call is decoded and then served, and what makes no sense may be noticed in either place:
an unknown number and a null buffer when it is decoded, a stream that nobody listens to when it is
served. `RawSyscall.Rejected` says which calls these are, without regard to the place. For them the
kernel does nothing but say so; `Kernel.Dispatched` tells what it does for each of the others.
-/

namespace KernelCore

namespace RawSyscall

/-- The calls that make no sense. -/
def Rejected (raw : RawSyscall) : Prop :=
  raw.number ∉ [Layout.exitNumber, Layout.writeNumber, Layout.getPidNumber, Layout.sleepNumber] ∨
    raw.number = Layout.writeNumber ∧ raw.second = 0 ∧ raw.third ≠ 0 ∨
    raw.number = Layout.writeNumber ∧ raw.first ≠ Layout.standardOutput

/-- What a write hands over. If it is of no bytes, nothing is read. -/
def buffer (bytesAt : UInt64 → Nat → List UInt8) (raw : RawSyscall) : List UInt8 :=
  if raw.third = 0 then [] else bytesAt raw.second raw.third.toNat

/-- A write that makes sense names bytes that are there, and no stretch of memory is longer than the
largest signed word. -/
def Readable (bytesAt : UInt64 → Nat → List UInt8) (raw : RawSyscall) : Prop :=
  raw.number = Layout.writeNumber → ¬raw.Rejected →
    (raw.buffer bytesAt).length = raw.third.toNat ∧ raw.third.toNat < 2 ^ 63

end RawSyscall

/-- The bytes that were handed to the console, in order. -/
def printed (effects : List Effect) : List UInt8 :=
  effects.flatMap fun
    | .print bytes => bytes
    | _ => []

namespace Kernel

/-- What comes of a system call in a state of the kernel. -/
structure Dispatched (bytesAt : UInt64 → Nat → List UInt8) (raw : RawSyscall) (before : Kernel) :
    Prop where
  rejected : raw.Rejected → ∃ effects,
    dispatchSyscall bytesAt raw before =
        .ok ⟨{ value := Layout.syscallFailure, plan := none }, before, effects⟩ ∧
      printed effects = []
  write : raw.number = Layout.writeNumber → ¬raw.Rejected → ∃ effects,
    dispatchSyscall bytesAt raw before =
        .ok ⟨{ value := raw.third, plan := none }, before, effects⟩ ∧
      printed effects = raw.buffer bytesAt ∧
      (raw.buffer bytesAt).length = raw.third.toNat
  getPid : raw.number = Layout.getPidNumber → ∃ effects,
    dispatchSyscall bytesAt raw before =
        .ok ⟨{ value := (before.currentPid.map (·.word.toUInt64)).getD 0, plan := none }, before,
          effects⟩ ∧
      printed effects = []
  /-- The code is the low half of the first word, with a sign. -/
  exit : raw.number = Layout.exitNumber →
    dispatchSyscall bytesAt raw =
      (fun plan => { value := 0, plan }) <$> Kernel.exit raw.first.toUInt32.toInt32
  /-- A time that is too long for its word is as long as it can be. -/
  sleep : raw.number = Layout.sleepNumber →
    dispatchSyscall bytesAt raw =
      (fun plan => { value := 0, plan }) <$>
        Kernel.sleep (UInt32.ofNat (min raw.first.toNat (2 ^ 32 - 1)))
  /-- The failure value is returned for the calls that make no sense and for no others. -/
  failure : ∀ returned after, (dispatchSyscall bytesAt raw).Yields before returned after →
    (returned.value = Layout.syscallFailure ↔ raw.Rejected)

section Serving

variable {bytesAt : UInt64 → Nat → List UInt8} {raw : RawSyscall} {before : Kernel}

theorem interrupts_withInterrupts (enabled : Bool) (kernel : Kernel) :
    Maskable.interrupts (Maskable.withInterrupts enabled kernel) = enabled :=
  rfl

theorem withInterrupts_interrupts (kernel : Kernel) :
    Maskable.withInterrupts (Maskable.interrupts kernel) kernel = kernel :=
  rfl

theorem printed_bracket (effects : List Effect) (opening closing : Event) :
    printed (.cpu opening :: (effects ++ [.cpu closing])) = printed effects := by
  simp [printed]

/-- What leaves the kernel as it is does so also if it is masked, and prints the same. -/
theorem masked_of_plain {Value : Type} {action : Operation Kernel Value} {value : Value}
    (effects : List Effect)
    (plain : ∀ enabled, action (Maskable.withInterrupts enabled before) =
      .ok ⟨value, Maskable.withInterrupts enabled before, effects⟩) :
    ∃ told, masked action before = .ok ⟨value, before, told⟩ ∧ printed told = printed effects := by
  refine ⟨_, Operation.masked_of_off before before (fun _ _ _ => rfl)
    (withInterrupts_interrupts before) (plain false), ?_⟩
  split
  · exact printed_bracket effects .disableInterrupts .enableInterrupts
  · rfl

/-- A system call that leads to a switch masks what is masked already. -/
theorem masked_answer (work : Operation Kernel (Option Switch)) :
    (masked do return { value := 0, plan := ← masked work : SyscallReturn }) =
      (fun plan => { value := 0, plan }) <$> masked work := by
  rw [← map_eq_pure_bind]
  exact Operation.masked_map_masked interrupts_withInterrupts _

theorem syscall_exit (code : Int32) :
    syscall (.exit code) = (fun plan => { value := 0, plan }) <$> Kernel.exit code :=
  masked_answer _

theorem syscall_sleep (milliseconds : UInt32) :
    syscall (.sleep milliseconds) =
      (fun plan => { value := 0, plan }) <$> Kernel.sleep milliseconds :=
  masked_answer _

theorem syscall_getPid : ∃ effects,
    syscall .getPid before =
        .ok ⟨{ value := (before.currentPid.map (·.word.toUInt64)).getD 0, plan := none }, before,
          effects⟩ ∧
      printed effects = [] :=
  masked_of_plain [] fun _ => rfl

theorem syscall_write (before : Kernel) (stream : UInt64) (bytes : List UInt8) : ∃ effects,
    syscall (.write stream bytes) before =
        .ok ⟨{ value := if stream = Layout.standardOutput then UInt64.ofNat bytes.length
                else Layout.syscallFailure, plan := none }, before, effects⟩ ∧
      printed effects = if stream = Layout.standardOutput then bytes else [] := by
  by_cases output : stream = Layout.standardOutput
  · have body : syscall (.write stream bytes) = masked (do
        print bytes
        return { value := UInt64.ofNat bytes.length, plan := none }) := by
      simp only [syscall, output, if_true]
    have written : ∃ told,
        masked (do
          print bytes
          return { value := UInt64.ofNat bytes.length, plan := none : SyscallReturn }) before =
            .ok ⟨{ value := UInt64.ofNat bytes.length, plan := none }, before, told⟩ ∧
          printed told = printed [.print bytes] :=
      masked_of_plain [.print bytes] fun _ => rfl
    rcases written with ⟨told, run, same⟩
    rw [body, if_pos output, if_pos output]
    exact ⟨told, run, same.trans (by simp [printed])⟩
  · have body : syscall (.write stream bytes) = masked (rejectSyscall (.badStream stream)) := by
      simp only [syscall, output, if_false]
    rw [body, if_neg output, if_neg output]
    exact masked_of_plain [.log (.syscallRejected (.badStream stream))] fun _ => rfl

theorem decode_write (isWrite : raw.number = Layout.writeNumber) :
    Syscall.decode bytesAt raw =
      if raw.second = 0 ∧ raw.third ≠ 0 then .error .badBuffer
      else .ok (.write raw.first (raw.buffer bytesAt)) := by
  have notExit : raw.number ≠ Layout.exitNumber := by rw [isWrite]; decide
  have notGetPid : raw.number ≠ Layout.getPidNumber := by rw [isWrite]; decide
  have notSleep : raw.number ≠ Layout.sleepNumber := by rw [isWrite]; decide
  rw [Syscall.decode, if_neg notExit, if_neg notGetPid, if_neg notSleep, if_pos isWrite]
  by_cases none : raw.third = 0
  · simp [RawSyscall.buffer, none]
  · by_cases null : raw.second = 0 <;> simp [RawSyscall.buffer, none, null]

theorem dispatch_exit (isExit : raw.number = Layout.exitNumber) :
    dispatchSyscall bytesAt raw =
      (fun plan => { value := 0, plan }) <$> Kernel.exit raw.first.toUInt32.toInt32 := by
  have decoded : Syscall.decode bytesAt raw = .ok (.exit raw.first.toUInt32.toInt32) :=
    if_pos isExit
  rw [dispatchSyscall, decoded]
  exact syscall_exit _

theorem dispatch_sleep (isSleep : raw.number = Layout.sleepNumber) :
    dispatchSyscall bytesAt raw =
      (fun plan => { value := 0, plan }) <$>
        Kernel.sleep (UInt32.ofNat (min raw.first.toNat (2 ^ 32 - 1))) := by
  have notExit : raw.number ≠ Layout.exitNumber := by rw [isSleep]; decide
  have notGetPid : raw.number ≠ Layout.getPidNumber := by rw [isSleep]; decide
  have decoded : Syscall.decode bytesAt raw =
      .ok (.sleep (UInt32.ofNat (min raw.first.toNat (2 ^ 32 - 1)))) := by
    rw [Syscall.decode, if_neg notExit, if_neg notGetPid, if_pos isSleep]
    rfl
  rw [dispatchSyscall, decoded]
  exact syscall_sleep _

theorem dispatch_getPid (bytesAt : UInt64 → Nat → List UInt8) (before : Kernel)
    (isGetPid : raw.number = Layout.getPidNumber) : ∃ effects,
    dispatchSyscall bytesAt raw before =
        .ok ⟨{ value := (before.currentPid.map (·.word.toUInt64)).getD 0, plan := none }, before,
          effects⟩ ∧
      printed effects = [] := by
  have notExit : raw.number ≠ Layout.exitNumber := by rw [isGetPid]; decide
  have decoded : Syscall.decode bytesAt raw = .ok .getPid := by
    rw [Syscall.decode, if_neg notExit, if_pos isGetPid]
  rw [dispatchSyscall, decoded]
  exact syscall_getPid

/-- A call that makes no sense comes to the same whether this is noticed when it is decoded or when
it is served. -/
theorem dispatch_rejected (bytesAt : UInt64 → Nat → List UInt8) (before : Kernel)
    (senseless : raw.Rejected) : ∃ effects,
    dispatchSyscall bytesAt raw before =
        .ok ⟨{ value := Layout.syscallFailure, plan := none }, before, effects⟩ ∧
      printed effects = [] := by
  have undecoded : ∀ cause, Syscall.decode bytesAt raw = .error cause → ∃ effects,
      dispatchSyscall bytesAt raw before =
          .ok ⟨{ value := Layout.syscallFailure, plan := none }, before, effects⟩ ∧
        printed effects = [] := by
    intro cause decoded
    rw [dispatchSyscall, decoded]
    exact ⟨[.log (.syscallRejected cause)], rfl, rfl⟩
  rcases senseless with unknown | ⟨isWrite, null⟩ | ⟨isWrite, elsewhere⟩
  · simp only [List.mem_cons, List.not_mem_nil, or_false, not_or] at unknown
    rcases unknown with ⟨notExit, notWrite, notGetPid, notSleep⟩
    refine undecoded (.unknown raw.number) ?_
    rw [Syscall.decode, if_neg notExit, if_neg notGetPid, if_neg notSleep, if_neg notWrite]
  · exact undecoded .badBuffer ((decode_write isWrite).trans (if_pos null))
  · by_cases null : raw.second = 0 ∧ raw.third ≠ 0
    · exact undecoded .badBuffer ((decode_write isWrite).trans (if_pos null))
    · have served := syscall_write before raw.first (raw.buffer bytesAt)
      rw [if_neg elsewhere, if_neg elsewhere] at served
      rw [dispatchSyscall, decode_write isWrite, if_neg null]
      exact served

theorem dispatch_write (before : Kernel) (isWrite : raw.number = Layout.writeNumber)
    (sensible : ¬raw.Rejected) (readable : raw.Readable bytesAt) : ∃ effects,
    dispatchSyscall bytesAt raw before =
        .ok ⟨{ value := raw.third, plan := none }, before, effects⟩ ∧
      printed effects = raw.buffer bytesAt ∧ (raw.buffer bytesAt).length = raw.third.toNat := by
  have output : raw.first = Layout.standardOutput := by
    by_contra elsewhere
    exact sensible (Or.inr (Or.inr ⟨isWrite, elsewhere⟩))
  have there : ¬(raw.second = 0 ∧ raw.third ≠ 0) := fun null =>
    sensible (Or.inr (Or.inl ⟨isWrite, null⟩))
  have length := (readable isWrite sensible).1
  rcases syscall_write before raw.first (raw.buffer bytesAt) with
    ⟨effects, served, handed⟩
  rw [if_pos output] at served handed
  rw [length, UInt64.ofNat_toNat] at served
  rw [dispatchSyscall, decode_write isWrite, if_neg there]
  exact ⟨effects, served, handed, length⟩

/-- An id is far below the failure value. -/
theorem currentPid_ne_failure (kernel : Kernel) :
    (kernel.currentPid.map (·.word.toUInt64)).getD 0 ≠ Layout.syscallFailure := by
  cases kernel.currentPid with
  | none => decide
  | some pid =>
      intro same
      have small := pid.word.toNat_lt
      have value := congrArg UInt64.toNat same
      simp only [Option.map_some, Option.getD_some, UInt32.toNat_toUInt64] at value
      rw [value] at small
      exact absurd small (by decide)

theorem dispatched (readable : raw.Readable bytesAt) (before : Kernel) :
    Dispatched bytesAt raw before where
  rejected := dispatch_rejected bytesAt before
  write isWrite sensible := dispatch_write before isWrite sensible readable
  getPid := dispatch_getPid bytesAt before
  exit := dispatch_exit
  sleep := dispatch_sleep
  failure returned after run := by
    by_cases senseless : raw.Rejected
    · rcases dispatch_rejected bytesAt before senseless with ⟨effects, done, -⟩
      rw [(run.unique ⟨effects, done⟩).1]
      exact iff_of_true rfl senseless
    · refine iff_of_false ?_ senseless
      have known : raw.number ∈ [Layout.exitNumber, Layout.writeNumber, Layout.getPidNumber,
          Layout.sleepNumber] := by
        by_contra unknown
        exact senseless (Or.inl unknown)
      simp only [List.mem_cons, List.not_mem_nil, or_false] at known
      rcases known with isExit | isWrite | isGetPid | isSleep
      · rw [dispatch_exit isExit] at run
        rcases Operation.yields_map.mp run with ⟨plan, -, rfl⟩
        exact (by decide : (0 : UInt64) ≠ Layout.syscallFailure)
      · rcases dispatch_write before isWrite senseless readable with ⟨effects, done, -⟩
        rw [(run.unique ⟨effects, done⟩).1]
        intro same
        have small := (readable isWrite senseless).2
        rw [show raw.third = Layout.syscallFailure from same] at small
        exact absurd small (by decide)
      · rcases dispatch_getPid bytesAt before isGetPid with ⟨effects, done, -⟩
        rw [(run.unique ⟨effects, done⟩).1]
        exact currentPid_ne_failure before
      · rw [dispatch_sleep isSleep] at run
        rcases Operation.yields_map.mp run with ⟨plan, -, rfl⟩
        exact (by decide : (0 : UInt64) ≠ Layout.syscallFailure)

end Serving

/-- Whatever number and words arrive, and in whatever state: calls that make no sense have the
failure value returned to them and no other effect, and each other call does what it is for. On a
kernel that has been through anything but more ticks than it can count, on whatever memory, a call
always comes to an end. -/
theorem dispatchSyscall_exact (bytesAt : UInt64 → Nat → List UInt8) (raw : RawSyscall)
    (readable : raw.Readable bytesAt) :
    (∀ before, Dispatched bytesAt raw before) ∧
      ∀ cpu memory (steps : List Custody.Step), steps.countP Custody.Step.isTick < 2 ^ 63 →
        ∃ custody, (steps.forM Custody.Step.act).Yields (Custody.ofKernel (.newOn cpu memory)) ()
            custody ∧
          ∃ returned after, (dispatchSyscall bytesAt raw).Yields custody.kernel returned after := by
  refine ⟨dispatched readable, fun cpu memory steps few => ?_⟩
  have start : (Custody.ofKernel (.newOn cpu memory)).Sturdy 0 := sturdy_newOn cpu memory
  have room : 0 + steps.countP Custody.Step.isTick < 2 ^ 63 := by rwa [Nat.zero_add]
  rcases Custody.run_sturdy steps start room with ⟨custody, run, sturdy⟩
  rcases safe_dispatchSyscall room bytesAt raw custody.kernel sturdy with ⟨returned, after, ended, -⟩
  exact ⟨custody, run, returned, after, ended⟩

/-- Two bytes are written while the first process runs. -/
theorem dispatchSyscall_exact_of_write :
    let raw : RawSyscall := { number := 4, first := 1, second := 0x1000, third := 2 }
    let bytesAt : UInt64 → Nat → List UInt8 := fun _ _ => [72, 105]
    let steps : List Custody.Step := [.init ⟨640, 15360⟩ 0x100000 {}, .call .start, .call .tick]
    raw.Readable bytesAt ∧ steps.countP Custody.Step.isTick < 2 ^ 63 ∧
      ∃ custody effects,
        (steps.forM Custody.Step.act).Yields (Custody.ofKernel (.newOn {} .zero)) () custody ∧
        dispatchSyscall bytesAt raw custody.kernel =
          .ok ⟨{ value := 2, plan := none }, custody.kernel, effects⟩ ∧
        printed effects = [72, 105] := by
  intro raw bytesAt steps
  have readable : raw.Readable bytesAt := fun _ _ => ⟨by decide, by decide⟩
  have few : steps.countP Custody.Step.isTick < 2 ^ 63 := by decide
  have sensible : ¬raw.Rejected := by
    rintro (unknown | ⟨-, null, -⟩ | ⟨-, elsewhere⟩)
    · exact unknown (by decide)
    · exact absurd null (by decide)
    · exact elsewhere rfl
  rcases dispatchSyscall_exact bytesAt raw readable with ⟨exact, ends⟩
  rcases ends {} .zero steps few with ⟨custody, run, -⟩
  rcases (exact custody.kernel).write rfl sensible with ⟨effects, served, handed, -⟩
  exact ⟨readable, few, custody, effects, run, served, handed⟩

end Kernel

end KernelCore
