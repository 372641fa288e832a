import KernelCore.Logger
import KernelCore.Proofs.Boot
import KernelCore.Proofs.Kernel.Syscalls

/-!
# What writes put on the line

A process writes through four layers: the call is decoded, the kernel serves it, the bytes are
handed to the serial line, and the driver of the line sends them. None of the layers drops or
repeats a byte, and none keeps a byte for later, so all that matters is the concatenation of what
was written, however it was cut into calls.

The driver, however, sends a backspace and a delete as three bytes each. The line therefore carries
what was written exactly if neither of the two was, and otherwise two bytes more for each of them
than the processes are told that they wrote.
-/

namespace KernelCore

namespace Serial

/-- Whether the driver sends something else than the byte. -/
def rendered (byte : UInt8) : Bool :=
  byte = 8 ∨ byte = 127

section Lines

variable {byte : UInt8} {bytes : List UInt8}

@[simp]
theorem transmit_nil : transmit [] = [] :=
  rfl

@[simp]
theorem transmit_cons (byte : UInt8) (rest : List UInt8) :
    transmit (byte :: rest) = send byte ++ transmit rest :=
  rfl

/-- What is sent does not depend on how it is cut. -/
@[simp]
theorem transmit_append (bytes more : List UInt8) :
    transmit (bytes ++ more) = transmit bytes ++ transmit more :=
  List.flatMap_append

theorem send_of_rendered (isRendered : rendered byte = true) : send byte = [8, 32, 8] :=
  if_pos (of_decide_eq_true isRendered)

theorem send_of_not_rendered (plain : rendered byte = false) : send byte = [byte] :=
  if_neg (of_decide_eq_false plain)

/-- Each rendered byte takes up two more bytes on the line. -/
theorem length_transmit (bytes : List UInt8) :
    (transmit bytes).length = bytes.length + 2 * bytes.countP rendered := by
  induction bytes with
  | nil => rfl
  | cons byte rest ih =>
      rw [transmit_cons, List.length_append, ih, List.length_cons]
      cases isRendered : rendered byte with
      | false =>
          rw [send_of_not_rendered isRendered, List.countP_cons_of_neg (by simp [isRendered]),
            List.length_singleton]
          omega
      | true =>
          rw [send_of_rendered isRendered, List.countP_cons_of_pos isRendered]
          simp only [List.length_cons, List.length_nil]
          omega

theorem forall_rendered_eq_false_iff :
    (∀ byte ∈ bytes, rendered byte = false) ↔ 8 ∉ bytes ∧ 127 ∉ bytes := by
  constructor
  · intro plain
    exact ⟨fun mem => absurd (plain 8 mem) (by decide),
      fun mem => absurd (plain 127 mem) (by decide)⟩
  · intro ⟨noBackspace, noDelete⟩ byte mem
    refine decide_eq_false ?_
    rintro (rfl | rfl)
    · exact noBackspace mem
    · exact noDelete mem

/-- The line carries the bytes as they are exactly if none of them is rendered. -/
theorem transmit_eq_self_iff :
    transmit bytes = bytes ↔ ∀ byte ∈ bytes, rendered byte = false := by
  constructor
  · intro same byte mem
    have lengths := length_transmit bytes
    rw [same] at lengths
    have none : bytes.countP rendered = 0 := by omega
    exact Bool.of_not_eq_true (List.countP_eq_zero.mp none byte mem)
  · intro plain
    induction bytes with
    | nil => rfl
    | cons byte rest ih =>
        rw [transmit_cons, send_of_not_rendered (plain byte List.mem_cons_self),
          ih fun byte mem => plain byte (List.mem_cons_of_mem _ mem)]
        rfl

end Lines

end Serial

/-- What the processor is told before and after leaves the line as it is. -/
theorem Logger.transcript_around (filter : Filter) (first last : Event) (effects : List Effect) :
    transcript filter (.cpu first :: (effects ++ [.cpu last])) = transcript filter effects := by
  rw [transcript, List.flatMap_cons, List.flatMap_append]
  exact List.append_nil _

namespace Operation

variable {State Value Result : Type}

/-- The operation, begun in one state, ends without a fault in the other, with the value, and just
the bytes are on the line, whatever records the logger lets pass. -/
def Sends (action : Operation State Value) (before : State) (value : Value) (after : State)
    (bytes : List UInt8) : Prop :=
  ∃ effects, action before = .ok ⟨value, after, effects⟩ ∧
    ∀ filter, Logger.transcript filter effects = bytes

section Sends

variable {action first : Operation State Value} {next : Value → Operation State Result}
  {before between after : State} {value : Value} {result : Result} {early late : List UInt8}

theorem sends_pure : (pure value : Operation State Value).Sends before value before [] :=
  ⟨[], rfl, fun _ => rfl⟩

theorem sends_print (bytes : List UInt8) :
    (print bytes : Operation State Unit).Sends before () before (Serial.transmit bytes) :=
  ⟨[.print bytes], rfl, fun _ => List.append_nil _⟩

/-- The line carries the bytes of the first operation before those of the second. -/
theorem sends_bind (begun : first.Sends before value between early)
    (ended : (next value).Sends between result after late) :
    (first >>= next).Sends before result after (early ++ late) := by
  rcases begun with ⟨effects, start, sentEarly⟩
  rcases ended with ⟨more, finish, sentLate⟩
  refine ⟨effects ++ more, bind_eq_ok.mpr ⟨value, between, effects, more, start, finish, rfl⟩,
    fun filter => ?_⟩
  rw [← sentEarly filter, ← sentLate filter]
  exact List.flatMap_append

/-- Turning interrupts off and on again sends nothing. -/
theorem sends_masked [Maskable State] (before after : State) {bytes : List UInt8}
    (overwritten : ∀ enabled other (state : State),
      Maskable.withInterrupts enabled (Maskable.withInterrupts other state) =
        Maskable.withInterrupts enabled state)
    (same : Maskable.withInterrupts (Maskable.interrupts before) before = before)
    (sends : action.Sends (Maskable.withInterrupts false before) value
      (Maskable.withInterrupts false after) bytes) :
    (masked action).Sends before value
      (Maskable.withInterrupts (Maskable.interrupts before) after) bytes := by
  rcases sends with ⟨effects, run, sent⟩
  refine ⟨_, masked_of_off before after overwritten same run, fun filter => ?_⟩
  rw [← sent filter]
  cases Maskable.interrupts before with
  | false => rfl
  | true => exact Logger.transcript_around filter _ _ effects

end Sends

end Operation

open Operation

/-- Taking the lock of the kernel and giving it back sends nothing. -/
theorem Boot.sends_withKernel {Value : Type} {action : Operation Kernel Value}
    {kernel after : Kernel} {value : Value} {bytes : List UInt8}
    (sends : action.Sends kernel value after bytes) :
    (withKernel action).Sends { kernel } value { kernel := after } bytes := by
  rcases sends with ⟨effects, run, sent⟩
  refine ⟨.cpu .acquireLock :: (effects ++ [.cpu .releaseLock]), ?_, fun filter => ?_⟩
  · rw [withKernel_apply, run]
    rfl
  · rw [Logger.transcript_around]
    exact sent filter

/-- A write to the standard output that makes sense: its bytes are there. -/
structure Write where
  /-- The memory of the caller. -/
  bytesAt : UInt64 → Nat → List UInt8
  raw : RawSyscall
  isWrite : raw.number = Layout.writeNumber
  sensible : ¬raw.Rejected
  readable : raw.Readable bytesAt

namespace Write

/-- What is written. -/
def buffer (write : Write) : List UInt8 :=
  write.raw.buffer write.bytesAt

/-- The number of bytes that are written. -/
def count (write : Write) : UInt64 :=
  write.raw.third

/-- The write arrives at the booted machine. -/
def act (write : Write) : Operation Boot UInt64 :=
  Boot.syscallEntry write.bytesAt write.raw

/-- All that is written, in order. -/
def written (writes : List Write) : List UInt8 :=
  writes.flatMap buffer

section Buffers

variable {bytes : List UInt8}

theorem toNat_ofNat_length (fit : bytes.length < 2 ^ 63) :
    (UInt64.ofNat bytes.length).toNat = bytes.length :=
  UInt64.toNat_ofNat_of_lt' (fit.trans (by decide))

/-- If the count is zero there are no bytes. -/
theorem ite_length (fit : bytes.length < 2 ^ 63) :
    (if UInt64.ofNat bytes.length = 0 then [] else bytes) = bytes := by
  split
  · rename_i none
    have length := toNat_ofNat_length fit
    rw [none] at length
    exact (List.length_eq_zero_iff.mp length.symm).symm
  · rfl

/-- Any bytes can be written, as long as they fit into memory. -/
def ofBytes (bytes : List UInt8) (fit : bytes.length < 2 ^ 63) : Write where
  bytesAt _ _ := bytes
  raw :=
    { number := Layout.writeNumber
      first := Layout.standardOutput
      second := 0x1000
      third := .ofNat bytes.length }
  isWrite := rfl
  sensible := by
    rintro (unknown | ⟨-, null, -⟩ | ⟨-, elsewhere⟩)
    · have known : Layout.writeNumber ∈ [Layout.exitNumber, Layout.writeNumber,
          Layout.getPidNumber, Layout.sleepNumber] := by decide
      exact unknown known
    · have present : (0x1000 : UInt64) ≠ 0 := by decide
      exact present null
    · exact elsewhere rfl
  readable := by
    intro _ _
    refine ⟨?_, (toNat_ofNat_length fit).trans_lt fit⟩
    rw [RawSyscall.buffer, ite_length fit, toNat_ofNat_length fit]

/-- So there is a write for any buffer. -/
theorem buffer_ofBytes (fit : bytes.length < 2 ^ 63) : (ofBytes bytes fit).buffer = bytes :=
  ite_length fit

end Buffers

section Calls

variable (write : Write)

theorem first_eq : write.raw.first = Layout.standardOutput := by
  by_contra elsewhere
  exact write.sensible (Or.inr (Or.inr ⟨write.isWrite, elsewhere⟩))

theorem length_buffer : write.buffer.length = write.count.toNat :=
  (write.readable write.isWrite write.sensible).1

/-- The call is decoded to a write of the bytes. -/
theorem decode_eq :
    Syscall.decode write.bytesAt write.raw = .ok (.write write.raw.first write.buffer) := by
  have present : ¬(write.raw.second = 0 ∧ write.raw.third ≠ 0) := fun absent =>
    write.sensible (Or.inr (Or.inl ⟨write.isWrite, absent⟩))
  exact (Kernel.decode_write write.isWrite).trans (if_neg present)

/-- The kernel hands all of the bytes on, and answers with their number. -/
theorem sends_dispatchSyscall (before : Kernel) :
    (Kernel.dispatchSyscall write.bytesAt write.raw).Sends before { value := write.count }
      before (Serial.transmit write.buffer) := by
  have counted : UInt64.ofNat write.buffer.length = write.count := by
    rw [length_buffer, UInt64.ofNat_toNat]
  have served : Kernel.dispatchSyscall write.bytesAt write.raw = masked (do
      print write.buffer
      return { value := write.count }) := by
    rw [Kernel.dispatchSyscall, decode_eq]
    simp only [Kernel.syscall, first_eq, if_true, counted]
  rw [served]
  refine sends_masked before before (fun _ _ _ => rfl) rfl ?_
  rw [← List.append_nil (Serial.transmit write.buffer)]
  exact sends_bind (sends_print write.buffer) sends_pure

/-- A write sends its bytes, answers with their number, and leaves the kernel as it was and its lock
free. -/
theorem sends_act (kernel : Kernel) :
    write.act.Sends { kernel } write.count { kernel } (Serial.transmit write.buffer) := by
  refine sends_masked (Boot.mk kernel false) (Boot.mk kernel false) (fun _ _ _ => rfl) rfl ?_
  rw [← List.append_nil (Serial.transmit write.buffer)]
  exact sends_bind (Boot.sends_withKernel (write.sends_dispatchSyscall _))
    (sends_bind sends_pure sends_pure)

/-- Nothing is kept from one write to the next. -/
theorem sends_mapM (writes : List Write) (kernel : Kernel) :
    (writes.mapM act).Sends { kernel } (writes.map count) { kernel }
      (Serial.transmit (written writes)) := by
  induction writes with
  | nil => exact sends_pure
  | cons write rest ih =>
      have later : (do return write.count :: (← rest.mapM act)).Sends { kernel }
          (write.count :: rest.map count) { kernel } (Serial.transmit (written rest) ++ []) :=
        sends_bind ih sends_pure
      rw [List.append_nil] at later
      rw [List.mapM_cons, written, List.flatMap_cons, Serial.transmit_append]
      exact sends_bind (write.sends_act kernel) later

/-- Each value that is returned is the number of bytes of its own write. -/
theorem map_toNat_count (writes : List Write) :
    (writes.map count).map UInt64.toNat = writes.map fun write => write.buffer.length := by
  rw [List.map_map]
  exact List.map_congr_left fun write _ => write.length_buffer.symm

end Calls

end Write

/-- However the bytes are cut into writes, each write returns the number of its bytes, and the line
carries the bytes in order as the driver renders them. It carries just the bytes if and only if
there is neither a backspace nor a delete among them; for each of these it carries two bytes that no
value counts. The kernel is what it was before, and its lock is free again. -/
theorem Write.line_of_writes (filter : Filter) (writes : List Write) (kernel : Kernel) :
    ∃ returned effects,
      writes.mapM act { kernel } = .ok ⟨returned, { kernel }, effects⟩ ∧
      returned.map UInt64.toNat = writes.map (fun write => write.buffer.length) ∧
      (returned.map UInt64.toNat).sum = (written writes).length ∧
      Logger.transcript filter effects = Serial.transmit (written writes) ∧
      (Logger.transcript filter effects).length =
        (returned.map UInt64.toNat).sum + 2 * (written writes).countP Serial.rendered ∧
      (Logger.transcript filter effects = written writes ↔
        8 ∉ written writes ∧ 127 ∉ written writes) := by
  rcases sends_mapM writes kernel with ⟨effects, run, sent⟩
  have counted := map_toNat_count writes
  have total : ((writes.map count).map UInt64.toNat).sum = (written writes).length := by
    rw [counted, written, List.length_flatMap]
  refine ⟨_, effects, run, counted, total, sent filter, ?_, ?_⟩
  · rw [sent filter, total, Serial.length_transmit]
  · rw [sent filter, Serial.transmit_eq_self_iff, Serial.forall_rendered_eq_false_iff]

namespace Write

/-- A process that writes a backspace is told that it wrote one byte, and the line carries three. -/
theorem backspace_takes_three_bytes :
    ∃ after effects,
      [ofBytes [8] (by decide)].mapM act { kernel := .new true } = .ok ⟨[1], after, effects⟩ ∧
      written [ofBytes [8] (by decide)] = [8] ∧
      Logger.transcript .off effects = [8, 32, 8] := by
  rcases sends_mapM [ofBytes [8] (by decide)] (.new true) with ⟨effects, run, sent⟩
  have writes : written [ofBytes [8] (by decide)] = [8] := by
    rw [written, List.flatMap_singleton, buffer_ofBytes]
  rw [writes] at sent
  exact ⟨_, effects, run, writes, sent .off⟩

end Write

end KernelCore
