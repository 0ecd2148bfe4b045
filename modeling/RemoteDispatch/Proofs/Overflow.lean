import Mathlib.Data.Nat.Digits.Defs
import RemoteDispatch.Proofs.Failures

/-!
# What arrives of an overflow

Arguments and results may be longer than the limit of an environment's buffers.
Whoever writes them learns of it from the buffer, and passes it on
(`Script.Propagates`). What the caller is told depends on which side wrote.

Arguments are written on this side. The refusal of the buffer is told as what it
is, a lack of memory, and nothing is sent. A result is written on the far side.
There the refusal becomes the record of a failure like any other, and the caller
is told of a failure of the operation, or, if the limit has no room for that
record either, that the record is malformed. A result that is not waited for is
written into a buffer of the engine's own, which the limit does not reach.
-/

namespace RemoteDispatch

variable {α β : Type}

/-! ## Passing on what a buffer refuses -/

namespace Script

/-- **A script that passes on what goes wrong with its writing**: it ends there, with what stands
for the error. -/
def Propagates (fail : CodecError → α) : Script α → Prop
  | finish _ => True
  | write _ next => (∀ err position, next (.error err) position = finish (fail err)) ∧
      ∀ position, (next (.ok ()) position).Propagates fail

/-- **What is not within the limit ends the script for want of memory**, wherever in the script the
limit is met. -/
theorem run_of_overflow {fail : CodecError → α} {s : Script α} (propagates : s.Propagates fail)
    {w : Writer} {bytes : Bytes} (h : w.Holds bytes) (bounded : w.buffer.Bounded)
    (exceeds : ¬w.buffer.withinLimit (s.freely bytes).2.length) :
    ∃ size w', size ≤ Buffer.addressable ∧ s.run w = (fail (.outOfMemory size), w') := by
  induction s generalizing w bytes with
  | finish result => exact absurd (h.within bounded) exceeds
  | write e next ih =>
    obtain ⟨passes, goesOn⟩ := propagates
    have kept := Writer.keeps_perform Buffer.kept_bounded.filled bounded e
    have limit := (Writer.sameFrame_perform w e).1
    unfold run
    obtain ⟨w₁, hperform, hput⟩ | ⟨size, w₁, le, hperform⟩ := w.perform_cases e
    · have held := h.putAll hput
      rw [hperform] at kept limit
      unfold freely at exceeds
      rw [hperform]
      cases hend : e.outcome with
      | ok _ =>
        rw [hend] at exceeds
        show ∃ size w', _ ∧ (next (.ok ()) w₁.position).run w₁ = _
        rw [held.position]
        refine ih _ _ (goesOn _) held kept ?_
        rw [Buffer.withinLimit_congr limit]
        exact exceeds
      | error err =>
        -- the emission gave up by itself, and what it wrote until then was taken
        rw [hend, passes] at exceeds
        have within := held.within kept
        rw [Buffer.withinLimit_congr limit] at within
        exact absurd within exceeds
    · rw [hperform]
      dsimp only
      rw [passes]
      exact ⟨size, w₁, le, rfl⟩

end Script

/-- Arguments that do not fit are refused for want of memory. -/
theorem Encoder.into_of_overflow {encode : Encoder} {r : Registry} {b : Buffer}
    (propagates : (encode r).Propagates .error) (bounded : b.Bounded)
    (exceeds : ¬b.withinLimit ((encode r).freely []).2.length) :
    ∃ size b', encode.into r b = (.error (.outOfMemory size), b') := by
  obtain ⟨size, w, _, hrun⟩ :=
    Script.run_of_overflow propagates (Writer.holds_start b) bounded exceeds
  unfold into
  rw [hrun]
  exact ⟨size, w.buffer, rfl⟩

/-! ## The wording of a refusal -/

/-- A character takes four bytes at most. -/
theorem length_utf8_le (s : String) : (utf8 s).length ≤ 4 * s.length := by
  have encoded : s.toUTF8 = s.toList.utf8Encode := by
    conv_lhs => rw [← String.ofList_toList (s := s)]
    exact String.toByteArray_ofList
  have bytes : utf8 s = s.toList.flatMap String.utf8EncodeChar := by
    unfold utf8
    rw [encoded]
    unfold List.utf8Encode
    simp
  rw [bytes, List.length_flatMap, ← String.length_toList]
  generalize s.toList = l
  induction l with
  | nil => exact Nat.le_refl _
  | cons c l ih =>
    have size := c.utf8Size_le_four
    rw [List.map_cons, List.sum_cons, List.length_cons, String.length_utf8EncodeChar]
    omega

/-- A machine word has twenty digits at most, so the failure that stands for a refusal is short. -/
theorem Failure.short_ofCodec_outOfMemory {size : Nat} (h : size ≤ Buffer.addressable) :
    (Failure.ofCodec (.outOfMemory size)).Short where
  message := by
    have digits : (toString size).length ≤ 20 :=
      Nat.repr_length size 20 (by decide) (Nat.lt_of_le_of_lt h (by decide))
    have words : (Failure.ofCodec (.outOfMemory size)).message =
        "out of memory: cannot grow buffer to " ++ toString size ++ " bytes" := rfl
    have length : ("out of memory: cannot grow buffer to " ++ toString size ++ " bytes").length =
        37 + (toString size).length + 6 := by
      rw [String.length_append, String.length_append]
      rfl
    refine Nat.le_trans (length_utf8_le _) ?_
    rw [words, length]
    unfold Emission.maxLength
    omega
  remoteKind := by
    rintro kind ⟨⟩
    decide +kernel

/-! ## Arguments that do not fit -/

/-- What a caller is told of a lack of memory on this side. -/
def CallError.NoMemory (e : CallError) : Prop :=
  ∃ message, e = ⟨.outOfMemory, ErrorCode.memory, message, none⟩

/-- A codec error is a lack of memory if it says so. -/
theorem CallError.noMemory_ofCodec (size : Nat) : (ofCodec (.outOfMemory size)).NoMemory :=
  ⟨_, rfl⟩

theorem Buffer.outOfMemory_of_fresh {capacity : Nat} {limit : Option Nat} {e : CodecError}
    (h : fresh capacity limit = .error e) : ∃ size, e = .outOfMemory size := by
  unfold fresh at h
  split at h
  · cases h
    exact ⟨_, rfl⟩
  · cases h

/-- A pool has no other reason not to make a buffer. -/
theorem Pool.outOfMemory_of_make {c : Config} {e : CodecError} (h : make c = .error e) :
    ∃ size, e = .outOfMemory size := by
  unfold make at h
  cases hl : c.bufferLimit with
  | none =>
    rw [hl] at h
    exact Buffer.outOfMemory_of_fresh h
  | some limit =>
    rw [hl] at h
    dsimp only [Buffer.withLimit] at h
    rw [if_pos (Nat.min_le_right _ _)] at h
    exact Buffer.outOfMemory_of_fresh h

namespace World

variable {σ : Type} {w w' : World σ α} {t : Target} {encode : Encoder}

theorem noMemory_of_allocate {e : EnvironmentId} {err : CallError}
    (h : w.allocate e = (.error err, w')) : err.NoMemory := by
  have refused : (w.environment e).pool.acquire.1.mapError CallError.ofCodec = .error err :=
    congrArg Prod.fst h
  unfold Pool.acquire at refused
  cases hidle : (w.environment e).pool.idle with
  | cons b idle =>
    rw [hidle] at refused
    cases refused
  | nil =>
    rw [hidle] at refused
    dsimp only at refused
    cases hmake : Pool.make (w.environment e).pool.config with
    | ok b =>
      rw [hmake] at refused
      cases refused
    | error e' =>
      rw [hmake] at refused
      obtain ⟨size, rfl⟩ := Pool.outOfMemory_of_make hmake
      cases refused
      exact CallError.noMemory_ofCodec size

section Arguments

variable (rests : w.Rests Config.Lends) {limit : Nat}
  (limited : (w.environment t.environment).pool.config.bufferLimit = some limit)
  (propagates : (encode (w.registry t.environment)).Propagates .error)
  (exceeds : limit < ((encode (w.registry t.environment)).freely []).2.length)

include rests limited propagates exceeds

/-- A leased buffer refuses them. -/
theorem into_of_long {leased : Buffer}
    (hleased : w.allocate t.environment = (.ok leased, w')) :
    ∃ size b',
      encode.into (w.registry t.environment) leased = (.error (.outOfMemory size), b') := by
  have terms := rests.leased Pool.keeps_lends hleased
  refine Encoder.into_of_overflow propagates terms.bounded ?_
  rw [Buffer.withinLimit_iff (terms.limit.trans limited)]
  exact Nat.not_le_of_lt exceeds

/-- **Arguments longer than the limit are not written.** -/
theorem written_of_long : ∃ err, w.written t encode = .error err ∧ err.NoMemory := by
  have hregistry := registry_allocate w t.environment t.environment
  unfold World.written
  cases hinput : w.allocate t.environment with
  | mk input w₁ =>
    rw [hinput] at hregistry
    cases input with
    | error err => exact ⟨err, rfl, noMemory_of_allocate hinput⟩
    | ok input =>
      obtain ⟨size, b', refused⟩ := into_of_long rests limited propagates exceeds hinput
      dsimp only at hregistry ⊢
      rw [hregistry, refused]
      exact ⟨_, rfl, CallError.noMemory_ofCodec size⟩

/-- With a reply buffer it is the same. -/
theorem prepared_of_long : ∃ err, w.prepared t encode = .error err ∧ err.NoMemory := by
  have hregistry := registry_allocate w t.environment t.environment
  unfold World.prepared
  cases hinput : w.allocate t.environment with
  | mk input w₁ =>
    rw [hinput] at hregistry
    cases input with
    | error err => exact ⟨err, rfl, noMemory_of_allocate hinput⟩
    | ok input =>
      obtain ⟨size, b', refused⟩ := into_of_long rests limited propagates exceeds hinput
      have hregistry' := registry_allocate w₁ t.environment t.environment
      dsimp only at hregistry ⊢
      cases houtput : w₁.allocate t.environment with
      | mk output w₂ =>
        rw [houtput] at hregistry'
        cases output with
        | error err => exact ⟨err, rfl, noMemory_of_allocate houtput⟩
        | ok output =>
          dsimp only at hregistry' ⊢
          rw [hregistry', hregistry, refused]
          exact ⟨_, rfl, CallError.noMemory_ofCodec size⟩

end Arguments

end World

/-! ## Results that do not fit -/

namespace Loopback

variable {s : Loopback} {target : RawHandle} {op : Int32} {request : Request} {output : Buffer}
  {kind : ObjectKind} {h : Handler}

/-- **A result longer than the limit is a failure of its handler.** -/
theorem raises_of_long {limit : Nat} (limited : output.limit = some limit)
    (bounded : output.Bounded) (object : s.object? target = some kind)
    (handler : kind.op? op = some h)
    (propagates : (h request).Propagates fun e => .failed (.ofCodec e))
    (exceeds : limit < ((h request).freely []).2.length) :
    ∃ size, size ≤ Buffer.addressable ∧
      s.Raises target op request output .remote (.ofCodec (.outOfMemory size)) := by
  have reset := Buffer.kept_bounded.reset bounded
  have limited : output.reset.limit = some limit := limited
  have long : ¬output.reset.withinLimit ((h request).freely []).2.length := by
    rw [Buffer.withinLimit_iff limited]
    exact Nat.not_le_of_lt exceeds
  obtain ⟨size, w, le, hrun⟩ :=
    Script.run_of_overflow propagates (Writer.holds_start output.reset) reset long
  exact ⟨size, le, .failed object handler (congrArg Prod.fst hrun)⟩

/-- **A result that is not waited for arrives whatever its length**, up to half of what can be
allocated. -/
theorem submit_of_done (connected : s.connected) {input bytes : Bytes}
    (object : s.object? target = some kind) (handler : kind.op? op = some h)
    (done : (h ⟨s.registry, input, true⟩).freely [] = (.done, bytes))
    (small : bytes.length ≤ 2 ^ 62) (sink : Sink) (id : CallId) :
    ∃ reply s', s.submit target op sink id input = (.ok [⟨sink, id, reply⟩], s') ∧
      reply.status = 0 ∧ reply.output.committed = bytes := by
  have hserved : served (s.lookup target) op ⟨s.registry, input, true⟩ = (.ok, bytes) := by
    unfold served
    rw [lookup_of_some object]
    dsimp only
    rw [handler]
    dsimp only
    rw [done]
  have bounded : ∀ {kind' h'}, s.lookup target = .ok kind' → kind'.op? op = some h' →
      ((h' ⟨s.registry, input, true⟩).freely []).2.length ≤ 2 ^ 62 := fun hkind hop => by
    rw [lookup_of_some object] at hkind
    cases hkind
    rw [handler] at hop
    cases hop
    rw [done]
    exact small
  obtain ⟨status, shown⟩ := serve_of_unlimited (rfl : replyBuffer.limit = none) bounded
  rw [hserved] at status shown
  unfold submit
  rw [enter_of_connected connected]
  exact ⟨_, _, rfl, congrArg Status.toByte status, shown⟩

end Loopback

namespace World

variable {w : World Loopback α} {t : Target} {op : Int32} {encode : Encoder} {input : Bytes}
  {kind : ObjectKind} {h : Handler}

/-- **A result longer than the limit is told as a failure of the operation**, or as no record. -/
theorem call_of_longResult (rests : w.Rests Config.Lends) {limit : Nat}
    (limited : (w.environment t.environment).pool.config.bufferLimit = some limit)
    (connected : w.engine.connected) {output : Buffer}
    (prepared : w.prepared t encode = .ok (input, output))
    (object : w.engine.object? t.raw = some kind) (handler : kind.op? op = some h)
    (propagates : (h ⟨w.engine.registry, input, false⟩).Propagates fun e => .failed (.ofCodec e))
    (exceeds : limit < ((h ⟨w.engine.registry, input, false⟩).freely []).2.length)
    (decode : Decoder β) :
    ∃ size, (w.call Loopback.engine t op encode decode).1 =
      .error (if (Failure.ofCodec (.outOfMemory size)).size ≤ limit then
          ⟨.remote, ErrorCode.binary, (CodecError.outOfMemory size).message,
            some "BinaryObjectError"⟩
        else .lost) := by
  obtain ⟨_, terms⟩ := Rests.of_prepared Pool.keeps_lends rests prepared
  have limited := terms.limit.trans limited
  obtain ⟨size, le, raised⟩ :=
    Loopback.raises_of_long limited terms.bounded object handler propagates exceeds
  have told := call_of_raised connected prepared raised (Failure.short_ofCodec_outOfMemory le)
    terms.bounded decode
  refine ⟨size, Eq.trans told (congrArg Except.error ?_)⟩
  unfold Failure.arrival
  simp only [Buffer.withinLimit_iff limited]
  rfl

/-- **A result that is not waited for is read whatever its length.** -/
theorem submit_of_done (known : t.environment < w.environments.length)
    (connected : w.engine.connected) (written : w.written t encode = .ok input)
    (object : w.engine.object? t.raw = some kind) (handler : kind.op? op = some h) {bytes : Bytes}
    (done : (h ⟨w.engine.registry, input, true⟩).freely [] = (.done, bytes))
    (small : bytes.length ≤ 2 ^ 62) (later : Decoder α) :
    (w.submit Loopback.engine t op encode later).2.futures.outcome?
        (w.submit Loopback.engine t op encode later).1 =
      some ((((later (w.registry t.environment)).eval bytes).mapError CallError.ofCodec).map
        Yield.one) := by
  obtain ⟨reply, s', submitted, status, shown⟩ := Loopback.submit_of_done connected object handler
    done small ⟨t.environment⟩ (w.environment t.environment).calls.next
  obtain ⟨outcome, _⟩ :=
    submit_of_atOnce (a := .ok reply) Loopback.engine later known written submitted
  have translated : Answer.translate (.ok reply) (w.registry t.environment) later =
      ((later (w.registry t.environment)).eval bytes).mapError CallError.ofCodec := by
    show (do
      checkStatus reply.status reply.output
      decodeOutput (w.registry t.environment) later reply.output) = _
    unfold decodeOutput
    rw [status, shown]
    rfl
  rw [← translated]
  exact outcome

end World

namespace Lending

variable {l : Lending Loopback α} {t : Target} {limit : Nat}

/-- **What a caller is told where the limit is exceeded.** If the arguments are longer than the
limit, the call fails for want of memory, waited for or not, and the engine does not see it. If the
result is longer than the limit, a call that is waited for does not fail for want of memory: the
caller is told of a failure of the operation, and of a malformed record if the limit has no room for
that. A call that is not waited for does not fail at all, because its result is not written into a
buffer of the environment. -/
theorem Run.overflow_told {s : Loopback} (run : Run Loopback.engine ⟨.ofEngine s, []⟩ l)
    (alive : (l.world.environment t.environment).isAlive)
    (limited : (l.world.environment t.environment).pool.config.bufferLimit = some limit)
    (op : Int32) :
    let w := l.world
    let r := w.registry t.environment
    (∀ {β : Type} encode (decode : Decoder β) (later : Decoder α),
      (encode r).Propagates .error → limit < ((encode r).freely []).2.length →
      (∃ message, (w.call Loopback.engine t op encode decode).1 =
        .error ⟨.outOfMemory, ErrorCode.memory, message, none⟩) ∧
      (w.call Loopback.engine t op encode decode).2.engine = w.engine ∧
      (∃ message, (w.submit Loopback.engine t op encode later).2.futures.outcome?
        (w.submit Loopback.engine t op encode later).1 =
          some (.error ⟨.outOfMemory, ErrorCode.memory, message, none⟩)) ∧
      (w.submit Loopback.engine t op encode later).2.engine = w.engine) ∧
    (∀ {β : Type} encode (decode : Decoder β) kind h input output, w.engine.connected →
      w.prepared t encode = .ok (input, output) → w.engine.object? t.raw = some kind →
      kind.op? op = some h →
      (h ⟨w.engine.registry, input, false⟩).Propagates (fun e => .failed (.ofCodec e)) →
      limit < ((h ⟨w.engine.registry, input, false⟩).freely []).2.length →
      ∃ size, (w.call Loopback.engine t op encode decode).1 =
        .error (if (Failure.ofCodec (.outOfMemory size)).size ≤ limit then
            ⟨.remote, ErrorCode.binary, (CodecError.outOfMemory size).message,
              some "BinaryObjectError"⟩
          else .lost)) ∧
    ∀ encode (later : Decoder α) kind h input bytes, w.engine.connected →
      w.written t encode = .ok input → w.engine.object? t.raw = some kind →
      kind.op? op = some h → (h ⟨w.engine.registry, input, true⟩).freely [] = (.done, bytes) →
      bytes.length ≤ 2 ^ 62 →
      (w.submit Loopback.engine t op encode later).2.futures.outcome?
          (w.submit Loopback.engine t op encode later).1 =
        some ((((later r).eval bytes).mapError CallError.ofCodec).map Yield.one) := by
  intro w r
  have bounds : Loopback.engine.Keeps fun _ b => b.Bounded :=
    Loopback.keeps fun _ => Buffer.kept_bounded
  have keeps := Engine.keeps_lends Loopback.keepsLimits bounds
  have rests : w.Rests Config.Lends := (run.sound keeps (sound_start s)).rests
  refine ⟨?_, ?_, ?_⟩
  · intro β encode decode later propagates exceeds
    obtain ⟨_, prepared, message, rfl⟩ := World.prepared_of_long rests limited propagates exceeds
    obtain ⟨_, written, message', rfl⟩ := World.written_of_long rests limited propagates exceeds
    obtain ⟨result, engine⟩ := World.call_eq Loopback.engine w t op encode decode
    unfold World.asked at result
    rw [prepared] at result engine
    refine ⟨⟨message, result⟩, engine, ⟨message', ?_⟩, ?_⟩
    · exact (World.submit_of_error written).1
    · exact (World.submit_of_error written).2
  · intro β encode decode kind h input output connected prepared object handler propagates exceeds
    exact World.call_of_longResult rests limited connected prepared object handler propagates
      exceeds decode
  · intro encode later kind h input bytes connected written object handler done small
    exact World.submit_of_done (World.lt_of_isAlive alive) connected written object handler done
      small later

end Lending

/-- An encoder of one emission passes on what goes wrong with it. -/
theorem Encoder.propagates_ofEmission (e : Registry → Emission) (r : Registry) :
    (Encoder.ofEmission e r).Propagates .error := ⟨fun _ _ => rfl, fun _ => trivial⟩

/-- So does a handler that writes once. -/
theorem Handler.propagates_write (e : Registry → Emission) (request : Request) :
    (Handler.ofStep (.write e) request).Propagates fun err => .failed (.ofCodec err) :=
  ⟨fun _ _ => rfl, fun _ => trivial⟩

namespace Sample

/-- Ninety-six zeros, byte by byte. -/
def zeros : Emission := .sequence ((List.replicate 96 0).map Emission.byte)

/-- The kind of the objects that answer with them. -/
def lavish : ObjectKind := ⟨"Lavish", [(1, .ofStep (.write fun _ => zeros))], []⟩

/-- An engine with one such object. -/
def lavishEngine : Loopback := { Loopback.start .empty with objects := [(⟨7⟩, lavish)] }

/-- An environment on it, with room for less. -/
def lavished : World Loopback Int32 :=
  ((World.ofEngine lavishEngine).addEnvironment ⟨8, some 80, 16, 256⟩ .empty).2

/-- Too much to send and too much to return. -/
theorem overflow_told_lavished :
    (∃ message,
        (lavished.call Loopback.engine (seventh 0) 1 (.ofEmission fun _ => zeros) number).1 =
          .error ⟨.outOfMemory, ErrorCode.memory, message, none⟩) ∧
      (∃ size, (lavished.call Loopback.engine (seventh 0) 1 .none number).1 =
        .error (if (Failure.ofCodec (.outOfMemory size)).size ≤ 80 then
            ⟨.remote, ErrorCode.binary, (CodecError.outOfMemory size).message,
              some "BinaryObjectError"⟩
          else .lost)) ∧
      (lavished.submit Loopback.engine (seventh 0) 1 .none number).2.futures.outcome? 0 =
        some (.ok (.one 0)) := by
  have run : Lending.Run Loopback.engine (⟨.ofEngine lavishEngine, []⟩ : Lending Loopback Int32)
      ⟨lavished, []⟩ :=
    Lending.Run.refl.snoc (.openEnvironment _ .empty)
  obtain ⟨arguments, results, later⟩ := run.overflow_told (t := seventh 0) rfl rfl 1
  obtain ⟨refused, _⟩ := arguments (.ofEmission fun _ => zeros) number number
    (Encoder.propagates_ofEmission _ _) (by decide +kernel)
  refine ⟨refused, ?_, ?_⟩
  · exact results .none number lavish _ [] ⟨#[], 8, 0, some 80⟩ rfl rfl rfl rfl
      (Handler.propagates_write _ _) (by decide +kernel)
  · exact later .none number lavish _ [] zeros.bytes rfl rfl rfl rfl rfl (by decide +kernel)

/-- **A result that does not fit is not told as a lack of memory**, and one that is not waited for
is not held to the limit. -/
theorem overflow_misreported :
    (lavished.environment 0).pool.config.bufferLimit = some 80 ∧
      80 < zeros.bytes.length ∧
      (lavished.call Loopback.engine (seventh 0) 1 .none number).1 =
        .error ⟨.remote, ErrorCode.binary, "out of memory: cannot grow buffer to 81 bytes",
          some "BinaryObjectError"⟩ ∧
      ((lavished.submit Loopback.engine (seventh 0) 1 .none number).2.futures.outcome? 0).map
        Except.isOk = some true :=
  ⟨rfl, by decide +kernel, by decide +kernel, by decide +kernel⟩

end Sample

end RemoteDispatch
