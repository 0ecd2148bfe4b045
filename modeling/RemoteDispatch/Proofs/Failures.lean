import RemoteDispatch.Proofs.Leasing

/-!
# What arrives of a failure

A call can fail on the far side in many places: there is no such object, the
operation is not one of the object's, its handler reports a failure or panics,
and it may do so after it has written a good part of a result into a buffer
that has shown other bytes before. The record of the failure then takes the
place of all that, if it fits.

Whether it fits is decided by its size and the limit of the buffer alone. If it
does, the buffer shows the record and nothing else, and the caller is told the
code, the message and the class as they were raised. If it does not, the buffer
shows nothing, and the caller is told that the record is malformed. There is
nothing in between: no part of a record is ever shown, and no part of a result.
-/

namespace RemoteDispatch

variable {α β : Type} {output : Buffer}

/-! ## Records in buffers -/

namespace Emission

variable {s : Option String} (short : ∀ t ∈ s, (utf8 t).length ≤ maxLength)

include short

theorem stop_text? : (text? s).stop = none := by
  cases s with
  | none => rfl
  | some t => exact stop_andThen.2 ⟨stop_length.2 (short t rfl), rfl⟩

theorem length_bytes_text? :
    (text? s).bytes.length = 4 + s.elim 0 fun t => (utf8 t).length := by
  cases s with
  | none => exact length_bytes_int32 (-1)
  | some t =>
    show (text t).bytes.length = 4 + (utf8 t).length
    rw [text, bytes_andThen (stop_length.2 (short t rfl)), bytes_length (short t rfl), bytes_run,
      List.length_append, length_littleEndian]

end Emission

namespace Failure

/-- The texts of a failure are short enough for their lengths to be written. -/
structure Short (f : Failure) : Prop where
  message : (utf8 f.message).length ≤ Emission.maxLength
  remoteKind : ∀ kind ∈ f.remoteKind, (utf8 kind).length ≤ Emission.maxLength

instance (f : Failure) : Decidable f.Short :=
  decidable_of_iff ((utf8 f.message).length ≤ Emission.maxLength ∧
      ∀ kind ∈ f.remoteKind, (utf8 kind).length ≤ Emission.maxLength)
    ⟨fun h => ⟨h.1, h.2⟩, fun h => ⟨h.message, h.remoteKind⟩⟩

/-- **The size of a failure record**: a code and two lengths of four bytes each, and the texts. -/
def size (f : Failure) : Nat :=
  12 + (utf8 f.message).length + f.remoteKind.elim 0 fun kind => (utf8 kind).length

variable {f : Failure}

/-- The message of a short failure, as a record has it. -/
theorem Short.message? (short : f.Short) :
    ∀ t ∈ some f.message, (utf8 t).length ≤ Emission.maxLength :=
  fun _ h => Option.some.inj h ▸ short.message

theorem Short.stop (short : f.Short) : f.emission.stop = none :=
  stop_layout.2 ⟨Emission.stop_text? short.message?, Emission.stop_text? short.remoteKind⟩

theorem Short.length (short : f.Short) : f.emission.bytes.length = f.size := by
  have message := Emission.length_bytes_text? short.message?
  have remoteKind := Emission.length_bytes_text? short.remoteKind
  have parts : f.emission.bytes = _ := bytes_layout (Emission.stop_text? short.message?)
  rw [parts, List.length_append, List.length_append, Emission.length_bytes_int32, message,
    remoteKind]
  unfold size
  dsimp only [Option.elim]
  omega

/-- **The record of a short failure reads as the failure.** -/
theorem Short.failureIn_emission (short : f.Short) (kind : ErrorKind) :
    failureIn kind f.emission.bytes = f.toError kind := by
  have front : f.AtFront f.emission.bytes :=
    ⟨some f.message, [], short.stop, rfl, (List.append_nil _).symm⟩
  unfold failureIn
  rw [eval_read.2 front]

end Failure

/-- What a caller is told of a failure whose record did not fit. -/
def CallError.lost : CallError :=
  .encoding s!"malformed failure record: {CodecError.unexpectedEnd.message}"

/-- Where nothing is shown there is no record. -/
theorem failureIn_nil (kind : ErrorKind) : failureIn kind [] = .lost := rfl

/-- What a buffer shows of a failure: the record if it fits, and nothing if it does not. -/
def Failure.shownIn (f : Failure) (output : Buffer) : Bytes :=
  if output.withinLimit f.size then f.emission.bytes else []

/-- **What a caller is told of a failure** that is reported through a buffer. -/
def Failure.arrival (f : Failure) (kind : ErrorKind) (output : Buffer) : CallError :=
  if output.withinLimit f.size then f.toError kind else .lost

/-- A record for which there is no room leaves nothing to be seen. -/
theorem committed_replyFailure_of_overflow (r : Registry) (f : Failure) (bounded : output.Bounded)
    (exceeds : ¬output.withinLimit f.emission.bytes.length) :
    (replyFailure r f output).committed = [] := by
  obtain ⟨size, w, _, hperform⟩ := (Writer.holds_start output.reset).perform_of_overflow
    (e := f.emission) (Buffer.kept_bounded.reset bounded) exceeds
  have refused : (f.encodeInto r output).1 = .error (.outOfMemory size) := by
    rw [Failure.encodeInto_eq, hperform]
  exact committed_of_length_eq_zero (Failure.length_of_refused refused)

/-- **A record is shown whole or not at all**, whatever was in the buffer. -/
theorem committed_replyFailure_of_short (r : Registry) {f : Failure} (short : f.Short)
    (bounded : output.Bounded) : (replyFailure r f output).committed = f.shownIn output := by
  unfold Failure.shownIn
  rw [← short.length]
  by_cases within : output.withinLimit f.emission.bytes.length
  · rw [if_pos within, committed_replyFailure r f within, Failure.shown, short.stop]
  · rw [if_neg within, committed_replyFailure_of_overflow r f bounded within]

/-- **What is shown is read as raised**, or found missing. -/
theorem Failure.Short.failureIn_shownIn {f : Failure} (short : f.Short) (kind : ErrorKind)
    (output : Buffer) : failureIn kind (f.shownIn output) = f.arrival kind output := by
  unfold shownIn arrival
  split
  · exact short.failureIn_emission kind
  · exact failureIn_nil kind

/-! ## Failures raised -/

namespace Loopback

variable {s : Loopback} {target : RawHandle} {op : Int32} {request : Request} {value : Int64}
  {kind : ErrorKind} {f : Failure}

/-- **A call raises a failure**, and the caller will be told that it is of a kind. Whether a handler
fails, and how, may depend on the buffer that it is given. -/
inductive Raises (s : Loopback) (target : RawHandle) (op : Int32) (request : Request)
    (output : Buffer) : ErrorKind → Failure → Prop where
  /-- There is no such object. -/
  | missing (object : s.object? target = none) :
      Raises s target op request output .invalidState (.noObject target)
  /-- The object does not answer the operation. -/
  | unsupported {k} (object : s.object? target = some k) (handler : k.op? op = none) :
      Raises s target op request output .remote (.unsupported k op)
  /-- The handler reports a failure, whatever it has written before. -/
  | failed {k h f} (object : s.object? target = some k) (handler : k.op? op = some h)
      (ending : ((h request).run (.start output.reset)).1 = .failed f) :
      Raises s target op request output .remote f
  /-- The handler panics, whatever it has written before. -/
  | panicked {k h message} (object : s.object? target = some k) (handler : k.op? op = some h)
      (ending : ((h request).run (.start output.reset)).1 = .panicked message) :
      Raises s target op request output .remote (.ofPanic message)

/-- **A call with a number raises a failure.** -/
inductive RaisesScalar (s : Loopback) (target : RawHandle) (op : Int32) (value : Int64) :
    ErrorKind → Failure → Prop where
  /-- There is no such object. -/
  | missing (object : s.object? target = none) :
      RaisesScalar s target op value .invalidState (.noObject target)
  /-- The object does not answer the operation on a number. -/
  | unsupported {k} (object : s.object? target = some k) (handler : k.scalarOp? op = none) :
      RaisesScalar s target op value .remote (.noScalar k op)
  /-- The handler reports a failure. -/
  | failed {k h f} (object : s.object? target = some k) (handler : k.scalarOp? op = some h)
      (ending : h value = .failed f) : RaisesScalar s target op value .remote f
  /-- The handler panics. -/
  | panicked {k h message} (object : s.object? target = some k)
      (handler : k.scalarOp? op = some h) (ending : h value = .panicked message) :
      RaisesScalar s target op value .remote (.ofPanic message)

theorem lookup_of_none (object : s.object? target = none) :
    s.lookup target = .error (.noObject target) := by
  unfold lookup
  rw [object]

theorem lookup_of_some {k : ObjectKind} (object : s.object? target = some k) :
    s.lookup target = .ok k := by
  unfold lookup
  rw [object]

/-- What a handler leaves is no matter to the record that goes over it. -/
theorem committed_replyFailure_of_written (r : Registry) (short : f.Short)
    (bounded : output.Bounded) (script : Script Ending) :
    (replyFailure r f (script.run (.start output.reset)).2.buffer).committed =
      f.shownIn output := by
  have reset := Buffer.kept_bounded.reset bounded
  have written := Writer.keeps_run Buffer.kept_bounded.filled (w := .start output.reset) reset
    script
  have limit := (Writer.sameFrame_run script (.start output.reset)).1
  rw [committed_replyFailure_of_short r short written]
  unfold Failure.shownIn
  rw [Buffer.withinLimit_congr limit]
  rfl

/-- A handler that does not end well is answered with the record of its failure. -/
theorem serve_of_ending {k : ObjectKind} {h : Handler} (object : s.object? target = some k)
    (handler : k.op? op = some h)
    (ending : ((h request).run (.start output.reset)).1 = .failed f ∨
      ∃ message, ((h request).run (.start output.reset)).1 = .panicked message ∧
        f = .ofPanic message) :
    serve (s.lookup target) op request output =
      (.failed, replyFailure request.registry f
        ((h request).run (.start output.reset)).2.buffer) := by
  unfold serve
  rw [lookup_of_some object]
  dsimp only
  rw [handler]
  unfold runHandler
  dsimp only
  cases hrun : (h request).run (.start output.reset) with
  | mk result w =>
    rw [hrun] at ending
    obtain rfl | ⟨message, rfl, rfl⟩ := ending
    · rfl
    · rfl

/-- **A call that raises a failure shows its record or nothing**, and its status says what kind of
failure it is. -/
theorem serve_of_raised (raised : s.Raises target op request output kind f) (short : f.Short)
    (bounded : output.Bounded) :
    (serve (s.lookup target) op request output).2.committed = f.shownIn output ∧
      checkStatus (serve (s.lookup target) op request output).1.toByte
          (serve (s.lookup target) op request output).2 = .error (f.arrival kind output) := by
  -- the status is translated by the record that the buffer shows
  have translated : ∀ {status : Status} {b : Buffer},
      (∀ b, checkStatus status.toByte b = .error (failureIn kind b.committed)) →
      b.committed = f.shownIn output →
      b.committed = f.shownIn output ∧
        checkStatus status.toByte b = .error (f.arrival kind output) := by
    intro status b hstatus shown
    refine ⟨shown, ?_⟩
    rw [hstatus, shown, short.failureIn_shownIn]
  cases raised with
  | missing object =>
    unfold serve
    rw [lookup_of_none object]
    exact translated (fun _ => rfl) (committed_replyFailure_of_short _ short bounded)
  | unsupported object handler =>
    unfold serve
    rw [lookup_of_some object]
    dsimp only
    rw [handler]
    exact translated (fun _ => rfl) (committed_replyFailure_of_short _ short bounded)
  | failed object handler ending =>
    rw [serve_of_ending object handler (Or.inl ending)]
    exact translated (fun _ => rfl) (committed_replyFailure_of_written _ short bounded _)
  | panicked object handler ending =>
    rw [serve_of_ending object handler (Or.inr ⟨_, ending, rfl⟩)]
    exact translated (fun _ => rfl) (committed_replyFailure_of_written _ short bounded _)

theorem enter_of_connected (connected : s.connected) :
    s.enter = .ok { s with calls := s.calls + 1 } := if_pos connected

theorem call_of_raised (connected : s.connected) {input : Bytes}
    (raised : s.Raises target op ⟨s.registry, input, false⟩ output kind f) (short : f.Short)
    (bounded : output.Bounded) :
    ∃ status output' s', s.call target op input output = (.ok status, output', s') ∧
      output'.committed = f.shownIn output ∧
      checkStatus status output' = .error (f.arrival kind output) := by
  have served := serve_of_raised raised short bounded
  unfold call
  rw [enter_of_connected connected]
  exact ⟨_, _, _, rfl, served⟩

theorem submit_of_raised (connected : s.connected) {input : Bytes}
    (raised : s.Raises target op ⟨s.registry, input, true⟩ replyBuffer kind f) (short : f.Short)
    (sink : Sink) (id : CallId) :
    ∃ reply s', s.submit target op sink id input = (.ok [⟨sink, id, reply⟩], s') ∧
      checkStatus reply.status reply.output = .error (f.toError kind) := by
  have bounded : replyBuffer.Bounded := ⟨Nat.zero_le _, rfl⟩
  obtain ⟨_, translated⟩ := serve_of_raised raised short bounded
  unfold submit
  rw [enter_of_connected connected]
  exact ⟨_, _, rfl, translated⟩

theorem scalarAnswer_of_raised (raised : s.RaisesScalar target op value kind f) :
    ∃ status, s.scalarAnswer target op value = .error (status, f) ∧
      ∀ b, checkStatus status.toByte b = .error (failureIn kind b.committed) := by
  unfold scalarAnswer
  cases raised with
  | missing object =>
    rw [lookup_of_none object]
    exact ⟨_, rfl, fun _ => rfl⟩
  | unsupported object handler =>
    rw [lookup_of_some object]
    dsimp only
    rw [handler]
    exact ⟨_, rfl, fun _ => rfl⟩
  | failed object handler ending =>
    rw [lookup_of_some object]
    dsimp only
    rw [handler]
    dsimp only
    rw [ending]
    exact ⟨_, rfl, fun _ => rfl⟩
  | panicked object handler ending =>
    rw [lookup_of_some object]
    dsimp only
    rw [handler]
    dsimp only
    rw [ending]
    exact ⟨_, rfl, fun _ => rfl⟩

theorem callScalar_of_raised (connected : s.connected)
    (raised : s.RaisesScalar target op value kind f) (short : f.Short) (bounded : output.Bounded) :
    ∃ status output' s', s.callScalar target op value output = (.ok (status, 0), output', s') ∧
      checkStatus status output' = .error (f.arrival kind output) := by
  obtain ⟨status, answer, translated⟩ := scalarAnswer_of_raised raised
  -- an arriving call is counted, and nothing else changes
  have entered : ({ s with calls := s.calls + 1 } : Loopback).scalarAnswer target op value =
      .error (status, f) := answer
  refine ⟨status.toByte, replyFailure s.registry f output, { s with calls := s.calls + 1 }, ?_, ?_⟩
  · unfold callScalar
    rw [enter_of_connected connected]
    dsimp only
    rw [entered]
  · rw [translated, committed_replyFailure_of_short _ short bounded, short.failureIn_shownIn]

theorem create_of_unknown (connected : s.connected) {name : String} (unknown : s.kind? name = none)
    (short : (Failure.unknownKind name).Short) (bounded : output.Bounded) :
    ∃ status output' s', s.create name output = (.ok status, output', s') ∧
      checkStatus status output' = .error ((Failure.unknownKind name).arrival .remote output) := by
  refine ⟨Status.failed.toByte, replyFailure s.registry (.unknownKind name) output,
    { s with calls := s.calls + 1 }, ?_, ?_⟩
  · unfold create
    rw [enter_of_connected connected]
    dsimp only
    have missing : ({ s with calls := s.calls + 1 } : Loopback).spawn? name = none := by
      show (s.kind? name).map _ = none
      rw [unknown]
      rfl
    rw [missing]
  · have translated : ∀ b, checkStatus Status.failed.toByte b =
        .error (failureIn .remote b.committed) := fun _ => rfl
    rw [translated, committed_replyFailure_of_short _ short bounded, short.failureIn_shownIn]

end Loopback

/-! ## What the caller is told -/

namespace World

variable {w : World Loopback α} {t : Target} {op : Int32}

/-- A call into a buffer of the caller's tells of a failure that is raised, and shows no more. -/
theorem stream_of_raised (connected : w.engine.connected) {input : Bytes} {kind : ErrorKind}
    {f : Failure}
    (raised : w.engine.Raises t.raw op ⟨w.engine.registry, input, false⟩ output kind f)
    (short : f.Short) (bounded : output.Bounded) :
    (w.stream Loopback.engine t op input output).1 = .error (f.arrival kind output) ∧
      (w.stream Loopback.engine t op input output).2.1.committed = f.shownIn output := by
  obtain ⟨status, output', s, called, shown, translated⟩ :=
    Loopback.call_of_raised connected raised short bounded
  have called : Loopback.engine.call t.raw op input output w.engine =
    (.ok status, output', s) := called
  unfold World.stream
  rw [called]
  exact ⟨translated, shown⟩

/-- A call into a leased buffer tells of it too. -/
theorem call_of_raised (connected : w.engine.connected) {encode : Encoder} {input : Bytes}
    (prepared : w.prepared t encode = .ok (input, output)) {kind : ErrorKind} {f : Failure}
    (raised : w.engine.Raises t.raw op ⟨w.engine.registry, input, false⟩ output kind f)
    (short : f.Short) (bounded : output.Bounded) (decode : Decoder β) :
    (w.call Loopback.engine t op encode decode).1 = .error (f.arrival kind output) := by
  have decoded := stream_decode Loopback.engine w t op input output
    (w.registry t.environment) decode
  rw [(stream_of_raised connected raised short bounded).1] at decoded
  rw [(call_eq Loopback.engine w t op encode decode).1]
  unfold asked
  rw [prepared]
  exact decoded.symm

/-- And so does a call with a number. -/
theorem callScalar_of_raised {w₁ : World Loopback α} (connected : w.engine.connected)
    (allocated : w.allocate t.environment = (.ok output, w₁)) {value : Int64} {kind : ErrorKind}
    {f : Failure} (raised : w.engine.RaisesScalar t.raw op value kind f) (short : f.Short)
    (bounded : output.Bounded) :
    (w.callScalar Loopback.engine t op value).1 = .error (f.arrival kind output) := by
  have engine : w₁.engine = w.engine := congrArg (fun made => made.2.engine) allocated.symm
  obtain ⟨status, output', s, called, translated⟩ :=
    Loopback.callScalar_of_raised connected raised short bounded
  have called : Loopback.engine.callScalar t.raw op value output w₁.engine =
    (.ok (status, 0), output', s) := engine ▸ called
  unfold World.callScalar withLease
  rw [allocated]
  dsimp only
  rw [called]
  dsimp only
  rw [translated]
  rfl

/-- A call that is not waited for has its future fail as it was raised. -/
theorem submit_of_raised (known : t.environment < w.environments.length)
    (connected : w.engine.connected) {encode : Encoder} {input : Bytes}
    (written : w.written t encode = .ok input) {kind : ErrorKind} {f : Failure}
    (raised : w.engine.Raises t.raw op ⟨w.engine.registry, input, true⟩ Loopback.replyBuffer kind f)
    (short : f.Short) (decode : Decoder α) :
    (w.submit Loopback.engine t op encode decode).2.futures.outcome?
        (w.submit Loopback.engine t op encode decode).1 = some (.error (f.toError kind)) := by
  obtain ⟨reply, s, submitted, translated⟩ := Loopback.submit_of_raised connected raised short
    ⟨t.environment⟩ (w.environment t.environment).calls.next
  obtain ⟨outcome, _⟩ := submit_of_atOnce (a := .ok reply) Loopback.engine decode known written
    submitted
  rw [outcome, Answer.translate_of_refused translated]
  rfl

/-- Asking for an object of an unknown kind fails in the same way. -/
theorem create_of_unknown (connected : w.engine.connected) {encode : Encoder} {name : String}
    {input : Bytes} (prepared : w.prepared t encode = .ok (input, output))
    (unknown : w.engine.kind? name = none) (short : (Failure.unknownKind name).Short)
    (bounded : output.Bounded) :
    (w.create Loopback.engine t.environment name encode).1 =
      .error ((Failure.unknownKind name).arrival .remote output) := by
  obtain ⟨status, output', s, created, translated⟩ := Loopback.create_of_unknown connected
    unknown short bounded
  have created : Loopback.engine.create name input output w.engine =
    (.ok status, output', s) := created
  have answer : Loopback.engine.answerCreate name input output w.engine =
      .ok ⟨status, output'⟩ := by
    unfold Engine.answerCreate
    rw [created]
  refine (create_of_prepared Loopback.engine w t name encode).1 _ _ _ prepared ?_
  rw [answer]
  exact Answer.translate_of_refused translated _ _

/-- **A failure of the far side arrives as it was raised or is found missing**, whatever the reply
buffer holds. It is raised where an object or an operation is missing, where a handler fails or
panics, and where an object of an unknown kind is asked for. If its record is within the limit of
the reply buffer, the caller is told its code, its message and its class, and that it is of the kind
`invalidState` for a missing object and `remote` otherwise. If not, the caller is told that there is
no record. The buffer shows the record or nothing, no call succeeds, and no reader of results is
run. The reply to a call that is not waited for has no limit, so its failure always arrives. -/
theorem failures_arrive (bounded : w.Rests fun _ b => b.Bounded) (connected : w.engine.connected)
    (t : Target) (op : Int32) :
    (∀ input output kind f, output.Bounded → f.Short →
      w.engine.Raises t.raw op ⟨w.engine.registry, input, false⟩ output kind f →
      (w.stream Loopback.engine t op input output).1 = .error (f.arrival kind output) ∧
      (w.stream Loopback.engine t op input output).2.1.committed = f.shownIn output) ∧
    (∀ {β : Type} encode (decode : Decoder β) input output kind f,
      w.prepared t encode = .ok (input, output) → f.Short →
      w.engine.Raises t.raw op ⟨w.engine.registry, input, false⟩ output kind f →
      (w.call Loopback.engine t op encode decode).1 = .error (f.arrival kind output)) ∧
    (∀ value output w₁ kind f, w.allocate t.environment = (.ok output, w₁) → f.Short →
      w.engine.RaisesScalar t.raw op value kind f →
      (w.callScalar Loopback.engine t op value).1 = .error (f.arrival kind output)) ∧
    (∀ encode decode input kind f, t.environment < w.environments.length →
      w.written t encode = .ok input → f.Short →
      w.engine.Raises t.raw op ⟨w.engine.registry, input, true⟩ Loopback.replyBuffer kind f →
      (w.submit Loopback.engine t op encode decode).2.futures.outcome?
          (w.submit Loopback.engine t op encode decode).1 = some (.error (f.toError kind))) ∧
    ∀ encode name input output, w.prepared t encode = .ok (input, output) →
      (Failure.unknownKind name).Short → w.engine.kind? name = none →
      (w.create Loopback.engine t.environment name encode).1 =
        .error ((Failure.unknownKind name).arrival .remote output) := by
  refine ⟨?_, ?_, ?_, ?_, ?_⟩
  · intro input output kind f lent short raised
    exact stream_of_raised connected raised short lent
  · intro β encode decode input output kind f prepared short raised
    have lent := (Rests.of_prepared Pool.keeps_bounded bounded prepared).2
    exact call_of_raised connected prepared raised short lent decode
  · intro value output w₁ kind f allocated short raised
    exact callScalar_of_raised connected allocated raised short
      (bounded.leased Pool.keeps_bounded allocated)
  · intro encode decode input kind f known written short raised
    exact submit_of_raised known connected written raised short decode
  · intro encode name input output prepared short unknown
    have lent := (Rests.of_prepared Pool.keeps_bounded bounded prepared).2
    exact create_of_unknown connected prepared unknown short lent

end World

namespace Sample

theorem rests_crampedOnce : crampedOnce.Rests fun _ b => b.Bounded := by
  have start : (World.ofEngine faultyEngine : World Loopback Int32).Rests fun _ b => b.Bounded :=
    fun _ => Pool.rests_of_idle_nil rfl
  exact World.Rests.call Pool.keeps_bounded (Loopback.keeps fun _ => Buffer.kept_bounded)
    (start.addEnvironment cramped .empty) (seventh 0) 1 .none number

/-- What the first call has left in the reply buffer of the second. -/
def crampedReply : Buffer := ⟨refusal.emission.bytes.toArray, 24, 0, some 24⟩

/-- An object that is missing. -/
def ninth : Target := ⟨0, ⟨0, ⟨9⟩⟩⟩

/-- A short failure arrives, and a long one does not but for the call that is not waited for. -/
theorem failures_arrive_cramped :
    (crampedOnce.call Loopback.engine (seventh 0) 1 .none number).1 =
        .error ⟨.remote, 7, "no", some "Refused"⟩ ∧
      (crampedOnce.callScalar Loopback.engine (seventh 0) 1 5).1 = .error .lost ∧
      (crampedOnce.submit Loopback.engine ninth 1 .none number).2.futures.outcome? 0 =
        some (.error ⟨.invalidState, ErrorCode.invalidState, "no live object obj-9", none⟩) ∧
      (crampedOnce.create Loopback.engine 0 "Other" .none).1 = .error .lost := by
  obtain ⟨_, call, callScalar, _, create⟩ :=
    World.failures_arrive rests_crampedOnce rfl (seventh 0) 1
  obtain ⟨_, _, _, submit, _⟩ := World.failures_arrive rests_crampedOnce rfl ninth 1
  have prepared : crampedOnce.prepared (seventh 0) .none = .ok ([], crampedReply) := by
    decide +kernel
  have allocated : crampedOnce.allocate 0 =
      (.ok ⟨#[], 8, 0, some 24⟩, (crampedOnce.allocate 0).2) := rfl
  have refused : crampedOnce.engine.Raises ⟨7⟩ 1 ⟨crampedOnce.engine.registry, [], false⟩
      crampedReply .remote refusal :=
    .failed (k := faulty) rfl rfl rfl
  have unanswered : crampedOnce.engine.RaisesScalar ⟨7⟩ 1 5 .remote (.noScalar faulty 1) :=
    .unsupported (k := faulty) rfl rfl
  have missing : crampedOnce.engine.Raises ⟨9⟩ 1 ⟨crampedOnce.engine.registry, [], true⟩
      Loopback.replyBuffer .invalidState (.noObject ⟨9⟩) :=
    .missing rfl
  have short : ∀ f ∈ [refusal, .noScalar faulty 1, .noObject ⟨9⟩, .unknownKind "Other"],
      f.Short := by
    decide +kernel
  refine ⟨?_, ?_, ?_, ?_⟩
  · exact call .none number _ _ _ _ prepared (short _ (by decide +kernel)) refused
  · exact callScalar 5 _ _ _ _ allocated (short _ (by decide +kernel)) unanswered
  · exact submit .none number [] _ _ (by decide) rfl (short _ (by decide +kernel)) missing
  · exact create .none "Other" _ _ prepared (short _ (by decide +kernel)) rfl

end Sample

end RemoteDispatch
