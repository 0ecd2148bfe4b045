import RemoteDispatch.Proofs.Completion
import RemoteDispatch.Proofs.Records

/-!
# One translation of replies

There are many ways to call a target, waited for or not, and all of them treat
what comes back alike. What comes back is an *answer*: a transport error, or a
reply of any status and any bytes. `Answer.translate` turns an answer into a
result or an error, and `Translates` says what it has to be without reference
to how it is computed: which kind and code the error has, and which failure
record its words come from.

Each way of calling is then shown to be asking and translating. For a call
that is not waited for, the answer is whatever happening brings it first. So
the ways differ in how they ask and in nothing else, and a reader of results
is never run on an answer that does not carry one.
-/

namespace RemoteDispatch

variable {σ α β : Type}

/-! ## Answers -/

/-- **What comes back from the far side.** -/
abbrev Answer := Except TransportError Reply

/-- The result that an answer carries, or the error that it stands for. -/
def Answer.translate (a : Answer) (r : Registry) (decode : Decoder β) : Except CallError β :=
  match a with
  | .error e => .error (.ofTransport e)
  | .ok reply => reply.decode r decode

/-- **How an answer has to be understood.** -/
inductive Translates (r : Registry) (decode : Decoder β) : Answer → Except CallError β → Prop where
  /-- Status zero: the result is read from the output. -/
  | result {output b} (read : (decode r).eval output.committed = .ok b) :
      Translates r decode (.ok ⟨0, output⟩) (.ok b)
  /-- The result cannot be read for want of memory. -/
  | outOfMemory {output e} (read : (decode r).eval output.committed = .error e)
      (memory : e.isOutOfMemory) :
      Translates r decode (.ok ⟨0, output⟩)
        (.error ⟨.outOfMemory, ErrorCode.memory, e.message, none⟩)
  /-- The result cannot be read for another reason. -/
  | malformed {output e} (read : (decode r).eval output.committed = .error e)
      (memory : ¬e.isOutOfMemory) :
      Translates r decode (.ok ⟨0, output⟩)
        (.error ⟨.encoding, ErrorCode.binary, e.message, none⟩)
  /-- Status one: the far side reports a failure of the operation. -/
  | remote {output f} (record : Failure.AtFront f output.committed) :
      Translates r decode (.ok ⟨1, output⟩) (.error ⟨.remote, f.code, f.message, f.remoteKind⟩)
  /-- Status two: the far side reports that there is no such object. -/
  | invalidTarget {output f} (record : Failure.AtFront f output.committed) :
      Translates r decode (.ok ⟨2, output⟩)
        (.error ⟨.invalidState, f.code, f.message, f.remoteKind⟩)
  /-- A failure is reported, but there is no record of it. -/
  | noRecord {status output} {detail : String} (failed : status = 1 ∨ status = 2)
      (noRecord : ∀ f, ¬Failure.AtFront f output.committed) :
      Translates r decode (.ok ⟨status, output⟩)
        (.error ⟨.encoding, ErrorCode.binary, s!"malformed failure record: {detail}", none⟩)
  /-- The status is none. -/
  | unknown {status output} (unknown : 2 < status) :
      Translates r decode (.ok ⟨status, output⟩)
        (.error ⟨.encoding, ErrorCode.binary,
          s!"unknown reply status 0x{hexText 2 status.toNat}", none⟩)
  /-- The call did not get there or the reply did not get back. -/
  | transport {e} :
      Translates r decode (.error e) (.error ⟨.invalidState, ErrorCode.invalidState, e.text, none⟩)

theorem ofByte?_eq_none {b : UInt8} (h : 2 < b) : Status.ofByte? b = none := by
  refine List.find?_eq_none.2 fun s _ hs => ?_
  obtain rfl := beq_iff_eq.1 hs
  cases s with
  | ok => exact absurd h (by decide)
  | failed => exact absurd h (by decide)
  | invalidTarget => exact absurd h (by decide)

/-- A failure is described by the record at the front, or called malformed if there is none. -/
theorem failureIn_cases (kind : ErrorKind) (bytes : Bytes) :
    (∃ f, Failure.AtFront f bytes ∧ failureIn kind bytes = f.toError kind) ∨
    (∃ detail : String, (∀ f, ¬Failure.AtFront f bytes) ∧
      failureIn kind bytes = .encoding s!"malformed failure record: {detail}") := by
  unfold failureIn
  cases hread : Failure.read.eval bytes with
  | ok f => exact Or.inl ⟨f, Failure.eval_read.1 hread, rfl⟩
  | error e =>
    refine Or.inr ⟨e.message, fun f hf => ?_, rfl⟩
    rw [Failure.eval_read.2 hf] at hread
    cases hread

/-- The status bytes. -/
theorem status_cases (b : UInt8) : b = 0 ∨ b = 1 ∨ b = 2 ∨ 2 < b := by
  have cases : b.toNat = 0 ∨ b.toNat = 1 ∨ b.toNat = 2 ∨ 2 < b.toNat := by omega
  exact cases.imp UInt8.toNat.inj (Or.imp UInt8.toNat.inj
    (Or.imp UInt8.toNat.inj UInt8.lt_iff_toNat_lt.2))

/-- **The translation is the right one**, for every answer and every way of reading results. -/
theorem Answer.translates (a : Answer) (r : Registry) (decode : Decoder β) :
    Translates r decode a (a.translate r decode) := by
  cases a with
  | error e => exact .transport
  | ok reply =>
    obtain ⟨status, output⟩ := reply
    obtain rfl | rfl | rfl | hunknown := status_cases status
    · show Translates r decode _ (((decode r).eval output.committed).mapError .ofCodec)
      cases hread : (decode r).eval output.committed with
      | ok b => exact .result hread
      | error e =>
        show Translates r decode _ (.error (CallError.ofCodec e))
        unfold CallError.ofCodec
        by_cases memory : e.isOutOfMemory
        · rw [if_pos memory]
          exact .outOfMemory hread memory
        · rw [if_neg memory]
          exact .malformed hread memory
    · show Translates r decode _ (.error (failureIn .remote output.committed))
      cases failureIn_cases .remote output.committed with
      | inl record =>
        obtain ⟨f, hf, htext⟩ := record
        exact htext ▸ .remote hf
      | inr noRecord =>
        obtain ⟨detail, hnone, htext⟩ := noRecord
        exact htext ▸ .noRecord (Or.inl rfl) hnone
    · show Translates r decode _ (.error (failureIn .invalidState output.committed))
      cases failureIn_cases .invalidState output.committed with
      | inl record =>
        obtain ⟨f, hf, htext⟩ := record
        exact htext ▸ .invalidTarget hf
      | inr noRecord =>
        obtain ⟨detail, hnone, htext⟩ := noRecord
        exact htext ▸ .noRecord (Or.inr rfl) hnone
    · show Translates r decode _ (do checkStatus status output; decodeOutput r decode output)
      unfold checkStatus
      rw [ofByte?_eq_none hunknown]
      exact .unknown hunknown

/-- A reply that stands for an error is that error, whatever reads the results. -/
theorem Answer.translate_of_refused {reply : Reply} {e : CallError}
    (refused : checkStatus reply.status reply.output = .error e) (r : Registry)
    (decode : Decoder β) : Answer.translate (.ok reply) r decode = .error e := by
  show (do checkStatus reply.status reply.output; decodeOutput r decode reply.output) = _
  rw [refused]
  rfl

/-- **An answer without a result never reaches the reader of results.** -/
theorem Answer.translate_of_failed {a : Answer} (failed : ∀ output, a ≠ .ok ⟨0, output⟩) :
    ∃ e, ∀ {β : Type} (r : Registry) (decode : Decoder β), a.translate r decode = .error e := by
  cases a with
  | error e => exact ⟨.ofTransport e, fun _ _ => rfl⟩
  | ok reply =>
    obtain ⟨status, output⟩ := reply
    cases hstatus : checkStatus status output with
    | ok _ =>
      -- only status zero passes
      obtain rfl | rfl | rfl | hunknown := status_cases status
      · exact absurd rfl (failed output)
      · cases hstatus
      · cases hstatus
      · unfold checkStatus at hstatus
        rw [ofByte?_eq_none hunknown] at hstatus
        cases hstatus
    | error e =>
      exact ⟨e, fun r decode => translate_of_refused hstatus r decode⟩

/-! ## Asking -/

/-- **The answer of an engine** to a call with prepared buffers. -/
def Engine.answer (eng : Engine σ) (target : RawHandle) (op : Int32) (input : Bytes)
    (output : Buffer) (s : σ) : Answer :=
  match eng.call target op input output s with
  | (.error e, _, _) => .error e
  | (.ok status, output, _) => .ok ⟨status, output⟩

/-- The answer of an engine that is asked for an object of a kind. -/
def Engine.answerCreate (eng : Engine σ) (kind : String) (input : Bytes) (output : Buffer)
    (s : σ) : Answer :=
  match eng.create kind input output s with
  | (.error e, _, _) => .error e
  | (.ok status, output, _) => .ok ⟨status, output⟩

namespace World

variable (eng : Engine σ)

/-- The bytes of the arguments and the output buffer with which a call gets to the engine, if it
gets there. -/
def prepared (w : World σ α) (t : Target) (encode : Encoder) : Except CallError (Bytes × Buffer) :=
  match w.allocate t.environment with
  | (.error e, _) => .error e
  | (.ok input, w) =>
    match w.allocate t.environment with
    | (.error e, _) => .error e
    | (.ok output, w) =>
      match encode.into (w.registry t.environment) input with
      | (.error e, _) => .error (.ofCodec e)
      | (.ok (), input) => .ok (input.committed, output)

/-- **The answer to a call whose arguments are written first**, if the call gets to the engine. -/
def asked (w : World σ α) (t : Target) (op : Int32) (encode : Encoder) : Except CallError Answer :=
  (w.prepared t encode).map fun (input, output) => eng.answer t.raw op input output w.engine

/-- The answer to a call with a number, and the number that comes with it. -/
def askedScalar (w : World σ α) (t : Target) (op : Int32) (value : Int64) :
    Except CallError (Answer × Int64) :=
  match w.allocate t.environment with
  | (.error e, _) => .error e
  | (.ok output, w) =>
    match eng.callScalar t.raw op value output w.engine with
    | (.error e, _, _) => .ok (.error e, 0)
    | (.ok (status, result), output, _) => .ok (.ok ⟨status, output⟩, result)

variable {eng} {w : World σ α} {t : Target} {op : Int32} {encode : Encoder}

/-- What a call that gets to the engine has leased and written. -/
theorem allocate_of_prepared {input : Bytes} {output : Buffer}
    (prepared : w.prepared t encode = .ok (input, output)) :
    ∃ leased w₁ w₂ filled, w.allocate t.environment = (.ok leased, w₁) ∧
      w₁.allocate t.environment = (.ok output, w₂) ∧
      encode.into (w.registry t.environment) leased = (.ok (), filled) ∧
      filled.committed = input := by
  unfold World.prepared at prepared
  have hregistry := registry_allocate w t.environment t.environment
  cases hinput : w.allocate t.environment with
  | mk leased w₁ =>
    rw [hinput] at prepared hregistry
    cases leased with
    | error e => cases prepared
    | ok leased =>
      have hregistry' := registry_allocate w₁ t.environment t.environment
      dsimp only at prepared hregistry
      cases houtput : w₁.allocate t.environment with
      | mk second w₂ =>
        rw [houtput] at prepared hregistry'
        cases second with
        | error e => cases prepared
        | ok second =>
          dsimp only at prepared hregistry'
          rw [hregistry', hregistry] at prepared
          cases hencode : encode.into (w.registry t.environment) leased with
          | mk result filled =>
            rw [hencode] at prepared
            cases result with
            | error e => cases prepared
            | ok _ =>
              cases prepared
              exact ⟨leased, w₁, w₂, filled, rfl, houtput, hencode, rfl⟩

/-- What is left in the output buffer is the result. -/
theorem stream_decode (eng : Engine σ) (w : World σ α) (t : Target) (op : Int32) (input : Bytes)
    (output : Buffer) (r : Registry) (decode : Decoder β) :
    ((w.stream eng t op input output).1.bind fun _ =>
        decodeOutput r decode (w.stream eng t op input output).2.1) =
      (eng.answer t.raw op input output w.engine).translate r decode := by
  unfold World.stream Engine.answer
  cases eng.call t.raw op input output w.engine with
  | mk status after =>
    obtain ⟨output, s⟩ := after
    cases status with
    | error e => rfl
    | ok status => rfl

theorem stream_engine (eng : Engine σ) (w : World σ α) (t : Target) (op : Int32) (input : Bytes)
    (output : Buffer) :
    (w.stream eng t op input output).2.2.engine =
      (eng.call t.raw op input output w.engine).2.2 := by
  unfold World.stream
  cases eng.call t.raw op input output w.engine with
  | mk status after =>
    obtain ⟨output, s⟩ := after
    cases status with
    | error e => rfl
    | ok status => rfl

/-- **Using leased buffers, once the arguments are written.** What comes of it, and what it does to
the engine, is a matter of the bytes of the arguments and of the output buffer. -/
theorem withLeases_eq (w : World σ α) (t : Target) (encode : Encoder)
    (body : Buffer → Buffer → World σ α → Except CallError β × (Buffer × Buffer) × World σ α)
    (f : Bytes → Buffer → Except CallError β × σ)
    (hbody : ∀ input output w', w'.engine = w.engine →
      w'.registry t.environment = w.registry t.environment →
      (body input output w').1 = (f input.committed output).1 ∧
        (body input output w').2.2.engine = (f input.committed output).2) :
    let used := w.withLeases t.environment fun input output w =>
      match encode.into (w.registry t.environment) input with
      | (.error e, input) => (.error (.ofCodec e), (input, output), w)
      | (.ok (), input) => body input output w
    used.1 = (w.prepared t encode).bind (fun (input, output) => (f input output).1) ∧
      used.2.engine =
        match w.prepared t encode with
        | .error _ => w.engine
        | .ok (input, output) => (f input output).2 := by
  intro used
  dsimp only [used]
  unfold withLeases prepared
  have hregistry := registry_allocate w t.environment t.environment
  have hengine : (w.allocate t.environment).2.engine = w.engine := rfl
  cases hinput : w.allocate t.environment with
  | mk input w₁ =>
    rw [hinput] at hregistry hengine
    cases input with
    | error e => exact ⟨rfl, hengine⟩
    | ok input =>
      have hregistry' := registry_allocate w₁ t.environment t.environment
      have hengine' : (w₁.allocate t.environment).2.engine = w₁.engine := rfl
      dsimp only at hregistry hengine ⊢
      cases houtput : w₁.allocate t.environment with
      | mk output w₂ =>
        rw [houtput] at hregistry' hengine'
        cases output with
        | error e => exact ⟨rfl, hengine'.trans hengine⟩
        | ok output =>
          dsimp only at hregistry' hengine' ⊢
          cases encode.into (w₂.registry t.environment) input with
          | mk written input =>
            cases written with
            | error e => exact ⟨rfl, hengine'.trans hengine⟩
            | ok _ =>
              exact hbody input output w₂ (hengine'.trans hengine) (hregistry'.trans hregistry)

/-- What a call does with its leased buffers once the arguments are written. -/
def exchange (eng : Engine σ) (t : Target) (op : Int32) (decode : Decoder β)
    (input output : Buffer) (w : World σ α) : Except CallError β × (Buffer × Buffer) × World σ α :=
  match w.stream eng t op input.committed output with
  | (.error e, output, after) => (.error e, (input, output), after)
  | (.ok (), output, after) =>
    (decodeOutput (w.registry t.environment) decode output, (input, output), after)

/-- **A call that is waited for is asking and translating**, and nothing but the engine's own
transition happens to the engine. -/
theorem call_eq (eng : Engine σ) (w : World σ α) (t : Target) (op : Int32) (encode : Encoder)
    (decode : Decoder β) :
    (w.call eng t op encode decode).1 =
        (w.asked eng t op encode).bind (fun a => a.translate (w.registry t.environment) decode) ∧
      (w.call eng t op encode decode).2.engine =
        match w.prepared t encode with
        | .error _ => w.engine
        | .ok (input, output) => (eng.call t.raw op input output w.engine).2.2 := by
  obtain ⟨result, engine⟩ := withLeases_eq w t encode (exchange eng t op decode)
    (fun input output =>
      ((eng.answer t.raw op input output w.engine).translate (w.registry t.environment) decode,
        (eng.call t.raw op input output w.engine).2.2)) fun input output w' hengine hregistry => by
      have decoded := stream_decode eng w' t op input.committed output
        (w'.registry t.environment) decode
      have after := stream_engine eng w' t op input.committed output
      rw [← hengine, ← hregistry]
      unfold exchange
      cases hstream : w'.stream eng t op input.committed output with
      | mk result used =>
        obtain ⟨output', w''⟩ := used
        rw [hstream] at decoded after
        cases result with
        | error e => exact ⟨decoded, after⟩
        | ok _ => exact ⟨decoded, after⟩
  refine ⟨Eq.trans result ?_, engine⟩
  unfold asked
  cases w.prepared t encode with
  | error e => rfl
  | ok buffers => rfl

theorem attachMade_eq (e : EnvironmentId) (made : Except CallError Int64 × World σ α) :
    (attachMade e made).2.engine = made.2.engine ∧
      ∀ err, made.1 = .error err → (attachMade e made).1 = .error err := by
  obtain ⟨raw, w⟩ := made
  cases raw with
  | error err => exact ⟨rfl, fun _ h => congrArg Except.error (Except.error.inj h)⟩
  | ok word => exact ⟨rfl, fun _ h => nomatch h⟩

/-- **Making an object is asking and translating as well**, and nothing but the engine's own
transition happens to the engine. -/
theorem made_eq (eng : Engine σ) (w : World σ α) (t : Target) (kind : String) (encode : Encoder) :
    let made := w.withLeases t.environment (makeObject eng t.environment kind encode)
    made.1 = (w.prepared t encode).bind (fun (input, output) =>
        (eng.answerCreate kind input output w.engine).translate (w.registry t.environment)
          fun _ => Reader.int64) ∧
      made.2.engine =
        match w.prepared t encode with
        | .error _ => w.engine
        | .ok (input, output) => (eng.create kind input output w.engine).2.2 :=
  withLeases_eq w t encode
    (fun input output w' =>
      match eng.create kind input.committed output w'.engine with
      | (.error err, output, s) => (.error (.ofTransport err), (input, output), w'.withEngine s)
      | (.ok status, output, s) =>
        (Reply.decode ⟨status, output⟩ (w'.registry t.environment) fun _ => Reader.int64,
          (input, output), w'.withEngine s))
    (fun input output =>
      ((eng.answerCreate kind input output w.engine).translate (w.registry t.environment)
          fun _ => Reader.int64,
        (eng.create kind input output w.engine).2.2)) fun input output w' hengine hregistry => by
      rw [← hengine, ← hregistry]
      unfold Engine.answerCreate
      cases eng.create kind input.committed output w'.engine with
      | mk status after =>
        obtain ⟨output', s⟩ := after
        cases status with
        | error err => exact ⟨rfl, rfl⟩
        | ok status => exact ⟨rfl, rfl⟩

/-- An answer without a raw handle is returned as an error, and attaching the raw handle that comes
back does nothing to the engine. -/
theorem create_of_prepared (eng : Engine σ) (w : World σ α) (t : Target) (kind : String)
    (encode : Encoder) :
    (∀ input output err, w.prepared t encode = .ok (input, output) →
      (eng.answerCreate kind input output w.engine).translate (w.registry t.environment)
        (fun _ => Reader.int64) = .error err →
      (w.create eng t.environment kind encode).1 = .error err) ∧
    (w.create eng t.environment kind encode).2.engine =
      match w.prepared t encode with
      | .error _ => w.engine
      | .ok (input, output) => (eng.create kind input output w.engine).2.2 := by
  obtain ⟨result, engine⟩ := made_eq eng w t kind encode
  have attached := attachMade_eq t.environment
    (w.withLeases t.environment (makeObject eng t.environment kind encode))
  rw [create_eq]
  refine ⟨fun input output err prepared answer => ?_, attached.1.trans engine⟩
  refine attached.2 err (Eq.trans result ?_)
  rw [prepared]
  exact answer

theorem stream_fst (w : World σ α) (t : Target) (op : Int32) (input : Bytes) (output : Buffer)
    (r : Registry) :
    (w.stream eng t op input output).1 =
      (eng.answer t.raw op input output w.engine).translate r fun _ => pure () := by
  unfold World.stream Engine.answer
  cases eng.call t.raw op input output w.engine with
  | mk status after =>
    obtain ⟨output, s⟩ := after
    cases status with
    | error e => rfl
    | ok status =>
      show checkStatus status output = (do checkStatus status output; .ok ())
      cases checkStatus status output with
      | error e => rfl
      | ok _ => rfl

/-- A call with a number does to the engine what the engine does with the number. -/
theorem callScalar_engine (eng : Engine σ) (w : World σ α) (t : Target) (op : Int32)
    (value : Int64) :
    (w.callScalar eng t op value).2.engine =
      match w.allocate t.environment with
      | (.error _, _) => w.engine
      | (.ok output, _) => (eng.callScalar t.raw op value output w.engine).2.2 := by
  have hengine : (w.allocate t.environment).2.engine = w.engine := rfl
  unfold World.callScalar withLease
  cases hallocate : w.allocate t.environment with
  | mk output w₁ =>
    rw [hallocate] at hengine
    cases output with
    | error e => exact hengine
    | ok output =>
      dsimp only at hengine ⊢
      rw [← hengine]
      cases eng.callScalar t.raw op value output w₁.engine with
      | mk status after =>
        obtain ⟨output, s⟩ := after
        cases status with
        | error e => rfl
        | ok reply => rfl

theorem callScalar_fst (w : World σ α) (t : Target) (op : Int32) (value : Int64) :
    (w.callScalar eng t op value).1 =
      (w.askedScalar eng t op value).bind fun (a, n) =>
        a.translate (w.registry t.environment) fun _ => pure n := by
  unfold World.callScalar withLease askedScalar
  cases w.allocate t.environment with
  | mk output w₁ =>
    cases output with
    | error e => rfl
    | ok output =>
      dsimp only
      cases eng.callScalar t.raw op value output w₁.engine with
      | mk status after =>
        obtain ⟨output, s⟩ := after
        cases status with
        | error e => rfl
        | ok reply =>
          obtain ⟨status, n⟩ := reply
          show (checkStatus status output).map (fun _ => n) =
            (do checkStatus status output; .ok n)
          cases checkStatus status output with
          | error e => rfl
          | ok _ => rfl

end World

/-! ## Answers that come later -/

/-- The answer that a happening brings to a call, if it is for the call. -/
def AsyncCall.answer? (c : AsyncCall α) : Happening α → Option Answer
  | .rejected e id error =>
    if c.environment = e ∧ c.id = id then some (.error error) else none
  | .replied d =>
    if c.environment = d.sink.environment ∧ c.id = d.call then some (.ok d.reply) else none
  | _ => none

/-- **A call gets an answer**: the first happening for the call brings it. -/
def AsyncCall.Gets (c : AsyncCall α) (h : List (Happening α)) (a : Answer) : Prop :=
  ∃ before x after, h = before ++ x :: after ∧ (∀ y ∈ before, c.decides y = none) ∧
    c.answer? x = some a

theorem AsyncCall.decides_of_answer? {c : AsyncCall α} {x : Happening α} {a : Answer}
    (h : c.answer? x = some a) :
    c.decides x = some ((a.translate c.registry c.decode).map Yield.one) := by
  cases x with
  | rejected e id error =>
    dsimp only [answer?] at h
    by_cases hit : c.environment = e ∧ c.id = id
    · rw [if_pos hit] at h
      cases h
      exact if_pos hit
    · rw [if_neg hit] at h
      cases h
  | replied d =>
    dsimp only [answer?] at h
    by_cases hit : c.environment = d.sink.environment ∧ c.id = d.call
    · rw [if_pos hit] at h
      cases h
      exact if_pos hit
    · rw [if_neg hit] at h
      cases h
  | refused f error => cases h
  | entered c' => cases h
  | closed e => cases h

/-- **The answer decides the call**, by the same translation. -/
theorem AsyncCall.Gets.decided {c : AsyncCall α} {h : List (Happening α)} {a : Answer}
    (gets : c.Gets h a) :
    h.findSome? c.decides = some ((a.translate c.registry c.decode).map Yield.one) := by
  obtain ⟨before, x, after, rfl, hbefore, hx⟩ := gets
  rw [List.findSome?_append, List.findSome?_eq_none_iff.2 hbefore, List.findSome?_cons,
    decides_of_answer? hx]
  rfl

namespace World

variable {eng : Engine σ} {w w' : World σ α} {h h' : List (Happening α)}

/-- The future of a submitted call ends as the answer says that the call gets. -/
theorem outcome_of_gets {s : σ} (run : Run eng (ofEngine s) h w) {t : Target} {op : Int32}
    {encode : Encoder} {decode : Decoder α} (alive : (w.environment t.environment).isAlive)
    {c : AsyncCall α} {more : List (Happening α)}
    (submitted : w.submitted eng t op encode decode = .entered c :: more)
    (further : Run eng (w.submit eng t op encode decode).2 h' w')
    (few : ∀ e, (entered e (h ++ .entered c :: (more ++ h'))).length < 2 ^ 64) {a : Answer}
    (gets : c.Gets (more ++ h') a) :
    w'.futures.outcome? (w.submit eng t op encode decode).1 =
      some ((a.translate (w.registry t.environment) decode).map Yield.one) := by
  have whole := (run.snoc (.submit t op encode decode alive)).trans further
  rw [submitted, List.append_assoc, List.cons_append] at whole
  have tracked := whole.tracks few
  have settled := (tracked.settled _ (mem_verdicts h c (more ++ h'))).outcome?
  rw [gets.decided] at settled
  -- the call entered is the one submitted
  unfold World.submitted at submitted
  dsimp only at submitted
  split at submitted
  · cases submitted
  · split at submitted
    · cases submitted
    · cases submitted
      exact settled

/-- **Every way of calling translates answers alike**, whatever the answer and whatever reads the
results. The translation is the one that `Translates` asks for, and if the answer carries no result
it is the same for all readers of results. A call with arguments, without arguments, for its effect
alone, with objects, by a command, with buffers of the caller's or with a number: if it gets the
answer, it returns the translation. And a call that is not waited for ends with it, whenever the
answer comes, if nothing that is for the call comes before. -/
theorem answers_translate_alike (eng : Engine σ) (w : World σ α) (t : Target) (op : Int32)
    (a : Answer) :
    let r := w.registry t.environment
    (∀ {β : Type} (decode : Decoder β), Translates r decode a (a.translate r decode)) ∧
    ((∀ output, a ≠ .ok ⟨0, output⟩) →
      ∃ e, ∀ {β : Type} (decode : Decoder β), a.translate r decode = .error e) ∧
    (∀ {β : Type} encode (decode : Decoder β), w.asked eng t op encode = .ok a →
      (w.call eng t op encode decode).1 = a.translate r decode) ∧
    (∀ {β : Type} (decode : Decoder β), w.asked eng t op .none = .ok a →
      (w.callIn eng t op decode).1 = a.translate r decode) ∧
    (∀ encode, w.asked eng t op encode = .ok a →
      (w.callOut eng t op encode).1 = a.translate r fun _ => pure ()) ∧
    (∀ argument payload result, checkTypes r argument result = .ok () →
      w.asked eng t op (.ofDatum (.object argument payload)) = .ok a →
      (w.callObject eng t op argument payload result).1 =
        a.translate r fun r => r.read (.object result)) ∧
    (∀ {ι β : Type} (c : Command ι β) input, c.opcode = op →
      w.asked eng t op (c.encode input) = .ok a →
      (w.execute eng t c input).1 = a.translate r c.decode) ∧
    (∀ input output, eng.answer t.raw op input output w.engine = a →
      (w.stream eng t op input output).1 = a.translate r (fun _ => pure ()) ∧
      ∀ {β : Type} (decode : Decoder β),
        ((w.stream eng t op input output).1.bind fun _ =>
          decodeOutput r decode (w.stream eng t op input output).2.1) = a.translate r decode) ∧
    (∀ value n, w.askedScalar eng t op value = .ok (a, n) →
      (w.callScalar eng t op value).1 = a.translate r fun _ => pure n) ∧
    ∀ {s h h' w' encode decode c more}, Run eng (ofEngine s) h w →
      (w.environment t.environment).isAlive →
      w.submitted eng t op encode decode = .entered c :: more →
      Run eng (w.submit eng t op encode decode).2 h' w' →
      (∀ e, (entered e (h ++ .entered c :: (more ++ h'))).length < 2 ^ 64) →
      c.Gets (more ++ h') a →
      w'.futures.outcome? (w.submit eng t op encode decode).1 =
        some ((a.translate r decode).map Yield.one) := by
  intro r
  have waited : ∀ {β : Type} encode (decode : Decoder β), w.asked eng t op encode = .ok a →
      (w.call eng t op encode decode).1 = a.translate r decode := by
    intro β encode decode asked
    rw [(call_eq eng w t op encode decode).1, asked]
    rfl
  refine ⟨fun decode => a.translates r decode, fun failed => ?_, waited,
    fun decode => waited .none decode, fun encode => waited encode _, ?_, ?_, ?_, ?_, ?_⟩
  · obtain ⟨e, he⟩ := Answer.translate_of_failed failed
    exact ⟨e, fun decode => he r decode⟩
  · intro argument payload result known asked
    unfold World.callObject
    rw [known]
    exact waited _ _ asked
  · rintro ι β c input rfl asked
    exact waited _ _ asked
  · rintro input output rfl
    exact ⟨stream_fst w t op input output r,
      fun decode => stream_decode eng w t op input output r decode⟩
  · intro value n asked
    rw [callScalar_fst, asked]
    rfl
  · intro s h h' w' encode decode c more run alive submitted further few gets
    exact outcome_of_gets run alive submitted further few gets

end World

namespace Sample

/-- A failure that an engine reports. -/
def refusal : Failure := ⟨7, "no", some "Refused"⟩

/-- The record of the failure with a byte behind it. -/
def refusalOutput : Buffer := .ofBytes (refusal.emission.bytes ++ [42])

/-- An environment on an engine that reports it to every call. -/
def refusing : World Scripted Int32 :=
  let reply := { ScriptedReply.blank with status := 1, payload := refusalOutput.committed }
  ((World.ofEngine { Scripted.start with replies := [reply] }).addEnvironment .standard .empty).2

/-- The answer that every call gets. -/
def refused : Reply := ⟨1, refusalOutput⟩

/-- The failure as its callers see it, the one who waits and the one who does not. -/
theorem answers_translate_alike_refused :
    (∀ output, (.ok refused : Answer) ≠ .ok ⟨0, output⟩) ∧
    (refusing.callIn Scripted.engine (seventh 0) 1 number).1 =
      .error ⟨.remote, 7, "no", some "Refused"⟩ ∧
    (refusing.submit Scripted.engine (seventh 0) 1 .none number).2.futures.outcome? 0 =
      some (.error ⟨.remote, 7, "no", some "Refused"⟩) := by
  have failed : ∀ output, (.ok refused : Answer) ≠ .ok ⟨0, output⟩ := by
    intro output h
    have status : (1 : UInt8) = 0 := congrArg Reply.status (Except.ok.inj h)
    exact absurd status (by decide)
  obtain ⟨_, _, _, callIn, _, _, _, _, _, submit⟩ :=
    World.answers_translate_alike Scripted.engine refusing (seventh 0) 1 (.ok refused)
  have translated : Answer.translate (.ok refused) (refusing.registry 0) number =
      .error ⟨.remote, 7, "no", some "Refused"⟩ := by
    decide +kernel
  refine ⟨failed, ?_, ?_⟩
  · rw [callIn number (by decide +kernel)]
    exact translated
  · have run : World.Run Scripted.engine (.ofEngine _) [] refusing :=
      World.Run.refl.snoc (.openEnvironment .standard .empty)
    have submitted : refusing.submitted Scripted.engine (seventh 0) 1 .none number =
      .entered (submittedCall 0) :: [.replied ⟨⟨0⟩, ⟨1⟩, refused⟩] := rfl
    have gets : (submittedCall 0).Gets ([.replied ⟨⟨0⟩, ⟨1⟩, refused⟩] ++ []) (.ok refused) :=
      ⟨[], _, [], rfl, fun y hy => absurd hy List.not_mem_nil, rfl⟩
    have ended := submit run rfl submitted .refl
      (fun e => Nat.lt_of_le_of_lt (length_entered_le e _) (by decide)) gets
    rw [show (seventh 0).environment = 0 from rfl, translated] at ended
    exact ended

end Sample

end RemoteDispatch
