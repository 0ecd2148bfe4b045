import RemoteDispatch.Call.World

/-!
# Calling a target

Every way of calling writes the arguments into a leased buffer, crosses to the
engine, checks the status, and reads the result. The ways differ in what the
caller supplies: a writer and a reader, one of them, a number, two buffers,
typed objects, or a `Command`, which ties an operation to the layout of its
arguments and of its result. Two commands may lay out results of one kind in
different ways; each says for itself how.

The asynchronous ways share the writing. They enter the call in the table of
pending calls and return a future at once. A call that fails on this side
returns a future that has failed already, and leaves no entry behind.
-/

namespace RemoteDispatch

/-- **An operation with its layouts.** -/
structure Command (ι ο : Type) where
  /-- The operation. -/
  opcode : Int32
  /-- How the arguments are written. -/
  encode : ι → Encoder
  /-- How the result is read. -/
  decode : Decoder ο

/-- The command whose result is passed through a function. -/
def Command.map {ι ο κ : Type} (f : ο → κ) (c : Command ι ο) : Command ι κ :=
  { c with decode := fun r => f <$> c.decode r }

namespace World

variable {σ α β ι : Type} (eng : Engine σ)

/-! ## Waiting for the reply -/

/-- **Hands over prepared buffers** and waits. On success the output buffer holds the result. -/
def stream (w : World σ α) (t : Target) (op : Int32) (input : Bytes) (output : Buffer) :
    Except CallError Unit × Buffer × World σ α :=
  match eng.call t.raw op input output w.engine with
  | (.error e, output, s) => (.error (.ofTransport e), output, w.withEngine s)
  | (.ok status, output, s) => (checkStatus status output, output, w.withEngine s)

/-- **Writes the arguments, calls, and reads the result.** -/
def call (w : World σ α) (t : Target) (op : Int32) (encode : Encoder) (decode : Decoder β) :
    Except CallError β × World σ α :=
  w.withLeases t.environment fun input output w =>
    let registry := w.registry t.environment
    match encode.into registry input with
    | (.error e, input) => (.error (.ofCodec e), (input, output), w)
    | (.ok (), input) =>
      match w.stream eng t op input.committed output with
      | (.error e, output, w) => (.error e, (input, output), w)
      | (.ok (), output, w) => (decodeOutput registry decode output, (input, output), w)

/-- Calls for the effect alone. -/
def callOut (w : World σ α) (t : Target) (op : Int32) (encode : Encoder) :
    Except CallError Unit × World σ α :=
  w.call eng t op encode fun _ => pure ()

/-- Calls without arguments. -/
def callIn (w : World σ α) (t : Target) (op : Int32) (decode : Decoder β) :
    Except CallError β × World σ α :=
  w.call eng t op .none decode

/-- **Calls with one number for one number.** The only buffer is for a failure record. -/
def callScalar (w : World σ α) (t : Target) (op : Int32) (value : Int64) :
    Except CallError Int64 × World σ α :=
  w.withLease t.environment fun output w =>
    match eng.callScalar t.raw op value output w.engine with
    | (.error e, output, s) => (.error (.ofTransport e), output, w.withEngine s)
    | (.ok (status, result), output, s) =>
      ((checkStatus status output).map fun () => result, output, w.withEngine s)

/-- The two types of a call with objects, both of which have to be known. -/
def checkTypes (r : Registry) (argument result : TypeRef) : Except CallError Unit :=
  (do r.check argument; r.check result : Except CodecError Unit).mapError .ofCodec

/-- **Sends an object and reads one back.** The types of both are checked before anything is
sent. -/
def callObject (w : World σ α) (t : Target) (op : Int32) (argument : TypeRef) (payload : Datum)
    (result : TypeRef) : Except CallError Datum × World σ α :=
  match checkTypes (w.registry t.environment) argument result with
  | .error e => (.error e, w)
  | .ok () => w.call eng t op (.ofDatum (.object argument payload)) fun r => r.read (.object result)

/-- Runs a command. -/
def execute (w : World σ α) (t : Target) (c : Command ι β) (input : ι) :
    Except CallError β × World σ α :=
  w.call eng t c.opcode (c.encode input) c.decode

/-! ## Not waiting for the reply -/

/-- A future that has failed. -/
def failed (w : World σ α) (e : CallError) : FutureId × World σ α := w.ready (.error e)

/-- **Writes the arguments, submits the call, and returns a future.** The buffer of the arguments
goes to the engine for good; only if they cannot be written is it given back. -/
def submit (w : World σ α) (t : Target) (op : Int32) (encode : Encoder) (decode : Decoder α) :
    FutureId × World σ α :=
  match w.allocate t.environment with
  | (.error e, w) => w.failed e
  | (.ok input, w) =>
    match encode.into (w.registry t.environment) input with
    | (.error e, input) => (w.recycle t.environment input).failed (.ofCodec e)
    | (.ok (), input) =>
      let (future, w) := w.promise
      let (id, w) := w.register t.environment ⟨future, decode⟩
      match eng.submit t.raw op ⟨t.environment⟩ id input.committed w.engine with
      | (.error e, s) =>
        let (_, w) := (w.withEngine s).takeCall t.environment id fun _ => .error (.ofTransport e)
        (future, w)
      | (.ok replies, s) => (future, (w.withEngine s).deliverAll replies)

/-- Submits a call with objects. -/
def submitObject (w : World σ α) (t : Target) (op : Int32) (argument : TypeRef) (payload : Datum)
    (result : TypeRef) (yields : Datum → α) : FutureId × World σ α :=
  match checkTypes (w.registry t.environment) argument result with
  | .error e => w.failed e
  | .ok () =>
    w.submit eng t op (.ofDatum (.object argument payload)) fun r =>
      yields <$> r.read (.object result)

/-- Submits a command. -/
def submitCommand (w : World σ α) (t : Target) (c : Command ι α) (input : ι) :
    FutureId × World σ α :=
  w.submit eng t c.opcode (c.encode input) c.decode

/-! ## Groups -/

/-- **Calls every member in turn**, up to the first that fails. -/
def broadcast (w : World σ α) (op : Int32) (encode : Encoder) (decode : Decoder β) :
    List Target → Except CallError (List β) × World σ α
  | [] => (.ok [], w)
  | t :: members =>
    match w.call eng t op encode decode with
    | (.error e, w) => (.error e, w)
    | (.ok first, w) =>
      let (others, w) := broadcast w op encode decode members
      (others.map (first :: ·), w)

/-- Submits a call to every member. -/
def submitEach (w : World σ α) (op : Int32) (encode : Encoder) (decode : Decoder α) :
    List Target → List FutureId × World σ α
  | [] => ([], w)
  | t :: members =>
    let (first, w) := w.submit eng t op encode decode
    let (others, w) := submitEach w op encode decode members
    (first :: others, w)

/-- **Submits a call to every member at once** and joins the futures. -/
def submitAll (w : World σ α) (op : Int32) (encode : Encoder) (decode : Decoder α)
    (members : List Target) : FutureId × World σ α :=
  let (futures, w) := w.submitEach eng op encode decode members
  w.join futures

/-- Runs a command on every member in turn, up to the first that fails. -/
def executeEach (w : World σ α) (c : Command ι β) (input : ι) (members : List Target) :
    Except CallError (List β) × World σ α :=
  w.broadcast eng c.opcode (c.encode input) c.decode members

/-- Submits a command to every member at once and joins the futures. -/
def submitCommandAll (w : World σ α) (c : Command ι α) (input : ι) (members : List Target) :
    FutureId × World σ α :=
  w.submitAll eng c.opcode (c.encode input) c.decode members

end World

end RemoteDispatch
