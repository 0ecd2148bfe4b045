import RemoteDispatch.Call.Engine

/-!
# An engine in the same process

The loopback engine keeps objects of its own. Each object is of a kind, and a
kind says how its objects answer each operation. A kind is registered under
its name; objects made before a kind is registered again keep the old one.

A handler reads the bytes of the arguments and writes the result. It may
succeed, report a failure or panic, and may have written any bytes before it
does. A failure takes the place of everything written, a panic is reported as
a failure, and so are a missing object and an operation the kind has no
handler for. Of a failure record that does not fit its buffer nothing is
shown.

A call that is waited for is served into the caller's buffer. An asynchronous
call is served on a thread of the engine, into a buffer that has no limit.
-/

namespace RemoteDispatch

/-- What a handler learns of the call it serves. -/
structure Request where
  /-- The composite types that the engine knows. -/
  registry : Registry
  /-- The bytes of the arguments. -/
  argument : Bytes
  /-- The handler runs on a thread of the engine and not on the caller's. -/
  onEngineThread : Bool

/-- How a handler ends. -/
inductive Ending where
  /-- What was written is the result. -/
  | done
  /-- A failure. -/
  | failed (failure : Failure)
  /-- A panic, and its message if it has one that is text. -/
  | panicked (message : Option String)
  deriving DecidableEq

/-- **How an object answers an operation**: what it writes for a request, and how it ends. -/
abbrev Handler := Request → Script Ending

/-- How a call with a number ends. -/
inductive ScalarEnding where
  | done (result : Int64)
  | failed (failure : Failure)
  | panicked (message : Option String)
  deriving DecidableEq

/-- **A kind of object**: its name and the operations it answers. -/
structure ObjectKind where
  /-- The name of the kind. -/
  name : String
  /-- The handlers of operations. -/
  ops : List (Int32 × Handler)
  /-- The handlers of operations on a number. -/
  scalarOps : List (Int32 × (Int64 → ScalarEnding))

namespace ObjectKind

/-- The handler of an operation. -/
def op? (k : ObjectKind) (op : Int32) : Option Handler := k.ops.lookup op

/-- The handler of an operation on a number. -/
def scalarOp? (k : ObjectKind) (op : Int32) : Option (Int64 → ScalarEnding) :=
  k.scalarOps.lookup op

end ObjectKind

/-! ## Failures of the engine's own making -/

namespace Failure

/-- There is no such object. -/
def noObject (target : RawHandle) : Failure :=
  ⟨ErrorCode.invalidState, s!"no live object {target.text}", none⟩

/-- The kind has no handler for the operation. -/
def unsupported (k : ObjectKind) (op : Int32) : Failure :=
  ⟨ErrorCode.generic, s!"{k.name} does not support op {op}", some "UnsupportedOperation"⟩

/-- The kind has no handler for the operation on a number. -/
def noScalar (k : ObjectKind) (op : Int32) : Failure :=
  ⟨ErrorCode.generic, s!"{k.name} has no scalar op {op}", some "UnsupportedOperation"⟩

/-- There is no such kind. -/
def unknownKind (name : String) : Failure :=
  ⟨ErrorCode.generic, s!"unknown object type {name}", some "UnknownType"⟩

/-- The handler panicked. -/
def ofPanic (message : Option String) : Failure :=
  ⟨ErrorCode.generic, message.getD "handler panicked", some "HandlerPanic"⟩

end Failure

/-! ## Serving a call -/

/-- A failure in the place of everything in a buffer, as far as it fits. -/
def replyFailure (r : Registry) (f : Failure) (output : Buffer) : Buffer :=
  (f.encodeInto r output).2

/-- Runs a handler into a buffer and commits what it wrote, if it ended well. -/
def runHandler (h : Handler) (request : Request) (output : Buffer) : Except Failure Unit × Buffer :=
  match (h request).run (.start output.reset) with
  | (.failed f, w) => (.error f, w.buffer)
  | (.panicked message, w) => (.error (.ofPanic message), w.buffer)
  | (.done, w) =>
    match w.synchronize with
    | .ok b => (.ok (), b)
    | .error e => (.error (.ofCodec e), w.buffer)

/-- **Answers a call on an object**, which may be missing. -/
def serve (object : Except Failure ObjectKind) (op : Int32) (request : Request) (output : Buffer) :
    Status × Buffer :=
  match object with
  | .error f => (.invalidTarget, replyFailure request.registry f output)
  | .ok kind =>
    match kind.op? op with
    | none => (.failed, replyFailure request.registry (.unsupported kind op) output)
    | some h =>
      match runHandler h request output with
      | (.ok (), output) => (.ok, output)
      | (.error f, output) => (.failed, replyFailure request.registry f output)

/-! ## The engine -/

/-- **The state of a loopback engine.** -/
structure Loopback where
  /-- The composite types that the engine knows. -/
  registry : Registry
  /-- The registered kinds, the latest first. -/
  kinds : List ObjectKind
  /-- The live objects. -/
  objects : List (RawHandle × ObjectKind)
  /-- The raw handle of the next object. -/
  next : RawHandle
  /-- The objects disposed of, in order. -/
  disposed : List RawHandle
  /-- How many calls have arrived. -/
  calls : Nat
  /-- Calls can arrive. -/
  connected : Bool

namespace Loopback

/-- An engine without kinds or objects. -/
def start (registry : Registry) : Loopback := ⟨registry, [], [], ⟨1⟩, [], 0, true⟩

/-- Registers a kind under its name. -/
def addKind (s : Loopback) (k : ObjectKind) : Loopback := { s with kinds := k :: s.kinds }

/-- The kind registered under a name. -/
def kind? (s : Loopback) (name : String) : Option ObjectKind := s.kinds.find? (·.name == name)

/-- The kind of an object that is live. -/
def object? (s : Loopback) (target : RawHandle) : Option ObjectKind := s.objects.lookup target

/-- The engine without an object. -/
def remove (s : Loopback) (target : RawHandle) : Loopback :=
  { s with objects := s.objects.filter (·.1 != target) }

/-- **Makes an object** of a registered kind. -/
def spawn? (s : Loopback) (name : String) : Option (RawHandle × Loopback) :=
  (s.kind? name).map fun kind =>
    let raw := s.next
    (raw, { s.remove raw with
      objects := (s.remove raw).objects ++ [(raw, kind)], next := ⟨raw.word + 1⟩ })

/-- Removes an object as if its owner had gone. The answer says whether it was there. -/
def evict (s : Loopback) (target : RawHandle) : Bool × Loopback :=
  ((s.object? target).isSome, s.remove target)

/-- Makes every later call fail. -/
def disconnect (s : Loopback) : Loopback := { s with connected := false }

/-- How often an object was disposed of. -/
def disposeCount (s : Loopback) (target : RawHandle) : Nat := s.disposed.count target

/-- A call arrives, if the link is up. -/
def enter (s : Loopback) : Except TransportError Loopback :=
  if s.connected then .ok { s with calls := s.calls + 1 }
  else .error (.connectionLost "loopback engine disconnected")

/-- The kind of an object, or the failure that there is none. -/
def lookup (s : Loopback) (target : RawHandle) : Except Failure ObjectKind :=
  match s.object? target with
  | some kind => .ok kind
  | none => .error (.noObject target)

/-- Serves a call into the caller's buffer. -/
def call (s : Loopback) (target : RawHandle) (op : Int32) (input : Bytes) (output : Buffer) :
    Except TransportError UInt8 × Buffer × Loopback :=
  match s.enter with
  | .error e => (.error e, output, s)
  | .ok s =>
    let (status, output) := serve (s.lookup target) op ⟨s.registry, input, false⟩ output
    (.ok status.toByte, output, s)

/-- How an object answers an operation on a number. -/
def scalarAnswer (s : Loopback) (target : RawHandle) (op : Int32) (value : Int64) :
    Except (Status × Failure) Int64 :=
  match s.lookup target with
  | .error f => .error (.invalidTarget, f)
  | .ok kind =>
    match kind.scalarOp? op with
    | none => .error (.failed, .noScalar kind op)
    | some h =>
      match h value with
      | .done result => .ok result
      | .failed f => .error (.failed, f)
      | .panicked message => .error (.failed, .ofPanic message)

/-- Serves a call with a number. The buffer is touched by a failure only. -/
def callScalar (s : Loopback) (target : RawHandle) (op : Int32) (value : Int64)
    (output : Buffer) : Except TransportError (UInt8 × Int64) × Buffer × Loopback :=
  match s.enter with
  | .error e => (.error e, output, s)
  | .ok s =>
    match s.scalarAnswer target op value with
    | .ok result => (.ok (Status.ok.toByte, result), output, s)
    | .error (status, f) => (.ok (status.toByte, 0), replyFailure s.registry f output, s)

/-- The buffer of an asynchronous reply. -/
def replyBuffer : Buffer := ⟨#[], Buffer.defaultCapacity, 0, none⟩

/-- Serves a call on a thread of the engine. -/
def submit (s : Loopback) (target : RawHandle) (op : Int32) (sink : Sink) (id : CallId)
    (input : Bytes) : Except TransportError (List Delivery) × Loopback :=
  match s.enter with
  | .error e => (.error e, s)
  | .ok s =>
    let (status, output) := serve (s.lookup target) op ⟨s.registry, input, true⟩ replyBuffer
    (.ok [⟨sink, id, ⟨status.toByte, output⟩⟩], s)

/-- Makes an object for a caller. If its raw handle does not fit the caller's buffer, the object
goes again. -/
def create (s : Loopback) (name : String) (output : Buffer) :
    Except TransportError UInt8 × Buffer × Loopback :=
  match s.enter with
  | .error e => (.error e, output, s)
  | .ok s =>
    match s.spawn? name with
    | none =>
      (.ok Status.failed.toByte, replyFailure s.registry (.unknownKind name) output, s)
    | some (raw, made) =>
      match Encoder.into (.ofEmission fun _ => .int64 raw.word.toInt64) s.registry output.reset with
      | (.ok (), output) => (.ok Status.ok.toByte, output, made)
      | (.error e, output) =>
        (.ok Status.failed.toByte, replyFailure s.registry (.ofCodec e) output, made.remove raw)

/-- Disposes of an object and takes note of it. -/
def dispose (s : Loopback) (target : RawHandle) : Loopback :=
  { s.remove target with disposed := s.disposed ++ [target] }

/-- **The loopback engine.** -/
def engine : Engine Loopback where
  call target op input output s := s.call target op input output
  callScalar target op value output s := s.callScalar target op value output
  submit target op sink id input s := s.submit target op sink id input
  create name _ output s := s.create name output
  dispose target s := s.dispose target

end Loopback

end RemoteDispatch
