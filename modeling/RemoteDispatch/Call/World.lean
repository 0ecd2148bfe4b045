import RemoteDispatch.Call.Engine
import RemoteDispatch.Call.Future
import RemoteDispatch.Call.Tables
import RemoteDispatch.Call.Pool

/-!
# Environments and what they own

An environment is one connection to an engine: the types it knows, its pool
of buffers, its handles and the calls it waits for. It lives as long as it has
an owner, and every target in it is one. When the last owner goes, the pool is
closed and the calls still waiting are abandoned. The handles stay, because a
handle can outlive its environment and still has an object to dispose of.

A `World` is an engine's state, the environments on that engine, and the
futures handed out. Everything that happens in it is a function from one world
to the next.
-/

namespace RemoteDispatch

/-- A call that waits for its reply: the slot the result goes to and how to read it. -/
structure Awaited (α : Type) where
  /-- The slot of the result. -/
  future : FutureId
  /-- How the result is read. -/
  decode : Decoder α

/-- **One connection to an engine.** -/
structure Environment (α : Type) where
  /-- The composite types this side knows. -/
  registry : Registry
  /-- How many hold the environment: its maker and the targets in it. -/
  owners : Nat
  /-- The call buffers. -/
  pool : Pool
  /-- The live handles. -/
  handles : HandleTable
  /-- The calls that wait for a reply. -/
  calls : PendingCalls (Awaited α)

namespace Environment

variable {α : Type}

/-- An environment held by its maker only. -/
def make (config : Config) (registry : Registry) : Environment α :=
  ⟨registry, 1, .ofConfig config, .empty, .empty⟩

/-- An environment that nothing is left of. -/
def gone : Environment α := ⟨.empty, 0, (Pool.ofConfig .standard).close, .empty, .empty⟩

/-- The environment has an owner. -/
def isAlive (e : Environment α) : Bool := 0 < e.owners

/-- The environment after its last owner went: no buffers and no waiting calls. -/
def shutDown (e : Environment α) : Environment α :=
  { e with pool := e.pool.close, calls := { e.calls with entries := [] } }

end Environment

/-- The number of an environment. -/
abbrev EnvironmentId := Nat

/-- **A counted reference to an object**, counted in the table of an environment. -/
structure Handle where
  /-- The environment whose table counts the handle. -/
  table : EnvironmentId
  /-- The object. -/
  raw : RawHandle
  deriving DecidableEq

/-- **An object reached through an environment**, by a handle that the target holds. -/
structure Target where
  /-- The environment. -/
  environment : EnvironmentId
  /-- The handle. -/
  handle : Handle
  deriving DecidableEq

/-- The object that a target reaches. -/
def Target.raw (t : Target) : RawHandle := t.handle.raw

/-- An engine's state, the environments on it and the futures handed out. -/
structure World (σ α : Type) where
  /-- The state of the engine. -/
  engine : σ
  /-- The environments in the order they were made. -/
  environments : List (Environment α)
  /-- The futures handed out. -/
  futures : Futures α

namespace World

variable {σ α β : Type}

/-- An engine with no environment on it. -/
def ofEngine (s : σ) : World σ α := ⟨s, [], .empty⟩

/-- The environment of a number. -/
def environment (w : World σ α) (e : EnvironmentId) : Environment α :=
  w.environments[e]?.getD .gone

/-- The types that an environment knows. -/
def registry (w : World σ α) (e : EnvironmentId) : Registry := (w.environment e).registry

/-- The world with one environment changed. -/
def modify (w : World σ α) (e : EnvironmentId) (f : Environment α → Environment α) : World σ α :=
  { w with environments := w.environments.modify e f }

/-- The world with the engine in another state. -/
def withEngine (w : World σ α) (s : σ) : World σ α := { w with engine := s }

/-- Adds an environment. -/
def addEnvironment (w : World σ α) (config : Config) (registry : Registry) :
    EnvironmentId × World σ α :=
  (w.environments.length,
    { w with environments := w.environments ++ [Environment.make config registry] })

/-! ## Buffers -/

/-- Leases a buffer of an environment. -/
def allocate (w : World σ α) (e : EnvironmentId) : Except CallError Buffer × World σ α :=
  let (buffer, pool) := (w.environment e).pool.acquire
  (buffer.mapError .ofCodec, w.modify e fun env => { env with pool })

/-- Gives a leased buffer back. -/
def recycle (w : World σ α) (e : EnvironmentId) (b : Buffer) : World σ α :=
  w.modify e fun env => { env with pool := env.pool.recycle b }

/-- **Leases a buffer for the time of a step.** -/
def withLease (w : World σ α) (e : EnvironmentId)
    (step : Buffer → World σ α → Except CallError β × Buffer × World σ α) :
    Except CallError β × World σ α :=
  match w.allocate e with
  | (.error err, w) => (.error err, w)
  | (.ok b, w) =>
    let (result, b, w) := step b w
    (result, w.recycle e b)

/-- **Leases an input and an output buffer for the time of a step.** The output buffer is given back
first. -/
def withLeases (w : World σ α) (e : EnvironmentId)
    (step : Buffer → Buffer → World σ α →
      Except CallError β × (Buffer × Buffer) × World σ α) :
    Except CallError β × World σ α :=
  match w.allocate e with
  | (.error err, w) => (.error err, w)
  | (.ok input, w) =>
    match w.allocate e with
    | (.error err, w) => (.error err, w.recycle e input)
    | (.ok output, w) =>
      let (result, (input, output), w) := step input output w
      (result, (w.recycle e output).recycle e input)

/-! ## Futures -/

/-- A future that has settled. -/
def ready (w : World σ α) (outcome : Outcome α) : FutureId × World σ α :=
  let (id, futures) := w.futures.ready outcome
  (id, { w with futures })

/-- A future to be settled later. -/
def promise (w : World σ α) : FutureId × World σ α :=
  let (id, futures) := w.futures.promise
  (id, { w with futures })

/-- Settles a future. -/
def settle (w : World σ α) (id : FutureId) (outcome : Outcome α) : World σ α :=
  { w with futures := w.futures.settle id outcome }

/-- Joins futures into one. -/
def join (w : World σ α) (ids : List FutureId) : FutureId × World σ α :=
  let (id, futures) := w.futures.join ids
  (id, { w with futures })

/-! ## Pending calls -/

/-- Enters a call of an environment under its next id. -/
def register (w : World σ α) (e : EnvironmentId) (held : Awaited α) : CallId × World σ α :=
  let (id, calls) := (w.environment e).calls.register held
  (id, w.modify e fun env => { env with calls })

/-- Takes a call out of an environment and settles its future as `outcome` says. The answer says
whether the call was there. -/
def takeCall (w : World σ α) (e : EnvironmentId) (id : CallId)
    (outcome : Awaited α → Outcome α) : Bool × World σ α :=
  match (w.environment e).calls.take id with
  | none => (false, w)
  | some (held, calls) =>
    (true, (w.modify e fun env => { env with calls }).settle held.future (outcome held))

/-- **Brings a reply to the call that waits for it.** A reply that nobody waits for is dropped. -/
def deliver (w : World σ α) (d : Delivery) : Bool × World σ α :=
  let e := d.sink.environment
  w.takeCall e d.call fun held =>
    (d.reply.decode (w.registry e) held.decode).map Yield.one

/-- Brings replies in order. -/
def deliverAll (w : World σ α) (ds : List Delivery) : World σ α :=
  ds.foldl (fun w d => (w.deliver d).2) w

/-! ## Owners and handles -/

/-- One more owner of an environment. -/
def retain (w : World σ α) (e : EnvironmentId) : World σ α :=
  w.modify e fun env => { env with owners := env.owners + 1 }

/-- **One owner of an environment fewer.** After the last one, the calls still waiting are
abandoned. -/
def dropOwner (w : World σ α) (e : EnvironmentId) : World σ α :=
  let env := w.environment e
  let w := w.modify e fun env => { env with owners := env.owners - 1 }
  if env.owners = 1 then
    let futures := env.calls.entries.foldl (fun fs entry => fs.abandon entry.2.future) w.futures
    { w.modify e Environment.shutDown with futures }
  else w

/-- One more handle to an object, counted by an environment. -/
def adopt (w : World σ α) (e : EnvironmentId) (raw : RawHandle) : Handle × World σ α :=
  (⟨e, raw⟩, w.modify e fun env => { env with handles := env.handles.adopt raw })

/-- One more handle to an object, if the environment counts one already. -/
def handle? (w : World σ α) (e : EnvironmentId) (raw : RawHandle) : Option (Handle × World σ α) :=
  ((w.environment e).handles.get? raw).map fun handles =>
    (⟨e, raw⟩, w.modify e fun env => { env with handles })

/-- One more handle like the given one. -/
def cloneHandle (w : World σ α) (h : Handle) : World σ α := (w.adopt h.table h.raw).2

/-- **One handle fewer.** After the last one to an object, the engine disposes of the object. -/
def dropHandle (eng : Engine σ) (w : World σ α) (h : Handle) : World σ α :=
  let (handles, last) := (w.environment h.table).handles.release h.raw
  let w := w.modify h.table fun env => { env with handles }
  if last then w.withEngine (eng.dispose h.raw w.engine) else w

/-! ## Targets -/

/-- The target that takes over a handle and owns an environment. -/
def target (w : World σ α) (e : EnvironmentId) (h : Handle) : Target × World σ α :=
  (⟨e, h⟩, w.retain e)

/-- **A target for a raw handle**, by a handle of the object's family. -/
def attach (w : World σ α) (e : EnvironmentId) (raw : RawHandle) : Target × World σ α :=
  let (h, w) := w.adopt e raw
  w.target e h

/-- One more target like the given one. -/
def cloneTarget (w : World σ α) (t : Target) : World σ α :=
  (w.cloneHandle t.handle).retain t.environment

/-- A target for a raw handle that the far side wrote at the front of a message. -/
def readTarget (w : World σ α) (e : EnvironmentId) (message : Bytes) :
    Except CallError Target × World σ α :=
  match Reader.int64.eval message with
  | .error err => (.error (.ofCodec err), w)
  | .ok word =>
    let (t, w) := w.attach e ⟨word.toUInt64⟩
    (.ok t, w)

/-- Gives up a target: its environment first, then its handle. -/
def dropTarget (eng : Engine σ) (w : World σ α) (t : Target) : World σ α :=
  (w.dropOwner t.environment).dropHandle eng t.handle

/-- **Makes an object of a named kind** and a target that owns it. -/
def create (eng : Engine σ) (w : World σ α) (e : EnvironmentId) (kind : String)
    (encode : Encoder) : Except CallError Target × World σ α :=
  let (raw, w) := w.withLeases e fun input output w =>
    match encode.into (w.registry e) input with
    | (.error err, input) => (.error (.ofCodec err), (input, output), w)
    | (.ok (), input) =>
      match eng.create kind input.committed output w.engine with
      | (.error err, output, s) => (.error (.ofTransport err), (input, output), w.withEngine s)
      | (.ok status, output, s) =>
        let word := Reply.decode ⟨status, output⟩ (w.registry e) fun _ => Reader.int64
        (word, (input, output), w.withEngine s)
  match raw with
  | .error err => (.error err, w)
  | .ok word =>
    let (t, w) := w.attach e ⟨word.toUInt64⟩
    (.ok t, w)

end World

end RemoteDispatch
