import RemoteDispatch.Call.Dispatch
import RemoteDispatch.Session.Book

/-!
# What a user holds

A `Session` is a world and everything a user of it holds under names: targets,
handles, groups of targets, leased buffers, sinks, futures and promises, and
the environments made. Holding something keeps it alive, so letting go of it
has effects in the world. A name that is taken again lets go of what it stood
for, once the new value is in place.
-/

namespace RemoteDispatch

/-- **A world and what its user holds.** -/
structure Session (σ α : Type) where
  /-- The world. -/
  world : World σ α
  /-- The promises that are neither spent nor given up. -/
  promises : Named FutureId
  /-- The futures. -/
  futures : Named FutureId
  /-- The targets. -/
  targets : Named Target
  /-- The handles. -/
  handles : Named Handle
  /-- The groups of targets. -/
  groups : Named (List Target)
  /-- The leased buffers, each with the environment whose pool it came from. -/
  leases : Named (EnvironmentId × Buffer)
  /-- The sinks. -/
  sinks : Named Sink
  /-- The environments that the user holds as their maker. -/
  made : List EnvironmentId

namespace Session

variable {σ α : Type}

/-- A session on an engine with one environment, number zero. -/
def start (s : σ) (config : Config) (registry : Registry) : Session σ α :=
  let (e, world) := (World.ofEngine s).addEnvironment config registry
  ⟨world, [], [], [], [], [], [], [], [e]⟩

/-- The session with the world in another state. -/
def withWorld (s : Session σ α) (world : World σ α) : Session σ α := { s with world }

/-- The futures and promises of the session. -/
def book (s : Session σ α) : Book α := ⟨s.world.futures, s.promises, s.futures⟩

/-- The session with its futures and promises changed. -/
def withBook (s : Session σ α) (b : Book α) : Session σ α :=
  { s with
    world := { s.world with futures := b.store }, promises := b.promises, futures := b.futures }

/-- Puts a future under a name. -/
def keepFuture (s : Session σ α) (name : String) (made : FutureId × World σ α) : Session σ α :=
  { s with world := made.2, futures := s.futures.put name made.1 }

/-- Makes an environment. -/
def addEnvironment (s : Session σ α) (config : Config) (registry : Registry) : Session σ α :=
  let (e, world) := s.world.addEnvironment config registry
  { s with world, made := e :: s.made }

/-- Lets go of an environment as its maker. -/
def dropEnvironment (s : Session σ α) (e : EnvironmentId) : Session σ α :=
  if e ∈ s.made then { s with world := s.world.dropOwner e, made := s.made.filter (· != e) }
  else s

/-! ## Letting go -/

/-- Lets go of the target under a name. -/
def dropTarget (eng : Engine σ) (s : Session σ α) (name : String) : Session σ α :=
  match s.targets.find? name with
  | some t => { s with world := s.world.dropTarget eng t, targets := s.targets.drop name }
  | none => s

/-- Lets go of the handle under a name. -/
def dropHandle (eng : Engine σ) (s : Session σ α) (name : String) : Session σ α :=
  match s.handles.find? name with
  | some h => { s with world := s.world.dropHandle eng h, handles := s.handles.drop name }
  | none => s

/-- Lets go of the group under a name, member by member. -/
def dropGroup (eng : Engine σ) (s : Session σ α) (name : String) : Session σ α :=
  match s.groups.find? name with
  | some members =>
    { s with
      world := members.foldl (World.dropTarget eng) s.world, groups := s.groups.drop name }
  | none => s

/-- Gives the buffer under a name back. -/
def release (s : Session σ α) (name : String) : Session σ α :=
  match s.leases.find? name with
  | some (e, b) => { s with world := s.world.recycle e b, leases := s.leases.drop name }
  | none => s

/-- **Lets go of everything under a name**: the target, the handle, the group and the buffer. -/
def drop (eng : Engine σ) (s : Session σ α) (name : String) : Session σ α :=
  (((s.dropTarget eng name).dropHandle eng name).dropGroup eng name).release name

/-! ## Keeping -/

/-- Puts a target under a name. -/
def keepTarget (eng : Engine σ) (s : Session σ α) (name : String) (t : Target) : Session σ α :=
  let s := s.dropTarget eng name
  { s with targets := s.targets.put name t }

/-- Puts a handle under a name. -/
def keepHandle (eng : Engine σ) (s : Session σ α) (name : String) (h : Handle) : Session σ α :=
  let s := s.dropHandle eng name
  { s with handles := s.handles.put name h }

/-- **Puts a group under a name.** The group holds targets of its own. -/
def keepGroup (eng : Engine σ) (s : Session σ α) (name : String) (members : List Target) :
    Session σ α :=
  let world := members.foldl World.cloneTarget s.world
  let s := (s.withWorld world).dropGroup eng name
  { s with groups := s.groups.put name members }

/-- Puts a leased buffer under a name. -/
def keepLease (s : Session σ α) (name : String) (e : EnvironmentId) (b : Buffer) : Session σ α :=
  let s := s.release name
  { s with leases := s.leases.put name (e, b) }

/-- Takes a buffer from its lease for good. -/
def takeLease (s : Session σ α) (name : String) : Session σ α :=
  { s with leases := s.leases.drop name }

/-- Changes the buffer under a name. -/
def changeLease (s : Session σ α) (name : String) (e : EnvironmentId) (b : Buffer) :
    Session σ α :=
  { s with leases := s.leases.put name (e, b) }

end Session

end RemoteDispatch
