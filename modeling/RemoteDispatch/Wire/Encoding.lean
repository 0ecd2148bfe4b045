import RemoteDispatch.Wire.Registry
import RemoteDispatch.Wire.Writer

/-!
# Laying values out

`Registry.emit` says what a `Datum` writes under a registry. Parts without a
tag write their bytes. An object writes a frame first: the tag of a primitive,
or the composite tag and the id under which the registry knows the type. An
object whose type is not registered writes nothing and gives up.

Where the type is known from the value only, the registered type is looked up
by the identity of the value. The type that is found gives the frame, and its
encoder the payload; that encoder takes values of any type and refuses those
which are not of its own.
-/

namespace RemoteDispatch

namespace Registry

/-- The frame of an object of the type with an id. -/
def compositeFrame (id : Int32) : Emission := (Emission.byte compositeTag).andThen (.int32 id)

/-- The frame of an object whose type is known beforehand. A composite has to have an id. -/
def frame (r : Registry) : TypeRef → Emission
  | .primitive p => .byte p.tag
  | .composite k =>
    match r.require (.composite k) with
    | .ok id => compositeFrame id
    | .error e => .fail e

/-- What the encoder of a registered type writes for a value of some type that would write `payload`.
A value of another type is refused. -/
def encodeAs (d : Descriptor) (t : TypeRef) (payload : Emission) : Emission :=
  if t = d.type then payload
  else .fail (.typeMismatch d.name "a value of another type")

/-- **An object whose type is known from its value only**, with what its payload writes. A primitive
is written like one of a type known beforehand. A composite is looked up, and the type that is found
frames it and encodes it; nothing but its identity is known of one that is not found. -/
def dynamicObject (r : Registry) (payload : Emission) : TypeRef → Emission
  | .primitive p => (r.frame (.primitive p)).andThen payload
  | .composite k =>
    match r.byKey k with
    | some d => (compositeFrame d.id).andThen (encodeAs d (.composite k) payload)
    | none => .fail (.unregistered k.identityText)

/-- The absent object of a type, which has to be registered if it is a composite. -/
def absentFrame (r : Registry) (t : TypeRef) : Emission :=
  match r.check t with
  | .ok () => .byte nullTag
  | .error e => .fail e

/-- A byte, and an error if it is above the bound. -/
def boundedByte (bound b : UInt8) : Emission :=
  (Emission.byte b).andThen (if bound < b then .fail (.tooLarge b.toNat) else .empty)

/-- **What a value writes.** -/
def emit (r : Registry) : Datum → Emission
  | .nil => .empty
  | .cons head tail => (r.emit head).andThen (r.emit tail)
  | .byte b => .byte b
  | .scalar s => s.emission
  | .noText => .noLength
  | .seq cells => (Emission.length cells.cells).andThen (r.emit cells)
  | .noSeq => .noLength
  | .object t payload => (r.frame t).andThen (r.emit payload)
  | .absent t => r.absentFrame t
  | .dynamic t payload => r.dynamicObject (r.emit payload) t
  | .null => .byte nullTag
  | .bounded bound b => boundedByte bound b

/-- The payload of a value, laid out as the payload of a given registered type. A value of another
type is refused. -/
def emitPayload (r : Registry) (d : Descriptor) (t : TypeRef) (payload : Datum) : Emission :=
  encodeAs d t (r.emit payload)

end Registry

/-- **How the arguments of a call are written**, given the registry in force. -/
abbrev Encoder := Registry → Script (Except CodecError Unit)

namespace Encoder

/-- The encoder that writes nothing. -/
def none : Encoder := fun _ => .finish (.ok ())

/-- The encoder of one emission. -/
def ofEmission (e : Registry → Emission) : Encoder := fun r => .emit (e r)

/-- The encoder of a value. -/
def ofDatum (d : Datum) : Encoder := ofEmission fun r => r.emit d

/-- Writes into a buffer from its front and commits what was written, unless the encoder gave
up. -/
def into (encode : Encoder) (r : Registry) (b : Buffer) : Except CodecError Unit × Buffer :=
  match (encode r).run (.start b) with
  | (.error e, w) => (.error e, w.buffer)
  | (.ok (), w) =>
    match w.synchronize with
    | .ok b => (.ok (), b)
    | .error e => (.error e, w.buffer)

end Encoder

end RemoteDispatch
