import RemoteDispatch.Wire.Bytes

/-!
# Codec errors

The ways in which laying out a value, reading one back or registering a type
can fail. An error is its cause; `CodecError.message` holds the wording.
-/

namespace RemoteDispatch

/-- Why a value could not be written or read, or a type not registered. -/
inductive CodecError where
  /-- A buffer cannot grow to the capacity asked for. -/
  | outOfMemory (requested : Nat)
  /-- More bytes were to be committed than the buffer holds. -/
  | lengthExceedsCapacity (length capacity : Nat)
  /-- The message ends before the value does. -/
  | unexpectedEnd
  /-- The tag does not announce the type asked for, or announces none. -/
  | invalidTag (tag : UInt8)
  /-- The bytes of a text are not well-formed UTF-8. -/
  | invalidUtf8
  /-- A length is negative and not the mark of absence. -/
  | invalidLength (length : Int32)
  /-- A text or sequence is too long for its length to be written. -/
  | tooLarge (length : Nat)
  /-- A value is absent where one is required. -/
  | unexpectedNull (name : String)
  /-- A composite type is not registered. -/
  | unregistered (name : String)
  /-- The message names a type id that no registered type has. -/
  | unknownTypeId (id : Int32)
  /-- The value belongs to another type than the one asked for. -/
  | typeMismatch (expected found : String)
  /-- The type, its name or its id is registered already. -/
  | duplicateType (name : String)
  /-- A primitive was to be registered. -/
  | primitive (name : String)
  deriving DecidableEq

namespace CodecError

/-- The wording of an error. -/
def message : CodecError → String
  | outOfMemory requested => s!"out of memory: cannot grow buffer to {requested} bytes"
  | lengthExceedsCapacity length capacity => s!"length {length} exceeds buffer capacity {capacity}"
  | unexpectedEnd => "UnexpectedEnd"
  | invalidTag tag => s!"invalid object tag: 0x{hexText 2 tag.toNat}"
  | invalidUtf8 => "InvalidUtf8"
  | invalidLength length => s!"invalid length prefix: {length}"
  | tooLarge length => s!"{length} elements do not fit an i32 length prefix"
  | unexpectedNull name => s!"unexpected null where {name} was required"
  | unregistered name => s!"type '{name}' is not registered"
  | unknownTypeId id => s!"unknown type id: {id}"
  | typeMismatch expected found => s!"type mismatch: expected {expected}, found {found}"
  | duplicateType name => s!"type '{name}' is already registered"
  | primitive name => s!"primitive '{name}' cannot be registered"

/-- The error is a refusal to grow a buffer. -/
def isOutOfMemory : CodecError → Bool
  | outOfMemory _ => true
  | _ => false

end CodecError

end RemoteDispatch
