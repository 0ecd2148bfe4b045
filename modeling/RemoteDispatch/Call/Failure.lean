import RemoteDispatch.Call.Error
import RemoteDispatch.Wire.Decoding
import RemoteDispatch.Wire.Encoding

/-!
# Replies

A reply is a status byte and a buffer. Status zero means that the buffer holds
the result. Status one and two mean that it holds a `Failure` record instead:
a code, a message and the class of the failure, which may be absent. Every
other byte is no status.

`checkStatus` is the one translation of a status into an error. All ways of
calling share it, and none looks at the result before it has passed.
-/

namespace RemoteDispatch

/-- What the first byte of a reply says. -/
inductive Status where
  /-- The operation succeeded. -/
  | ok
  /-- The operation ran and failed. -/
  | failed
  /-- There is no live object to run it on. -/
  | invalidTarget
  deriving DecidableEq

namespace Status

/-- The byte of a status. -/
def toByte : Status → UInt8
  | ok => 0
  | failed => 1
  | invalidTarget => 2

/-- The status of a byte, if it is one. -/
def ofByte? (b : UInt8) : Option Status := [ok, failed, invalidTarget].find? (·.toByte == b)

@[simp] theorem ofByte?_toByte (s : Status) : ofByte? s.toByte = some s := by cases s <;> rfl

end Status

/-! ## Failure records -/

/-- **What an engine reports in the place of a result.** -/
structure Failure where
  /-- A number for the failure. -/
  code : Int32
  /-- What happened, in words. -/
  message : String
  /-- The name of the failure's class. -/
  remoteKind : Option String
  deriving DecidableEq

namespace Failure

/-- The failure that stands for a codec error on the far side. -/
def ofCodec (e : CodecError) : Failure := ⟨ErrorCode.binary, e.message, some "BinaryObjectError"⟩

/-- A failure record: the code, the message and the class. -/
def emission (f : Failure) : Emission :=
  .sequence [.int32 f.code, .text f.message, .text? f.remoteKind]

/-- Reads a failure record. An absent message is taken for the empty one. -/
def read : Reader Failure := do
  let code ← Reader.int32
  let message ← Reader.text?
  let remoteKind ← Reader.text?
  return ⟨code, message.getD "", remoteKind⟩

/-- **Replaces what a buffer shows by a failure record.** If the record does not fit, the buffer
shows nothing. -/
def encodeInto (f : Failure) (r : Registry) (b : Buffer) : Except CodecError Unit × Buffer :=
  Encoder.into (.ofEmission fun _ => f.emission) r b.reset

/-- What a caller is told of a failure record. -/
def toError (f : Failure) (kind : ErrorKind) : CallError :=
  ⟨kind, f.code, f.message, f.remoteKind⟩

end Failure

/-! ## Translating a reply -/

/-- A status byte and the buffer it speaks of. -/
structure Reply where
  /-- The status byte as it arrived. -/
  status : UInt8
  /-- The result or the failure record. -/
  output : Buffer
  deriving DecidableEq

/-- The error of a kind that the failure record in a message describes. -/
def failureIn (kind : ErrorKind) (message : Bytes) : CallError :=
  match Failure.read.eval message with
  | .ok failure => failure.toError kind
  | .error e => .encoding s!"malformed failure record: {e.message}"

/-- **The error that a reply stands for**, if it stands for one. -/
def checkStatus (status : UInt8) (output : Buffer) : Except CallError Unit :=
  match Status.ofByte? status with
  | some .ok => .ok ()
  | some .failed => .error (failureIn .remote output.committed)
  | some .invalidTarget => .error (failureIn .invalidState output.committed)
  | none => .error (.encoding s!"unknown reply status 0x{hexText 2 status.toNat}")

/-- Reads a result, with a codec error turned into what the caller is told. -/
def decodeOutput {α : Type} (r : Registry) (decode : Decoder α) (output : Buffer) :
    Except CallError α :=
  ((decode r).eval output.committed).mapError .ofCodec

/-- The result that a reply carries, or the error that it stands for. -/
def Reply.decode {α : Type} (reply : Reply) (r : Registry) (decode : Decoder α) :
    Except CallError α := do
  checkStatus reply.status reply.output
  decodeOutput r decode reply.output

end RemoteDispatch
