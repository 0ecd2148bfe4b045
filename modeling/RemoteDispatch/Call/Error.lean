import RemoteDispatch.Wire.Error

/-!
# What a caller is told

Whatever goes wrong with a call, its caller sees one kind of error. It says
which side failed, carries a code and a message, and, if the far side ran the
operation and gave the failure a class of its own, the name of that class.

Two conversions lead here: from the codec, whose refusals to grow a buffer
stay apart from all its other errors, and from the transport, whose errors all
mean that no live object was reached.
-/

namespace RemoteDispatch

/-- Why a call never reached a live engine. -/
inductive TransportError where
  /-- The engine is gone or the link to it is. -/
  | connectionLost (message : String)
  /-- The engine refused the call. -/
  | rejected (message : String)
  /-- The engine could not start. -/
  | io (message : String)
  deriving DecidableEq

/-- The wording of a transport error. -/
def TransportError.text : TransportError → String
  | connectionLost message => s!"Connection lost: {message}"
  | rejected message => s!"Call rejected: {message}"
  | io message => s!"I/O error: {message}"

/-- Which side a call failed on, and how. -/
inductive ErrorKind where
  /-- A value could not be written or read on this side. -/
  | encoding
  /-- A buffer could not grow. -/
  | outOfMemory
  /-- The call did not reach a live object. -/
  | invalidState
  /-- The far side ran the operation and reported a failure. -/
  | remote
  deriving DecidableEq

/-- The words for a kind of error. -/
def ErrorKind.text : ErrorKind → String
  | encoding => "encoding"
  | outOfMemory => "out of memory"
  | invalidState => "invalid state"
  | remote => "remote"

namespace ErrorCode

/-- A failure with no code of its own. -/
def generic : Int32 := 1

/-- A buffer could not grow. -/
def memory : Int32 := 1001

/-- Malformed bytes or a type that is not registered. -/
def binary : Int32 := 1002

/-- The object, the link or the answer is gone. -/
def invalidState : Int32 := 1003

end ErrorCode

/-- **What a caller is told of a failed call.** -/
structure CallError where
  /-- Which side failed, and how. -/
  kind : ErrorKind
  /-- A number for the failure. -/
  code : Int32
  /-- What happened, in words. -/
  message : String
  /-- The far side's name for the class of the failure. -/
  remoteKind : Option String
  deriving DecidableEq

namespace CallError

/-- An error without a class of the far side. -/
def plain (kind : ErrorKind) (code : Int32) (message : String) : CallError :=
  ⟨kind, code, message, none⟩

/-- A value could not be written or read. -/
def encoding (message : String) : CallError := plain .encoding ErrorCode.binary message

/-- No live object was reached. -/
def invalidState (message : String) : CallError :=
  plain .invalidState ErrorCode.invalidState message

/-- What a caller is told of a codec error. -/
def ofCodec (e : CodecError) : CallError :=
  if e.isOutOfMemory then plain .outOfMemory ErrorCode.memory e.message else encoding e.message

/-- What a caller is told of a transport error. -/
def ofTransport (e : TransportError) : CallError := invalidState e.text

/-- What becomes of a call whose answer can no longer arrive. -/
def abandoned : CallError := invalidState "completion abandoned before the call finished"

/-- The error as one line of text. -/
def text (e : CallError) : String :=
  let line := s!"{e.kind.text} error {e.code}: {e.message}"
  match e.remoteKind with
  | some kind => s!"{line} ({kind})"
  | none => line

/-- The far side reported the failure. -/
def isRemote (e : CallError) : Bool := e.kind == .remote

/-- The call did not reach a live object. -/
def isInvalidState (e : CallError) : Bool := e.kind == .invalidState

end CallError

end RemoteDispatch
