import RemoteDispatch.Call.Engine

/-!
# An engine that answers from a list

The scripted engine has no objects and runs nothing. It answers each call with
the next reply of a list given beforehand, and keeps answering with the last
one when the list has run down to it. It can refuse a call, answer with a
status and bytes of any kind, or hold an asynchronous call back to be answered
later.

Its output buffers are made of the reply's bytes alone: whatever buffer the
caller supplied, limit included, is replaced.
-/

namespace RemoteDispatch

/-- What the scripted engine does with a call. -/
structure ScriptedReply where
  /-- The status byte. -/
  status : UInt8
  /-- The bytes of the output buffer. -/
  payload : Bytes
  /-- The result of a call with a number. Without one the argument comes back twofold. -/
  scalar : Option Int64
  /-- An asynchronous call is held back. -/
  hold : Bool
  /-- The call is refused. -/
  reject : Option TransportError
  deriving DecidableEq

/-- The reply that stands in where there is none: success without a result. -/
def ScriptedReply.blank : ScriptedReply := ⟨0, [], none, false, none⟩

/-- A call as the scripted engine saw it. -/
inductive SeenCall where
  | call (target : RawHandle) (op : Int32) (input : Bytes)
  | scalar (target : RawHandle) (op : Int32) (value : Int64)
  | submitted (target : RawHandle) (op : Int32) (id : CallId) (input : Bytes)
  | create (kind : String) (input : Bytes)
  deriving DecidableEq

/-- **The state of a scripted engine.** -/
structure Scripted where
  /-- The replies still to give. -/
  replies : List ScriptedReply
  /-- How many calls were accepted. -/
  calls : Nat
  /-- The objects disposed of, in order. -/
  disposed : List RawHandle
  /-- The calls held back, in order. -/
  held : List (Sink × CallId)
  /-- The calls seen, refused ones included, in order. -/
  seen : List SeenCall
  deriving DecidableEq

namespace Scripted

/-- A scripted engine with nothing to say. -/
def start : Scripted := ⟨[], 0, [], [], []⟩

/-- The next reply, and the replies after it. The last reply stays. -/
def nextReply : List ScriptedReply → ScriptedReply × List ScriptedReply
  | [] => (.blank, [])
  | [last] => (last, [last])
  | reply :: replies => (reply, replies)

/-- Takes note of a call, and accepts or refuses it. -/
def enter (s : Scripted) (call : SeenCall) : Except TransportError ScriptedReply × Scripted :=
  let (reply, replies) := nextReply s.replies
  let s := { s with replies, seen := s.seen ++ [call] }
  match reply.reject with
  | some e => (.error e, s)
  | none => (.ok reply, { s with calls := s.calls + 1 })

/-- Answers a call that is waited for. `answer` picks what comes back beside the buffer. -/
def answer {α : Type} (s : Scripted) (call : SeenCall) (output : Buffer)
    (pick : ScriptedReply → α) : Except TransportError α × Buffer × Scripted :=
  match s.enter call with
  | (.error e, s) => (.error e, output, s)
  | (.ok reply, s) => (.ok (pick reply), .ofBytes reply.payload, s)

/-- Accepts a call, and answers it at once unless the reply says to hold it back. -/
def submit (s : Scripted) (call : SeenCall) (sink : Sink) (id : CallId) :
    Except TransportError (List Delivery) × Scripted :=
  match s.enter call with
  | (.error e, s) => (.error e, s)
  | (.ok reply, s) =>
    if reply.hold then (.ok [], { s with held := s.held ++ [(sink, id)] })
    else (.ok [⟨sink, id, ⟨reply.status, .ofBytes reply.payload⟩⟩], s)

/-- **The scripted engine.** -/
def engine : Engine Scripted where
  call target op input output s := s.answer (.call target op input) output (·.status)
  callScalar target op value output s :=
    s.answer (.scalar target op value) output fun reply =>
      (reply.status, reply.scalar.getD (value * 2))
  submit target op sink id input s := s.submit (.submitted target op id input) sink id
  create kind input output s := s.answer (.create kind input) output (·.status)
  dispose target s := { s with disposed := s.disposed ++ [target] }

end Scripted

end RemoteDispatch
