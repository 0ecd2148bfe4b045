import RemoteDispatch.Call.Dispatch
import RemoteDispatch.Engine.Handler
import RemoteDispatch.Sample.Types

/-!
# Sample commands and handlers

Three commands on the sample types. They differ in how they lay out lists: one
result has a leading byte before its count and one has none, and one list of
arguments consists of tagged objects.

Sample objects answer these commands, send the arguments back, or say which
thread they run on.
-/

namespace RemoteDispatch

namespace Sample

/-! ## Commands -/

/-- A wide text object. -/
def textObject : TypeRef := .primitive .text

/-- Calls a function: the arguments go as one object, a text object comes back. -/
def callFunction : Command Datum Datum where
  opcode := 1
  encode payload := .ofDatum (.object (.composite function.key) payload)
  decode r := r.read (.object textObject)

/-- Asks a node for its partitions: a byte comes back, and then a sequence. -/
def primaryPartitions : Command Guid (List Int32) where
  opcode := 2
  encode node := .ofEmission fun _ => (Scalar.guid node).emission
  decode _ := do
    let _ ← Reader.scalar .int8
    Reader.seq Reader.int32

/-- A number object. -/
def numberDatum (n : Int32) : Datum := .object (.primitive .int32) (.scalar (.int32 n))

/-- Asks for the owners of partitions: a sequence of number objects goes out, and partitions with
their nodes come back. -/
def partitionOwners : Command (List Int32) (List (Int32 × Guid)) where
  opcode := 3
  encode partitions := .ofEmission fun r => .seq (partitions.map fun n => r.emit (numberDatum n))
  decode _ := Reader.seq do
    let partition ← Reader.int32
    let node ← Reader.guid
    return (partition, node)

/-! ## Handlers -/

/-- The one node that sample objects know. -/
def knownNode : Guid := ⟨0x1122, 0x3344⟩

/-- Copies what is left of the arguments, byte by byte. -/
def echo : Step :=
  .reading (fun _ => Reader.take =<< Reader.remaining) fun bytes =>
    .write fun _ => .sequence (bytes.map Emission.byte)

/-- The text that a function's numbers make. -/
def functionText (a b : Int32) : String := s!"{a}.{b}"

/-- Answers a function: with the failure it asks for, or with its numbers. -/
def answerFunction : Step :=
  .reading (fun r => r.read (.object (.composite function.key))) fun
    | .object _ (.cons _ (.cons _ (.cons _ (.cons _ (.cons (.scalar (.int32 code))
        (.scalar (.text message))))))) =>
      .stop (.failed ⟨code, message, some "TestError"⟩)
    | .object _ (.cons (.scalar (.int32 a)) (.cons (.scalar (.int32 b)) _)) =>
      .write fun r => r.emit (.object textObject (.scalar (.text (functionText a b))))
    | _ => .skip

/-- Answers for the partitions of the known node. -/
def answerPrimary : Step :=
  .reading (fun _ => Reader.guid) fun node =>
    if node = knownNode then
      .write fun _ => (Scalar.emission (.int8 1)).andThen (.seq ([3, 5, 7].map Emission.int32))
    else .stop (.failed ⟨ErrorCode.generic, s!"unknown node {node.text}", none⟩)

/-- Answers that the known node owns every partition. -/
def answerOwners : Step :=
  .reading (fun r => Reader.seq (r.read (.object (.primitive .int32)))) fun partitions =>
    .write fun _ => .seq (partitions.filterMap fun
      | .object _ (.scalar (.int32 n)) =>
        some ((Emission.int32 n).andThen (Scalar.guid knownNode).emission)
      | _ => none)

/-- Says which thread the handler runs on. -/
def answerThread : Step :=
  .onThread fun onEngine => .write fun _ => .text (if onEngine then "engine" else "caller")

end Sample

end RemoteDispatch
