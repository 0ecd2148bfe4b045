import RemoteDispatch.Call.Failure
import RemoteDispatch.Call.Tables

/-!
# Engines

An engine is the far side as a call sees it: it takes the bytes of the
arguments and an output buffer, and gives back a status byte and whatever it
has left in the buffer. It knows nothing of types, commands or futures.

An `Engine` is a record of such transitions over a state of its own. The laws
it should keep are left to statements about it; nothing here trusts it to
respect the limit of a buffer or to answer with a known status.
-/

namespace RemoteDispatch

/-- Where an engine reports replies to: an environment, by number. -/
structure Sink where
  /-- The number of the environment. -/
  environment : Nat
  deriving DecidableEq

/-- A reply on its way to the call that waits for it. -/
structure Delivery where
  /-- Where the reply goes. -/
  sink : Sink
  /-- The call it answers. -/
  call : CallId
  /-- The reply. -/
  reply : Reply
  deriving DecidableEq

/-- **The far side**, as transitions over its state. -/
structure Engine (σ : Type) where
  /-- Runs an operation on an object and waits for the status. -/
  call : RawHandle → Int32 → Bytes → Buffer → σ → Except TransportError UInt8 × Buffer × σ
  /-- Runs an operation with one number as its argument and one as its result. The buffer is for a
  failure record. -/
  callScalar : RawHandle → Int32 → Int64 → Buffer → σ →
    Except TransportError (UInt8 × Int64) × Buffer × σ
  /-- Accepts an operation whose reply goes to a sink. The replies that are ready come back at
  once. -/
  submit : RawHandle → Int32 → Sink → CallId → Bytes → σ →
    Except TransportError (List Delivery) × σ
  /-- Makes an object of a named kind. On success the buffer holds its raw handle. -/
  create : String → Bytes → Buffer → σ → Except TransportError UInt8 × Buffer × σ
  /-- Disposes of an object. -/
  dispose : RawHandle → σ → σ

end RemoteDispatch
