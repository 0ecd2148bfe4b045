import RemoteDispatch.Wire.Buffer
import RemoteDispatch.Wire.Emission

/-!
# Writing into a buffer

A `Writer` is one pass over a buffer. It starts at the front, only moves on,
and what it has written becomes visible when it commits. Runs are taken one at
a time; a run the buffer refuses leaves the writer where it was, and the rest
of the emission is skipped.

What a caller does with a writer is a `Script`: it writes, learns how that
went and where the writer stands, and decides what to do next. A script cannot
touch the buffer otherwise.
-/

namespace RemoteDispatch

/-- One pass of writing over a buffer. -/
structure Writer where
  /-- The buffer written into. -/
  buffer : Buffer
  /-- How many bytes have been written. -/
  position : Nat
  deriving DecidableEq

namespace Writer

/-- A writer at the front of a buffer. -/
def start (b : Buffer) : Writer := ⟨b, 0⟩

/-- **Writes one run.** A run that the buffer refuses changes nothing. -/
def put (w : Writer) (run : Bytes) : Except CodecError Unit × Writer :=
  match w.buffer.room w.position run.length with
  | .ok capacity =>
    (.ok (), ⟨w.buffer.fill capacity w.position run, w.position + run.length⟩)
  | .error e => (.error e, w)

/-- Writes runs up to the first that is refused. -/
def putAll (w : Writer) : List Bytes → Except CodecError Unit × Writer
  | [] => (.ok (), w)
  | run :: runs =>
    match w.put run with
    | (.ok (), w) => w.putAll runs
    | refused => refused

/-- **Carries out an emission**: its runs, and then the error that ends them if none was
refused. -/
def perform (w : Writer) (e : Emission) : Except CodecError Unit × Writer :=
  match w.putAll e.runs, e.stop with
  | (.ok (), w), some stop => (.error stop, w)
  | answer, _ => answer

/-- The buffer with everything written so far committed. -/
def synchronize (w : Writer) : Except CodecError Buffer := w.buffer.synchronize w.position

end Writer

/-- **What a caller does with a writer.** -/
inductive Script (α : Type) where
  /-- Stops with a result. -/
  | finish (result : α)
  /-- Writes, and goes on as the outcome and the new position suggest. -/
  | write (e : Emission) (next : Except CodecError Unit → Nat → Script α)

namespace Script

variable {α β : Type}

/-- Runs a script on a writer. -/
def run : Script α → Writer → α × Writer
  | finish result, w => (result, w)
  | write e next, w =>
    let (outcome, w) := w.perform e
    (next outcome w.position).run w

/-- A script followed by another that depends on its result. -/
def bind : Script α → (α → Script β) → Script β
  | finish result, f => f result
  | write e next, f => write e fun outcome position => (next outcome position).bind f

instance : Monad Script where
  pure := finish
  bind := bind

/-- The script that writes once and reports how that went. -/
def emit (e : Emission) : Script (Except CodecError Unit) := write e fun outcome _ => finish outcome

/-- The result of a script that follows another is that of running the one and then the other. -/
theorem run_bind (s : Script α) (f : α → Script β) (w : Writer) :
    (s.bind f).run w = (f (s.run w).1).run (s.run w).2 := by
  induction s generalizing w with
  | finish result => rfl
  | write e next ih => exact ih _ _ _

end Script

end RemoteDispatch
