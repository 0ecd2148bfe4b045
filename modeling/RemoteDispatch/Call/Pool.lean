import RemoteDispatch.Wire.Buffer

/-!
# The buffer pool

A call needs a buffer or two for a moment. A `Pool` keeps the buffers that
earlier calls gave back, and hands the one given back last to the next call
that asks. It makes a new buffer only when it has none, and keeps one only if
it is not too large and there is room. The four numbers of a `Config` govern
all this; they are sizes, and the limit alone may be missing. Then a buffer may
grow as far as it can.

A pool that has been closed keeps nothing. Buffers that were handed out before
stay with their holders, and giving one back has no effect.
-/

namespace RemoteDispatch

/-- The sizes that govern call buffers. -/
structure Config where
  /-- The capacity of a buffer made for a call. -/
  initialCapacity : Nat
  /-- The capacity that no call buffer may pass, if there is one. -/
  bufferLimit : Option Nat
  /-- How many idle buffers are kept. -/
  poolSize : Nat
  /-- The capacity above which a buffer is not kept. -/
  retainCapacity : Nat
  deriving DecidableEq

/-- The sizes in force unless others are chosen. -/
def Config.standard : Config where
  initialCapacity := Buffer.defaultCapacity
  bufferLimit := none
  poolSize := 16
  retainCapacity := 64 * 1024

/-- Idle buffers, and the rules for making and keeping them. -/
structure Pool where
  /-- The sizes the pool goes by. -/
  config : Config
  /-- The idle buffers, the one given back last at the front. -/
  idle : List Buffer
  /-- The pool has not been closed. -/
  isOpen : Bool
  deriving DecidableEq

namespace Pool

/-- An open pool with no idle buffer. -/
def ofConfig (config : Config) : Pool := ⟨config, [], true⟩

/-- A buffer made anew. With a limit in force it starts no larger than that. -/
def make (config : Config) : Except CodecError Buffer :=
  match config.bufferLimit with
  | some limit => Buffer.withLimit (min config.initialCapacity limit) limit
  | none => Buffer.acquire config.initialCapacity

/-- **Hands out a buffer**: the idle one given back last, or a new one. -/
def acquire (p : Pool) : Except CodecError Buffer × Pool :=
  match p.idle with
  | b :: idle => (.ok b, { p with idle })
  | [] => (make p.config, p)

/-- A buffer that the pool would keep. -/
def keeps (p : Pool) (b : Buffer) : Bool :=
  p.isOpen && b.capacity ≤ p.config.retainCapacity && p.idle.length < p.config.poolSize

/-- **Takes a buffer back.** One that is kept shows nothing any more. -/
def recycle (p : Pool) (b : Buffer) : Pool :=
  if p.keeps b then { p with idle := b.reset :: p.idle } else p

/-- Closes the pool and frees the idle buffers. -/
def close (p : Pool) : Pool := { p with idle := [], isOpen := false }

/-! ## The sizes stay -/

@[simp] theorem config_acquire (p : Pool) : p.acquire.2.config = p.config := by
  unfold acquire
  cases p.idle with
  | nil => rfl
  | cons b idle => rfl

@[simp] theorem config_recycle (p : Pool) (b : Buffer) : (p.recycle b).config = p.config := by
  unfold recycle
  split
  · rfl
  · rfl

end Pool

end RemoteDispatch
