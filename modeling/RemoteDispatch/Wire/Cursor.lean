import RemoteDispatch.Wire.Error
import RemoteDispatch.Wire.Primitive

/-!
# Reading from the front

A `Cursor` is a place in a message: how many bytes lie behind it and which lie
ahead. A reader is a step from one place to another that yields a value or
fails. A failed reader still leaves the cursor somewhere, and reading may go
on from there, so the place is kept beside the outcome.

The readers of this module take what needs no registry: words, lengths, text
and counted sequences. Each takes all the bytes it needs or fails.
-/

namespace RemoteDispatch

/-- A place in a message. -/
structure Cursor where
  /-- The number of bytes read. -/
  position : Nat
  /-- The bytes still to read. -/
  rest : Bytes
  deriving DecidableEq

/-- The place before the first byte of a message. -/
def Cursor.start (message : Bytes) : Cursor := ⟨0, message⟩

/-- **A step through a message** that yields a value or fails, and ends somewhere either way. -/
abbrev Reader := ExceptT CodecError (StateM Cursor)

namespace Reader

variable {α β : Type}

/-- Runs a reader from a place. -/
def runFrom (read : Reader α) (c : Cursor) : Except CodecError α × Cursor := read.run.run c

/-- The outcome of a reader on a whole message. -/
def eval (read : Reader α) (message : Bytes) : Except CodecError α :=
  (read.runFrom (.start message)).1

@[simp] theorem runFrom_pure (a : α) (c : Cursor) :
    (pure a : Reader α).runFrom c = (.ok a, c) := rfl

@[simp] theorem runFrom_throw (e : CodecError) (c : Cursor) :
    (throw e : Reader α).runFrom c = (.error e, c) := rfl

@[simp] theorem runFrom_get (c : Cursor) : (get : Reader Cursor).runFrom c = (.ok c, c) := rfl

@[simp] theorem runFrom_set (c c' : Cursor) : (set c' : Reader Unit).runFrom c = (.ok (), c') := rfl

/-- **A failure ends a sequence of steps** where it happens. -/
theorem runFrom_bind (read : Reader α) (next : α → Reader β) (c : Cursor) :
    (read >>= next).runFrom c =
      match read.runFrom c with
      | (.ok a, c) => (next a).runFrom c
      | (.error e, c) => (.error e, c) := by
  simp only [runFrom, ExceptT.run_bind, StateT.run_bind]
  rcases read.run.run c with ⟨e | a, c⟩ <;> rfl

@[simp] theorem runFrom_map (f : α → β) (read : Reader α) (c : Cursor) :
    (f <$> read).runFrom c = ((read.runFrom c).1.map f, (read.runFrom c).2) := by
  rw [← bind_pure_comp, runFrom_bind]
  rcases read.runFrom c with ⟨e | a, c⟩ <;> rfl

/-- A reader that does not move, whatever the one it runs does. -/
def fork (read : Reader α) : Reader (Except CodecError α × Cursor) := do
  return read.runFrom (← get)

/-- The number of bytes still to read. -/
def remaining : Reader Nat := do
  return (← get).rest.length

/-! ## Words -/

/-- Takes `n` bytes. -/
def take (n : Nat) : Reader Bytes := do
  let c ← get
  match splitExact? n c.rest with
  | some (front, rest) =>
    set (Cursor.mk (c.position + n) rest)
    return front
  | none => throw .unexpectedEnd

/-- **Bytes are taken whole or not at all.** -/
theorem runFrom_take (n : Nat) (c : Cursor) :
    (take n).runFrom c =
      match splitExact? n c.rest with
      | some (front, rest) => (.ok front, ⟨c.position + n, rest⟩)
      | none => (.error .unexpectedEnd, c) := by
  simp only [take, runFrom_bind, runFrom_get]
  cases splitExact? n c.rest <;> rfl

/-- The next byte, which stays unread. -/
def peek : Reader UInt8 := do
  match (← get).rest with
  | b :: _ => return b
  | [] => throw .unexpectedEnd

/-- Takes a little-endian word of `n` bytes. -/
def word (n : Nat) : Reader Nat := ofLittleEndian <$> take n

/-- Takes a byte. -/
def byte : Reader UInt8 := UInt8.ofNat <$> word 1

/-- Takes a signed word of 32 bits. -/
def int32 : Reader Int32 := (fun v => (UInt32.ofNat v).toInt32) <$> word 4

/-- Takes a signed word of 64 bits. -/
def int64 : Reader Int64 := (fun v => (UInt64.ofNat v).toInt64) <$> word 8

/-! ## Lengths, text and sequences -/

/-- Takes a length, which is absent if it is minus one. -/
def length? : Reader (Option Nat) := do
  let n ← int32
  if n = -1 then return none
  else if n < 0 then throw (.invalidLength n)
  else return some n.toUInt32.toNat

/-- Takes a text that may be absent. -/
def text? : Reader (Option String) := do
  match ← length? with
  | none => return none
  | some n =>
    match ofUtf8? (← take n) with
    | some s => return some s
    | none => throw .invalidUtf8

/-- Takes a text that has to be there. -/
def text : Reader String := do
  match ← text? with
  | some s => return s
  | none => throw (.unexpectedNull "string")

/-- Takes two signed words of 64 bits. -/
def guid : Reader Guid := do
  let most ← int64
  let least ← int64
  return ⟨most, least⟩

/-- Takes an item `n` times. -/
def times (item : Reader α) : Nat → Reader (List α)
  | 0 => return []
  | n + 1 => do
    let first ← item
    let others ← times item n
    return first :: others

/-- Takes a sequence that may be absent. -/
def seq? (item : Reader α) : Reader (Option (List α)) := do
  match ← length? with
  | none => return none
  | some n => some <$> times item n

/-- Takes a sequence that has to be there. -/
def seq (item : Reader α) : Reader (List α) := do
  match ← seq? item with
  | some items => return items
  | none => throw (.unexpectedNull "sequence")

/-- Takes a sequence of items that take nothing and yields their number. -/
def units : Reader Nat := do
  match ← length? with
  | some n => return n
  | none => throw (.unexpectedNull "sequence")

/-- Takes a primitive value without its tag. -/
def scalar : Primitive → Reader Scalar
  | .int8 => (fun v => .int8 (UInt8.ofNat v).toInt8) <$> word 1
  | .int16 => (fun v => .int16 (UInt16.ofNat v).toInt16) <$> word 2
  | .int32 => .int32 <$> int32
  | .int64 => .int64 <$> int64
  | .float32 => (fun v => .float32 (UInt32.ofNat v)) <$> word 4
  | .float64 => (fun v => .float64 (UInt64.ofNat v)) <$> word 8
  | .uint16 => (fun v => .uint16 (UInt16.ofNat v)) <$> word 2
  | .bool => (fun b => .bool (b != 0)) <$> byte
  | .text => .text <$> text
  | .guid => .guid <$> guid

end Reader

end RemoteDispatch
