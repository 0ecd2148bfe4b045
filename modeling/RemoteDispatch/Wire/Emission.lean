import RemoteDispatch.Wire.Error
import RemoteDispatch.Wire.Primitive

/-!
# What a value writes

Writing a value means handing over runs of bytes, one after the other, and
possibly giving up with an error of the value's own. An `Emission` is exactly
that: the runs in order, and the error that ends them. It says nothing about
the buffer that receives the runs, which may refuse any of them.

The runs are kept apart because a refusal is decided run by run. A text, for
one, hands over its length and its bytes as two runs, and a buffer may take
the first and refuse the second.
-/

namespace RemoteDispatch

/-- **Runs of bytes in order, and the error that ends them**, if one does. -/
structure Emission where
  /-- The runs, first to last. -/
  runs : List Bytes
  /-- The error after the last run. -/
  stop : Option CodecError
  deriving DecidableEq

namespace Emission

/-- The emission of nothing. -/
def empty : Emission := ⟨[], none⟩

/-- The emission of one run. -/
def run (bytes : Bytes) : Emission := ⟨[bytes], none⟩

/-- The emission that gives up at once. -/
def fail (e : CodecError) : Emission := ⟨[], some e⟩

/-- One emission after another. Nothing follows one that gave up. -/
def andThen (first second : Emission) : Emission :=
  match first.stop with
  | some _ => first
  | none => ⟨first.runs ++ second.runs, second.stop⟩

/-- Emissions one after another. -/
def sequence : List Emission → Emission
  | [] => empty
  | e :: es => e.andThen (sequence es)

/-- The bytes of all runs together. -/
def bytes (e : Emission) : Bytes := e.runs.flatten

@[simp] theorem empty_andThen (e : Emission) : empty.andThen e = e := rfl

@[simp] theorem andThen_empty (e : Emission) : e.andThen empty = e := by
  obtain ⟨runs, stop⟩ := e
  cases stop <;> simp [andThen, empty]

theorem andThen_assoc (a b c : Emission) :
    (a.andThen b).andThen c = a.andThen (b.andThen c) := by
  obtain ⟨ra, sa⟩ := a
  obtain ⟨rb, sb⟩ := b
  cases sa <;> cases sb <;> simp [andThen]

/-! ## Words and lengths -/

/-- A byte as a run. -/
def byte (b : UInt8) : Emission := run [b]

/-- A signed word of 32 bits. -/
def int32 (v : Int32) : Emission := run (littleEndian 4 v.toUInt32.toNat)

/-- A signed word of 64 bits. -/
def int64 (v : Int64) : Emission := run (littleEndian 8 v.toUInt64.toNat)

/-- The largest length that can be written. -/
def maxLength : Nat := 0x7fffffff

/-- The length of a text or sequence. -/
def length (n : Nat) : Emission :=
  if n ≤ maxLength then int32 (Int32.ofNat n) else fail (.tooLarge n)

/-- The mark of an absent text or sequence, in the place of its length. -/
def noLength : Emission := int32 (-1)

/-- A text: the number of its bytes and the bytes. -/
def text (s : String) : Emission := (length (utf8 s).length).andThen (run (utf8 s))

/-- A text that may be absent. -/
def text? : Option String → Emission
  | some s => text s
  | none => noLength

/-- A sequence of the given items. -/
def seq (items : List Emission) : Emission := (length items.length).andThen (sequence items)

/-- A sequence that may be absent. -/
def seq? : Option (List Emission) → Emission
  | some items => seq items
  | none => noLength

/-- A sequence of `n` items that write nothing. -/
def units (n : Nat) : Emission := length n

end Emission

/-! ## Primitive values -/

/-- A primitive value without its tag. -/
def Scalar.emission : Scalar → Emission
  | int8 v => .byte v.toUInt8
  | int16 v => .run (littleEndian 2 v.toUInt16.toNat)
  | int32 v => .int32 v
  | int64 v => .int64 v
  | float32 bits => .run (littleEndian 4 bits.toNat)
  | float64 bits => .run (littleEndian 8 bits.toNat)
  | uint16 v => .run (littleEndian 2 v.toNat)
  | bool v => .byte (if v then 1 else 0)
  | text s => .text s
  | guid g => (Emission.int64 g.most).andThen (.int64 g.least)

end RemoteDispatch
