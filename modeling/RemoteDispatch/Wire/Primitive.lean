import RemoteDispatch.Wire.Bytes

/-!
# Primitives

Ten types need no registration. Each has a name and a tag of its own, the byte
that announces its values on the wire. Two more tags are reserved: one for the
absent object and one for a registered composite.

Floating-point numbers are carried as their bits, so that no value is altered
on its way, not-a-number payloads included. A `Guid` is a pair of signed 64-bit
words. It is written as its 32 hexadecimal digits in groups of 8, 4, 4, 4 and
12, the digits of the two words taken as unsigned and in order.
-/

namespace RemoteDispatch

/-! ## Identifiers of 128 bits -/

/-- An identifier of 128 bits, held as two words. -/
structure Guid where
  /-- The more significant word. -/
  most : Int64
  /-- The less significant word. -/
  least : Int64
  deriving DecidableEq

namespace Guid

/-- The identifier whose words are zero. -/
def zero : Guid := ⟨0, 0⟩

/-- The order of identifiers: the more significant words first, both words signed. -/
def le (a b : Guid) : Bool := a.most < b.most || (a.most == b.most && a.least ≤ b.least)

/-- The 36 characters that write an identifier. -/
def chars (g : Guid) : List Char :=
  let most := g.most.toUInt64.toNat
  let least := g.least.toUInt64.toNat
  hexDigits 8 (most / 0x100000000) ++ '-' :: hexDigits 4 (most / 0x10000) ++
    '-' :: hexDigits 4 most ++ '-' :: hexDigits 4 (least / 0x1000000000000) ++
    '-' :: hexDigits 12 least

/-- **The text of an identifier**: lower-case digits in groups of 8, 4, 4, 4 and 12. -/
def text (g : Guid) : String := String.ofList g.chars

/-- The identifier with its words spelt out in decimal. -/
def description (g : Guid) : String := s!"Guid \x7b most: {g.most}, least: {g.least} \x7d"

theorem length_chars (g : Guid) : g.chars.length = 36 := by simp [chars]

end Guid

/-! ## The ten types -/

/-- The ten types that every side knows. -/
inductive Primitive where
  | int8 | int16 | int32 | int64 | float32 | float64 | uint16 | bool | text | guid
  deriving DecidableEq, Hashable

namespace Primitive

/-- Every primitive, in the order of the tags. -/
def all : List Primitive :=
  [int8, int16, int32, int64, float32, float64, uint16, bool, text, guid]

/-- The name a primitive goes by in messages. -/
def name : Primitive → String
  | int8 => "i8"
  | int16 => "i16"
  | int32 => "i32"
  | int64 => "i64"
  | float32 => "f32"
  | float64 => "f64"
  | uint16 => "u16"
  | bool => "bool"
  | text => "string"
  | guid => "guid"

/-- The byte that announces a value of the primitive. -/
def tag : Primitive → UInt8
  | int8 => 1
  | int16 => 2
  | int32 => 3
  | int64 => 4
  | float32 => 5
  | float64 => 6
  | uint16 => 7
  | bool => 8
  | text => 9
  | guid => 10

/-- The primitive that a tag announces. -/
def ofTag? (t : UInt8) : Option Primitive := all.find? (·.tag == t)

@[simp] theorem ofTag?_tag (p : Primitive) : ofTag? p.tag = some p := by cases p <;> rfl

theorem tag_injective {p q : Primitive} (h : p.tag = q.tag) : p = q := by
  have := congrArg ofTag? h
  simpa using this

end Primitive

/-- The tag of an absent object. No payload follows it. -/
def nullTag : UInt8 := 101

/-- The tag of a registered composite. The type's id and the payload follow it. -/
def compositeTag : UInt8 := 103

/-- A value of a primitive type. -/
inductive Scalar where
  | int8 (v : Int8)
  | int16 (v : Int16)
  | int32 (v : Int32)
  | int64 (v : Int64)
  | float32 (bits : UInt32)
  | float64 (bits : UInt64)
  | uint16 (v : UInt16)
  | bool (v : Bool)
  | text (v : String)
  | guid (v : Guid)
  deriving DecidableEq

namespace Scalar

/-- The primitive that a value belongs to. -/
def kind : Scalar → Primitive
  | int8 _ => .int8
  | int16 _ => .int16
  | int32 _ => .int32
  | int64 _ => .int64
  | float32 _ => .float32
  | float64 _ => .float64
  | uint16 _ => .uint16
  | bool _ => .bool
  | text _ => .text
  | guid _ => .guid

end Scalar

end RemoteDispatch
