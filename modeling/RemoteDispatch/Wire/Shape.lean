import RemoteDispatch.Wire.Primitive

/-!
# Types and their payloads

A type is a primitive or a composite. A composite has an identity of its own,
a name that both sides agree on, and a payload of a fixed `Shape`: the order
and kind of the parts that follow the type's id on the wire.

A shape never names the parts of another composite. It refers to the type,
and the registry in force says what that type's payload is. So a shape can
refer to its own type, and lists, trees and dynamically typed containers are
all finite shapes.
-/

namespace RemoteDispatch

/-- **The identity of a composite type**. Two types of one name are still two types: the stamp
tells them apart. -/
structure TypeKey where
  /-- The name the type is known by on both sides. -/
  name : String
  /-- A number of 128 bits that no other type on this side has. -/
  stamp : Nat
  deriving DecidableEq, Hashable

/-- The text that stands for an identity where no name is known. -/
def TypeKey.identityText (k : TypeKey) : String := s!"TypeId(0x{hexText 32 k.stamp})"

/-- A primitive or composite type. -/
inductive TypeRef where
  | primitive (p : Primitive)
  | composite (k : TypeKey)
  deriving DecidableEq, Hashable

namespace TypeRef

/-- The name of a type. -/
def name : TypeRef → String
  | primitive p => p.name
  | composite k => k.name

/-- The primitive that a type is, if it is one. -/
def primitive? : TypeRef → Option Primitive
  | primitive p => some p
  | composite _ => none

end TypeRef

/-- **The layout of a payload.** -/
inductive Shape where
  /-- Nothing at all. -/
  | unit
  /-- One part, then the other. -/
  | pair (first second : Shape)
  /-- A single byte. -/
  | byte
  /-- A primitive without its tag. A text has to be there. -/
  | scalar (p : Primitive)
  /-- A text that may be absent. -/
  | text
  /-- A text, with an absent one taken for the empty one. -/
  | textOrEmpty
  /-- A sequence of parts of one shape. -/
  | seq (item : Shape)
  /-- A sequence that may be absent. -/
  | nullableSeq (item : Shape)
  /-- A tagged object of a given type. -/
  | object (t : TypeRef)
  /-- A tagged object of a given type that may be absent. -/
  | nullable (t : TypeRef)
  /-- A tagged object of any type, or none. -/
  | any
  /-- A truth value, and the part if it is true. -/
  | flagged (part : Shape)
  /-- A byte that may not be above a bound. -/
  | bounded (bound : UInt8)
  deriving DecidableEq

/-- **A value together with the form it is written in.**

Records and the items of sequences are chains of `cons` cells ending in `nil`, so that the type
has no nested lists and every function on it is an induction over its cells. -/
inductive Datum where
  /-- The end of a chain, or a part of no bytes. -/
  | nil
  /-- A part and the parts that follow it. -/
  | cons (head tail : Datum)
  /-- A single byte. -/
  | byte (b : UInt8)
  /-- A primitive value without a tag. -/
  | scalar (s : Scalar)
  /-- An absent text. -/
  | noText
  /-- A sequence: the number of its cells and the cells. -/
  | seq (cells : Datum)
  /-- An absent sequence. -/
  | noSeq
  /-- An object of a type known beforehand. -/
  | object (t : TypeRef) (payload : Datum)
  /-- The absent object of a type known beforehand. -/
  | absent (t : TypeRef)
  /-- An object whose type is known from the value only. -/
  | dynamic (t : TypeRef) (payload : Datum)
  /-- The absent object where any type could have stood. -/
  | null
  /-- A byte that should not be above a bound. -/
  | bounded (bound b : UInt8)
  deriving DecidableEq

namespace Datum

/-- The number of `cons` cells in a chain. -/
def cells : Datum → Nat
  | cons _ tail => tail.cells + 1
  | _ => 0

/-- The chain of the given parts. -/
def ofList : List Datum → Datum
  | [] => nil
  | d :: ds => cons d (ofList ds)

/-- The parts of a chain. -/
def toList : Datum → List Datum
  | cons head tail => head :: tail.toList
  | _ => []

@[simp] theorem toList_ofList (ds : List Datum) : (ofList ds).toList = ds := by
  induction ds with
  | nil => rfl
  | cons d ds ih => simp [ofList, toList, ih]

@[simp] theorem cells_ofList (ds : List Datum) : (ofList ds).cells = ds.length := by
  induction ds with
  | nil => rfl
  | cons d ds ih => simp [ofList, cells, ih]

end Datum

end RemoteDispatch
