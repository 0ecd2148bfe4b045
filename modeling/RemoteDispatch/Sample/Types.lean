import RemoteDispatch.Wire.Registry

/-!
# Sample composites

A small set of composite types that reaches every corner of the format: plain
records, names that differ in case only, names whose ids collide, names with
letters beyond ASCII, payloads that refer to their own type, hold objects of
any type, or refuse some values half-way.
-/

namespace RemoteDispatch

namespace Sample

/-- Two numbers and a label that may be absent. -/
def pair : Descriptor where
  key := ⟨"Pair", 1⟩
  shape := .pair (.scalar .int32) (.pair (.scalar .int32) .text)

/-- One wide number. -/
def other : Descriptor where
  key := ⟨"Other", 2⟩
  shape := .scalar .int64

/-- Nothing, under the name of `pair` in capitals. -/
def capitals : Descriptor where
  key := ⟨"PAIR", 3⟩
  shape := .unit

/-- Nothing. -/
def unlisted : Descriptor where
  key := ⟨"Unlisted", 4⟩
  shape := .unit

/-- A small number. -/
def taz : Descriptor where
  key := ⟨"Taz", 5⟩
  shape := .scalar .int8

/-- A small number, under a name whose id is that of `taz`. -/
def tazTwin : Descriptor where
  key := ⟨"Tb[", 6⟩
  shape := .scalar .int8

/-- A text, under a name with letters beyond ASCII. -/
def size : Descriptor where
  key := ⟨"Größe", 7⟩
  shape := .scalar .text

/-- The arguments of a function: two numbers, a delay, and the error to end with if there is one. -/
def function : Descriptor where
  key := ⟨"Func1", 8⟩
  shape := .pair (.scalar .int32) (.pair (.scalar .int32) (.pair (.scalar .int64)
    (.flagged (.pair (.scalar .int32) .textOrEmpty))))

/-- The identity of `chain`. -/
def chainKey : TypeKey := ⟨"Chain", 9⟩

/-- A number and the rest of the chain, if it goes on. -/
def chain : Descriptor where
  key := chainKey
  shape := .pair (.scalar .int32) (.nullable (.composite chainKey))

/-- Objects of any types. -/
def bag : Descriptor where
  key := ⟨"Bag", 10⟩
  shape := .seq .any

/-- A record of objects. -/
def wrap : Descriptor where
  key := ⟨"Wrap", 11⟩
  shape := .pair (.nullable (.composite pair.key)) (.pair (.object (.primitive .text))
    (.pair (.object (.primitive .guid)) (.nullableSeq (.object (.primitive .int32)))))

/-- A number up to one hundred. -/
def picky : Descriptor where
  key := ⟨"Picky", 12⟩
  shape := .bounded 100

/-- A type that is never registered. -/
def opaqueKey : TypeKey := ⟨"opaque", 13⟩

/-- Another type that is never registered. -/
def sliceKey : TypeKey := ⟨"slice", 14⟩

/-- All sample composites. -/
def all : List Descriptor :=
  [pair, other, capitals, unlisted, taz, tazTwin, size, function, chain, bag, wrap, picky]

/-- The names of the parts of a record, in order. A type that is no record has none. -/
def partNames (k : TypeKey) : List String :=
  if k = pair.key then ["a", "b", "label"]
  else if k = function.key then ["a", "b", "delay", "error"]
  else if k = wrap.key then ["inner", "tag", "id", "parts"]
  else []

/-- The sample composite of an identity. -/
def descriptor? (k : TypeKey) : Option Descriptor := all.find? (·.key == k)

/-- The primitive or sample composite of a name. -/
def declaration? (name : String) : Option Declaration :=
  match Primitive.all.find? (·.name == name) with
  | some p => some (.primitive p)
  | none => (all.find? (·.name == name)).map .composite

/-- The type of a name, the two that are never registered included. -/
def type? (name : String) : Option TypeRef :=
  if name = opaqueKey.name then some (.composite opaqueKey)
  else if name = sliceKey.name then some (.composite sliceKey)
  else (declaration? name).map Declaration.type

end Sample

end RemoteDispatch
