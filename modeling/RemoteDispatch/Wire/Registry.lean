import RemoteDispatch.Wire.Error
import RemoteDispatch.Wire.Shape

/-!
# The registry of composite types

A composite type is known by its name. On the wire the name is replaced by a
32-bit id, a hash that both sides compute on their own, so no list of ids is
ever exchanged. The hash folds the letters `A` to `Z` to lower case and leaves
every other byte alone. Names that differ in the case of those letters only
are the same name, and `typeId_eq_of_sameName` says that they share their id.
The converse fails: different names may collide.

Both sides have to know which type an id stands for. A `Registry` is the list
of types one side knows. It is filled once, in order, and a type that would
make an id ambiguous is refused while it is filled. That no two types share an
id is therefore part of what a registry is, and every look-up by id, by name
or by identity has at most one answer. How a registry is kept in two maps, and
that these come to the same list, is the matter of `TypeTables`.
-/

namespace RemoteDispatch

/-! ## Names and ids -/

/-- The lower-case form of a byte that is an ASCII capital, any other byte itself. -/
def lowerByte (b : UInt8) : UInt8 := if 65 ≤ b ∧ b ≤ 90 then b + 32 else b

/-- The bytes of a name with ASCII capitals folded to lower case. -/
def foldedName (name : String) : Bytes := (utf8 name).map lowerByte

/-- The two names are one name up to the case of ASCII letters. -/
def sameName (a b : String) : Bool := foldedName a == foldedName b

/-- **The id of a name**: its folded bytes as digits to the base 31, wrapping at 32 bits. -/
def typeId (name : String) : Int32 :=
  (foldedName name).foldl (fun h b => h * 31 + Int32.ofNat b.toNat) 0

theorem typeId_eq_of_sameName {a b : String} (h : sameName a b = true) : typeId a = typeId b := by
  simp only [sameName, beq_iff_eq] at h
  simp only [typeId, h]

@[simp] theorem sameName_self (a : String) : sameName a a = true := by simp [sameName]

/-! ## Types -/

/-- A composite type as a registry knows it: its identity and the layout of its payload. -/
structure Descriptor where
  /-- The type's identity. -/
  key : TypeKey
  /-- The layout of the type's payload. -/
  shape : Shape
  deriving DecidableEq

namespace Descriptor

/-- The name of the type. -/
def name (d : Descriptor) : String := d.key.name

/-- The type as a value's. -/
def type (d : Descriptor) : TypeRef := .composite d.key

/-- The id that frames the type's objects. -/
def id (d : Descriptor) : Int32 := typeId d.name

/-- The descriptor with its name quoted and its id. -/
def description (d : Descriptor) : String :=
  s!"Descriptor \x7b name: \"{d.name}\", id: {d.id} \x7d"

end Descriptor

/-- The names of types in the order of their characters. -/
def sortedNames (types : List Descriptor) : List String :=
  (types.map Descriptor.name).mergeSort fun a b => decide (a ≤ b)

/-- What may be offered for registration. -/
inductive Declaration where
  | primitive (p : Primitive)
  | composite (d : Descriptor)
  deriving DecidableEq

/-- The type that a declaration declares. -/
def Declaration.type : Declaration → TypeRef
  | primitive p => .primitive p
  | composite d => d.type

/-- **The composite types that one side knows**, no two under one id. -/
structure Registry where
  /-- The registered types in the order of their registration. -/
  types : List Descriptor
  /-- No two types share an id. -/
  distinct : types.Pairwise fun a b => a.id ≠ b.id

namespace Registry

/-- The registry that knows no composite type. -/
def empty : Registry := ⟨[], .nil⟩

instance : Inhabited Registry := ⟨empty⟩

/-- The number of registered types. -/
def size (r : Registry) : Nat := r.types.length

/-- The names of the registered types in the order of their characters. -/
def names (r : Registry) : List String := sortedNames r.types

/-! ## Look-ups -/

/-- The type of an id. -/
def byId (r : Registry) (id : Int32) : Option Descriptor := r.types.find? (·.id == id)

/-- The type of a name, whatever the case of its ASCII letters. A name that merely shares the id
of a registered one is not found. -/
def byName (r : Registry) (name : String) : Option Descriptor :=
  (r.byId (typeId name)).filter (sameName ·.name name)

/-- The type of an identity. -/
def byKey (r : Registry) (k : TypeKey) : Option Descriptor := r.types.find? (·.key == k)

/-- The id of a type if it is a registered composite. -/
def idOf (r : Registry) : TypeRef → Option Int32
  | .primitive _ => none
  | .composite k => (r.byKey k).map Descriptor.id

/-- The id of a type, which has to be a registered composite. -/
def require (r : Registry) (t : TypeRef) : Except CodecError Int32 :=
  match r.idOf t with
  | some id => .ok id
  | none => .error (.unregistered t.name)

/-- A type that may be read or written: a primitive or a registered composite. -/
def check (r : Registry) : TypeRef → Except CodecError Unit
  | .primitive _ => .ok ()
  | .composite k => if (r.byKey k).isSome then .ok () else .error (.unregistered k.name)

/-! ## Registration -/

/-- What is said of a type that is refused because another one holds its id. -/
def clash (d existing : Descriptor) : String :=
  if sameName existing.name d.name then d.name
  else s!"{d.name} (type id {d.id} collides with {existing.name})"

/-- A registry with one more type, whose id is free. -/
def extend (r : Registry) (d : Descriptor) (free : r.byId d.id = none) : Registry where
  types := r.types ++ [d]
  distinct := by
    refine List.pairwise_append.2 ⟨r.distinct, List.pairwise_singleton _ _, ?_⟩
    intro a ha b hb h
    rw [List.mem_singleton.1 hb] at h
    have := List.find?_eq_none.1 free a ha
    simp [h] at this

/-- **Registers a type.** A primitive is refused, and so is a composite whose identity, name or id
is taken. -/
def register (r : Registry) : Declaration → Except CodecError Registry
  | .primitive p => .error (.primitive p.name)
  | .composite d =>
    if (r.byKey d.key).isSome then .error (.duplicateType d.name)
    else
      match h : r.byId d.id with
      | some existing => .error (.duplicateType (clash d existing))
      | none => .ok (r.extend d h)

/-- Registers types in order, up to the first that is refused. That one's position comes with the
error. -/
def registerAll (r : Registry) : List Declaration → Except (Nat × CodecError) Registry
  | [] => .ok r
  | d :: ds =>
    match r.register d with
    | .error e => .error (0, e)
    | .ok r => (r.registerAll ds).mapError fun (i, e) => (i + 1, e)

end Registry

end RemoteDispatch
