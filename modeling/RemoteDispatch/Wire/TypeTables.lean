import RemoteDispatch.Wire.Registry
import Std.Data.HashMap.Basic

/-!
# A registry in two maps

To find a type among many without a search, one side keeps two maps: the types
by their ids, and the ids by the identities of the types. A registration is two
insertions, one into each map, and a search by identity goes through both.

`TypeTables` is the two maps and nothing else. Nothing in it says that they fit
together: tables could be written down in which an id leads to a type of
another id, or to none. That the maps do fit together, and answer every
question as the list of a `Registry` does, is a matter of how they are filled.
-/

namespace RemoteDispatch

/-- **Types in two maps**, which need not fit together. -/
structure TypeTables where
  /-- The types by their ids. -/
  types : Std.HashMap Int32 Descriptor
  /-- The ids by the identities of the types. -/
  ids : Std.HashMap TypeRef Int32

namespace TypeTables

/-- The tables without types. -/
def empty : TypeTables := ⟨∅, ∅⟩

/-- The number of types that have an id. -/
def size (t : TypeTables) : Nat := t.types.size

/-- The types that have an id, in no particular order. -/
def listed (t : TypeTables) : List Descriptor := t.types.toList.map Prod.snd

/-- The names of the types that have an id, in the order of their characters. -/
def names (t : TypeTables) : List String := sortedNames t.listed

/-! ## Look-ups -/

/-- The type of an id. -/
def byId (t : TypeTables) (id : Int32) : Option Descriptor := t.types[id]?

/-- The type of a name, whatever the case of its ASCII letters. -/
def byName (t : TypeTables) (name : String) : Option Descriptor :=
  (t.byId (typeId name)).filter (sameName ·.name name)

/-- The id of a type. -/
def idOf (t : TypeTables) (type : TypeRef) : Option Int32 := t.ids[type]?

/-- The type of an identity, by its id. -/
def byType (t : TypeTables) (type : TypeRef) : Option Descriptor := (t.idOf type).bind t.byId

/-- The id of a type, which has to have one. -/
def require (t : TypeTables) (type : TypeRef) : Except CodecError Int32 :=
  match t.idOf type with
  | some id => .ok id
  | none => .error (.unregistered type.name)

/-! ## Registration -/

/-- The tables with a type entered in both maps. What stood under its identity or its id is gone. -/
def enter (t : TypeTables) (d : Descriptor) : TypeTables where
  ids := t.ids.insert d.type d.id
  types := t.types.insert d.id d

/-- **Registers a type.** A primitive is refused, and so is a composite whose identity, name or id
is taken. -/
def register (t : TypeTables) : Declaration → Except CodecError TypeTables
  | .primitive p => .error (.primitive p.name)
  | .composite d =>
    if (t.idOf d.type).isSome then .error (.duplicateType d.name)
    else
      match t.byId d.id with
      | some existing => .error (.duplicateType (Registry.clash d existing))
      | none => .ok (t.enter d)

/-- Registers types in order, up to the first that is refused. That one's position comes with the
error. -/
def registerAll (t : TypeTables) : List Declaration → Except (Nat × CodecError) TypeTables
  | [] => .ok t
  | d :: ds =>
    match t.register d with
    | .error e => .error (0, e)
    | .ok t => (t.registerAll ds).mapError fun (i, e) => (i + 1, e)

end TypeTables

end RemoteDispatch
