import RemoteDispatch.Wire.Encoding
import Mathlib.Data.List.Pairwise

/-!
# Looking a type up

A registry is searched by identity when a value is written and by id when one
is read. The two searches meet: the type found by identity is the one found by
its id, because no two types of a registry share an id. And an id depends on
nothing but the name, so two registries that both know an identity frame it
alike, however else they differ.

An object whose type is known beforehand is framed by the id that is required
of its type, and one whose type is known from its value only by the type that
is found for it, whose encoder also takes the value. Both come to the same: the
type that is found by an identity has that identity, so that its encoder
refuses nothing (`Registry.emit_object_eq`, `Registry.emit_dynamic_eq`).
-/

namespace RemoteDispatch

namespace Registry

variable {r : Registry} {k : TypeKey} {d : Descriptor}

/-- A type found by identity has that identity. -/
theorem key_of_byKey (h : r.byKey k = some d) : d.key = k := by
  have found := List.find?_some h
  simpa using found

/-- A type found by identity is registered. -/
theorem mem_of_byKey (h : r.byKey k = some d) : d ∈ r.types := List.mem_of_find?_eq_some h

/-- The id under which an identity is known depends on its name alone. -/
theorem id_of_byKey (h : r.byKey k = some d) : d.id = typeId k.name := by
  rw [← key_of_byKey h]
  rfl

/-- Registered types of one id are one type. -/
theorem eq_of_id_eq {e : Descriptor} (hd : d ∈ r.types) (he : e ∈ r.types) (h : d.id = e.id) :
    d = e := by
  by_contra ne
  have symmetric : Std.Symm fun a b : Descriptor => a.id ≠ b.id := ⟨fun _ _ => Ne.symm⟩
  exact r.distinct.forall hd he ne h

/-- **A registered type is found by its id.** -/
theorem byId_of_mem (h : d ∈ r.types) : r.byId d.id = some d := by
  rcases hf : r.byId d.id with _ | e
  · have none := List.find?_eq_none.1 hf d h
    simp at none
  · have same : e.id = d.id := by
      have found := List.find?_some hf
      simpa using found
    rw [eq_of_id_eq (List.mem_of_find?_eq_some hf) h same]

/-- The type found by identity is the one found by its id. -/
theorem byId_of_byKey (h : r.byKey k = some d) : r.byId d.id = some d :=
  byId_of_mem (mem_of_byKey h)

/-- A type found by an id is registered under it. -/
theorem of_byId {id : Int32} (h : r.byId id = some d) : d ∈ r.types ∧ d.id = id := by
  have found := List.find?_some h
  exact ⟨List.mem_of_find?_eq_some h, by simpa using found⟩

/-- **A registered type is found by its identity**, since types of one identity have one id. -/
theorem byKey_of_mem (h : d ∈ r.types) : r.byKey d.key = some d := by
  rcases hf : r.byKey d.key with _ | e
  · have none := List.find?_eq_none.1 hf d h
    simp at none
  · have same : e.id = d.id := by
      unfold Descriptor.id Descriptor.name
      rw [key_of_byKey hf]
    rw [eq_of_id_eq (mem_of_byKey hf) h same]

/-! ## Frames -/

/-- The frame of an object. `called` is what a type that is not registered is called in the
error. -/
def framing (r : Registry) (called : TypeKey → String) : TypeRef → Emission
  | .primitive p => .byte p.tag
  | .composite k =>
    match r.byKey k with
    | some d => compositeFrame d.id
    | none => .fail (.unregistered (called k))

theorem frame_eq_framing (r : Registry) (t : TypeRef) : r.frame t = r.framing TypeKey.name t := by
  cases t with
  | primitive p => rfl
  | composite k =>
    rw [frame, framing, require, idOf]
    cases r.byKey k with
    | none => rfl
    | some d => rfl

/-- **The encoder of the type that is found takes the value**, so that the two kinds of objects
differ in nothing but what an unregistered type is called. -/
theorem dynamicObject_eq (r : Registry) (payload : Emission) (t : TypeRef) :
    r.dynamicObject payload t = (r.framing TypeKey.identityText t).andThen payload := by
  cases t with
  | primitive p => rfl
  | composite k =>
    rw [dynamicObject, framing]
    cases found : r.byKey k with
    | none => rfl
    | some d =>
      have takes : encodeAs d (.composite k) payload = payload :=
        if_pos (congrArg TypeRef.composite (key_of_byKey found).symm)
      exact congrArg (compositeFrame d.id).andThen takes

theorem emit_object_eq (r : Registry) (t : TypeRef) (payload : Datum) :
    r.emit (.object t payload) = (r.framing TypeKey.name t).andThen (r.emit payload) := by
  rw [emit, frame_eq_framing]

theorem emit_dynamic_eq (r : Registry) (t : TypeRef) (payload : Datum) :
    r.emit (.dynamic t payload) = (r.framing TypeKey.identityText t).andThen (r.emit payload) := by
  rw [emit, dynamicObject_eq]

end Registry

end RemoteDispatch
