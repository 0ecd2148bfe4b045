import RemoteDispatch.Proofs.Enlargement
import Mathlib.Data.List.Sort

/-!
# Which types can be registered together

Types are registered one after another, and each registration is judged by what
has been registered before. Seen from the whole list the judgement is simple. A
list is accepted if it holds no primitive and no id twice (`Acceptable`), and
otherwise registration stops at the first entry that is a primitive or has the
id of an earlier one (`Offends`). An identity that is taken, a name that is taken
up to case and a hash that is taken by chance all come down to an id that is
taken; they differ in the wording of the error only.

An acceptable list stays acceptable in any other order. The registries that come
of the two orders hold the same types, and as every search in them has at most
one answer, they answer alike. A program cannot tell them apart
(`Registry.Interchangeable`).
-/

namespace RemoteDispatch

/-! ## Lists of types -/

/-- The id that belongs to the name of a type. -/
def Declaration.id (x : Declaration) : Int32 := typeId x.type.name

/-- **No entry is a primitive, and no two share an id.** -/
def Acceptable (xs : List Declaration) : Prop :=
  (∀ p, .primitive p ∉ xs) ∧ xs.Pairwise fun x y => x.id ≠ y.id

/-- **The entry at a place is one that cannot be registered**: a primitive, or a type whose id an
earlier entry has. -/
def Offends (xs : List Declaration) (i : Nat) : Prop :=
  ∃ x, xs[i]? = some x ∧ ((∃ p, x = .primitive p) ∨ ∃ y ∈ xs.take i, y.id = x.id)

/-- **Why a declaration is refused** behind earlier ones. -/
inductive Refused (earlier : List Declaration) : Declaration → CodecError → Prop where
  | primitive (p : Primitive) : Refused earlier (.primitive p) (.primitive p.name)
  | duplicate {d existing : Descriptor} (taken : .composite existing ∈ earlier)
      (same : existing.id = d.id) :
      Refused earlier (.composite d) (.duplicateType (Registry.clash d existing))

theorem acceptable_nil : Acceptable [] := ⟨fun _ => List.not_mem_nil, .nil⟩

theorem acceptable_snoc {xs : List Declaration} {x : Declaration} :
    Acceptable (xs ++ [x]) ↔
      Acceptable xs ∧ ¬((∃ p, x = .primitive p) ∨ ∃ y ∈ xs, y.id = x.id) := by
  unfold Acceptable
  rw [List.pairwise_append, not_or]
  constructor
  · rintro ⟨composite, distinct, _, apart⟩
    refine ⟨⟨fun p hp => composite p (List.mem_append_left _ hp), distinct⟩, ?_, ?_⟩
    · rintro ⟨p, rfl⟩
      exact composite p (List.mem_append_right _ (List.mem_singleton_self _))
    · rintro ⟨y, hy, same⟩
      exact apart y hy x (List.mem_singleton_self _) same
  · rintro ⟨⟨composite, distinct⟩, noPrimitive, free⟩
    refine ⟨fun p hp => ?_, distinct, List.pairwise_singleton _ _, fun y hy z hz same => ?_⟩
    · rcases List.mem_append.1 hp with hp | hp
      · exact composite p hp
      · exact noPrimitive ⟨p, (List.mem_singleton.1 hp).symm⟩
    · rw [List.mem_singleton.1 hz] at same
      exact free ⟨y, hy, same⟩

/-- **The entries before a place can be registered together** exactly if none of them offends. -/
theorem acceptable_take_iff {xs : List Declaration} (i : Nat) :
    Acceptable (xs.take i) ↔ ∀ j < i, ¬Offends xs j := by
  induction i with
  | zero => exact ⟨fun _ _ lt => absurd lt (Nat.not_lt_zero _), fun _ => acceptable_nil⟩
  | succ i ih =>
    rw [Nat.forall_lt_succ_right, ← ih]
    cases hx : xs[i]? with
    | none =>
      have whole : xs.take (i + 1) = xs.take i := by
        have beyond := List.getElem?_eq_none_iff.1 hx
        rw [List.take_of_length_le beyond, List.take_of_length_le (Nat.le_succ_of_le beyond)]
      have harmless : ¬Offends xs i := by
        rintro ⟨x, found, _⟩
        cases hx.symm.trans found
      rw [whole]
      exact (and_iff_left harmless).symm
    | some x =>
      rw [List.take_add_one, hx, Option.toList_some, acceptable_snoc]
      refine and_congr_right fun _ => not_congr ⟨fun h => ⟨x, hx, h⟩, ?_⟩
      rintro ⟨y, found, h⟩
      cases hx.symm.trans found
      exact h

theorem acceptable_iff {xs : List Declaration} : Acceptable xs ↔ ∀ i, ¬Offends xs i := by
  constructor
  · intro acceptable i
    rw [← List.take_of_length_le (Nat.le_add_left xs.length (i + 1)),
      acceptable_take_iff] at acceptable
    exact acceptable i (by omega)
  · intro harmless
    rw [← List.take_of_length_le (Nat.le_refl xs.length), acceptable_take_iff]
    exact fun j _ => harmless j

theorem Acceptable.perm {xs ys : List Declaration} (h : Acceptable xs) (perm : xs.Perm ys) :
    Acceptable ys :=
  ⟨fun p hp => h.1 p (perm.mem_iff.2 hp), (perm.pairwise_iff Ne.symm).1 h.2⟩

/-- An entry that is refused offends, behind entries that do not. -/
theorem Refused.offends {xs : List Declaration} {i : Nat} {x : Declaration} {e : CodecError}
    (found : xs[i]? = some x) (refused : Refused (xs.take i) x e) : Offends xs i := by
  cases refused with
  | primitive p => exact ⟨_, found, .inl ⟨p, rfl⟩⟩
  | duplicate taken same => exact ⟨_, found, .inr ⟨_, taken, same⟩⟩

/-- There is one error at most for an entry behind acceptable ones: no two of these have its id. -/
theorem Refused.unique {earlier : List Declaration} {x : Declaration} {e e' : CodecError}
    (acceptable : Acceptable earlier) (h : Refused earlier x e) (h' : Refused earlier x e') :
    e = e' := by
  cases h with
  | primitive p =>
    cases h'
    rfl
  | @duplicate d existing taken same =>
    cases h' with
    | @duplicate _ existing' taken' same' =>
      obtain rfl : existing = existing' := by
        by_contra ne
        have symmetric : Std.Symm fun x y : Declaration => x.id ≠ y.id := ⟨fun _ _ => Ne.symm⟩
        exact acceptable.2.forall taken taken' (fun h => ne (Declaration.composite.inj h))
          (same.trans same'.symm)
      rfl

namespace Registry

variable {r s : Registry}

/-! ## One registration -/

/-- A type of a registered identity has a registered name, and is called by it. -/
theorem clash_of_key {d existing : Descriptor} (same : existing.key = d.key) :
    clash d existing = d.name := by
  unfold clash Descriptor.name
  rw [same, sameName_self]
  rfl

/-- **What a registry refuses**: primitives, and composites of an id that it knows. -/
theorem register_eq_error {x : Declaration} {e : CodecError} (h : r.register x = .error e) :
    Refused (r.types.map .composite) x e := by
  cases x with
  | primitive p =>
    cases h
    exact .primitive p
  | composite d =>
    rw [register] at h
    split at h
    · next known =>
      obtain ⟨existing, found⟩ := Option.isSome_iff_exists.1 known
      obtain ⟨registered, key⟩ := byKey_eq_some_iff.1 found
      cases h
      rw [← clash_of_key key]
      refine .duplicate (List.mem_map_of_mem registered) ?_
      unfold Descriptor.id Descriptor.name
      rw [key]
    · split at h
      · next existing found =>
        obtain ⟨registered, same⟩ := byId_eq_some_iff.1 found
        cases h
        exact .duplicate (List.mem_map_of_mem registered) same
      · cases h

/-! ## Any number of them -/

/-- **Registration stops at the first entry that is refused** by the registry of those before it. -/
theorem registerAll_eq_error {xs : List Declaration} {i : Nat} {e : CodecError}
    (h : r.registerAll xs = .error (i, e)) :
    ∃ s x, r.registerAll (xs.take i) = .ok s ∧ xs[i]? = some x ∧ s.register x = .error e := by
  induction xs generalizing r i with
  | nil => cases h
  | cons x xs ih =>
    unfold registerAll at h
    cases first : r.register x with
    | error e' =>
      rw [first] at h
      cases h
      exact ⟨r, x, rfl, rfl, first⟩
    | ok r₁ =>
      rw [first] at h
      dsimp only at h
      cases others : r₁.registerAll xs with
      | ok s =>
        rw [others] at h
        cases h
      | error stop =>
        rw [others] at h
        cases h
        obtain ⟨s, x', before, found, refused⟩ := ih others
        refine ⟨s, x', ?_, found, refused⟩
        rw [List.take_succ_cons, registerAll, first]
        dsimp only
        rw [before]
        rfl

/-- What was registered was acceptable. -/
theorem acceptable_of_registerAll {xs : List Declaration} (built : empty.registerAll xs = .ok r) :
    xs = r.types.map .composite ∧ Acceptable xs := by
  obtain ⟨ds, rfl, held⟩ := types_of_registerAll built
  obtain rfl : r.types = ds := held
  refine ⟨rfl, fun p hp => ?_, List.pairwise_map.2 r.distinct⟩
  obtain ⟨d, _, ⟨⟩⟩ := List.mem_map.1 hp

/-- **The entry where registration stops** is refused behind acceptable ones. -/
theorem refused_of_registerAll {xs : List Declaration} {i : Nat} {e : CodecError}
    (stopped : empty.registerAll xs = .error (i, e)) :
    Acceptable (xs.take i) ∧ ∃ x, xs[i]? = some x ∧ Refused (xs.take i) x e := by
  obtain ⟨s, x, before, found, refused⟩ := registerAll_eq_error stopped
  obtain ⟨types, acceptable⟩ := acceptable_of_registerAll before
  refine ⟨acceptable, x, found, ?_⟩
  rw [types]
  exact register_eq_error refused

/-- **Acceptable lists are accepted, and no others.** -/
theorem registerAll_eq_ok_iff {xs : List Declaration} :
    (∃ r, empty.registerAll xs = .ok r) ↔ Acceptable xs := by
  constructor
  · rintro ⟨r, built⟩
    exact (acceptable_of_registerAll built).2
  · intro acceptable
    cases built : empty.registerAll xs with
    | ok r => exact ⟨r, rfl⟩
    | error stop =>
      obtain ⟨i, e⟩ := stop
      obtain ⟨_, x, found, refused⟩ := refused_of_registerAll built
      exact absurd (refused.offends found) (acceptable_iff.1 acceptable i)

/-- **Registration stops at the first entry that offends**, with the error that is due to it. -/
theorem registerAll_eq_error_iff {xs : List Declaration} {i : Nat} {e : CodecError} :
    empty.registerAll xs = .error (i, e) ↔
      (∀ j < i, ¬Offends xs j) ∧ ∃ x, xs[i]? = some x ∧ Refused (xs.take i) x e := by
  constructor
  · intro stopped
    obtain ⟨acceptable, refused⟩ := refused_of_registerAll stopped
    exact ⟨(acceptable_take_iff i).1 acceptable, refused⟩
  · rintro ⟨before, x, found, refused⟩
    have offends := refused.offends found
    cases built : empty.registerAll xs with
    | ok r => exact absurd offends (acceptable_iff.1 (acceptable_of_registerAll built).2 i)
    | error stop =>
      obtain ⟨j, e'⟩ := stop
      obtain ⟨acceptable, y, found', refused'⟩ := refused_of_registerAll built
      -- neither of the two places comes before the other, since both are the first that offends
      obtain rfl : j = i := by
        rcases Nat.lt_trichotomy j i with lt | rfl | lt
        · exact absurd (refused'.offends found') (before j lt)
        · rfl
        · exact absurd offends ((acceptable_take_iff j).1 acceptable i lt)
      obtain rfl : y = x := Option.some.inj (found'.symm.trans found)
      rw [refused'.unique acceptable refused]

/-! ## Other orders -/

/-- **Nothing tells the two registries apart**: not a search, and not a program that writes or
reads. -/
structure Interchangeable (r s : Registry) : Prop where
  byId : ∀ id, s.byId id = r.byId id
  byName : ∀ name, s.byName name = r.byName name
  byKey : ∀ k, s.byKey k = r.byKey k
  idOf : ∀ t, s.idOf t = r.idOf t
  require : ∀ t, s.require t = r.require t
  size : s.size = r.size
  names : s.names = r.names
  write : ∀ {α : Type} {write : Registry → Script (Except CodecError α)},
    Script.Uniform (fun _ => false) write → ∀ w, (write s).run w = (write r).run w
  read : ∀ {α : Type} {read : Decoder α}, Decoder.Uniform (fun _ => false) payload read →
    ∀ c, (read s).runFrom c = (read r).runFrom c

/-- **The order of registration does not matter.** -/
theorem interchangeable_of_perm (perm : r.types.Perm s.types) : r.Interchangeable s := by
  have byId (id : Int32) : s.byId id = r.byId id := Option.ext fun d =>
    ⟨byId_of_subset perm.symm.subset, byId_of_subset perm.subset⟩
  have byKey (k : TypeKey) : s.byKey k = r.byKey k := Option.ext fun d =>
    ⟨byKey_of_subset perm.symm.subset, byKey_of_subset perm.subset⟩
  have idOf (t : TypeRef) : s.idOf t = r.idOf t := by
    cases t with
    | primitive p => rfl
    | composite k => exact congrArg (Option.map Descriptor.id) (byKey k)
  have within : r.Within (fun _ => false) s := ⟨fun k => .inl (byKey k), fun id => .inl (byId id)⟩
  refine ⟨byId, fun name => ?_, byKey, idOf, fun t => ?_, perm.length_eq.symm,
    sortedNames_eq_of_perm perm.symm,
    fun uniform w => uniform.followed within w fun _ _ => rfl,
    fun uniform c => uniform.followed within c fun _ _ => rfl⟩
  · unfold Registry.byName
    rw [byId]
  · unfold Registry.require
    rw [idOf]

end Registry

/-- **Registration accepts exactly the lists that it can keep apart, in any order.** A list of types
is registered if and only if it holds no primitive and no two types of one id. Otherwise
registration stops at the first entry that is a primitive or has the id of an earlier entry, and the
error says which of the two it is, naming the primitive or the two types. A list that is accepted is
accepted in every other order too, and then nothing tells the two registries apart. -/
theorem registration_exact (xs : List Declaration) :
    ((∃ r, Registry.empty.registerAll xs = .ok r) ↔
      (∀ p, .primitive p ∉ xs) ∧ xs.Pairwise fun x y => x.id ≠ y.id) ∧
    (∀ i e, Registry.empty.registerAll xs = .error (i, e) ↔
      Offends xs i ∧ (∀ j < i, ¬Offends xs j) ∧ ∃ x, xs[i]? = some x ∧ Refused (xs.take i) x e) ∧
    ∀ r, Registry.empty.registerAll xs = .ok r → ∀ ys, xs.Perm ys →
      ∃ s, Registry.empty.registerAll ys = .ok s ∧ r.Interchangeable s := by
  refine ⟨Registry.registerAll_eq_ok_iff, fun i e => ?_, fun r built ys perm => ?_⟩
  · rw [Registry.registerAll_eq_error_iff]
    constructor
    · rintro ⟨before, x, found, refused⟩
      exact ⟨refused.offends found, before, x, found, refused⟩
    · rintro ⟨_, first⟩
      exact first
  · obtain ⟨types, acceptable⟩ := Registry.acceptable_of_registerAll built
    obtain ⟨s, built'⟩ := Registry.registerAll_eq_ok_iff.2 (acceptable.perm perm)
    obtain ⟨types', _⟩ := Registry.acceptable_of_registerAll built'
    rw [types, types'] at perm
    exact ⟨s, built', Registry.interchangeable_of_perm
      ((List.map_perm_map_iff fun _ _ => Declaration.composite.inj).1 perm)⟩

namespace Sample

/-- Two types whose names have one hash, with another between them. -/
def collidingTypes : List Declaration := [.composite taz, .composite pair, .composite tazTwin]

/-- Three types are registered in either order, and the second of two types that collide is refused
at its place, under a message that names both. -/
theorem registration_exact_collidingTypes :
    (∃ r s, Registry.empty.registerAll threeTypes = .ok r ∧
      Registry.empty.registerAll threeTypes.reverse = .ok s ∧ s.names = r.names ∧
      s.require (.composite size.key) = r.require (.composite size.key)) ∧
    Registry.empty.registerAll collidingTypes =
      .error (2, .duplicateType "Tb[ (type id 114605 collides with Taz)") := by
  constructor
  · obtain ⟨accepted, _, reordered⟩ := registration_exact threeTypes
    obtain ⟨r, built⟩ := accepted.2 ⟨fun p hp => by simp [threeTypes] at hp, by decide +kernel⟩
    obtain ⟨s, built', same⟩ := reordered r built _ (List.reverse_perm _).symm
    exact ⟨r, s, built, built', same.names, same.require _⟩
  · obtain ⟨_, stopped, _⟩ := registration_exact collidingTypes
    have wording : Registry.clash tazTwin taz = "Tb[ (type id 114605 collides with Taz)" := by
      decide +kernel
    have refused : Refused (collidingTypes.take 2) (.composite tazTwin)
        (.duplicateType (Registry.clash tazTwin taz)) :=
      .duplicate List.mem_cons_self (by decide +kernel)
    have before : Acceptable (collidingTypes.take 2) :=
      ⟨fun p hp => by simp [collidingTypes] at hp, by decide +kernel⟩
    rw [← wording]
    exact (stopped 2 _).2 ⟨refused.offends rfl, (acceptable_take_iff 2).1 before, _, rfl, refused⟩

end Sample

end RemoteDispatch
