import RemoteDispatch.Proofs.Lookups
import RemoteDispatch.Sample.Types
import RemoteDispatch.Wire.TypeTables
import Mathlib.Data.List.Perm.Basic
import Mathlib.Data.String.Basic
import Std.Data.HashMap.Lemmas

/-!
# What registration builds

A registry is filled by registering one type after another, and it answers by
identity, by id and by name. This module says what the answers are in terms of
the types that were registered.

One registration adds one type, to what is found by identity and to what is
found by id at once, and takes nothing away (`Registry.register_eq_ok`,
`Registry.byId_extend`, `Registry.idOf_extend`). So after any number of them
the registry holds exactly the types that were registered, in order
(`Registry.types_of_registerAll`).

In two maps nothing of this is given. `TypeTables.Holds` says that tables hold
the types of a registry: both maps answer as the searches in its list do. The
two insertions of a registration keep them at that, and the tables refuse what
the registry refuses and with the same error (`TypeTables.Holds.register`,
`TypeTables.Holds.registerAll`). So whatever a filled registry answers the
filled tables answer, each of the two maps is the other's inverse, and every
type is under the id of its own name.

The search by name goes through the hash of the name, and many names have the
hash of a registered one. It finds a type if and only if the name is that
type's up to the case of ASCII letters. In one direction such names have one
hash, and in the other the name that was found is compared, so that a name
that merely collides finds nothing.
-/

namespace RemoteDispatch

/-! ## Names -/

/-- One name up to case is so in either order. -/
theorem sameName_comm (a b : String) : sameName a b = sameName b a := Bool.beq_comm

theorem sortedNames_perm (types : List Descriptor) :
    (sortedNames types).Perm (types.map Descriptor.name) := List.mergeSort_perm _ _

theorem sortedNames_sorted (types : List Descriptor) : (sortedNames types).Pairwise (· ≤ ·) := by
  refine (List.pairwise_mergeSort (fun a b c h h' => ?_) (fun a b => ?_) _).imp of_decide_eq_true
  · exact decide_eq_true (le_trans (of_decide_eq_true h) (of_decide_eq_true h'))
  · rw [Bool.or_eq_true, decide_eq_true_iff, decide_eq_true_iff]
    exact le_total a b

/-- The names of the same types in any order come out the same. -/
theorem sortedNames_eq_of_perm {types types' : List Descriptor} (perm : types.Perm types') :
    sortedNames types = sortedNames types' := by
  have same : (sortedNames types).Perm (sortedNames types') :=
    (sortedNames_perm types).trans
      ((perm.map Descriptor.name).trans (sortedNames_perm types').symm)
  exact same.eq_of_pairwise (fun a b _ _ le ge => le_antisymm le ge) (sortedNames_sorted types)
    (sortedNames_sorted types')

namespace Registry

variable {r r' : Registry} {k : TypeKey} {d : Descriptor} {id : Int32}

/-! ## The look-ups -/

/-- **By id, a type is found under the hash of its own name**, and only there. -/
theorem byId_eq_some_iff : r.byId id = some d ↔ d ∈ r.types ∧ d.id = id := by
  constructor
  · exact of_byId
  · rintro ⟨registered, rfl⟩
    exact byId_of_mem registered

theorem byKey_eq_some_iff : r.byKey k = some d ↔ d ∈ r.types ∧ d.key = k := by
  constructor
  · exact fun found => ⟨mem_of_byKey found, key_of_byKey found⟩
  · rintro ⟨registered, rfl⟩
    exact byKey_of_mem registered

theorem idOf_eq_some_iff {type : TypeRef} :
    r.idOf type = some id ↔ ∃ d ∈ r.types, d.type = type ∧ d.id = id := by
  cases type with
  | primitive p => exact ⟨nofun, fun ⟨d, _, h, _⟩ => nomatch h⟩
  | composite k =>
    rw [idOf, Option.map_eq_some_iff]
    constructor
    · rintro ⟨d, found, hid⟩
      obtain ⟨registered, hk⟩ := byKey_eq_some_iff.1 found
      exact ⟨d, registered, congrArg TypeRef.composite hk, hid⟩
    · rintro ⟨d, registered, hk, hid⟩
      exact ⟨d, byKey_eq_some_iff.2 ⟨registered, TypeRef.composite.inj hk⟩, hid⟩

/-- **The searches by identity and by id undo each other.** -/
theorem idOf_eq_some_iff_byId {type : TypeRef} :
    r.idOf type = some id ↔ (r.byId id).map Descriptor.type = some type := by
  rw [idOf_eq_some_iff, Option.map_eq_some_iff]
  constructor
  · rintro ⟨d, registered, hd, hid⟩
    exact ⟨d, byId_eq_some_iff.2 ⟨registered, hid⟩, hd⟩
  · rintro ⟨d, found, hd⟩
    obtain ⟨registered, hid⟩ := byId_eq_some_iff.1 found
    exact ⟨d, registered, hd, hid⟩

/-- A registered type has its id, and the id may be required. -/
theorem require_of_mem (registered : d ∈ r.types) :
    r.idOf d.type = some d.id ∧ r.require d.type = .ok d.id := by
  have known : r.idOf d.type = some d.id := idOf_eq_some_iff.2 ⟨d, registered, rfl, rfl⟩
  exact ⟨known, by rw [require, known]⟩

/-- A type that was not registered has no id, and requiring one says which type it is. -/
theorem require_of_unregistered {type : TypeRef} (unknown : ∀ d ∈ r.types, d.type ≠ type) :
    r.idOf type = none ∧ r.require type = .error (.unregistered type.name) := by
  have none : r.idOf type = none := by
    rw [Option.eq_none_iff_forall_ne_some]
    intro id found
    obtain ⟨d, registered, hd, _⟩ := idOf_eq_some_iff.1 found
    exact unknown d registered hd
  exact ⟨none, by rw [require, none]⟩

/-- **A name finds the type that has it**, up to the case of ASCII letters, and nothing else. -/
theorem byName_eq_some_iff {name : String} :
    r.byName name = some d ↔ d ∈ r.types ∧ sameName d.name name := by
  rw [byName, Option.filter_eq_some_iff]
  constructor
  · rintro ⟨found, same⟩
    exact ⟨(byId_eq_some_iff.1 found).1, same⟩
  · rintro ⟨registered, same⟩
    exact ⟨byId_eq_some_iff.2 ⟨registered, typeId_eq_of_sameName same⟩, same⟩

/-- No two registered names are one name up to case. -/
theorem pairwise_sameName (r : Registry) :
    (r.types.map Descriptor.name).Pairwise fun a b => sameName a b = false := by
  rw [List.pairwise_map]
  refine r.distinct.imp fun {a b} different => ?_
  rw [Bool.eq_false_iff]
  exact fun same => different (typeId_eq_of_sameName same)

/-- **The names come sorted**, each once. -/
theorem names_sorted (r : Registry) :
    r.names.Perm (r.types.map Descriptor.name) ∧ r.names.Pairwise (· < ·) ∧
      r.names.Pairwise fun a b => sameName a b = false := by
  have perm : r.names.Perm (r.types.map Descriptor.name) := sortedNames_perm r.types
  have apart : r.names.Pairwise fun a b => sameName a b = false :=
    (perm.pairwise_iff fun {a b} h => (sameName_comm b a).trans h).2 r.pairwise_sameName
  refine ⟨perm, ((sortedNames_sorted r.types).and apart).imp fun {a b} h => ?_, apart⟩
  -- two equal names would be one name up to case
  refine lt_of_le_of_ne h.1 fun equal => ?_
  rw [equal, sameName_self] at h
  exact Bool.noConfusion h.2

/-! ## One registration -/

/-- **A registration adds one type**, of which neither the identity nor the id was taken. -/
theorem register_eq_ok {x : Declaration} :
    r.register x = .ok r' ↔ ∃ d, ∃ free : r.byId d.id = none,
      x = .composite d ∧ r.byKey d.key = none ∧ r' = r.extend d free := by
  cases x with
  | primitive p => exact ⟨nofun, fun ⟨d, free, h, _⟩ => nomatch h⟩
  | composite d =>
    rw [register]
    constructor
    · intro done
      split at done
      · cases done
      · next unknown =>
        split at done
        · cases done
        · next free =>
          cases done
          exact ⟨d, free, rfl, Option.not_isSome_iff_eq_none.1 unknown, rfl⟩
    · rintro ⟨d, free, ⟨⟩, unknown, rfl⟩
      rw [if_neg (Option.not_isSome_iff_eq_none.2 unknown)]
      split
      · next taken =>
        rw [free] at taken
        cases taken
      · rfl

/-- A search among the types after a registration. Where it finds the new type, it must have found
nothing before, since the new type is the last. -/
theorem find?_extend (free : r.byId d.id = none) {p : Descriptor → Bool}
    (fresh : p d → r.types.find? p = none) :
    (r.extend d free).types.find? p = if p d then some d else r.types.find? p := by
  show (r.types ++ [d]).find? p = _
  rw [List.find?_append, List.find?_singleton]
  by_cases here : p d
  · simp only [here, if_true, fresh here, Option.none_or]
  · simp only [if_neg here, Option.or_none]

/-- What is found by id after a registration. -/
theorem byId_extend (free : r.byId d.id = none) (i : Int32) :
    (r.extend d free).byId i = if i = d.id then some d else r.byId i := by
  have fresh : d.id == i → r.types.find? (·.id == i) = none := fun same => beq_iff_eq.1 same ▸ free
  exact (find?_extend free fresh).trans (if_congr (beq_iff_eq.trans eq_comm) rfl rfl)

/-- The id that a type has after a registration. -/
theorem idOf_extend (free : r.byId d.id = none) (unknown : r.byKey d.key = none) (type : TypeRef) :
    (r.extend d free).idOf type = if type = d.type then some d.id else r.idOf type := by
  cases type with
  | primitive p => exact (if_neg nofun).symm
  | composite k =>
    have fresh : d.key == k → r.types.find? (·.key == k) = none := fun same =>
      beq_iff_eq.1 same ▸ unknown
    have here : d.key == k ↔ TypeRef.composite k = d.type := by
      rw [beq_iff_eq, eq_comm, Descriptor.type, TypeRef.composite.injEq]
    show ((r.extend d free).types.find? (·.key == k)).map Descriptor.id = _
    rw [find?_extend free fresh, apply_ite (Option.map Descriptor.id)]
    exact if_congr here rfl rfl

/-! ## Any number of them -/

/-- **A registry holds what was registered**, in order. -/
theorem types_of_registerAll {xs : List Declaration} (built : r.registerAll xs = .ok r') :
    ∃ ds : List Descriptor, xs = ds.map .composite ∧ r'.types = r.types ++ ds := by
  induction xs generalizing r with
  | nil =>
    cases built
    exact ⟨[], rfl, (List.append_nil _).symm⟩
  | cons x xs ih =>
    unfold registerAll at built
    split at built
    · cases built
    · next r₁ first =>
      obtain ⟨d, free, rfl, _, rfl⟩ := register_eq_ok.1 first
      cases others : (r.extend d free).registerAll xs with
      | error e =>
        rw [others] at built
        cases built
      | ok r₂ =>
        rw [others] at built
        cases built
        obtain ⟨ds, rfl, held⟩ := ih others
        exact ⟨d :: ds, rfl, held.trans (List.append_assoc _ _ _)⟩

end Registry

/-! ## In two maps -/

namespace TypeTables

variable {t t' : TypeTables} {r : Registry} {d : Descriptor}

/-- What is found by id after a type has been entered. -/
theorem byId_enter (t : TypeTables) (d : Descriptor) (id : Int32) :
    (t.enter d).byId id = if id = d.id then some d else t.byId id := by
  unfold byId enter
  rw [Std.HashMap.getElem?_insert]
  exact if_congr (beq_iff_eq.trans eq_comm) rfl rfl

/-- The id that a type has after one has been entered. -/
theorem idOf_enter (t : TypeTables) (d : Descriptor) (type : TypeRef) :
    (t.enter d).idOf type = if type = d.type then some d.id else t.idOf type := by
  unfold idOf enter
  rw [Std.HashMap.getElem?_insert]
  exact if_congr (beq_iff_eq.trans eq_comm) rfl rfl

/-- The types that have an id after one has been entered under an id that was free. -/
theorem listed_enter (free : t.byId d.id = none) : (t.enter d).listed.Perm (d :: t.listed) := by
  have entered : (t.enter d).types.toList.Perm
      ((d.id, d) :: t.types.toList.filter fun entry => ¬(d.id == entry.1) = true) :=
    Std.HashMap.toList_insert_perm
  -- the insertion would take the place of an entry under the same id, and there is none
  have others : (t.types.toList.filter fun entry => ¬(d.id == entry.1) = true) =
      t.types.toList := by
    refine List.filter_eq_self.2 fun entry there => decide_eq_true fun same => ?_
    have found := Std.HashMap.mem_toList_iff_getElem?_eq_some.1 there
    rw [← beq_iff_eq.1 same] at found
    exact Option.some_ne_none _ (found.symm.trans free)
  rw [others] at entered
  exact entered.map Prod.snd

/-- **A registration enters one type**, whose identity and id were free. -/
theorem register_eq_ok {x : Declaration} :
    t.register x = .ok t' ↔ ∃ d, x = .composite d ∧ t.idOf d.type = none ∧
      t.byId d.id = none ∧ t' = t.enter d := by
  cases x with
  | primitive p => exact ⟨nofun, fun ⟨d, h, _⟩ => nomatch h⟩
  | composite d =>
    rw [register]
    constructor
    · intro done
      split at done
      · cases done
      · next unknown =>
        split at done
        · cases done
        · next free =>
          cases done
          exact ⟨d, rfl, Option.not_isSome_iff_eq_none.1 unknown, free, rfl⟩
    · rintro ⟨d, ⟨⟩, unknown, free, rfl⟩
      rw [if_neg (Option.not_isSome_iff_eq_none.2 unknown), free]

/-- **The tables hold the types of a registry**: each map answers as the registry does, and there are
no other types in them. -/
structure Holds (t : TypeTables) (r : Registry) : Prop where
  byId : ∀ id, t.byId id = r.byId id
  idOf : ∀ type, t.idOf type = r.idOf type
  listed : t.listed.Perm r.types

theorem holds_empty : empty.Holds .empty where
  byId _ := Std.HashMap.getElem?_empty
  idOf type := by
    cases type with
    | primitive p => exact Std.HashMap.getElem?_empty
    | composite k => exact Std.HashMap.getElem?_empty
  listed := by
    unfold listed empty
    rw [Std.HashMap.toList_empty]
    exact .nil

/-- **The two insertions keep the maps in step** with each other and with the registry. -/
theorem Holds.enter (holds : t.Holds r) (free : r.byId d.id = none)
    (unknown : r.byKey d.key = none) : (t.enter d).Holds (r.extend d free) where
  byId id := by rw [byId_enter, Registry.byId_extend, holds.byId]
  idOf type := by rw [idOf_enter, Registry.idOf_extend free unknown, holds.idOf]
  listed := (listed_enter ((holds.byId _).trans free)).trans
    ((holds.listed.cons d).trans (List.perm_append_singleton d r.types).symm)

/-- **The same refusal, or tables that hold the registry.** -/
inductive Like {ε : Type} : Except ε TypeTables → Except ε Registry → Prop where
  | refused (e : ε) : Like (.error e) (.error e)
  | filled {t : TypeTables} {r : Registry} (holds : t.Holds r) : Like (.ok t) (.ok r)

/-- Outcomes that are alike stay so when their errors are changed alike. -/
theorem Like.mapError {ε ε' : Type} {built : Except ε TypeTables} {built' : Except ε Registry}
    (like : Like built built') (f : ε → ε') : Like (built.mapError f) (built'.mapError f) := by
  cases like with
  | refused e => exact .refused (f e)
  | filled holds => exact .filled holds

/-- Where the tables are filled the registry is, and the tables hold it. -/
theorem Like.of_ok {ε : Type} {built : Except ε Registry} (like : Like (.ok t) built) :
    ∃ r, built = .ok r ∧ t.Holds r := by
  cases like with
  | filled holds => exact ⟨_, rfl, holds⟩

/-- Where the registry is filled the tables are, and they hold it. -/
theorem Like.to_ok {ε : Type} {built : Except ε TypeTables} (like : Like built (.ok r)) :
    ∃ t, built = .ok t ∧ t.Holds r := by
  cases like with
  | filled holds => exact ⟨_, rfl, holds⟩

/-- **A registration in the tables is one in the registry**, refused or not. -/
theorem Holds.register (holds : t.Holds r) (x : Declaration) : Like (t.register x) (r.register x) := by
  cases x with
  | primitive p => exact .refused _
  | composite d =>
    have hasId : (r.idOf d.type).isSome = (r.byKey d.key).isSome := Option.isSome_map
    rw [TypeTables.register, Registry.register, holds.idOf, hasId]
    by_cases known : (r.byKey d.key).isSome
    · rw [if_pos known, if_pos known]
      exact .refused _
    rw [if_neg known, if_neg known, holds.byId]
    have unknown := Option.not_isSome_iff_eq_none.1 known
    -- both sides look the id up, and two of the four cases say different things of one look-up
    split
    · next existing taken =>
      split
      · next existing' taken' =>
        rw [taken] at taken'
        cases taken'
        exact .refused _
      · next free => exact absurd (taken.symm.trans free) (Option.some_ne_none _)
    · next free =>
      split
      · next existing taken => exact absurd (taken.symm.trans free) (Option.some_ne_none _)
      · exact .filled (holds.enter free unknown)

/-- **Any number of registrations** come to the same in the tables and in the registry: the same one
is refused first, with the same error, or the tables hold the registry in the end. -/
theorem Holds.registerAll (holds : t.Holds r) (xs : List Declaration) :
    Like (t.registerAll xs) (r.registerAll xs) := by
  induction xs generalizing t r with
  | nil => exact .filled holds
  | cons x xs ih =>
    have first := holds.register x
    unfold TypeTables.registerAll Registry.registerAll
    generalize t.register x = entered, r.register x = extended at first
    cases first with
    | refused e => exact .refused (0, e)
    | filled holds => exact (ih holds).mapError _

/-! ## What the tables answer -/

namespace Holds

theorem byName (holds : t.Holds r) (name : String) : t.byName name = r.byName name := by
  rw [TypeTables.byName, Registry.byName, holds.byId]

theorem require (holds : t.Holds r) (type : TypeRef) : t.require type = r.require type := by
  cases known : r.idOf type <;> rw [TypeTables.require, Registry.require, holds.idOf, known]

theorem size (holds : t.Holds r) : t.size = r.size := by
  have entries : t.listed.length = t.size := by
    rw [TypeTables.listed, List.length_map, Std.HashMap.length_toList, TypeTables.size]
  rw [← entries, holds.listed.length_eq, Registry.size]

theorem names (holds : t.Holds r) : t.names = r.names := sortedNames_eq_of_perm holds.listed

/-- Through both maps the type of an identity is found that the search in the list finds. -/
theorem byType (holds : t.Holds r) (k : TypeKey) : t.byType (.composite k) = r.byKey k := by
  rw [TypeTables.byType, holds.idOf, Registry.idOf]
  cases found : r.byKey k with
  | none => rfl
  | some d => exact (holds.byId d.id).trans (Registry.byId_of_byKey found)

theorem byType_eq_some_iff (holds : t.Holds r) {type : TypeRef} :
    t.byType type = some d ↔ d ∈ r.types ∧ d.type = type := by
  cases type with
  | primitive p =>
    rw [TypeTables.byType, holds.idOf]
    exact ⟨nofun, fun ⟨_, h⟩ => nomatch h⟩
  | composite k =>
    rw [holds.byType, Registry.byKey_eq_some_iff, Descriptor.type, TypeRef.composite.injEq]

end Holds

/-- **A registration enters its type in both maps** and leaves every other answer as it was. -/
theorem enters_of_register {x : Declaration} (done : t.register x = .ok t') :
    ∃ d, x = .composite d ∧ (∀ id, t'.byId id = if id = d.id then some d else t.byId id) ∧
      ∀ type, t'.idOf type = if type = d.type then some d.id else t.idOf type := by
  obtain ⟨d, rfl, _, _, rfl⟩ := register_eq_ok.1 done
  exact ⟨d, rfl, byId_enter t d, idOf_enter t d⟩

end TypeTables

/-- **Tables answer from what was registered.** Whatever registrations succeeded, they were of
composites, and the two maps are in step: each is the other's inverse, every type stands under the
hash of its own name, through both maps a type is found by its identity, there are as many types as
registrations, and the names come sorted and differ by more than the case of ASCII letters. So the id
of a type is known, and may be required, exactly if the type was registered, and then the type is
found by it. And a name finds a type exactly if it is the type's own name up to the case of ASCII
letters: a name of the same hash finds nothing. A registration more enters its type in both maps and
changes no other answer. The registry of the same registrations, by which messages are written and
read, gives the same answers. -/
theorem registered_lookups {xs : List Declaration} {t : TypeTables}
    (built : TypeTables.empty.registerAll xs = .ok t) :
    ∃ ds : List Descriptor, xs = ds.map .composite ∧
      (∀ type id, t.idOf type = some id ↔ (t.byId id).map Descriptor.type = some type) ∧
      (∀ id d, t.byId id = some d ↔ d ∈ ds ∧ typeId d.name = id) ∧
      (∀ type d, t.byType type = some d ↔ d ∈ ds ∧ d.type = type) ∧
      t.size = ds.length ∧
      (t.names.Perm (ds.map Descriptor.name) ∧ t.names.Pairwise (· < ·) ∧
        t.names.Pairwise fun a b => sameName a b = false) ∧
      (∀ d ∈ ds, t.idOf d.type = some d.id ∧ t.require d.type = .ok d.id ∧
        t.byId d.id = some d) ∧
      (∀ type, (∀ d ∈ ds, d.type ≠ type) → t.idOf type = none ∧
        t.require type = .error (.unregistered type.name)) ∧
      (∀ name d, t.byName name = some d ↔ d ∈ ds ∧ sameName d.name name) ∧
      (∀ name, (∀ d ∈ ds, sameName d.name name = false) → t.byName name = none) ∧
      (∀ x t', t.register x = .ok t' → ∃ d, x = .composite d ∧
        (∀ id, t'.byId id = if id = d.id then some d else t.byId id) ∧
        ∀ type, t'.idOf type = if type = d.type then some d.id else t.idOf type) ∧
      ∃ r, Registry.empty.registerAll xs = .ok r ∧ t.Holds r := by
  obtain ⟨r, registered, holds⟩ := (built ▸ TypeTables.holds_empty.registerAll xs).of_ok
  obtain ⟨ds, rfl, held⟩ := Registry.types_of_registerAll registered
  obtain rfl : r.types = ds := held
  have byId {id : Int32} {d : Descriptor} : t.byId id = some d ↔ d ∈ r.types ∧ d.id = id := by
    rw [holds.byId, Registry.byId_eq_some_iff]
  have byName {name : String} {d : Descriptor} :
      t.byName name = some d ↔ d ∈ r.types ∧ sameName d.name name := by
    rw [holds.byName, Registry.byName_eq_some_iff]
  refine ⟨r.types, rfl, fun type id => ?_, fun id d => byId,
    fun type d => holds.byType_eq_some_iff, holds.size, ?_, fun d there => ?_,
    fun type unknown => ?_, fun name d => byName, fun name different => ?_,
    fun x t' done => TypeTables.enters_of_register done, r, registered, holds⟩
  · rw [holds.idOf, holds.byId]
    exact Registry.idOf_eq_some_iff_byId
  · rw [holds.names]
    exact r.names_sorted
  · rw [holds.idOf, holds.require, holds.byId]
    obtain ⟨known, required⟩ := Registry.require_of_mem there
    exact ⟨known, required, Registry.byId_of_mem there⟩
  · rw [holds.idOf, holds.require]
    exact Registry.require_of_unregistered unknown
  · rw [Option.eq_none_iff_forall_ne_some]
    intro d found
    obtain ⟨there, same⟩ := byName.1 found
    exact Bool.noConfusion ((different d there).symm.trans same)

namespace Sample

/-- Three types to register, one under a name beyond ASCII. -/
def threeTypes : List Declaration := [.composite taz, .composite pair, .composite size]

/-- The three types are registered. A name in another case finds its type, one with a letter beyond
ASCII in another case does not, and one that collides finds nothing although its hash is known. -/
theorem registered_lookups_threeTypes :
    ∃ t, TypeTables.empty.registerAll threeTypes = .ok t ∧ t.size = 3 ∧
      t.byName "PAIR" = some pair ∧ t.byName "gRößE" = some size ∧ t.byName "GRÖßE" = none ∧
      t.byId (typeId "Tb[") = some taz ∧ t.byName "Tb[" = none ∧ t.byType pair.type = some pair ∧
      t.require other.type = .error (.unregistered "Other") := by
  -- the registry of the three types is evaluated, and the tables come to the same
  cases registered : Registry.empty.registerAll threeTypes with
  | error e =>
    have succeeds : (Registry.empty.registerAll threeTypes).toBool := by decide +kernel
    rw [registered] at succeeds
    cases succeeds
  | ok r =>
    obtain ⟨t, built, _⟩ := (registered ▸ TypeTables.holds_empty.registerAll threeTypes).to_ok
    obtain ⟨ds, types, _, byId, byType, size, _, _, unknown, byName, missed, _⟩ :=
      registered_lookups built
    obtain rfl : ds = [taz, pair, Sample.size] :=
      List.map_injective_iff.2 (fun _ _ => Declaration.composite.inj) types.symm
    exact ⟨t, built, size, (byName _ _).2 (by decide +kernel), (byName _ _).2 (by decide +kernel),
      missed _ (by decide +kernel), (byId _ _).2 (by decide +kernel), missed _ (by decide +kernel),
      (byType _ _).2 (by decide +kernel), (unknown _ (by decide +kernel)).2⟩

end Sample

end RemoteDispatch
