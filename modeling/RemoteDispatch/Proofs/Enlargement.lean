import RemoteDispatch.Proofs.Uniform

/-!
# Registering more types

A side that learns new types goes on speaking to sides that know nothing of
them. This module says that nothing it could do before comes out differently:
what a program writes under a registry it writes under every registry that more
types have been added to, and what it makes of a message it goes on making of
it. The only results that may change are those in which the smaller registry
said that it does not know a type.

The reason is that registration adds at the end and refuses to let an id or an
identity be taken twice, so that every look-up that had an answer keeps it
(`Registry.within_of_subset`). The rest is `Proofs.Uniform`.
-/

namespace RemoteDispatch

namespace Registry

variable {r s : Registry}

/-- What is found by identity is found in a registry with more types. -/
theorem byKey_of_subset (more : r.types ⊆ s.types) {k : TypeKey} {d : Descriptor}
    (found : r.byKey k = some d) : s.byKey k = some d := by
  obtain ⟨registered, key⟩ := byKey_eq_some_iff.1 found
  exact byKey_eq_some_iff.2 ⟨more registered, key⟩

/-- What is found by id is found in a registry with more types. -/
theorem byId_of_subset (more : r.types ⊆ s.types) {id : Int32} {d : Descriptor}
    (found : r.byId id = some d) : s.byId id = some d := by
  obtain ⟨registered, same⟩ := byId_eq_some_iff.1 found
  exact byId_eq_some_iff.2 ⟨more registered, same⟩

/-- **A registry with more types answers what one with fewer answers.** -/
theorem within_of_subset (more : r.types ⊆ s.types) : r.Within CodecError.isLookup s where
  byKey k := by
    cases found : r.byKey k with
    | none => exact .inr ⟨rfl, fun _ => rfl⟩
    | some d => exact .inl (byKey_of_subset more found)
  byId id := by
    cases found : r.byId id with
    | none => exact .inr ⟨rfl, rfl, fun _ _ => rfl⟩
    | some d => exact .inl (byId_of_subset more found)

theorem subset_of_registerAll {xs : List Declaration} (further : r.registerAll xs = .ok s) :
    r.types ⊆ s.types := by
  obtain ⟨ds, _, held⟩ := types_of_registerAll further
  rw [held]
  exact List.subset_append_left _ _

end Registry

/-! ## Programs of the library -/

variable {excused : CodecError → Bool}

/-- Values are written in order by a uniform program. -/
theorem Script.uniform_inOrder (values : List Datum) :
    Script.Uniform excused fun r => Script.inOrder r values := by
  induction values with
  | nil => exact .finish _
  | cons d ds ih =>
    unfold inOrder
    refine .write (.value d) (fun outcome position => ?_) fun err position _ => rfl
    cases outcome with
    | ok _ => exact ih
    | error e => exact .finish _

namespace Decoder.Uniform

variable {payload : Registry → Descriptor → Reader Datum} {α : Type}

theorem timesFrom {item : Nat → Decoder α} (h : ∀ i, Uniform excused payload (item i))
    (place n : Nat) :
    Uniform excused payload fun r => Reader.timesFrom (fun i => item i r) place n := by
  induction n generalizing place with
  | zero => exact .plain _
  | succ n ih => exact (h place).bind fun first => (ih _).bind fun others => .plain _

theorem seqWith? {item : Nat → Decoder α} (h : ∀ i, Uniform excused payload (item i)) :
    Uniform excused payload fun r => Reader.seqWith? fun i => item i r := by
  refine .bind (.plain Reader.length?) fun n => ?_
  rcases n with _ | n
  · exact .plain _
  · exact (timesFrom h 0 n).map some

/-- A plan is followed by a uniform program. -/
theorem follow (p : Plan) : Uniform excused Registry.payload fun r => r.follow p := by
  induction p with
  | part s => exact readAs s
  | both _ _ ih₁ ih₂ => exact ih₁.bind fun _ => ih₂.bind fun _ => .plain _
  | seq item ih =>
    refine map ((seqWith? ih).bind fun items => ?_) _
    rcases items with _ | items
    · exact .plain _
    · exact .plain _
  | nullableSeq item ih =>
    refine (seqWith? ih).bind fun items => ?_
    rcases items with _ | items
    · exact .plain _
    · exact .plain _

theorem followAll (ps : List Plan) :
    Uniform excused Registry.payload fun r => r.followAll ps := by
  induction ps with
  | nil => exact .plain _
  | cons p ps ih => exact (follow p).bind fun _ => ih.bind fun _ => .plain _

end Decoder.Uniform

/-- **Registering more types never changes the meaning of a message.** Let any further types be
registered on top of a registry. A program of writing whose result is a success, or an error that is
not one of look-up, has the same result under the larger registry and leaves the same bytes in the
buffer and the writer in the same place. And so has a program of reading: from every place in every
message it has the same result and stops in the same place. -/
theorem meaning_survives_registration {r s : Registry} {xs : List Declaration}
    (further : r.registerAll xs = .ok s) :
    (∀ {α : Type} {write : Registry → Script (Except CodecError α)},
      Script.Uniform CodecError.isLookup write → ∀ (w w' : Writer),
        (∀ a, (write r).run w = (.ok a, w') → (write s).run w = (.ok a, w')) ∧
        ∀ e, e.isLookup = false →
          (write r).run w = (.error e, w') → (write s).run w = (.error e, w')) ∧
    ∀ {α : Type} {read : Decoder α},
      Decoder.Uniform CodecError.isLookup Registry.payload read → ∀ (c c' : Cursor),
        (∀ a, (read r).runFrom c = (.ok a, c') → (read s).runFrom c = (.ok a, c')) ∧
        ∀ e, e.isLookup = false →
          (read r).runFrom c = (.error e, c') → (read s).runFrom c = (.error e, c') := by
  have within := Registry.within_of_subset (Registry.subset_of_registerAll further)
  refine ⟨fun {α write} uniform w w' => ⟨fun a done => ?_, fun e other done => ?_⟩,
    fun {α read} uniform c c' => ⟨fun a done => ?_, fun e other done => ?_⟩⟩
  · rw [uniform.followed within w (by rw [done]; exact stands_ok a), done]
  · rw [uniform.followed within w (by rw [done]; exact stands_error_iff.2 other), done]
  · rw [uniform.followed within c (by rw [done]; exact stands_ok a), done]
  · rw [uniform.followed within c (by rw [done]; exact stands_error_iff.2 other), done]

namespace Sample

/-- Types that the reading side does not know yet. -/
def furtherTypes : List Declaration := [.composite other, .composite bag, .composite picky]

/-- With the further types registered, `messageValues` are written as before, a byte past its bound
is refused as before, the bytes of a pair are read as before, and a tag that announces nothing is
met in the same place. -/
theorem meaning_survives_registration_furtherTypes :
    ∃ s, readingSide.registerAll furtherTypes = .ok s ∧
      (Script.inOrder s messageValues).run (.start (.ofBytes [9])) =
        (.ok (), ((Script.inOrder readingSide messageValues).run (.start (.ofBytes [9]))).2) ∧
      (Script.inOrder s [.bounded 100 200]).run (.start (.ofBytes [])) =
        (.error (.tooLarge 200), ⟨⟨#[200], 1, 0, none⟩, 1⟩) ∧
      (s.followAll [.part (.pair .byte .text)]).runFrom (.start [7, 255, 255, 255, 255, 1]) =
        (.ok [.cons (.byte 7) .noText], ⟨5, [1]⟩) ∧
      (s.readNullable s.payload (.composite pair.key)).runFrom (.start [99]) =
        (.error (.invalidTag 99), ⟨1, []⟩) := by
  cases further : readingSide.registerAll furtherTypes with
  | error e =>
    have succeeds : (readingSide.registerAll furtherTypes).toBool := by decide +kernel
    rw [further] at succeeds
    cases succeeds
  | ok s =>
    obtain ⟨writing, reading⟩ := meaning_survives_registration further
    have written : (Script.inOrder readingSide messageValues).run (.start (.ofBytes [9])) =
        (.ok (), ((Script.inOrder readingSide messageValues).run (.start (.ofBytes [9]))).2) :=
      Prod.ext (by decide +kernel) rfl
    refine ⟨s, rfl,
      (writing (Script.uniform_inOrder _) _ _).1 _ written,
      (writing (Script.uniform_inOrder _) _ _).2 _ rfl (by decide +kernel),
      (reading (.followAll _) _ _).1 _ (by decide +kernel),
      (reading (.nullable _) _ _).2 _ rfl (by decide +kernel)⟩

end Sample

end RemoteDispatch
