import RemoteDispatch.Proofs.Bounds
import RemoteDispatch.Proofs.Extension
import RemoteDispatch.Proofs.Registration

/-!
# One program under two registries

A program that writes or reads runs under some registry but does not see into
it. It writes values and reads objects, and what the registry is asked on the
way stays between the registry and the operation. Such programs are called
uniform here (`Script.Uniform`, `Decoder.Uniform`): they are the same whatever
the registry.

What a uniform program does can differ between two registries only where they
answer a look-up differently. `Registry.Within` allows them to do so where the
first has no answer, and then the first ends the operation with an error of a
given kind. So the two runs of the program go hand in hand up to that error, and
if it does not come they are the same run (`Script.Uniform.followed`,
`Decoder.Uniform.followed`).

Which errors may end the first run is a parameter. With the errors of look-ups
for it, the second registry may know more types than the first. With no error at
all for it, the two answer everything alike.

A program must not go on after one of these errors, for what it did next would
tell the registries apart. It may go on after any other.
-/

namespace RemoteDispatch

/-- The error says what a registry does not know, or that it knows another type. -/
def CodecError.isLookup : CodecError → Bool
  | unregistered _ => true
  | unknownTypeId _ => true
  | typeMismatch _ _ => true
  | _ => false

/-- **The result stands**: it is a value, or an error other than the excused ones. -/
def Stands {α : Type} (excused : CodecError → Bool) (result : Except CodecError α) : Prop :=
  ∀ e, result = .error e → excused e = false

theorem stands_ok {α : Type} {excused : CodecError → Bool} (a : α) :
    Stands excused (.ok a : Except CodecError α) := nofun

theorem stands_error_iff {α : Type} {excused : CodecError → Bool} {e : CodecError} :
    Stands excused (.error e : Except CodecError α) ↔ excused e = false := by
  constructor
  · exact fun stands => stands e rfl
  · rintro h _ ⟨⟩
    exact h

theorem not_stands_error {α : Type} {excused : CodecError → Bool} {e : CodecError}
    (h : excused e) : ¬Stands excused (.error e : Except CodecError α) := fun stands =>
  Bool.noConfusion (h.symm.trans (stands_error_iff.1 stands))

variable {excused : CodecError → Bool}

/-! ## Registries -/

/-- **The second registry answers what the first answers.** It may answer more where an excused
error comes of the first having no answer. An unknown id is found in one of two ways, by a reader
that expects another type and by one that expects any. -/
structure Registry.Within (excused : CodecError → Bool) (r s : Registry) : Prop where
  byKey : ∀ k, s.byKey k = r.byKey k ∨ r.byKey k = none ∧ ∀ name, excused (.unregistered name)
  byId : ∀ id, s.byId id = r.byId id ∨ r.byId id = none ∧ excused (.unknownTypeId id) ∧
    ∀ expected found, excused (.typeMismatch expected found)

/-! ## Writing -/

namespace Emission

/-- **What is written under the second registry goes on from what is written under the first**, and
only if that gave up with an excused error. -/
def FollowedBy (excused : CodecError → Bool) (e other : Emission) : Prop :=
  other = e ∨ ∃ err, excused err ∧ e.stop = some err ∧ e.runs <+: other.runs

theorem FollowedBy.refl (e : Emission) : e.FollowedBy excused e := .inl rfl

/-- Where nothing was written before an excused error, anything may be. -/
theorem FollowedBy.of_fail {err : CodecError} (h : excused err) (other : Emission) :
    (fail err).FollowedBy excused other := .inr ⟨err, h, rfl, List.nil_prefix⟩

theorem andThen_of_stop {e other : Emission} {err : CodecError} (h : e.stop = some err) :
    e.andThen other = e := by
  unfold andThen
  rw [h]

/-- The runs of an emission come first, whatever is emitted after it. -/
theorem runs_prefix_andThen (e other : Emission) : e.runs <+: (e.andThen other).runs := by
  unfold andThen
  split
  · exact List.prefix_rfl
  · exact List.prefix_append _ _

theorem FollowedBy.andThen {a a' b b' : Emission} (h : a.FollowedBy excused a')
    (h' : b.FollowedBy excused b') : (a.andThen b).FollowedBy excused (a'.andThen b') := by
  obtain rfl | ⟨err, excuse, stop, runs⟩ := h
  · cases stop : a'.stop with
    | some err =>
      rw [andThen_of_stop stop, andThen_of_stop stop]
      exact .refl _
    | none =>
      obtain rfl | ⟨err, excuse, stop', runs⟩ := h'
      · exact .refl _
      · unfold Emission.andThen
        rw [stop]
        exact .inr ⟨err, excuse, stop', (List.prefix_append_right_inj _).2 runs⟩
  · rw [andThen_of_stop stop]
    exact .inr ⟨err, excuse, stop, runs.trans (runs_prefix_andThen a' b')⟩

end Emission

namespace Writer

variable {w : Writer}

/-- Runs that are refused on the way are refused whatever comes behind them. -/
theorem putAll_append_of_error {runs more : List Bytes} {err : CodecError} {w' : Writer}
    (refused : w.putAll runs = (.error err, w')) : w.putAll (runs ++ more) = (.error err, w') := by
  induction runs generalizing w with
  | nil => cases refused
  | cons run runs ih =>
    rw [List.cons_append]
    unfold putAll at refused ⊢
    rcases hput : w.put run with ⟨e | ⟨⟩, w₁⟩
    · rw [hput] at refused
      exact refused
    · rw [hput] at refused
      exact ih refused

/-- **An operation whose result stands goes alike under both registries.** -/
theorem perform_of_followedBy {e other : Emission} (h : e.FollowedBy excused other)
    (stands : Stands excused (w.perform e).1) : w.perform other = w.perform e := by
  obtain rfl | ⟨err, excuse, stop, more, runs⟩ := h
  · rfl
  · unfold perform at stands ⊢
    rw [stop] at stands ⊢
    rcases hput : w.putAll e.runs with ⟨refusal | ⟨⟩, w'⟩
    · rw [← runs, putAll_append_of_error hput]
    · -- every run was accepted, so that the operation ended with the excused error
      rw [hput] at stands
      exact absurd stands (not_stands_error excuse)

end Writer

namespace Registry.Within

variable {r s : Registry} (h : r.Within excused s)
include h

theorem framing (called : TypeKey → String) (t : TypeRef) :
    (r.framing called t).FollowedBy excused (s.framing called t) := by
  cases t with
  | primitive p => exact .refl _
  | composite k =>
    rw [Registry.framing, Registry.framing]
    obtain same | ⟨unknown, excuse⟩ := h.byKey k
    · rw [same]
      exact .refl _
    · rw [unknown]
      exact .of_fail (excuse _) _

theorem absentFrame (t : TypeRef) : (r.absentFrame t).FollowedBy excused (s.absentFrame t) := by
  cases t with
  | primitive p => exact .refl _
  | composite k =>
    rw [Registry.absentFrame, Registry.absentFrame, check, check]
    obtain same | ⟨unknown, excuse⟩ := h.byKey k
    · rw [same]
      exact .refl _
    · rw [unknown]
      exact .of_fail (excuse _) _

/-- **A value writes under both what it writes under the first.** -/
theorem emit (v : Datum) : (r.emit v).FollowedBy excused (s.emit v) := by
  induction v with
  | cons head tail ih₁ ih₂ => exact ih₁.andThen ih₂
  | seq cells ih => exact (Emission.FollowedBy.refl _).andThen ih
  | object t payload ih =>
    rw [emit_object_eq, emit_object_eq]
    exact (h.framing _ t).andThen ih
  | dynamic t payload ih =>
    rw [emit_dynamic_eq, emit_dynamic_eq]
    exact (h.framing _ t).andThen ih
  | absent t => exact h.absentFrame t
  | nil | byte | scalar | noText | noSeq | null | bounded => exact .refl _

theorem emitPayload (d : Descriptor) (t : TypeRef) (payload : Datum) :
    (r.emitPayload d t payload).FollowedBy excused (s.emitPayload d t payload) := by
  unfold Registry.emitPayload encodeAs
  split
  · exact h.emit payload
  · exact .refl _

end Registry.Within

/-- **What one operation of writing may emit**: something that needs no registry, a value, the
payload of a value for a given descriptor, or several of these in a row. -/
inductive Emission.Uniform : (Registry → Emission) → Prop where
  | plain (e : Emission) : Uniform fun _ => e
  | value (v : Datum) : Uniform fun r => r.emit v
  | payload (d : Descriptor) (t : TypeRef) (v : Datum) : Uniform fun r => r.emitPayload d t v
  | andThen {e other : Registry → Emission} (first : Uniform e) (second : Uniform other) :
      Uniform fun r => (e r).andThen (other r)

theorem Emission.Uniform.followed {e : Registry → Emission} (uniform : Uniform e) {r s : Registry}
    (h : r.Within excused s) : (e r).FollowedBy excused (e s) := by
  induction uniform with
  | plain e => exact .refl e
  | value v => exact h.emit v
  | payload d t v => exact h.emitPayload d t v
  | andThen _ _ ih₁ ih₂ => exact ih₁.andThen ih₂

/-- **The programs of writing.** After each operation they may do what they like, as its outcome and
the position suggest, but they stop at an excused error. -/
inductive Script.Uniform (excused : CodecError → Bool) {α : Type} :
    (Registry → Script (Except CodecError α)) → Prop where
  | finish (result : Except CodecError α) : Uniform excused fun _ => .finish result
  | write {e : Registry → Emission}
      {next : Except CodecError Unit → Nat → Registry → Script (Except CodecError α)}
      (operation : Emission.Uniform e)
      (others : ∀ outcome position, Uniform excused (next outcome position))
      (passed : ∀ err position, excused err → next (.error err) position = fun _ =>
        .finish (.error err)) :
      Uniform excused fun r => .write (e r) fun outcome position => next outcome position r

/-- **A program of writing whose result stands does the same under both registries**: the same bytes
in the same places, and the same result. -/
theorem Script.Uniform.followed {α : Type} {write : Registry → Script (Except CodecError α)}
    (uniform : Uniform excused write) {r s : Registry} (h : r.Within excused s) (w : Writer)
    (stands : Stands excused ((write r).run w).1) : (write s).run w = (write r).run w := by
  induction uniform generalizing w with
  | finish result => rfl
  | @write e next operation others passed ih =>
    unfold run at stands ⊢
    have first : Stands excused (w.perform (e r)).1 := by
      intro err failed
      rcases hp : w.perform (e r) with ⟨outcome, w'⟩
      rw [hp] at stands failed
      obtain rfl : outcome = .error err := failed
      refine Bool.eq_false_iff.2 fun excuse => ?_
      dsimp only at stands
      rw [passed err w'.position excuse] at stands
      exact not_stands_error excuse stands
    rw [Writer.perform_of_followedBy (operation.followed h) first]
    exact ih _ _ _ stands

/-! ## Reading -/

namespace Reader

variable {α β : Type}

/-- **The second reader does what the first does** wherever the result of the first stands. -/
def FollowedBy (excused : CodecError → Bool) (read other : Reader α) : Prop :=
  ∀ c, Stands excused (read.runFrom c).1 → other.runFrom c = read.runFrom c

/-- Reads on without moving, and fails where that reading fails. -/
def ahead (read : Reader α) : Reader α := do
  match (read.runFrom (← get)).1 with
  | .ok a => return a
  | .error e => throw e

theorem runFrom_ahead (read : Reader α) (c : Cursor) :
    (ahead read).runFrom c = ((read.runFrom c).1, c) := by
  unfold ahead
  rw [runFrom_bind, runFrom_get]
  dsimp only
  cases (read.runFrom c).1 with
  | ok a => rfl
  | error e => rfl

namespace FollowedBy

theorem refl (read : Reader α) : read.FollowedBy excused read := fun _ _ => rfl

/-- What fails with an excused error may be followed by anything. -/
theorem of_throw {e : CodecError} (h : excused e) (other : Reader α) :
    (throw e : Reader α).FollowedBy excused other := fun _ stands =>
  absurd stands (not_stands_error h)

theorem bind {read other : Reader α} {next next' : α → Reader β}
    (h : read.FollowedBy excused other) (h' : ∀ a, (next a).FollowedBy excused (next' a)) :
    (read >>= next).FollowedBy excused (other >>= next') := by
  intro c stands
  have first := h c
  rw [runFrom_bind] at stands ⊢
  rw [runFrom_bind]
  rcases hr : read.runFrom c with ⟨e | a, d⟩
  · rw [hr] at first stands
    rw [first (stands_error_iff.2 (stands_error_iff.1 stands))]
  · rw [hr] at first stands
    rw [first (stands_ok a)]
    exact h' a d stands

theorem map {read other : Reader α} (h : read.FollowedBy excused other) (f : α → β) :
    (f <$> read).FollowedBy excused (f <$> other) := by
  rw [← bind_pure_comp, ← bind_pure_comp]
  exact h.bind fun a => .refl _

theorem recover {read other : Reader α} {handler handler' : CodecError → Reader α}
    (h : read.FollowedBy excused other) (h' : ∀ e, (handler e).FollowedBy excused (handler' e))
    (passed : ∀ e, excused e → handler e = throw e) :
    (tryCatch read handler).FollowedBy excused (tryCatch other handler') := by
  intro c stands
  have first := h c
  rw [runFrom_tryCatch] at stands ⊢
  rw [runFrom_tryCatch]
  rcases hr : read.runFrom c with ⟨e | a, d⟩
  · rw [hr] at first stands
    cases excuse : excused e with
    | true =>
      dsimp only at stands
      rw [passed e excuse] at stands
      exact absurd stands (not_stands_error excuse)
    | false =>
      rw [first (stands_error_iff.2 excuse)]
      exact h' e d stands
  · rw [hr] at first
    rw [first (stands_ok a)]

theorem ahead {read other : Reader α} (h : read.FollowedBy excused other) :
    (ahead read).FollowedBy excused (ahead other) := by
  intro c stands
  rw [runFrom_ahead] at stands ⊢
  rw [runFrom_ahead, h c stands]

end FollowedBy

end Reader

namespace Registry.Within

variable {r s : Registry} {payload other : Descriptor → Reader Datum}
  (h : r.Within excused s) (h' : ∀ d, (payload d).FollowedBy excused (other d))
include h h'

theorem readObject (t : TypeRef) :
    (r.readObject payload t).FollowedBy excused (s.readObject other t) := by
  cases t with
  | primitive p => exact .refl _
  | composite k =>
    rw [Registry.readObject, Registry.readObject]
    obtain same | ⟨unknown, excuse⟩ := h.byKey k
    · rw [same]
      cases r.byKey k with
      | none => exact .refl _
      | some d =>
        refine .bind (.refl _) fun tag => ?_
        split
        · exact .refl _
        · split
          · refine .bind (.refl _) fun id => ?_
            split
            · exact h' d
            · -- the type that was found instead is named, if it is known
              obtain same | ⟨unknown, _, excuse⟩ := h.byId id
              · rw [same]
                exact .refl _
              · rw [unknown]
                exact .of_throw (excuse _ _) _
          · exact .refl _
    · rw [unknown]
      exact .of_throw (excuse _) _

theorem readNullable (t : TypeRef) :
    (r.readNullable payload t).FollowedBy excused (s.readNullable other t) := by
  have object := h.readObject h' t
  have present : (do
        if (← Reader.peek) = nullTag then
          let _ ← Reader.byte
          return none
        else some <$> r.readObject payload t : Reader (Option Datum)).FollowedBy excused (do
        if (← Reader.peek) = nullTag then
          let _ ← Reader.byte
          return none
        else some <$> s.readObject other t) := by
    refine .bind (.refl _) fun b => ?_
    split
    · exact .refl _
    · exact object.map some
  rw [Registry.readNullable, Registry.readNullable]
  cases t with
  | primitive p => exact present
  | composite k =>
    rw [check, check]
    obtain same | ⟨unknown, excuse⟩ := h.byKey k
    · rw [same]
      cases r.byKey k with
      | none => exact .refl _
      | some d => exact present
    · rw [unknown]
      exact .of_throw (excuse _) _

theorem readAny : (r.readAny payload).FollowedBy excused (s.readAny other) := by
  unfold Registry.readAny
  refine .bind (.refl _) fun tag => ?_
  split
  · exact .refl _
  · split
    · exact .refl _
    · split
      · refine .bind (.refl _) fun id => ?_
        obtain same | ⟨unknown, excuse, _⟩ := h.byId id
        · rw [same]
          cases r.byId id with
          | none => exact .refl _
          | some d => exact (h' d).map _
        · rw [unknown]
          exact .of_throw excuse _
      · exact .refl _

end Registry.Within

/-- **The programs of reading.** They are put together from readers that need no registry and from
the readers of objects and payloads, by sequencing, by reading on without moving and by going on
after a failure, unless it is an excused one. -/
inductive Decoder.Uniform (excused : CodecError → Bool)
    (payload : Registry → Descriptor → Reader Datum) : {α : Type} → Decoder α → Prop where
  | plain {α : Type} (read : Reader α) : Uniform excused payload fun _ => read
  | object (t : TypeRef) : Uniform excused payload fun r => r.readObject (payload r) t
  | nullable (t : TypeRef) : Uniform excused payload fun r => r.readNullable (payload r) t
  | any : Uniform excused payload fun r => r.readAny (payload r)
  | payload (d : Descriptor) : Uniform excused payload fun r => payload r d
  | bind {α β : Type} {read : Decoder α} {next : α → Decoder β}
      (first : Uniform excused payload read) (others : ∀ a, Uniform excused payload (next a)) :
      Uniform excused payload fun r => read r >>= fun a => next a r
  | ahead {α : Type} {read : Decoder α} (tried : Uniform excused payload read) :
      Uniform excused payload fun r => (read r).ahead
  | recover {α : Type} {read : Decoder α} {handler : CodecError → Decoder α}
      (tried : Uniform excused payload read)
      (handled : ∀ e, Uniform excused payload (handler e))
      (passed : ∀ e, excused e → handler e = fun _ => throw e) :
      Uniform excused payload fun r => tryCatch (read r) fun e => handler e r

namespace Decoder.Uniform

variable {payload : Registry → Descriptor → Reader Datum} {α β : Type}

theorem map {read : Decoder α} (h : Uniform excused payload read) (f : α → β) :
    Uniform excused payload fun r => f <$> read r := by
  simp only [← bind_pure_comp]
  exact h.bind fun a => .plain (pure (f a))

theorem times {item : Decoder α} (h : Uniform excused payload item) (n : Nat) :
    Uniform excused payload fun r => Reader.times (item r) n := by
  induction n with
  | zero => exact .plain _
  | succ n ih => exact h.bind fun first => ih.bind fun others => .plain _

theorem seq? {item : Decoder α} (h : Uniform excused payload item) :
    Uniform excused payload fun r => Reader.seq? (item r) := by
  refine .bind (.plain Reader.length?) fun n => ?_
  rcases n with _ | n
  · exact .plain _
  · exact (h.times n).map some

theorem seq {item : Decoder α} (h : Uniform excused payload item) :
    Uniform excused payload fun r => Reader.seq (item r) := by
  refine h.seq?.bind fun items => ?_
  rcases items with _ | items
  · exact .plain _
  · exact .plain _

/-- **Every shape is read by such a program.** -/
theorem readAs (s : Shape) : Uniform excused payload fun r => r.readAs (payload r) s := by
  induction s with
  | pair _ _ ih₁ ih₂ => exact ih₁.bind fun _ => ih₂.bind fun _ => .plain _
  | seq _ ih => exact ih.seq.map _
  | nullableSeq _ ih =>
    refine ih.seq?.bind fun items => ?_
    rcases items with _ | items
    · exact .plain _
    · exact .plain _
  | object t => exact (Uniform.object t).map _
  | nullable t =>
    refine (Uniform.nullable t).bind fun d => ?_
    rcases d with _ | d
    · exact .plain _
    · exact .plain _
  | any => exact .any
  | flagged _ ih =>
    refine .bind (.plain Reader.byte) fun b => ?_
    cases hb : b != 0 with
    | true => exact ih.map _
    | false => exact .plain _
  | unit | byte | scalar | text | textOrEmpty | bounded => exact .plain _

/-- Programs go alike under both registries if the readers of payloads do. -/
theorem followedWith {read : Decoder α} (uniform : Uniform excused payload read) {r s : Registry}
    (h : r.Within excused s)
    (payloads : ∀ d, (payload r d).FollowedBy excused (payload s d)) :
    (read r).FollowedBy excused (read s) := by
  induction uniform with
  | plain read => exact .refl read
  | object t => exact h.readObject payloads t
  | nullable t => exact h.readNullable payloads t
  | any => exact h.readAny payloads
  | payload d => exact payloads d
  | bind _ _ ih₁ ih₂ => exact ih₁.bind ih₂
  | ahead _ ih => exact ih.ahead
  | recover _ _ passed ih₁ ih₂ =>
    exact ih₁.recover ih₂ fun e excuse => congrFun (passed e excuse) _

end Decoder.Uniform

/-- The payload of a type is read alike under both registries, by induction on the depth to which
payloads are nested: a shape is read by a program over the payloads one level below. -/
theorem Registry.Within.payload {r s : Registry} (h : r.Within excused s) (d : Descriptor) :
    (r.payload d).FollowedBy excused (s.payload d) := by
  have nested (n : Nat) (d : Descriptor) :
      (r.readPayload n d).FollowedBy excused (s.readPayload n d) := by
    induction n generalizing d with
    | zero => exact .refl _
    | succ n ih =>
      have shape : Decoder.Uniform excused (fun r => r.readPayload n)
          fun r => r.readAs (r.readPayload n) d.shape := .readAs d.shape
      exact shape.followedWith h ih
  intro c stands
  rw [runFrom_payload] at stands ⊢
  rw [runFrom_payload]
  exact nested _ d c stands

/-- **A program of reading whose result stands does the same under both registries**: the same value
or error, and the cursor in the same place. -/
theorem Decoder.Uniform.followed {α : Type} {read : Decoder α}
    (uniform : Uniform excused Registry.payload read) {r s : Registry} (h : r.Within excused s) :
    (read r).FollowedBy excused (read s) :=
  uniform.followedWith h h.payload

end RemoteDispatch
