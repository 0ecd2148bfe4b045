import RemoteDispatch.Proofs.RoundTrip

/-!
# Messages that go on

A reader looks only at the bytes it takes. So bytes behind a message change
nothing about how it is read, with one exception: a reader that ran out of
bytes may find some now. `Reader.Stable` is this law for one reader, and
`Registry.Program` is the class of readers it holds of: everything that can be
put together from the blocks of the library by sequencing, branching, failing
and going on after a failure, as long as running out of bytes is passed on and
the number of bytes ahead is not asked for.

Truncation is the same law read backwards. If a program takes a whole message,
no strict prefix of the message can have any other outcome than that it ends
too early: any other outcome would have come with the rest of the message left
over.
-/

namespace RemoteDispatch

/-- The same place in a message that goes on. -/
def Cursor.extend (c : Cursor) (more : Bytes) : Cursor := { c with rest := c.rest ++ more }

namespace Reader

variable {α β : Type}

/-- The number of bytes read. -/
def position : Reader Nat := do
  return (← get).position

/-- Going on after a failure starts where the failed reader has left the cursor. -/
theorem runFrom_tryCatch (read : Reader α) (handler : CodecError → Reader α) (c : Cursor) :
    (tryCatch read handler : Reader α).runFrom c =
      match read.runFrom c with
      | (.ok a, d) => (.ok a, d)
      | (.error e, d) => (handler e).runFrom d := by
  have unfolded : tryCatch read handler = ExceptT.tryCatch read handler := rfl
  simp only [runFrom, unfolded, ExceptT.tryCatch, ExceptT.run_mk, StateT.run_bind]
  rw [show StateT.run read c = read.run.run c from rfl]
  rcases read.run.run c with ⟨e | a, d⟩
  · rfl
  · rfl

/-! ## Stable readers -/

/-- **Bytes behind the message do not matter** to a reader that does not run out of bytes: it has
the same outcome and stops in the same place. -/
def Stable (read : Reader α) : Prop :=
  ∀ c more, (read.runFrom c).1 ≠ .error .unexpectedEnd →
    read.runFrom (c.extend more) = ((read.runFrom c).1, (read.runFrom c).2.extend more)

theorem Stable.bind {read : Reader α} {next : α → Reader β} (h : Stable read)
    (h' : ∀ a, Stable (next a)) : Stable (read >>= next) := by
  intro c more enough
  have first := h c more
  rw [runFrom_bind] at enough ⊢
  rw [runFrom_bind]
  rcases hr : read.runFrom c with ⟨e | a, d⟩
  · rw [hr] at enough first
    rw [first fun h => enough (by cases h; rfl)]
  · rw [hr] at enough first
    rw [first fun h => nomatch h]
    exact h' a d more enough

theorem stable_take (n : Nat) : Stable (take n) := by
  intro c more enough
  rw [runFrom_take] at enough ⊢
  rw [runFrom_take]
  rcases cut : splitExact? n c.rest with _ | ⟨front, rest⟩
  · rw [cut] at enough
    exact absurd rfl enough
  · obtain ⟨hrest, hlength⟩ := splitExact?_eq_some_iff.1 cut
    have longer : splitExact? n (c.extend more).rest = some (front, rest ++ more) := by
      refine splitExact?_eq_some_iff.2 ⟨?_, hlength⟩
      rw [← List.append_assoc, ← hrest]
      rfl
    rw [longer]
    rfl

theorem stable_peek : Stable peek := by
  rintro ⟨position, _ | ⟨b, bs⟩⟩ more enough
  · exact absurd rfl enough
  · rfl

/-- **Readers are stable.** -/
theorem stable_closed : Closed fun _ read => read.Stable where
  pure _ _ _ _ := rfl
  throw _ _ _ _ := rfl
  take := stable_take
  peek := stable_peek
  bind := Stable.bind

/-- Going on after a failure is stable if running out of bytes is passed on. -/
theorem Stable.tryCatch {read : Reader α} {handler : CodecError → Reader α} (h : Stable read)
    (h' : ∀ e, Stable (handler e)) (passed : handler .unexpectedEnd = throw .unexpectedEnd) :
    Stable (tryCatch read handler) := by
  intro c more enough
  have first := h c more
  rw [runFrom_tryCatch] at enough ⊢
  rw [runFrom_tryCatch]
  rcases hr : read.runFrom c with ⟨e | a, d⟩
  · rw [hr] at enough first
    by_cases he : e = .unexpectedEnd
    · subst he
      have ended : ((handler .unexpectedEnd).runFrom d).1 = .error .unexpectedEnd := by
        rw [passed, runFrom_throw]
      exact absurd ended enough
    · rw [first fun h => he (by cases h; rfl)]
      exact h' e d more enough
  · rw [hr] at enough first
    rw [first fun h => nomatch h]

/-- **What takes a whole message detects that it was cut.** On a strict prefix of the message a
stable reader runs out of bytes. -/
theorem Stable.eval_of_cut {read : Reader α} (h : Stable read) {front more : Bytes} {a : α}
    {position : Nat} (whole : read.runFrom (.start (front ++ more)) = (.ok a, ⟨position, []⟩))
    (cut : more ≠ []) : read.eval front = .error .unexpectedEnd := by
  by_contra enough
  have longer := h (.start front) more enough
  have stopped : (read.runFrom (.start front)).2.extend more = ⟨position, []⟩ :=
    congrArg Prod.snd (longer.symm.trans whole)
  have left : (read.runFrom (.start front)).2.rest ++ more = [] := congrArg Cursor.rest stopped
  exact cut (List.append_eq_nil_iff.1 left).2

end Reader

/-! ## Programs -/

namespace Registry

variable {r : Registry}

/-- Payloads are read in the same way however far the message goes on. -/
theorem stable_payload (d : Descriptor) : (r.payload d).Stable := by
  intro c more
  -- the depth is taken from the bytes ahead, and one that suffices for the longer message suffices
  have deep : c.rest.length < (c.extend more).rest.length + 1 :=
    Nat.lt_succ_of_le (by rw [Cursor.extend, List.length_append]; exact Nat.le_add_right _ _)
  rw [runFrom_payload, runFrom_payload, readPayload_stable d (Nat.lt_succ_self _) deep]
  exact Reader.stable_closed.readPayload _ d c more

/-- **The programs of reading**: what is put together from taking bytes, looking at the next one,
asking for the position and reading payloads, by sequencing, failing and going on after a failure.
No program asks for the number of bytes ahead, and none goes on after it has run out of bytes. -/
inductive Program (r : Registry) : {α : Type} → Reader α → Prop where
  | pure {α : Type} (a : α) : r.Program (pure a : Reader α)
  | throw {α : Type} (e : CodecError) : r.Program (throw e : Reader α)
  | take (n : Nat) : r.Program (Reader.take n)
  | peek : r.Program Reader.peek
  | position : r.Program Reader.position
  | payload (d : Descriptor) : r.Program (r.payload d)
  | bind {α β : Type} {read : Reader α} {next : α → Reader β} (first : r.Program read)
      (others : ∀ a, r.Program (next a)) : r.Program (read >>= next)
  | recover {α : Type} {read : Reader α} {handler : CodecError → Reader α} (tried : r.Program read)
      (handled : ∀ e, r.Program (handler e))
      (passed : handler .unexpectedEnd = MonadExcept.throw .unexpectedEnd) :
      r.Program (tryCatch read handler)

namespace Program

/-- Every reader of the library is a program: words, lengths, texts, sequences of what programs
read, and objects of a given type, of one that may be absent, and of any type. -/
theorem closed (r : Registry) : Reader.Closed fun _ read => r.Program read where
  pure := pure
  throw := throw
  take := take
  peek := peek
  bind := bind

theorem timesFrom {α : Type} {item : Nat → Reader α} (items : ∀ i, r.Program (item i))
    (place n : Nat) : r.Program (Reader.timesFrom item place n) := by
  induction n generalizing place with
  | zero => exact pure _
  | succ n ih => exact bind (items place) fun _ => bind (ih _) fun _ => pure _

/-- A sequence whose items are read by programs is read by a program. -/
theorem seqWith? {α : Type} {item : Nat → Reader α} (items : ∀ i, r.Program (item i)) :
    r.Program (Reader.seqWith? item) := by
  refine bind (closed r).length? fun n => ?_
  rcases n with _ | n
  · exact pure _
  · exact (closed r).map _ (timesFrom items 0 n)

/-- **A plan is followed by a program.** -/
theorem follow (p : Plan) : r.Program (r.follow p) := by
  induction p with
  | part s => exact (closed r).readAs payload s
  | both _ _ ih₁ ih₂ => exact bind ih₁ fun _ => bind ih₂ fun _ => pure _
  | seq item ih =>
    refine (closed r).map _ (bind (seqWith? ih) fun items => ?_)
    rcases items with _ | items
    · exact throw _
    · exact pure _
  | nullableSeq item ih =>
    refine bind (seqWith? ih) fun items => ?_
    rcases items with _ | items
    · exact pure _
    · exact pure _

theorem followAll (ps : List Plan) : r.Program (r.followAll ps) := by
  induction ps with
  | nil => exact pure _
  | cons p ps ih => exact bind (follow p) fun _ => bind ih fun _ => pure _

/-- **Programs are stable.** -/
theorem stable {α : Type} {read : Reader α} (h : r.Program read) : read.Stable := by
  induction h with
  | pure a => exact Reader.stable_closed.pure a
  | throw e => exact Reader.stable_closed.throw e
  | take n => exact Reader.stable_take n
  | peek => exact Reader.stable_peek
  | position => exact fun _ _ _ => rfl
  | payload d => exact stable_payload d
  | bind _ _ ih₁ ih₂ => exact ih₁.bind ih₂
  | recover _ _ passed ih₁ ih₂ => exact ih₁.tryCatch ih₂ passed

end Program

end Registry

/-- **Reading is stable under extension, so truncation is always detected.** A program that succeeds
on a message succeeds with the same value in the same place when the message goes on; one that fails
for another reason than that the message ends too early fails for the same reason in the same place.
So the mirrored program finds every strict prefix of what a program of writing has committed to end
too early. -/
theorem stable_under_extension (r : Registry) :
    (∀ {α : Type} {read : Reader α}, r.Program read → ∀ (message more : Bytes) (a : α) (c : Cursor),
      read.runFrom (.start message) = (.ok a, c) →
        read.runFrom (.start (message ++ more)) = (.ok a, ⟨c.position, c.rest ++ more⟩)) ∧
    (∀ {α : Type} {read : Reader α}, r.Program read → ∀ (message more : Bytes) (e : CodecError)
        (c : Cursor), read.runFrom (.start message) = (.error e, c) → e ≠ .unexpectedEnd →
        read.runFrom (.start (message ++ more)) = (.error e, ⟨c.position, c.rest ++ more⟩)) ∧
    ∀ (rw : Registry) (plans : List Plan) (values : List Datum) (b b' : Buffer) (w : Writer),
      List.Forall₂ r.Mirrors plans values →
        (Script.inOrder rw values).run (.start b) = (.ok (), w) → w.synchronize = .ok b' →
        ∀ front, front <+: b'.committed → front ≠ b'.committed →
          (r.followAll plans).eval front = .error .unexpectedEnd := by
  refine ⟨fun program message more a c succeeds => ?_,
    fun program message more e c fails other => ?_,
    fun rw plans values b b' w mirrored written committed front within strict => ?_⟩
  · have longer := program.stable (.start message) more (by rw [succeeds]; exact nofun)
    rwa [succeeds] at longer
  · have longer := program.stable (.start message) more
      (by rw [fails]; exact fun same => other (Except.error.inj same))
    rwa [fails] at longer
  · obtain ⟨bytes, held, taken⟩ := Registry.holds_inOrder mirrored (Writer.holds_start b) written
    obtain ⟨_, committed', shown, _⟩ := held.synchronize
    obtain rfl := Except.ok.inj (committed'.symm.trans committed)
    obtain ⟨more, hmore⟩ := within
    have whole : (r.followAll plans).runFrom (.start (front ++ more))
        = (.ok values, ⟨0 + bytes.length, []⟩) := by
      rw [hmore, shown, List.nil_append]
      have atStart := taken 0 []
      rwa [List.append_nil] at atStart
    refine (Registry.Program.followAll plans).stable.eval_of_cut whole ?_
    rintro rfl
    exact strict (by rwa [List.append_nil] at hmore)

namespace Sample

/-- A text that is read from its own message and from a longer one, a tag that announces nothing in
both, and the message of `messageValues`, cut behind its second byte. -/
theorem stable_under_extension_sample :
    (readingSide.readAny readingSide.payload).runFrom (.start [9, 2, 0, 0, 0, 104, 105]) =
      (.ok (.dynamic (.primitive .text) (.scalar (.text "hi"))), ⟨7, []⟩) ∧
    (readingSide.readAny readingSide.payload).runFrom (.start ([9, 2, 0, 0, 0, 104, 105] ++ [0])) =
      (.ok (.dynamic (.primitive .text) (.scalar (.text "hi"))), ⟨7, [0]⟩) ∧
    (readingSide.readNullable readingSide.payload (.composite pair.key)).runFrom (.start [99]) =
      (.error (.invalidTag 99), ⟨1, []⟩) ∧
    (readingSide.readNullable readingSide.payload (.composite pair.key)).runFrom
        (.start ([99] ++ [7])) = (.error (.invalidTag 99), ⟨1, [7]⟩) ∧
    List.Forall₂ readingSide.Mirrors messagePlans messageValues ∧
    ∃ w b', (Script.inOrder writingSide messageValues).run (.start (.ofBytes [])) = (.ok (), w) ∧
      w.synchronize = .ok b' ∧ b'.committed.length = 67 ∧
      (readingSide.followAll messagePlans).eval (b'.committed.take 2) = .error .unexpectedEnd := by
  obtain ⟨succeeding, failing, cutting⟩ := stable_under_extension readingSide
  have operations := Registry.Program.closed readingSide
  have text : (readingSide.readAny readingSide.payload).runFrom (.start [9, 2, 0, 0, 0, 104, 105]) =
      (.ok (.dynamic (.primitive .text) (.scalar (.text "hi"))), ⟨7, []⟩) := by decide +kernel
  have tag : (readingSide.readNullable readingSide.payload (.composite pair.key)).runFrom
      (.start [99]) = (.error (.invalidTag 99), ⟨1, []⟩) := by decide +kernel
  refine ⟨text, succeeding (operations.readAny .payload) _ [0] _ _ text, tag,
    failing (operations.readNullable .payload _) _ [7] _ _ tag (by decide), messagePlans_mirror, ?_⟩
  have written : (Script.inOrder writingSide messageValues).run (.start (.ofBytes [])) =
      (.ok (), ((Script.inOrder writingSide messageValues).run (.start (.ofBytes []))).2) :=
    Prod.ext (by decide +kernel) rfl
  obtain ⟨b', committed, length⟩ : ∃ b', ((Script.inOrder writingSide messageValues).run
      (.start (.ofBytes []))).2.synchronize = .ok b' ∧ b'.committed.length = 67 := by
    obtain ⟨bytes, held, _⟩ :=
      Registry.holds_inOrder messagePlans_mirror (Writer.holds_start _) written
    obtain ⟨b', committed, shown, _⟩ := held.synchronize
    refine ⟨b', committed, ?_⟩
    rw [shown, ← held.position]
    decide +kernel
  refine ⟨_, b', written, committed, length, ?_⟩
  refine cutting _ _ _ _ _ _ messagePlans_mirror written committed _ (List.take_prefix 2 _) ?_
  intro same
  have short := congrArg List.length same
  rw [List.length_take, length] at short
  exact absurd short (by decide)

end Sample

end RemoteDispatch
