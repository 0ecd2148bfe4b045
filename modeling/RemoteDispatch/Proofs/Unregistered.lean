import RemoteDispatch.Proofs.Frames
import RemoteDispatch.Proofs.Uncommitted
import RemoteDispatch.Proofs.Uniform

/-!
# Where a missing type stops a value

A value can only be written if all composite types in it are registered. They
are looked up one by one, each where its frame is due. So when a type turns out
to be missing, the frames and parts in front of it have been written already,
and they stay in the buffer.

`Datum.mentions` lists the composite types of a value in the order in which
they are looked up, and `Registry.missing?` is the first of them that is not
registered. The writer gives up there, whether the type is that of the value or
of a part deep inside it. Only in the first of these cases has nothing been
written.
-/

namespace RemoteDispatch

/-! ## The types of a value -/

/-- A composite type in a value. -/
structure Mention where
  /-- The identity of the type. -/
  key : TypeKey
  /-- What the error calls the type if it is not registered. -/
  called : String
  deriving DecidableEq

/-- The mention of a type, which is none if the type is a primitive. -/
def TypeRef.mentionedAs (called : TypeKey → String) : TypeRef → List Mention
  | primitive _ => []
  | composite k => [⟨k, called k⟩]

/-- **The composite types of a value**, in the order in which they are looked up. -/
def Datum.mentions : Datum → List Mention
  | cons head tail => head.mentions ++ tail.mentions
  | seq cells => cells.mentions
  | object t payload => t.mentionedAs TypeKey.name ++ payload.mentions
  | absent t => t.mentionedAs TypeKey.name
  | dynamic t payload => t.mentionedAs TypeKey.identityText ++ payload.mentions
  | nil | byte _ | scalar _ | noText | noSeq | null | bounded _ _ => []

/-- What the first type that is not registered is called. -/
def Registry.firstMissing (r : Registry) (mentions : List Mention) : Option String :=
  (mentions.find? fun m => (r.byKey m.key).isNone).map Mention.called

/-- What the first type of a value that is not registered is called. -/
def Registry.missing? (r : Registry) (v : Datum) : Option String := r.firstMissing v.mentions

namespace Registry

variable {r : Registry}

theorem firstMissing_append (ms ms' : List Mention) :
    r.firstMissing (ms ++ ms') = (r.firstMissing ms).or (r.firstMissing ms') := by
  unfold firstMissing
  rw [List.find?_append, Option.map_or]

/-- A composite is missing from its own mention if it is not found by its identity. -/
theorem firstMissing_composite (called : TypeKey → String) (k : TypeKey) :
    r.firstMissing ((TypeRef.composite k).mentionedAs called) =
      if (r.byKey k).isNone then some (called k) else none := by
  unfold firstMissing TypeRef.mentionedAs
  rw [List.find?_singleton]
  split <;> rfl

end Registry

/-! ## Emissions that stop at a missing type -/

/-- **An emission stops at what is missing**: it does not come to its end if something is, and if it
gives up because a type is not registered then that is the missing one. It may still give up for
another reason in front of it. -/
structure Emission.StopsAt (e : Emission) (missing : Option String) : Prop where
  whole : e.stop = none → missing = none
  named : ∀ called, e.stop = some (.unregistered called) → missing = some called

namespace Emission.StopsAt

variable {e e' : Emission} {missing missing' : Option String}

/-- Where no type is looked up, none is missing. -/
theorem of_other (other : ∀ called, e.stop ≠ some (.unregistered called)) : e.StopsAt none :=
  ⟨fun _ => rfl, fun called h => absurd h (other called)⟩

/-- Nothing is missing from what comes to its end whatever the registry. -/
theorem of_whole (whole : e.stop = none) : e.StopsAt none := by
  refine of_other fun called stop => ?_
  rw [whole] at stop
  cases stop

/-- An emission that gives up for want of a type stops at that type. -/
theorem of_unregistered (called : String) :
    (fail (.unregistered called)).StopsAt (some called) := by
  constructor
  · intro whole
    cases whole
  · intro _ stop
    cases stop
    rfl

theorem andThen (h : e.StopsAt missing) (h' : e'.StopsAt missing') :
    (e.andThen e').StopsAt (missing.or missing') := by
  cases stop : e.stop with
  | none =>
    obtain rfl := h.whole stop
    rw [Option.none_or]
    unfold Emission.andThen
    rw [stop]
    exact ⟨h'.whole, h'.named⟩
  | some err =>
    rw [andThen_of_stop stop]
    refine ⟨fun whole => ?_, fun called named => ?_⟩
    · rw [stop] at whole
      cases whole
    · rw [h.named called named, Option.some_or]

end Emission.StopsAt

namespace Emission

variable {e : Emission}

theorem outcome_eq_ok_iff : e.outcome = .ok () ↔ e.stop = none := by
  unfold outcome
  cases e.stop <;> simp

theorem outcome_eq_error_iff {err : CodecError} : e.outcome = .error err ↔ e.stop = some err := by
  unfold outcome
  cases e.stop <;> simp

theorem stopsAt_length (n : Nat) : (length n).StopsAt none := by
  unfold length
  split
  · exact .of_whole rfl
  · exact .of_other fun called stop => by cases stop

theorem stopsAt_scalar (s : Scalar) : s.emission.StopsAt none := by
  cases s with
  | text s => exact (stopsAt_length _).andThen (.of_whole rfl)
  | guid | int8 | int16 | int32 | int64 | float32 | float64 | uint16 | bool => exact .of_whole rfl

end Emission

namespace Registry

variable {r : Registry}

/-- A frame stops at its own type. -/
theorem stopsAt_framing (called : TypeKey → String) (t : TypeRef) :
    (r.framing called t).StopsAt (r.firstMissing (t.mentionedAs called)) := by
  cases t with
  | primitive p => exact .of_whole rfl
  | composite k =>
    rw [firstMissing_composite, framing]
    cases r.byKey k with
    | none => exact .of_unregistered _
    | some d => exact .of_whole rfl

theorem stopsAt_absentFrame (t : TypeRef) :
    (r.absentFrame t).StopsAt (r.firstMissing (t.mentionedAs TypeKey.name)) := by
  cases t with
  | primitive p => exact .of_whole rfl
  | composite k =>
    rw [firstMissing_composite, absentFrame, check]
    cases r.byKey k with
    | none => exact .of_unregistered _
    | some d => exact .of_whole rfl

theorem stopsAt_boundedByte (bound b : UInt8) : (boundedByte bound b).StopsAt none := by
  have tail :
      (if bound < b then .fail (.tooLarge b.toNat) else .empty : Emission).StopsAt none := by
    split
    · exact .of_other fun called stop => by cases stop
    · exact .of_whole rfl
  have head : (Emission.byte b).StopsAt none := .of_whole rfl
  exact head.andThen tail

/-- **A value stops at its first type that is missing.** -/
theorem stopsAt_emit (v : Datum) : (r.emit v).StopsAt (r.missing? v) := by
  unfold missing?
  induction v with
  | cons head tail ih₁ ih₂ =>
    rw [Datum.mentions, firstMissing_append]
    exact ih₁.andThen ih₂
  | seq cells ih => exact (Emission.stopsAt_length _).andThen ih
  | object t payload ih =>
    rw [Datum.mentions, firstMissing_append, emit_object_eq]
    exact (stopsAt_framing _ t).andThen ih
  | dynamic t payload ih =>
    rw [Datum.mentions, firstMissing_append, emit_dynamic_eq]
    exact (stopsAt_framing _ t).andThen ih
  | absent t => exact stopsAt_absentFrame t
  | scalar s => exact Emission.stopsAt_scalar s
  | bounded bound b => exact stopsAt_boundedByte bound b
  | nil | byte | noText | noSeq | null => exact .of_whole rfl

/-- An object whose type is missing writes nothing at all. -/
theorem framing_of_unchecked (called : TypeKey → String) {t : TypeRef}
    (missing : r.check t ≠ .ok ()) : ∃ name, r.framing called t = .fail (.unregistered name) := by
  cases t with
  | primitive p => exact absurd rfl missing
  | composite k =>
    rw [framing]
    cases found : r.byKey k with
    | none => exact ⟨_, rfl⟩
    | some d => exact absurd (check_composite.2 ⟨d, found⟩) missing

/-- An object writes the frame of its type and its payload, whether its type is known beforehand or
not. -/
theorem emit_object {t : TypeRef} {payload v : Datum}
    (object : v = .object t payload ∨ v = .dynamic t payload) :
    ∃ called, r.emit v = (r.framing called t).andThen (r.emit payload) := by
  obtain rfl | rfl := object
  · exact ⟨_, r.emit_object_eq t payload⟩
  · exact ⟨_, r.emit_dynamic_eq t payload⟩

end Registry

namespace Writer

variable {r : Registry} {w w' : Writer}

/-- A writer that gives up for want of a type has written all that comes in front of it. -/
theorem wrote_of_unregistered {e : Emission} {called : String}
    (ended : w.perform e = (.error (.unregistered called), w')) :
    e.stop = some (.unregistered called) ∧ w.Wrote e.bytes w' := by
  obtain ⟨w₁, performed, accepted⟩ | ⟨size, w₁, _, performed⟩ := w.perform_cases e
  · obtain ⟨outcome, rfl⟩ := Prod.mk.inj (performed.symm.trans ended)
    exact ⟨Emission.outcome_eq_error_iff.1 outcome, wrote_of_putAll accepted⟩
  · -- a refusal of the buffer is another error
    rw [performed] at ended
    cases ended

/-- A value that was written to its end is made of registered types. -/
theorem missing_of_written {v : Datum} (written : w.perform (r.emit v) = (.ok (), w')) :
    r.missing? v = none := by
  obtain ⟨w₁, performed, _⟩ | ⟨size, w₁, _, performed⟩ := w.perform_cases (r.emit v)
  · obtain ⟨outcome, _⟩ := Prod.mk.inj (performed.symm.trans written)
    exact (r.stopsAt_emit v).whole (Emission.outcome_eq_ok_iff.1 outcome)
  · rw [performed] at written
    cases written

end Writer

/-- **What is left of an object in which a type is missing.** If the type is the object's own,
nothing is written. If the writer gives up because a type is not registered, then the error names
the first that is missing from the object, in the order of writing, and the buffer has all that was
laid out in front of it. So the writer and its buffer are as before exactly if it is the object's
own type that is missing, and the writer has moved on otherwise. No object in which a type is
missing is ever written to its end. -/
theorem written_before_missing (r : Registry) (w : Writer) {t : TypeRef} {payload v : Datum}
    (object : v = .object t payload ∨ v = .dynamic t payload) :
    (r.check t ≠ .ok () →
      ∃ called, w.perform (r.emit v) = (.error (.unregistered called), w)) ∧
    (∀ called w', w.perform (r.emit v) = (.error (.unregistered called), w') →
      r.missing? v = some called ∧ w.Wrote (r.emit v).bytes w' ∧
        (w' = w ↔ r.check t ≠ .ok ()) ∧ (w.position < w'.position ↔ r.check t = .ok ())) ∧
    ∀ w', w.perform (r.emit v) = (.ok (), w') → r.missing? v = none := by
  obtain ⟨called, laidOut⟩ := r.emit_object object
  have untouched (missing : r.check t ≠ .ok ()) :
      ∃ called, w.perform (r.emit v) = (.error (.unregistered called), w) := by
    obtain ⟨name, framed⟩ := Registry.framing_of_unchecked called missing
    rw [laidOut, framed]
    exact ⟨name, rfl⟩
  refine ⟨untouched, fun name w' ended => ?_, fun w' => Writer.missing_of_written⟩
  obtain ⟨stop, wrote⟩ := Writer.wrote_of_unregistered ended
  have stays (missing : r.check t ≠ .ok ()) : w' = w := by
    obtain ⟨name, performed⟩ := untouched missing
    exact congrArg Prod.snd (ended.symm.trans performed)
  have moves (known : r.check t = .ok ()) : w.position < w'.position := by
    have framed : (r.framing called t).stop = none := by
      rw [Registry.framing_of_check known]
      exact Registry.stop_frame known
    obtain ⟨tag, others, bytes, _⟩ := Registry.framing_starts framed
    rw [wrote.position, laidOut, Emission.bytes_andThen framed, bytes, List.cons_append,
      List.length_cons]
    omega
  refine ⟨(r.stopsAt_emit v).named name stop, wrote, ⟨fun same known => ?_, stays⟩,
    ⟨fun moved => ?_, moves⟩⟩
  · have moved := moves known
    rw [same] at moved
    exact Nat.lt_irrefl _ moved
  · by_contra missing
    rw [stays missing] at moved
    exact Nat.lt_irrefl _ moved

namespace Sample

/-- A side that knows records of objects but not the objects in them. -/
def shallowSide : Registry := ⟨[wrap], by decide +kernel⟩

/-- A record whose first part is an object of a type that `shallowSide` does not know. -/
def wrapped : Datum :=
  .cons (.object (.composite pair.key) unlabelled)
    (.cons (.object (.primitive .text) (.scalar (.text "x")))
      (.cons (.object (.primitive .guid) (.scalar (.guid ⟨1, 2⟩))) .noSeq))

/-- The frame of the record is all that is in front of the missing type. -/
theorem written_before_missing_wrapped :
    (∃ w', (Writer.start message).perform (shallowSide.emit
        (.object (.composite wrap.key) wrapped)) = (.error (.unregistered "Pair"), w') ∧
      shallowSide.missing? (.object (.composite wrap.key) wrapped) = some "Pair" ∧
      (Writer.start message).position < w'.position) ∧
    (∃ called, (Writer.start message).perform (shallowSide.emit
        (.dynamic (.composite pair.key) unlabelled)) =
      (.error (.unregistered called), .start message)) := by
  have ended : (Writer.start message).perform (shallowSide.emit
      (.object (.composite wrap.key) wrapped)) = (.error (.unregistered "Pair"), _) :=
    Prod.ext (by decide +kernel) rfl
  have within : Datum.object (.composite wrap.key) wrapped =
        .object (.composite wrap.key) wrapped ∨
      Datum.object (.composite wrap.key) wrapped =
        .dynamic (.composite wrap.key) wrapped := .inl rfl
  have outermost : Datum.dynamic (.composite pair.key) unlabelled =
        .object (.composite pair.key) unlabelled ∨
      Datum.dynamic (.composite pair.key) unlabelled =
        .dynamic (.composite pair.key) unlabelled := .inr rfl
  obtain ⟨missing, _, _, moved⟩ :=
    (written_before_missing shallowSide (.start message) within).2.1 _ _ ended
  exact ⟨⟨_, ended, missing, moved.2 (by decide +kernel)⟩,
    (written_before_missing shallowSide (.start message) outermost).1 (by decide +kernel)⟩

/-- **The record has spoilt the buffer**, although its writing failed for want of a type. -/
theorem frame_left_behind :
    let w := Writer.start message
    let (outcome, w') := w.perform (shallowSide.emit (.object (.composite wrap.key) wrapped))
    outcome = .error (.unregistered "Pair") ∧ w.position = 0 ∧ w'.position = 5 ∧
      w.buffer.byte 0 = 1 ∧ w'.buffer.byte 0 = compositeTag := by
  decide +kernel

end Sample

end RemoteDispatch
