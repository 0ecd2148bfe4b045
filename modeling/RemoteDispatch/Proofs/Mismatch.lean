import RemoteDispatch.Proofs.Frames

/-!
# Objects of another type

A reader that expects one type and finds an object of another must not take
the one for the other. What prevents it is the frame alone, so nothing here
looks at a payload. The tags of the primitives, of composites and of the
absent object are all different, and two composites that one side knows have
different ids, since a registry never holds two types under one id. Names
that differ in case only and names that merely collide are no exception: of
such a pair at most one type is registered, and a reader that expects the
other gives up before it looks at the message.

`TypeRef.mismatch` is what is said of the object that was found. It names both
types where both are composites, and otherwise the tag, which is all that a
reader knows of the object at that point.
-/

namespace RemoteDispatch

namespace TypeRef

/-- The first byte of the frame of an object. -/
def tag : TypeRef → UInt8
  | primitive p => p.tag
  | composite _ => compositeTag

/-- **What is said of an object of one type where another was expected.** -/
def mismatch (expected found : TypeRef) : CodecError :=
  match expected, found with
  | composite k, composite k' => .typeMismatch k.name k'.name
  | _, found => .invalidTag found.tag

end TypeRef

namespace Registry

variable {r rw : Registry} {payload : Descriptor → Reader Datum} {t u : TypeRef} {c d : Cursor}

/-! ## Frames of two types -/

/-- No object starts with the tag of the absent one. -/
theorem tag_ne_nullTag (t : TypeRef) : t.tag ≠ nullTag := by
  cases t with
  | primitive p => exact (tag_ne_reserved p).1
  | composite k => exact (by decide : compositeTag ≠ nullTag)

/-- Any two sides that know a type frame its objects alike. -/
theorem bytes_frame_congr (known : r.check t = .ok ()) (framed : (rw.frame t).stop = none) :
    (rw.frame t).bytes = (r.frame t).bytes := by
  cases t with
  | primitive p => rfl
  | composite k =>
    have framed' := stop_frame known
    rw [frame_eq_framing] at framed framed'
    rw [frame_eq_framing, frame_eq_framing]
    exact (bytes_framing framed).trans (bytes_framing framed').symm

/-- A frame is a tag, and for a composite its id behind the tag. -/
theorem over_frame (known : r.check t = .ok ()) (framed : c.Over (r.frame t).bytes d) :
    ∃ tagged, c.Over [t.tag] tagged ∧
      ∀ k, t = .composite k → tagged.Over (Emission.int32 (typeId k.name)).bytes d := by
  cases t with
  | primitive p =>
    rw [frame, Emission.byte, Emission.bytes_run] at framed
    refine ⟨d, framed, fun k same => ?_⟩
    cases same
  | composite k =>
    obtain ⟨found, hfound⟩ := check_composite.1 known
    rw [bytes_frame_composite hfound, id_of_byKey hfound] at framed
    obtain ⟨tagged, tag, id⟩ := framed.of_append
    refine ⟨tagged, tag, ?_⟩
    rintro _ ⟨⟩
    exact id

/-- **Two composites of one registry have different ids**, however alike their names are. -/
theorem typeId_ne {k k' : TypeKey} (known : r.check (.composite k) = .ok ())
    (known' : r.check (.composite k') = .ok ()) (different : k ≠ k') :
    typeId k.name ≠ typeId k'.name := by
  obtain ⟨d, hd⟩ := check_composite.1 known
  obtain ⟨d', hd'⟩ := check_composite.1 known'
  rw [← id_of_byKey hd, ← id_of_byKey hd']
  intro same
  have one : d = d' := eq_of_id_eq (mem_of_byKey hd) (mem_of_byKey hd') same
  exact different (by rw [← key_of_byKey hd, ← key_of_byKey hd', one])

/-! ## What a typed reader says -/

/-- The reader of a primitive looks at the tag and no further. -/
theorem readObject_primitive_of_tag {p : Primitive} {tag : UInt8} (ahead : c.Over [tag] d)
    (present : tag ≠ nullTag) (other : tag ≠ p.tag) :
    (r.readObject payload (.primitive p)).runFrom c = (.error (.invalidTag tag), d) := by
  rw [readObject, Reader.runFrom_bind, Reader.runFrom_byte.2 ahead]
  dsimp only
  rw [if_neg present, if_neg other]
  rfl

/-- The reader of a composite refuses the tag of a primitive. -/
theorem readObject_composite_of_tag {k : TypeKey} (known : r.check (.composite k) = .ok ())
    {p : Primitive} (ahead : c.Over [p.tag] d) :
    (r.readObject payload (.composite k)).runFrom c = (.error (.invalidTag p.tag), d) := by
  obtain ⟨e, he⟩ := check_composite.1 known
  rw [readObject, he]
  dsimp only
  rw [Reader.runFrom_bind, Reader.runFrom_byte.2 ahead]
  dsimp only
  rw [if_neg (tag_ne_reserved p).1, if_neg (tag_ne_reserved p).2]
  rfl

/-- The reader of a composite looks the id of another one up and says whose it is. -/
theorem readObject_composite_of_id {k k' : TypeKey} (known : r.check (.composite k) = .ok ())
    (known' : r.check (.composite k') = .ok ()) (different : k ≠ k') {tagged : Cursor}
    (ahead : c.Over [compositeTag] tagged)
    (behind : tagged.Over (Emission.int32 (typeId k'.name)).bytes d) :
    (r.readObject payload (.composite k)).runFrom c =
      (.error (.typeMismatch k.name k'.name), d) := by
  obtain ⟨e, he⟩ := check_composite.1 known
  obtain ⟨e', he'⟩ := check_composite.1 known'
  have ids : typeId k'.name ≠ e.id := by
    rw [id_of_byKey he]
    exact typeId_ne known' known (Ne.symm different)
  have found : r.byId (typeId k'.name) = some e' := by
    rw [← id_of_byKey he']
    exact byId_of_byKey he'
  have called : e'.name = k'.name := congrArg TypeKey.name (key_of_byKey he')
  rw [readObject, he]
  dsimp only
  rw [Reader.runFrom_bind, Reader.runFrom_byte.2 ahead]
  dsimp only
  rw [if_neg (by decide), if_pos rfl, Reader.runFrom_bind, Reader.runFrom_int32.2 behind]
  dsimp only
  rw [if_neg ids, found, ← called]
  rfl

/-- **An object of another type is refused at its frame**, and the refusal says what it is. -/
theorem readObject_of_other (known : r.check t = .ok ()) (known' : r.check u = .ok ())
    (different : t ≠ u) (framed : c.Over (r.frame u).bytes d) :
    ((r.readObject payload t).runFrom c).1 = .error (t.mismatch u) := by
  obtain ⟨tagged, tag, behind⟩ := over_frame known' framed
  cases t with
  | primitive p =>
    have other : u.tag ≠ p.tag := by
      cases u with
      | primitive q => exact fun same => different (congrArg _ (Primitive.tag_injective same).symm)
      | composite k => exact (tag_ne_reserved p).2.symm
    rw [readObject_primitive_of_tag tag (tag_ne_nullTag u) other]
    cases u <;> rfl
  | composite k =>
    cases u with
    | primitive p =>
      rw [readObject_composite_of_tag known tag]
      rfl
    | composite k' =>
      rw [readObject_composite_of_id known known' (fun same => different (congrArg _ same)) tag
        (behind k' rfl)]
      rfl

/-- An object of another type is no less refused where the object might have been absent. -/
theorem readNullable_of_other (known : r.check t = .ok ()) (known' : r.check u = .ok ())
    (different : t ≠ u) (framed : c.Over (r.frame u).bytes d) :
    ((r.readNullable payload t).runFrom c).1 = .error (t.mismatch u) := by
  obtain ⟨tagged, tag, _⟩ := over_frame known' framed
  have ahead : c.rest.head? = some u.tag := by
    rw [tag.rest]
    rfl
  rw [readNullable_of_head known ahead (tag_ne_nullTag u), Reader.runFrom_map,
    readObject_of_other known known' different framed]
  rfl

/-- An absent object is refused by name where one is required. -/
theorem readObject_of_absent (known : r.check t = .ok ()) (absent : c.Over [nullTag] d) :
    (r.readObject payload t).runFrom c = (.error (.unexpectedNull t.name), d) := by
  have read := Reader.runFrom_byte.2 absent
  cases t with
  | primitive p =>
    rw [readObject, Reader.runFrom_bind, read]
    rfl
  | composite k =>
    obtain ⟨e, he⟩ := check_composite.1 known
    rw [readObject, he]
    dsimp only
    rw [Reader.runFrom_bind, read]
    rfl

/-- **A type that is not registered is refused on the spot**, whatever the message is. -/
theorem reads_of_unregistered {k : TypeKey} (unknown : r.byKey k = none) (c : Cursor) :
    (r.readObject payload (.composite k)).runFrom c = (.error (.unregistered k.name), c) ∧
      (r.readNullable payload (.composite k)).runFrom c = (.error (.unregistered k.name), c) := by
  rw [readObject, readNullable, check, unknown]
  exact ⟨rfl, rfl⟩

/-! ## What was written -/

/-- What is committed of an object is its frame and its payload. -/
theorem committed_object {v : Datum} {b : Buffer} {w : Writer}
    (written : (Writer.start b).perform (rw.emit (.object u v)) = (.ok (), w)) :
    (rw.frame u).stop = none ∧
      ∃ b', w.synchronize = .ok b' ∧ b'.committed = (rw.frame u).bytes ++ (rw.emit v).bytes := by
  obtain ⟨whole, held⟩ := (Writer.holds_start b).perform written
  obtain ⟨framed, _⟩ := Emission.stop_andThen.1 whole
  obtain ⟨b', committed, shown, _⟩ := held.synchronize
  rw [List.nil_append, emit, Emission.bytes_andThen framed] at shown
  exact ⟨framed, b', committed, shown⟩

/-- What is committed of an absent object is its tag. -/
theorem committed_absent {b : Buffer} {w : Writer}
    (written : (Writer.start b).perform (rw.emit (.absent u)) = (.ok (), w)) :
    ∃ b', w.synchronize = .ok b' ∧ b'.committed = [nullTag] := by
  obtain ⟨whole, held⟩ := (Writer.holds_start b).perform written
  obtain ⟨b', committed, shown, _⟩ := held.synchronize
  refine ⟨b', committed, shown.trans ?_⟩
  rw [emit, absentFrame] at whole ⊢
  cases known : rw.check u with
  | error e =>
    rw [known] at whole
    cases whole
  | ok _ => rfl

end Registry

/-- **No object is taken for one of another type.** Whatever an object of a type leaves in a buffer,
a reader that expects another known type refuses it, with anything behind it and anywhere in a
message; it names both types where both are composites and the tag otherwise, and does so also where
the object might have been absent. What an absent object leaves is read as absent, whatever type is
expected, and refused by the name of the type where an object has to be there. A reader that expects
a type it does not know fails where it stands, whatever the message is. -/
theorem no_type_confusion (rw rr : Registry) (payload : Descriptor → Reader Datum) :
    (∀ {t u : TypeRef}, rr.check t = .ok () → rr.check u = .ok () → t ≠ u →
      ∀ (v : Datum) (b : Buffer) (w : Writer),
        (Writer.start b).perform (rw.emit (.object u v)) = (.ok (), w) →
        ∃ b', w.synchronize = .ok b' ∧ ∀ position trailer,
          let c : Cursor := ⟨position, b'.committed ++ trailer⟩
          ((rr.readObject payload t).runFrom c).1 = .error (t.mismatch u) ∧
            ((rr.readNullable payload t).runFrom c).1 = .error (t.mismatch u)) ∧
    (∀ {t u : TypeRef}, rr.check t = .ok () → ∀ (b : Buffer) (w : Writer),
        (Writer.start b).perform (rw.emit (.absent u)) = (.ok (), w) →
        ∃ b', w.synchronize = .ok b' ∧ ∀ position trailer,
          let c : Cursor := ⟨position, b'.committed ++ trailer⟩
          (rr.readNullable payload t).runFrom c = (.ok none, ⟨position + 1, trailer⟩) ∧
            ((rr.readObject payload t).runFrom c).1 = .error (.unexpectedNull t.name)) ∧
    ∀ k : TypeKey, rr.check (.composite k) ≠ .ok () → ∀ c : Cursor,
      (rr.readObject payload (.composite k)).runFrom c = (.error (.unregistered k.name), c) ∧
        (rr.readNullable payload (.composite k)).runFrom c
          = (.error (.unregistered k.name), c) := by
  refine ⟨fun {t u} known known' different v b w written => ?_,
    fun {t u} known b w written => ?_, fun k unknown c => ?_⟩
  · obtain ⟨framed, b', committed, shown⟩ := Registry.committed_object written
    refine ⟨b', committed, fun position trailer => ?_⟩
    have front : (Cursor.mk position (b'.committed ++ trailer)).Over (rr.frame u).bytes
        ⟨position + (rr.frame u).bytes.length, (rw.emit v).bytes ++ trailer⟩ := by
      refine ⟨?_, rfl⟩
      rw [shown, Registry.bytes_frame_congr known' framed, List.append_assoc]
    exact ⟨Registry.readObject_of_other known known' different front,
      Registry.readNullable_of_other known known' different front⟩
  · obtain ⟨b', committed, shown⟩ := Registry.committed_absent written
    refine ⟨b', committed, fun position trailer => ?_⟩
    have front : (Cursor.mk position (b'.committed ++ trailer)).Over [nullTag]
        ⟨position + 1, trailer⟩ := ⟨by rw [shown], rfl⟩
    exact ⟨Registry.runFrom_readNullable_none.2 ⟨known, front⟩,
      congrArg Prod.fst (Registry.readObject_of_absent known front)⟩
  · refine Registry.reads_of_unregistered ?_ c
    rw [Option.eq_none_iff_forall_ne_some]
    exact fun d hd => unknown (Registry.check_composite.2 ⟨d, hd⟩)

namespace Sample

/-- A call where a record is expected, a record where a wide number is expected, an absent record
where text might be, and a type whose name differs from a registered one in case only. -/
theorem no_type_confusion_record :
    writingSide.check (.composite pair.key) = .ok () ∧
    writingSide.check (.composite function.key) = .ok () ∧
    (Writer.start (.ofBytes [9])).perform
        (writingSide.emit (.object (.composite function.key) failingCall)) =
      (.ok (), ((Writer.start (.ofBytes [9])).perform
        (writingSide.emit (.object (.composite function.key) failingCall))).2) ∧
    (∃ b', ((Writer.start (.ofBytes [9])).perform
        (writingSide.emit (.object (.composite function.key) failingCall))).2.synchronize = .ok b' ∧
      ((writingSide.readObject writingSide.payload (.composite pair.key)).runFrom
        ⟨0, b'.committed ++ [42]⟩).1 = .error (.typeMismatch "Pair" "Func1") ∧
      ((writingSide.readObject writingSide.payload (.primitive .int64)).runFrom
        ⟨0, b'.committed ++ [42]⟩).1 = .error (.invalidTag 103)) ∧
    (∃ b', ((Writer.start nineBytes).perform
        (writingSide.emit (.absent (.composite pair.key)))).2.synchronize = .ok b' ∧
      (writingSide.readNullable writingSide.payload (.primitive .text)).runFrom
        ⟨0, b'.committed ++ [42]⟩ = (.ok none, ⟨1, [42]⟩)) ∧
    (writingSide.readObject writingSide.payload (.composite capitals.key)).runFrom (.start []) =
      (.error (.unregistered "PAIR"), .start []) := by
  obtain ⟨mistaken, absent, unknown⟩ := no_type_confusion writingSide writingSide writingSide.payload
  have record : writingSide.check (.composite pair.key) = .ok () := by decide +kernel
  have call : writingSide.check (.composite function.key) = .ok () := by decide +kernel
  have written : (Writer.start (.ofBytes [9])).perform
        (writingSide.emit (.object (.composite function.key) failingCall)) =
      (.ok (), ((Writer.start (.ofBytes [9])).perform
        (writingSide.emit (.object (.composite function.key) failingCall))).2) :=
    Prod.ext (by decide +kernel) rfl
  have nothing : (Writer.start nineBytes).perform
        (writingSide.emit (.absent (.composite pair.key))) =
      (.ok (), ((Writer.start nineBytes).perform
        (writingSide.emit (.absent (.composite pair.key)))).2) :=
    Prod.ext (by decide +kernel) rfl
  refine ⟨record, call, written, ?_, ?_, (unknown capitals.key (by decide +kernel) _).1⟩
  · obtain ⟨b', committed, refused⟩ := mistaken record call (by decide) _ _ _ written
    obtain ⟨b'', committed', refused'⟩ :=
      mistaken (t := .primitive .int64) rfl call (by decide) _ _ _ written
    obtain rfl := Except.ok.inj (committed'.symm.trans committed)
    exact ⟨b'', committed, (refused 0 [42]).1, (refused' 0 [42]).1⟩
  · obtain ⟨b', committed, read⟩ := absent (t := .primitive .text) rfl _ _ nothing
    exact ⟨b', committed, (read 0 [42]).1⟩

end Sample

end RemoteDispatch
