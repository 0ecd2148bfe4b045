import RemoteDispatch.Proofs.Records
import RemoteDispatch.Proofs.RoundTrip

/-!
# Typed and untyped objects

An object can be written and read with its type in hand or with nothing in
hand at all. The first way frames it by what the registry says of the type.
The second asks the value for its type when it writes, and when it reads it
has a tag and perhaps an id to go by, and finds the type from there.

Both ways accept the same bytes, and `Registry.ObjectAt` says which: the frame
of the type, and behind it something that the payload reader of the type
takes. A typed reader that knows its type succeeds exactly on those bytes
(`runFrom_readObject`), and an untyped one exactly on those bytes for some
type, or on the tag of the absent object (`runFrom_readAny`). Nothing is
assumed of the payload readers, so the agreement does not depend on what the
payloads look like.
-/

namespace RemoteDispatch

/-! ## From one place to another -/

/-- **The bytes between two places** of a message. -/
structure Cursor.Over (c : Cursor) (bytes : Bytes) (c' : Cursor) : Prop where
  /-- They stand in front of what is left. -/
  rest : c.rest = bytes ++ c'.rest
  /-- They are counted. -/
  position : c'.position = c.position + bytes.length

namespace Cursor.Over

variable {c d e : Cursor} {xs ys : Bytes}

theorem refl (c : Cursor) : c.Over [] c := ⟨rfl, rfl⟩

theorem trans (h : c.Over xs d) (h' : d.Over ys e) : c.Over (xs ++ ys) e where
  rest := by rw [h.rest, h'.rest, List.append_assoc]
  position := by rw [h'.position, h.position, List.length_append, Nat.add_assoc]

/-- The bytes that follow a place are found behind the ones that lead there. -/
theorem of_append (h : c.Over (xs ++ ys) e) : ∃ d, c.Over xs d ∧ d.Over ys e := by
  refine ⟨⟨c.position + xs.length, ys ++ e.rest⟩, ⟨?_, rfl⟩, ⟨rfl, ?_⟩⟩
  · rw [h.rest, List.append_assoc]
  · rw [h.position, List.length_append, Nat.add_assoc]

end Cursor.Over

namespace Reader

variable {α : Type} {read : Reader α} {c c' : Cursor} {a : α}

/-- A reader that takes exactly some bytes goes from one end of them to the other. -/
theorem Takes.runFrom {bytes : Bytes} (h : read.Takes bytes a) (passed : c.Over bytes c') :
    read.runFrom c = (.ok a, c') := by
  have start : c = ⟨c.position, bytes ++ c'.rest⟩ := by rw [← passed.rest]
  rw [start, h, ← passed.position]

/-- What a reader takes for a value lies between where it started and where it stopped. -/
theorem TakesOnly.passed {layout : α → Emission} (h : TakesOnly read layout)
    (forward : Forward read) (taken : read.runFrom c = (.ok a, c')) :
    (layout a).stop = none ∧ c.Over (layout a).bytes c' := by
  obtain ⟨whole, front⟩ := h taken
  obtain ⟨bytes, rest, position⟩ := forward c
  rw [taken] at rest position
  obtain rfl : bytes = (layout a).bytes := List.append_cancel_right (rest.symm.trans front)
  exact ⟨whole, rest, position⟩

/-- Bytes are taken from right ahead. -/
theorem runFrom_take_ok {n : Nat} {bytes : Bytes} :
    (take n).runFrom c = (.ok bytes, c') ↔ bytes.length = n ∧ c.Over bytes c' := by
  constructor
  · intro h
    obtain ⟨front, length⟩ := rest_of_take h
    obtain ⟨taken, rest, position⟩ := forward_take n c
    rw [h] at rest position
    obtain rfl : taken = bytes := List.append_cancel_right (rest.symm.trans front)
    exact ⟨length, rest, position⟩
  · rintro ⟨rfl, passed⟩
    exact (takes_take bytes).runFrom passed

/-- **A word is what lies ahead**, the least significant byte first. -/
theorem runFrom_word {n v : Nat} :
    (word n).runFrom c = (.ok v, c') ↔ v < 256 ^ n ∧ c.Over (littleEndian n v) c' := by
  constructor
  · intro h
    obtain ⟨bytes, hbytes, rfl⟩ := runFrom_map_ok.1 h
    obtain ⟨rfl, passed⟩ := runFrom_take_ok.1 hbytes
    rw [littleEndian_ofLittleEndian]
    exact ⟨ofLittleEndian_lt bytes, passed⟩
  · rintro ⟨lt, passed⟩
    exact (takes_word_of_lt lt).runFrom passed

/-- A byte is what lies ahead. -/
theorem runFrom_byte {b : UInt8} : byte.runFrom c = (.ok b, c') ↔ c.Over [b] c' := by
  constructor
  · intro h
    obtain ⟨v, hv, rfl⟩ := runFrom_map_ok.1 h
    exact (runFrom_word.1 hv).2
  · exact (takes_byte b).runFrom

/-- A signed word is what lies ahead. -/
theorem runFrom_int32 {v : Int32} :
    int32.runFrom c = (.ok v, c') ↔ c.Over (Emission.int32 v).bytes c' := by
  rw [Emission.int32, Emission.bytes_run]
  constructor
  · intro h
    obtain ⟨n, hn, rfl⟩ := runFrom_map_ok.1 h
    obtain ⟨lt, passed⟩ := runFrom_word.1 hn
    rwa [UInt32.toUInt32_toInt32, UInt32.toNat_ofNat_of_lt' lt]
  · exact (takes_int32 v).runFrom

theorem runFrom_int64 {v : Int64} :
    int64.runFrom c = (.ok v, c') ↔ c.Over (Emission.int64 v).bytes c' := by
  rw [Emission.int64, Emission.bytes_run]
  constructor
  · intro h
    obtain ⟨n, hn, rfl⟩ := runFrom_map_ok.1 h
    obtain ⟨lt, passed⟩ := runFrom_word.1 hn
    rwa [UInt64.toUInt64_toInt64, UInt64.toNat_ofNat_of_lt' lt]
  · exact (takes_int64 v).runFrom

/-- A byte that is only looked at stays ahead. -/
theorem runFrom_peek {b : UInt8} :
    peek.runFrom c = (.ok b, c') ↔ c' = c ∧ c.rest.head? = some b := by
  obtain ⟨position, _ | ⟨b', bs⟩⟩ := c
  · constructor
    · intro h
      cases h
    · rintro ⟨_, h⟩
      cases h
  · constructor
    · intro h
      cases h
      exact ⟨rfl, rfl⟩
    · rintro ⟨rfl, h⟩
      cases h
      rfl

end Reader

namespace Registry

variable {r : Registry}

/-! ## Frames -/

/-- A composite that may be read or written is registered. -/
theorem check_composite {k : TypeKey} :
    r.check (.composite k) = .ok () ↔ ∃ d, r.byKey k = some d := by
  rw [check]
  cases r.byKey k with
  | none => simp
  | some d => simp

/-- What a type that is not registered would be called does not matter for a known one. -/
theorem framing_of_check {t : TypeRef} (known : r.check t = .ok ()) (called : TypeKey → String) :
    r.framing called t = r.frame t := by
  rw [frame_eq_framing]
  cases t with
  | primitive p => rfl
  | composite k =>
    obtain ⟨d, hd⟩ := check_composite.1 known
    rw [framing, framing, hd]

/-- **An object of a known type lays out the same** whether its type is known beforehand or from
the value only. -/
theorem emit_dynamic {t : TypeRef} (known : r.check t = .ok ()) (payload : Datum) :
    r.emit (.dynamic t payload) = r.emit (.object t payload) := by
  rw [emit_dynamic_eq, emit_object_eq, framing_of_check known, framing_of_check known]

/-- The frame of a known type comes to its end. -/
theorem stop_frame {t : TypeRef} (known : r.check t = .ok ()) : (r.frame t).stop = none := by
  cases t with
  | primitive p => rfl
  | composite k =>
    obtain ⟨d, hd⟩ := check_composite.1 known
    rw [frame_eq_framing, framing, hd]
    rfl

/-- A frame starts with a tag that is not the tag of an absent object. -/
theorem frame_starts {t : TypeRef} (known : r.check t = .ok ()) :
    ∃ tag others, (r.frame t).bytes = tag :: others ∧ tag ≠ nullTag := by
  have framed := stop_frame known
  rw [frame_eq_framing] at framed ⊢
  exact framing_starts framed

/-- The tag and the id that frame a registered composite. -/
theorem bytes_frame_composite {k : TypeKey} {d : Descriptor} (h : r.byKey k = some d) :
    (r.frame (.composite k)).bytes = [compositeTag] ++ (Emission.int32 d.id).bytes := by
  rw [frame_eq_framing, framing, h]
  show ((Emission.byte compositeTag).andThen _).bytes = _
  rw [Emission.bytes_andThen rfl]
  exact congrArg (· ++ _) (Emission.bytes_run _)

/-! ## Objects -/

variable {payload : Descriptor → Reader Datum} {t : TypeRef} {v : Datum} {c c' : Cursor}

/-- What reads the payload of a type, if the type may be read at all. -/
def payloadReader? (r : Registry) (payload : Descriptor → Reader Datum) :
    TypeRef → Option (Reader Datum)
  | .primitive p => some (.scalar <$> Reader.scalar p)
  | .composite k => (r.byKey k).map payload

/-- **An object of a type between two places**: the frame of the type, and behind it what the
payload reader of the type takes for the value. -/
def ObjectAt (r : Registry) (payload : Descriptor → Reader Datum) (t : TypeRef) (v : Datum)
    (c c' : Cursor) : Prop :=
  ∃ read behind, r.payloadReader? payload t = some read ∧ c.Over (r.frame t).bytes behind ∧
    read.runFrom behind = (.ok v, c')

/-- A type that may be read has a payload reader. -/
theorem check_of_payloadReader? {read : Reader Datum}
    (h : r.payloadReader? payload t = some read) : r.check t = .ok () := by
  cases t with
  | primitive p => rfl
  | composite k =>
    obtain ⟨d, hd, _⟩ := Option.map_eq_some_iff.1 h
    exact check_composite.2 ⟨d, hd⟩

/-- Only objects of known types lie anywhere. -/
theorem ObjectAt.known (h : r.ObjectAt payload t v c c') : r.check t = .ok () := by
  obtain ⟨read, behind, hread, _, _⟩ := h
  exact check_of_payloadReader? hread

/-- A primitive value behind its tag. -/
theorem objectAt_primitive {p : Primitive} :
    r.ObjectAt payload (.primitive p) v c c' ↔
      ∃ behind, c.Over [p.tag] behind ∧
        (Datum.scalar <$> Reader.scalar p).runFrom behind = (.ok v, c') := by
  constructor
  · rintro ⟨read, behind, hread, passed, taken⟩
    cases hread
    rw [frame, Emission.byte, Emission.bytes_run] at passed
    exact ⟨behind, passed, taken⟩
  · rintro ⟨behind, passed, taken⟩
    rw [← Emission.bytes_run [p.tag]] at passed
    exact ⟨_, behind, rfl, passed, taken⟩

/-- A payload behind the composite tag and the id of its type. -/
theorem objectAt_composite {k : TypeKey} :
    r.ObjectAt payload (.composite k) v c c' ↔
      ∃ d tagged behind, r.byKey k = some d ∧ c.Over [compositeTag] tagged ∧
        tagged.Over (Emission.int32 d.id).bytes behind ∧
        (payload d).runFrom behind = (.ok v, c') := by
  constructor
  · rintro ⟨read, behind, hread, passed, taken⟩
    obtain ⟨d, hd, rfl⟩ := Option.map_eq_some_iff.1 hread
    rw [bytes_frame_composite hd] at passed
    obtain ⟨tagged, hover, hover'⟩ := passed.of_append
    exact ⟨d, tagged, behind, hd, hover, hover', taken⟩
  · rintro ⟨d, tagged, behind, hd, hover, hover', taken⟩
    refine ⟨payload d, behind, Option.map_eq_some_iff.2 ⟨d, hd, rfl⟩, ?_, taken⟩
    rw [bytes_frame_composite hd]
    exact hover.trans hover'

/-! ## Reading with a type in hand -/

/-- **A typed reader succeeds exactly on an object of its type.** -/
theorem runFrom_readObject :
    (r.readObject payload t).runFrom c = (.ok v, c') ↔ r.ObjectAt payload t v c c' := by
  cases t with
  | primitive p =>
    rw [readObject, Reader.runFrom_bind_ok, objectAt_primitive]
    constructor
    · rintro ⟨tag, behind, htag, taken⟩
      split at taken
      · cases taken
      · split at taken
        · next htag' =>
          subst htag'
          exact ⟨behind, Reader.runFrom_byte.1 htag, taken⟩
        · cases taken
    · rintro ⟨behind, passed, taken⟩
      refine ⟨p.tag, behind, Reader.runFrom_byte.2 passed, ?_⟩
      rw [if_neg (tag_ne_reserved p).1, if_pos rfl]
      exact taken
  | composite k =>
    rw [objectAt_composite, readObject]
    rcases hk : r.byKey k with _ | d
    · constructor
      · intro h
        cases h
      · rintro ⟨d, _, _, h, _⟩
        cases h
    · rw [Reader.runFrom_bind_ok]
      constructor
      · rintro ⟨tag, tagged, htag, taken⟩
        split at taken
        · cases taken
        · split at taken
          · next htag' =>
            subst htag'
            obtain ⟨id, behind, hid, taken⟩ := Reader.runFrom_bind_ok.1 taken
            split at taken
            · next hid' =>
              subst hid'
              exact ⟨d, tagged, behind, rfl, Reader.runFrom_byte.1 htag,
                Reader.runFrom_int32.1 hid, taken⟩
            · split at taken <;> cases taken
          · cases taken
      · rintro ⟨_, tagged, behind, ⟨⟩, hover, hover', taken⟩
        refine ⟨compositeTag, tagged, Reader.runFrom_byte.2 hover, ?_⟩
        rw [if_neg (by decide), if_pos rfl]
        refine Reader.runFrom_bind_ok.2 ⟨d.id, behind, Reader.runFrom_int32.2 hover', ?_⟩
        rw [if_pos rfl]
        exact taken

/-- A reader of an object that may be absent finds it absent exactly on the tag of the absent
object. -/
theorem runFrom_readNullable_none :
    (r.readNullable payload t).runFrom c = (.ok none, c') ↔
      r.check t = .ok () ∧ c.Over [nullTag] c' := by
  unfold readNullable
  rcases r.check t with e | ⟨⟩
  · exact ⟨fun h => (nomatch h), fun h => (nomatch h.1)⟩
  · rw [Reader.runFrom_bind_ok]
    constructor
    · rintro ⟨b, d, hb, taken⟩
      obtain ⟨rfl, hfront⟩ := Reader.runFrom_peek.1 hb
      split at taken
      · next hb' =>
        subst hb'
        obtain ⟨b, d', hb, hd⟩ := Reader.runFrom_bind_ok.1 taken
        cases hd
        have passed := Reader.runFrom_byte.1 hb
        rw [passed.rest] at hfront
        cases hfront
        exact ⟨rfl, passed⟩
      · obtain ⟨v, _, hv⟩ := Reader.runFrom_map_ok.1 taken
        cases hv
    · rintro ⟨_, passed⟩
      refine ⟨nullTag, c, Reader.runFrom_peek.2 ⟨rfl, by rw [passed.rest]; rfl⟩, ?_⟩
      rw [if_pos rfl]
      exact Reader.runFrom_bind_ok.2 ⟨nullTag, c', Reader.runFrom_byte.2 passed, rfl⟩

/-- The tag of the absent object does not frame anything. -/
theorem ObjectAt.head_ne (h : r.ObjectAt payload t v c c') : c.rest.head? ≠ some nullTag := by
  obtain ⟨read, behind, hread, passed, _⟩ := h
  obtain ⟨tag, others, hbytes, hne⟩ := frame_starts (check_of_payloadReader? hread)
  intro hnull
  rw [passed.rest, hbytes] at hnull
  exact hne (Option.some.inj hnull)

/-- A reader of an object that may be absent does what the reader of one that is there does, unless
the tag of the absent object lies ahead. -/
theorem readNullable_of_head (known : r.check t = .ok ()) {b : UInt8}
    (ahead : c.rest.head? = some b) (present : b ≠ nullTag) :
    (r.readNullable payload t).runFrom c = (some <$> r.readObject payload t).runFrom c := by
  unfold readNullable
  rw [known]
  dsimp only
  rw [Reader.runFrom_bind, Reader.runFrom_peek.2 ⟨rfl, ahead⟩]
  dsimp only
  rw [if_neg present]

/-- A reader of an object that may be absent finds it there exactly on an object of its type. -/
theorem runFrom_readNullable_some :
    (r.readNullable payload t).runFrom c = (.ok (some v), c') ↔ r.ObjectAt payload t v c c' := by
  constructor
  · intro h
    unfold readNullable at h
    rcases hc : r.check t with e | ⟨⟩
    · rw [hc] at h
      cases h
    · rw [hc] at h
      obtain ⟨b, d, hb, taken⟩ := Reader.runFrom_bind_ok.1 h
      obtain ⟨rfl, _⟩ := Reader.runFrom_peek.1 hb
      split at taken
      · obtain ⟨b, d', _, hd⟩ := Reader.runFrom_bind_ok.1 taken
        cases hd
      · obtain ⟨w, taken, hw⟩ := Reader.runFrom_map_ok.1 taken
        cases hw
        exact runFrom_readObject.1 taken
  · intro object
    obtain ⟨b, hb⟩ : ∃ b, c.rest.head? = some b := by
      obtain ⟨read, behind, hread, passed, _⟩ := object
      obtain ⟨tag, others, hbytes, _⟩ := frame_starts (check_of_payloadReader? hread)
      exact ⟨tag, by rw [passed.rest, hbytes]; rfl⟩
    have present : b ≠ nullTag := fun h => object.head_ne (h ▸ hb)
    rw [readNullable_of_head object.known hb present]
    exact Reader.runFrom_map_ok.2 ⟨v, runFrom_readObject.2 object, rfl⟩

/-! ## Reading with nothing in hand -/

/-- A tag that announces a primitive is the tag of that primitive. -/
theorem tag_of_ofTag? {tag : UInt8} {p : Primitive} (h : Primitive.ofTag? tag = some p) :
    p.tag = tag := by
  have found := List.find?_some h
  simpa using found

/-- **An untyped reader succeeds exactly on an object of some type**, or on the tag of the absent
object. -/
theorem runFrom_readAny :
    (r.readAny payload).runFrom c = (.ok v, c') ↔
      v = .null ∧ c.Over [nullTag] c' ∨
        ∃ t w, v = .dynamic t w ∧ r.ObjectAt payload t w c c' := by
  unfold readAny
  rw [Reader.runFrom_bind_ok]
  constructor
  · rintro ⟨tag, tagged, htag, taken⟩
    have passed := Reader.runFrom_byte.1 htag
    split at taken
    · next hnull =>
      subst hnull
      cases taken
      exact .inl ⟨rfl, passed⟩
    · split at taken
      · next p hp =>
        rw [← tag_of_ofTag? hp] at passed
        obtain ⟨s, hs, rfl⟩ := Reader.runFrom_map_ok.1 taken
        exact .inr ⟨.primitive p, .scalar s, rfl,
          objectAt_primitive.2 ⟨tagged, passed, Reader.runFrom_map_ok.2 ⟨s, hs, rfl⟩⟩⟩
      · split at taken
        · next htag' =>
          subst htag'
          obtain ⟨id, behind, hid, taken⟩ := Reader.runFrom_bind_ok.1 taken
          split at taken
          · next d hd =>
            obtain ⟨registered, rfl⟩ := of_byId hd
            obtain ⟨w, hw, rfl⟩ := Reader.runFrom_map_ok.1 taken
            exact .inr ⟨.composite d.key, w, rfl, objectAt_composite.2 ⟨d, tagged, behind,
              byKey_of_mem registered, passed, Reader.runFrom_int32.1 hid, hw⟩⟩
          · cases taken
        · cases taken
  · rintro (⟨rfl, passed⟩ | ⟨t, w, rfl, object⟩)
    · exact ⟨nullTag, c', Reader.runFrom_byte.2 passed, rfl⟩
    · cases t with
      | primitive p =>
        obtain ⟨tagged, passed, taken⟩ := objectAt_primitive.1 object
        obtain ⟨s, hs, rfl⟩ := Reader.runFrom_map_ok.1 taken
        refine ⟨p.tag, tagged, Reader.runFrom_byte.2 passed, ?_⟩
        rw [if_neg (tag_ne_reserved p).1, Primitive.ofTag?_tag]
        exact Reader.runFrom_map_ok.2 ⟨s, hs, rfl⟩
      | composite k =>
        obtain ⟨d, tagged, behind, hd, passed, passed', taken⟩ := objectAt_composite.1 object
        refine ⟨compositeTag, tagged, Reader.runFrom_byte.2 passed, ?_⟩
        rw [if_neg (by decide), ofTag?_compositeTag]
        show Reader.runFrom (if compositeTag = compositeTag then _ else _) _ = _
        rw [if_pos rfl]
        refine Reader.runFrom_bind_ok.2 ⟨d.id, behind, Reader.runFrom_int32.2 passed', ?_⟩
        rw [byId_of_byKey hd]
        exact Reader.runFrom_map_ok.2 ⟨w, taken, by rw [Descriptor.type, key_of_byKey hd]⟩

end Registry

/-- **Typed and untyped objects agree.** Written by any writer, an object of a known type has the
same outcome, position and bytes both ways, also where the buffer refuses a part of it. And from any
place in any message, whatever reads the payloads, the typed reader yields a value exactly where the
untyped one yields that value as one of the type, and finds the object absent exactly where the
untyped one does; both stop in the same place. -/
theorem untyped_agrees_with_typed {r : Registry} {t : TypeRef} (known : r.check t = .ok ()) :
    (∀ (w : Writer) (v : Datum),
      w.perform (r.emit (.dynamic t v)) = w.perform (r.emit (.object t v))) ∧
    ∀ (payload : Descriptor → Reader Datum) (c c' : Cursor),
      (∀ v, (r.readObject payload t).runFrom c = (.ok v, c') ↔
        (r.readAny payload).runFrom c = (.ok (.dynamic t v), c')) ∧
      ((r.readNullable payload t).runFrom c = (.ok none, c') ↔
        (r.readAny payload).runFrom c = (.ok .null, c')) := by
  refine ⟨fun w v => by rw [Registry.emit_dynamic known], fun payload c c' => ⟨fun v => ?_, ?_⟩⟩
  · rw [Registry.runFrom_readObject, Registry.runFrom_readAny]
    constructor
    · exact fun object => .inr ⟨t, v, rfl, object⟩
    · rintro (⟨h, _⟩ | ⟨_, _, ⟨⟩, object⟩)
      · cases h
      · exact object
  · rw [Registry.runFrom_readNullable_none, Registry.runFrom_readAny]
    constructor
    · exact fun h => .inl ⟨rfl, h.2⟩
    · rintro (⟨_, passed⟩ | ⟨_, _, h, _⟩)
      · exact ⟨known, passed⟩
      · cases h

namespace Sample

/-- A buffer that holds the frame of a record and its first number and no more. -/
def nineBytes : Buffer := ⟨#[], 0, 0, some 9⟩

/-- A record as a message, its label absent, and a byte that is not part of it. -/
def recordMessage : Bytes := [103, 218, 98, 52, 0, 1, 0, 0, 0, 2, 0, 0, 0, 255, 255, 255, 255, 42]

/-- A record that a buffer refuses half-way, one that is read, and one that is absent. -/
theorem untyped_agrees_with_typed_record :
    writingSide.check (.composite pair.key) = .ok () ∧
    (Writer.start nineBytes).perform (writingSide.emit (.dynamic (.composite pair.key) unlabelled)) =
      (Writer.start nineBytes).perform (writingSide.emit (.object (.composite pair.key) unlabelled)) ∧
    ((Writer.start nineBytes).perform
        (writingSide.emit (.dynamic (.composite pair.key) unlabelled))).1
      = .error (.outOfMemory 13) ∧
    (writingSide.readAny writingSide.payload).runFrom (.start recordMessage)
      = (.ok (.dynamic (.composite pair.key) unlabelled), ⟨17, [42]⟩) ∧
    (writingSide.readAny writingSide.payload).runFrom (.start [nullTag])
      = (.ok .null, ⟨1, []⟩) := by
  have known : writingSide.check (.composite pair.key) = .ok () := by decide +kernel
  obtain ⟨written, read⟩ := untyped_agrees_with_typed known
  refine ⟨known, written _ unlabelled, by decide +kernel, ?_, ?_⟩
  · exact ((read writingSide.payload _ _).1 unlabelled).1 (by decide +kernel)
  · exact (read writingSide.payload _ _).2.1 (by decide +kernel)

end Sample

end RemoteDispatch
