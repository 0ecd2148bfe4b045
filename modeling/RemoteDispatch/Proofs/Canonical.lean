import RemoteDispatch.Proofs.Frames

/-!
# One spelling for each value

The far side may be sloppy in two places and still be understood. A truth
value may be any byte but zero, and an error message may be left out. Nothing
else has two spellings: a text is well formed or refused, a length is a count,
the mark of absence or refused, an id is that of a registered type or refused.

`Registry.Spells` puts this down as a relation of its own, with the bytes a
value was found as beside the bytes it is written as. Whatever is read has
been found in a spelling of the relation, and what a spelling is written as
has the length of what it was found as, fits the shape, and is what the value
lays out. So a value that was read can be written again in as many bytes, and
these are read as the same value.
-/

namespace RemoteDispatch

/-! ## Spellings -/

/-- A value, the bytes it was found as and the bytes it is written as. -/
structure Spelling where
  /-- The value. -/
  value : Datum
  /-- The bytes it was found as. -/
  found : Bytes
  /-- The bytes it is written as. -/
  written : Bytes

namespace Spelling

/-- A sequence of spellings behind their number. -/
def seq (items : List Spelling) : Spelling where
  value := .seq (.ofList (items.map value))
  found := (Emission.length items.length).bytes ++ items.flatMap found
  written := (Emission.length items.length).bytes ++ items.flatMap written

/-- A payload behind the frame of its object. -/
def framed (object : Datum → Datum) (frame : Bytes) (payload : Spelling) : Spelling where
  value := object payload.value
  found := frame ++ payload.found
  written := frame ++ payload.written

end Spelling

/-- **The spellings of the values of a shape.** A value is found as it is written, except that a
truth value may be any byte but zero and a message that stands for an empty one may be absent. -/
inductive Registry.Spells (r : Registry) : Shape → Spelling → Prop where
  | same {s : Shape} {d : Datum} (fits : r.Fits s d) (whole : (r.emit d).stop = none) :
      r.Spells s ⟨d, (r.emit d).bytes, (r.emit d).bytes⟩
  | truth {b : UInt8} (ne : b ≠ 0) : r.Spells (.scalar .bool) ⟨.scalar (.bool true), [b], [1]⟩
  | noMessage : r.Spells .textOrEmpty
      ⟨.scalar (.text ""), Emission.noLength.bytes, (Emission.text "").bytes⟩
  | pair {s s' : Shape} {a b : Spelling} (first : r.Spells s a) (second : r.Spells s' b) :
      r.Spells (.pair s s')
        ⟨.cons a.value b.value, a.found ++ b.found, a.written ++ b.written⟩
  | seq {s : Shape} {items : List Spelling} (count : items.length ≤ Emission.maxLength)
      (each : ∀ a ∈ items, r.Spells s a) : r.Spells (.seq s) (.seq items)
  | nullableSeq {s : Shape} {items : List Spelling} (count : items.length ≤ Emission.maxLength)
      (each : ∀ a ∈ items, r.Spells s a) : r.Spells (.nullableSeq s) (.seq items)
  | object {t : TypeRef} {s : Shape} {a : Spelling} (known : r.payloadShape? t = some s)
      (payload : r.Spells s a) : r.Spells (.object t) (.framed (.object t) (r.frame t).bytes a)
  | nullable {t : TypeRef} {s : Shape} {a : Spelling} (known : r.payloadShape? t = some s)
      (payload : r.Spells s a) : r.Spells (.nullable t) (.framed (.object t) (r.frame t).bytes a)
  | dynamic {t : TypeRef} {s : Shape} {a : Spelling} (known : r.payloadShape? t = some s)
      (payload : r.Spells s a) : r.Spells .any (.framed (.dynamic t) (r.frame t).bytes a)
  | flagged {s : Shape} {a : Spelling} {b : UInt8} (ne : b ≠ 0) (part : r.Spells s a) :
      r.Spells (.flagged s) ⟨.cons (.scalar (.bool true)) a.value, b :: a.found, 1 :: a.written⟩

namespace Registry

variable {r : Registry}

/-- A chain lays out what its parts lay out, one after another. -/
theorem emit_ofList {ds : List Datum} (whole : ∀ d ∈ ds, (r.emit d).stop = none) :
    (r.emit (.ofList ds)).stop = none ∧
      (r.emit (.ofList ds)).bytes = ds.flatMap fun d => (r.emit d).bytes := by
  induction ds with
  | nil => exact ⟨rfl, rfl⟩
  | cons d ds ih =>
    have first := whole d List.mem_cons_self
    obtain ⟨stop, bytes⟩ := ih fun d hd => whole d (List.mem_cons_of_mem _ hd)
    rw [Datum.ofList, emit, Emission.bytes_andThen first, List.flatMap_cons, bytes]
    exact ⟨Emission.stop_andThen.2 ⟨first, stop⟩, rfl⟩

namespace Spells

variable {s : Shape} {a : Spelling}

/-- What a value is found as has the length of what it is written as. -/
theorem length_eq (h : r.Spells s a) : a.written.length = a.found.length := by
  induction h with
  | same | truth => rfl
  | noMessage => rfl
  | pair _ _ ih₁ ih₂ => rw [List.length_append, List.length_append, ih₁, ih₂]
  | seq _ _ ih | nullableSeq _ _ ih =>
    rw [Spelling.seq, List.length_append, List.length_append, List.length_flatMap,
      List.length_flatMap, List.map_congr_left ih]
  | object _ _ ih | nullable _ _ ih | dynamic _ _ ih =>
    rw [Spelling.framed, List.length_append, List.length_append, ih]
  | flagged _ _ ih => rw [List.length_cons, List.length_cons, ih]

/-- The value of a spelling fits the shape. -/
theorem fits (h : r.Spells s a) : r.Fits s a.value := by
  induction h with
  | same fits _ => exact fits
  | truth _ => exact .scalar (.bool true)
  | noMessage => exact .textOrEmpty ""
  | pair _ _ ih₁ ih₂ => exact .pair ih₁ ih₂
  | seq _ _ ih => exact .seq (List.forall_mem_map.2 ih)
  | nullableSeq _ _ ih => exact .nullableSeq (List.forall_mem_map.2 ih)
  | object known _ ih => exact .object known ih
  | nullable known _ ih => exact .nullable known ih
  | dynamic known _ ih => exact .dynamic known ih
  | flagged _ _ ih => exact .flagged ih

/-- The value lays out a sequence of spellings if it lays out each of them. -/
theorem emit_seq {items : List Spelling} (count : items.length ≤ Emission.maxLength)
    (each : ∀ a ∈ items, (r.emit a.value).stop = none ∧ (r.emit a.value).bytes = a.written) :
    (r.emit (Spelling.seq items).value).stop = none ∧
      (r.emit (Spelling.seq items).value).bytes = (Spelling.seq items).written := by
  have counted := Emission.stop_length.2 count
  have whole : ∀ d ∈ items.map Spelling.value, (r.emit d).stop = none :=
    List.forall_mem_map.2 fun a ha => (each a ha).1
  obtain ⟨stop, bytes⟩ := emit_ofList whole
  have parts : (items.map Spelling.value).flatMap (fun d => (r.emit d).bytes)
      = items.flatMap Spelling.written := by
    rw [List.flatMap_map]
    exact List.flatMap_congr fun a ha => (each a ha).2
  rw [Spelling.seq, emit, Datum.cells_ofList, List.length_map, Emission.bytes_andThen counted,
    bytes, parts]
  exact ⟨Emission.stop_andThen.2 ⟨counted, stop⟩, rfl⟩

/-- The value lays out an object of a known type if it lays out its payload. -/
theorem emit_object {t : TypeRef} (known : r.payloadShape? t = some s)
    (payload : (r.emit a.value).stop = none ∧ (r.emit a.value).bytes = a.written) :
    (r.emit (.object t a.value)).stop = none ∧
      (r.emit (.object t a.value)).bytes = (r.frame t).bytes ++ a.written := by
  have framed := stop_frame (check_of_payloadShape? known)
  rw [emit, Emission.bytes_andThen framed, payload.2]
  exact ⟨Emission.stop_andThen.2 ⟨framed, payload.1⟩, rfl⟩

/-- **A spelling is written as what its value lays out.** -/
theorem emitted (h : r.Spells s a) :
    (r.emit a.value).stop = none ∧ (r.emit a.value).bytes = a.written := by
  induction h with
  | same _ whole => exact ⟨whole, rfl⟩
  | truth _ => exact ⟨rfl, rfl⟩
  | noMessage => exact ⟨rfl, rfl⟩
  | pair _ _ ih₁ ih₂ =>
    rw [emit, Emission.bytes_andThen ih₁.1, ih₁.2, ih₂.2]
    exact ⟨Emission.stop_andThen.2 ⟨ih₁.1, ih₂.1⟩, rfl⟩
  | seq count _ ih => exact emit_seq count ih
  | nullableSeq count _ ih => exact emit_seq count ih
  | object known _ ih => exact emit_object known ih
  | nullable known _ ih => exact emit_object known ih
  | dynamic known _ ih =>
    rw [Spelling.framed, emit_dynamic (check_of_payloadShape? known)]
    exact emit_object known ih
  | flagged _ _ ih =>
    rw [emit, Emission.bytes_andThen rfl, ih.2]
    exact ⟨Emission.stop_andThen.2 ⟨rfl, ih.1⟩, rfl⟩

end Spells

end Registry

/-! ## What is read was found in a spelling -/

namespace Reader

variable {c c' : Cursor}

/-- **A primitive value is found as it is written**, unless it is true. -/
theorem found_scalar {p : Primitive} {v : Scalar} (h : (scalar p).runFrom c = (.ok v, c')) :
    v.kind = p ∧ (v.emission.stop = none ∧ c.Over v.emission.bytes c' ∨
      v = .bool true ∧ ∃ b, b ≠ 0 ∧ c.Over [b] c') := by
  cases p with
  | int8 =>
    obtain ⟨n, hn, rfl⟩ := runFrom_map_ok.1 h
    refine ⟨rfl, .inl ⟨rfl, ?_⟩⟩
    show c.Over (Emission.run [_]).bytes c'
    rw [Emission.bytes_run, UInt8.toUInt8_toInt8]
    exact (runFrom_word.1 hn).2
  | int16 =>
    obtain ⟨n, hn, rfl⟩ := runFrom_map_ok.1 h
    obtain ⟨lt, passed⟩ := runFrom_word.1 hn
    refine ⟨rfl, .inl ⟨rfl, ?_⟩⟩
    rwa [Scalar.emission, Emission.bytes_run, UInt16.toUInt16_toInt16,
      UInt16.toNat_ofNat_of_lt' lt]
  | int32 =>
    obtain ⟨n, hn, rfl⟩ := runFrom_map_ok.1 h
    exact ⟨rfl, .inl ⟨rfl, runFrom_int32.1 hn⟩⟩
  | int64 =>
    obtain ⟨n, hn, rfl⟩ := runFrom_map_ok.1 h
    exact ⟨rfl, .inl ⟨rfl, runFrom_int64.1 hn⟩⟩
  | float32 =>
    obtain ⟨n, hn, rfl⟩ := runFrom_map_ok.1 h
    obtain ⟨lt, passed⟩ := runFrom_word.1 hn
    refine ⟨rfl, .inl ⟨rfl, ?_⟩⟩
    rwa [Scalar.emission, Emission.bytes_run, UInt32.toNat_ofNat_of_lt' lt]
  | float64 =>
    obtain ⟨n, hn, rfl⟩ := runFrom_map_ok.1 h
    obtain ⟨lt, passed⟩ := runFrom_word.1 hn
    refine ⟨rfl, .inl ⟨rfl, ?_⟩⟩
    rwa [Scalar.emission, Emission.bytes_run, UInt64.toNat_ofNat_of_lt' lt]
  | uint16 =>
    obtain ⟨n, hn, rfl⟩ := runFrom_map_ok.1 h
    obtain ⟨lt, passed⟩ := runFrom_word.1 hn
    refine ⟨rfl, .inl ⟨rfl, ?_⟩⟩
    rwa [Scalar.emission, Emission.bytes_run, UInt16.toNat_ofNat_of_lt' lt]
  | bool =>
    obtain ⟨b, hb, rfl⟩ := runFrom_map_ok.1 h
    have passed := runFrom_byte.1 hb
    refine ⟨rfl, ?_⟩
    by_cases zero : b = 0
    · subst zero
      exact .inl ⟨rfl, passed⟩
    · exact .inr ⟨congrArg Scalar.bool (bne_iff_ne.2 zero), b, zero, passed⟩
  | text =>
    obtain ⟨s, hs, rfl⟩ := runFrom_map_ok.1 h
    obtain ⟨_ | s', d, hs', hend⟩ := runFrom_bind_ok.1 hs
    · cases hend
    · cases hend
      exact ⟨rfl, .inl (takesOnly_text?.passed forward_closed.text? hs')⟩
  | guid =>
    obtain ⟨g, hg, rfl⟩ := runFrom_map_ok.1 h
    obtain ⟨most, d, hmost, hg⟩ := runFrom_bind_ok.1 hg
    obtain ⟨least, d', hleast, hg⟩ := runFrom_bind_ok.1 hg
    cases hg
    refine ⟨rfl, .inl ⟨rfl, ?_⟩⟩
    rw [Scalar.emission, Emission.bytes_andThen rfl]
    exact (runFrom_int64.1 hmost).trans (runFrom_int64.1 hleast)

end Reader

namespace Registry

variable {r : Registry} {payload : Descriptor → Reader Datum} {c c' : Cursor} {v : Datum}

/-- A value of a shape was found in a spelling between two places. -/
def Found (r : Registry) (s : Shape) (v : Datum) (c c' : Cursor) : Prop :=
  ∃ a, r.Spells s a ∧ a.value = v ∧ c.Over a.found c'

/-- What a reader reads was found in a spelling of a shape. -/
def Finds (r : Registry) (read : Reader Datum) (s : Shape) : Prop :=
  ∀ {c c' v}, read.runFrom c = (.ok v, c') → r.Found s v c c'

/-- A value found as it is written was found in a spelling. -/
theorem found_same {s : Shape} (fits : r.Fits s v) (whole : (r.emit v).stop = none)
    (passed : c.Over (r.emit v).bytes c') : r.Found s v c c' :=
  ⟨_, .same fits whole, rfl, passed⟩

theorem finds_scalar (p : Primitive) : r.Finds (.scalar <$> Reader.scalar p) (.scalar p) := by
  intro c c' v h
  obtain ⟨s, hs, rfl⟩ := Reader.runFrom_map_ok.1 h
  obtain ⟨rfl, ⟨whole, passed⟩ | ⟨rfl, b, ne, passed⟩⟩ := Reader.found_scalar hs
  · exact found_same (.scalar s) whole passed
  · exact ⟨_, .truth ne, rfl, passed⟩

/-! ### Sequences -/

/-- Items are found one after another. -/
theorem found_times {item : Reader Datum} {s : Shape} (finds : r.Finds item s) {n : Nat}
    {vs : List Datum} (h : (Reader.times item n).runFrom c = (.ok vs, c')) :
    ∃ items : List Spelling, items.length = n ∧ (∀ a ∈ items, r.Spells s a) ∧
      items.map Spelling.value = vs ∧ c.Over (items.flatMap Spelling.found) c' := by
  induction n generalizing c vs with
  | zero =>
    cases h
    exact ⟨[], rfl, nofun, rfl, .refl _⟩
  | succ n ih =>
    obtain ⟨first, d, hfirst, h⟩ := Reader.runFrom_bind_ok.1 h
    obtain ⟨others, d', hothers, h⟩ := Reader.runFrom_bind_ok.1 h
    cases h
    obtain ⟨a, spells, rfl, passed⟩ := finds hfirst
    obtain ⟨items, rfl, each, rfl, passed'⟩ := ih hothers
    exact ⟨a :: items, rfl, List.forall_mem_cons.2 ⟨spells, each⟩, rfl, passed.trans passed'⟩

/-- A sequence that may be absent is found behind its count, or as the mark of absence. -/
theorem found_seq? {item : Reader Datum} {s : Shape} (finds : r.Finds item s)
    {found : Option (List Datum)} (h : (Reader.seq? item).runFrom c = (.ok found, c')) :
    (∃ items : List Spelling, items.length ≤ Emission.maxLength ∧ (∀ a ∈ items, r.Spells s a) ∧
        found = some (items.map Spelling.value) ∧ c.Over (Spelling.seq items).found c') ∨
      found = none ∧ c.Over Emission.noLength.bytes c' := by
  obtain ⟨_ | n, d, hcount, h⟩ := Reader.runFrom_bind_ok.1 h
  · cases h
    exact .inr ⟨rfl, (Reader.takesOnly_length?.passed Reader.forward_closed.length? hcount).2⟩
  · obtain ⟨vs, hvs, rfl⟩ := Reader.runFrom_map_ok.1 h
    obtain ⟨counted, passed⟩ := Reader.takesOnly_length?.passed Reader.forward_closed.length? hcount
    obtain ⟨items, rfl, each, rfl, passed'⟩ := found_times finds hvs
    exact .inl ⟨items, Emission.stop_length.1 counted, each, rfl, passed.trans passed'⟩

/-! ### Objects -/

/-- An object of a type is found as its frame and a spelling of its payload. -/
theorem found_object (finds : ∀ d, r.Finds (payload d) d.shape) {t : TypeRef}
    (object : r.ObjectAt payload t v c c') :
    ∃ s a, r.payloadShape? t = some s ∧ r.Spells s a ∧ a.value = v ∧
      c.Over ((r.frame t).bytes ++ a.found) c' := by
  obtain ⟨read, behind, hread, passed, taken⟩ := object
  cases t with
  | primitive p =>
    cases hread
    obtain ⟨a, spells, rfl, passed'⟩ := finds_scalar (r := r) p taken
    exact ⟨.scalar p, a, rfl, spells, rfl, passed.trans passed'⟩
  | composite k =>
    obtain ⟨d, hd, rfl⟩ := Option.map_eq_some_iff.1 hread
    obtain ⟨a, spells, rfl, passed'⟩ := finds d taken
    exact ⟨d.shape, a, Option.map_eq_some_iff.2 ⟨d, hd, rfl⟩, spells, rfl, passed.trans passed'⟩

/-- An object of any type was found in a spelling. -/
theorem finds_readAny (finds : ∀ d, r.Finds (payload d) d.shape) :
    r.Finds (r.readAny payload) .any := by
  intro c c' v h
  obtain ⟨rfl, passed⟩ | ⟨t, w, rfl, object⟩ := runFrom_readAny.1 h
  · exact found_same .null rfl passed
  · obtain ⟨s, a, known, spells, rfl, passed⟩ := found_object finds object
    exact ⟨_, .dynamic known spells, rfl, passed⟩

/-- A type that may be read has a payload of some shape. -/
theorem payloadShape?_of_check {t : TypeRef} (known : r.check t = .ok ()) :
    ∃ s, r.payloadShape? t = some s := by
  cases t with
  | primitive p => exact ⟨_, rfl⟩
  | composite k =>
    obtain ⟨d, hd⟩ := check_composite.1 known
    exact ⟨d.shape, Option.map_eq_some_iff.2 ⟨d, hd, rfl⟩⟩

/-- An absent object of a known type is found as its tag. -/
theorem found_absent {t : TypeRef} (known : r.check t = .ok ()) (passed : c.Over [nullTag] c') :
    r.Found (.nullable t) (.absent t) c c' := by
  obtain ⟨s, hs⟩ := payloadShape?_of_check known
  have marked : r.emit (.absent t) = .byte nullTag := by rw [emit, absentFrame, known]
  refine found_same (.absent hs) ?_ ?_
  · rw [marked]
    rfl
  · rw [marked]
    exact passed

/-! ### Shapes -/

/-- **Whatever the reader of a shape reads was found in a spelling of the shape**, if that holds of
payloads. The induction follows the shape. -/
theorem finds_readAs (finds : ∀ d, r.Finds (payload d) d.shape) (s : Shape) :
    r.Finds (r.readAs payload s) s := by
  induction s with
  | unit =>
    intro c c' v h
    cases h
    exact found_same .unit rfl (.refl c)
  | pair first second ih₁ ih₂ =>
    intro c c' v h
    obtain ⟨_, d, h₁, h⟩ := Reader.runFrom_bind_ok.1 h
    obtain ⟨_, d', h₂, h⟩ := Reader.runFrom_bind_ok.1 h
    cases h
    obtain ⟨a, spells₁, rfl, passed₁⟩ := ih₁ h₁
    obtain ⟨b, spells₂, rfl, passed₂⟩ := ih₂ h₂
    exact ⟨_, .pair spells₁ spells₂, rfl, passed₁.trans passed₂⟩
  | byte =>
    intro c c' v h
    obtain ⟨b, hb, rfl⟩ := Reader.runFrom_map_ok.1 h
    exact found_same (.byte b) rfl (Reader.runFrom_byte.1 hb)
  | scalar p => exact finds_scalar p
  | text =>
    intro c c' v h
    obtain ⟨_ | s, hs, rfl⟩ := Reader.runFrom_map_ok.1 h
    · have taken := Reader.takesOnly_text?.passed Reader.forward_closed.text? hs
      exact found_same .noText taken.1 taken.2
    · have taken := Reader.takesOnly_text?.passed Reader.forward_closed.text? hs
      exact found_same (.text s) taken.1 taken.2
  | textOrEmpty =>
    intro c c' v h
    obtain ⟨_ | s, hs, rfl⟩ := Reader.runFrom_map_ok.1 h
    · have taken := Reader.takesOnly_text?.passed Reader.forward_closed.text? hs
      exact ⟨_, .noMessage, rfl, taken.2⟩
    · have taken := Reader.takesOnly_text?.passed Reader.forward_closed.text? hs
      exact found_same (.textOrEmpty s) taken.1 taken.2
  | seq item ih =>
    intro c c' v h
    obtain ⟨vs, hvs, rfl⟩ := Reader.runFrom_map_ok.1 h
    obtain ⟨_ | vs', d, hseq, hend⟩ := Reader.runFrom_bind_ok.1 hvs
    · cases hend
    · cases hend
      obtain ⟨items, count, each, ⟨⟩, passed⟩ | ⟨hnone, _⟩ := found_seq? ih hseq
      · exact ⟨_, .seq count each, rfl, passed⟩
      · cases hnone
  | nullableSeq item ih =>
    intro c c' v h
    obtain ⟨_ | vs, d, hseq, hend⟩ := Reader.runFrom_bind_ok.1 h
    · cases hend
      obtain ⟨_, _, _, hsome, _⟩ | ⟨_, passed⟩ := found_seq? ih hseq
      · cases hsome
      · exact found_same .noSeq rfl passed
    · cases hend
      obtain ⟨items, count, each, ⟨⟩, passed⟩ | ⟨hnone, _⟩ := found_seq? ih hseq
      · exact ⟨_, .nullableSeq count each, rfl, passed⟩
      · cases hnone
  | object t =>
    intro c c' v h
    obtain ⟨w, hw, rfl⟩ := Reader.runFrom_map_ok.1 h
    obtain ⟨s, a, known, spells, rfl, passed⟩ := found_object finds (runFrom_readObject.1 hw)
    exact ⟨_, .object known spells, rfl, passed⟩
  | nullable t =>
    intro c c' v h
    obtain ⟨_ | w, d, hw, hend⟩ := Reader.runFrom_bind_ok.1 h
    · cases hend
      obtain ⟨known, passed⟩ := runFrom_readNullable_none.1 hw
      exact found_absent known passed
    · cases hend
      obtain ⟨s, a, known, spells, rfl, passed⟩ :=
        found_object finds (runFrom_readNullable_some.1 hw)
      exact ⟨_, .nullable known spells, rfl, passed⟩
  | any => exact finds_readAny finds
  | flagged part ih =>
    intro c c' v h
    obtain ⟨b, d, hb, h⟩ := Reader.runFrom_bind_ok.1 h
    have passed := Reader.runFrom_byte.1 hb
    split at h
    · next flag =>
      obtain ⟨w, hw, rfl⟩ := Reader.runFrom_map_ok.1 h
      obtain ⟨a, spells, rfl, passed'⟩ := ih hw
      exact ⟨_, .flagged (bne_iff_ne.1 flag) spells, rfl, passed.trans passed'⟩
    · next noFlag =>
      cases h
      obtain rfl : b = 0 := by simpa using noFlag
      exact found_same .unflagged rfl passed
  | bounded bound =>
    intro c c' v h
    obtain ⟨b, d, hb, h⟩ := Reader.runFrom_bind_ok.1 h
    split at h
    · cases h
    · next within =>
      cases h
      have plain : r.emit (.bounded bound b) = .byte b := by
        rw [emit, boundedByte, if_neg within, Emission.andThen_empty]
      refine found_same (.bounded bound b) ?_ ?_
      · rw [plain]
        rfl
      · rw [plain]
        exact Reader.runFrom_byte.1 hb

theorem finds_readPayload (n : Nat) (d : Descriptor) : r.Finds (r.readPayload n d) d.shape := by
  induction n generalizing d with
  | zero => exact fun h => nomatch h
  | succ n ih => exact finds_readAs ih d.shape

theorem finds_payload (d : Descriptor) : r.Finds (r.payload d) d.shape := by
  intro c c' v h
  rw [runFrom_payload] at h
  exact finds_readPayload _ d h

end Registry

/-- **Decoding loses nothing but spellings.** Whatever a reader of objects of any type reads, it
read as a spelling of the relation. Written again under the same registry, into any buffer that can
hold as many bytes, the value takes exactly as many, those that its spelling is written as; and from
these, whatever comes behind them, it is read again. A buffer without a limit can hold whatever it
has room for, and anything up to half of the largest capacity. -/
theorem written_again {r : Registry} {c c' : Cursor} {v : Datum}
    (read : (r.readAny r.payload).runFrom c = (.ok v, c')) :
    ∃ found written, c.Over found c' ∧ r.Spells .any ⟨v, found, written⟩ ∧
      written.length = found.length ∧
      (∀ b : Buffer, b.CanHold found.length →
        ∃ w b', (Writer.start b).perform (r.emit v) = (.ok (), w) ∧ w.position = found.length ∧
          w.synchronize = .ok b' ∧ b'.committed = written) ∧
      ∀ trailer, (r.readAny r.payload).runFrom (.start (written ++ trailer))
        = (.ok v, ⟨written.length, trailer⟩) := by
  obtain ⟨⟨v', found, written⟩, spells, value, passed⟩ :=
    Registry.finds_readAny Registry.finds_payload read
  obtain rfl : v' = v := value
  obtain ⟨whole, bytes⟩ := spells.emitted
  obtain rfl : (r.emit v').bytes = written := bytes
  have length : (r.emit v').bytes.length = found.length := spells.length_eq
  refine ⟨found, (r.emit v').bytes, passed, spells, length, fun b room => ?_, fun trailer => ?_⟩
  · rw [← length, ← List.nil_append (r.emit v').bytes] at room
    obtain ⟨w, performed, held⟩ := (Writer.holds_start b).perform_of_canHold room
    obtain ⟨b', committed, shown, _⟩ := held.synchronize
    rw [List.nil_append] at held shown
    refine ⟨w, b', ?_, held.position.trans length, committed, shown⟩
    rw [performed, Emission.outcome, whole]
  · have taken := Registry.takes_of_fits spells.fits whole 0 trailer
    rwa [Nat.zero_add] at taken

namespace Sample

/-- A call as it is found: the flag of its error is seven, and the error has no message. -/
def sloppyCall : Bytes :=
  [103, 237, 53, 212, 5, 7, 0, 0, 0, 255, 255, 255, 255, 0, 0, 0, 0, 0, 0, 0, 0,
    7, 5, 0, 0, 0, 255, 255, 255, 255]

/-- The same call as it is written: the flag is one, and the message is empty. -/
def neatCall : Bytes :=
  [103, 237, 53, 212, 5, 7, 0, 0, 0, 255, 255, 255, 255, 0, 0, 0, 0, 0, 0, 0, 0,
    1, 5, 0, 0, 0, 0, 0, 0, 0]

/-- A function's arguments with an error without a message to end with. -/
def mutedCall : Datum :=
  .cons (.scalar (.int32 7)) (.cons (.scalar (.int32 (-1))) (.cons (.scalar (.int64 0))
    (.cons (.scalar (.bool true)) (.cons (.scalar (.int32 5)) (.scalar (.text ""))))))

/-- A call that is written otherwise than it was found, in as many bytes. -/
theorem written_again_call :
    (writingSide.readAny writingSide.payload).runFrom (.start sloppyCall) =
      (.ok (.dynamic (.composite function.key) mutedCall), ⟨30, []⟩) ∧
    (Buffer.ofBytes []).CanHold 30 ∧
    (∃ w b', (Writer.start (.ofBytes [])).perform
        (writingSide.emit (.dynamic (.composite function.key) mutedCall)) = (.ok (), w) ∧
      w.position = 30 ∧ w.synchronize = .ok b' ∧ b'.committed = neatCall) ∧
    (writingSide.readAny writingSide.payload).runFrom (.start (neatCall ++ [42])) =
      (.ok (.dynamic (.composite function.key) mutedCall), ⟨30, [42]⟩) := by
  have read : (writingSide.readAny writingSide.payload).runFrom (.start sloppyCall) =
      (.ok (.dynamic (.composite function.key) mutedCall), ⟨30, []⟩) := by decide +kernel
  have room : (Buffer.ofBytes []).CanHold 30 := .inr (by decide)
  obtain ⟨found, written, passed, spells, _, writes, reads⟩ := written_again read
  have neat : (writingSide.emit (.dynamic (.composite function.key) mutedCall)).bytes
      = neatCall := by decide +kernel
  obtain rfl : written = neatCall := spells.emitted.2.symm.trans neat
  have thirty : 30 = found.length := passed.position.trans (Nat.zero_add _)
  rw [← thirty] at writes
  exact ⟨read, room, writes _ room, reads [42]⟩

end Sample

end RemoteDispatch
