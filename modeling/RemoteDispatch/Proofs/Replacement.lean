import RemoteDispatch.Proofs.Failures

/-!
# A record in the place of a payload

A failure record is written over whatever a reply buffer held: in pieces, each
of which the buffer may refuse, and over bytes that were committed before. Two
numbers decide what comes of it, the lengths of the texts and the size of the
record, and both are known before the first byte is written.

If the record is taken, the buffer shows it as it is spelt out in
`Failure.record`, and the reader takes it from the front of any message that
starts with it, so that bytes behind it do no harm. If it is not, the buffer
shows nothing: what was committed is forgotten first, and a record is only
committed when all of it stands there.
-/

namespace RemoteDispatch

/-! ## The record spelt out -/

/-- A text in a record: the number of its bytes and the bytes, or the mark of its absence. -/
def textRecord : Option String → Bytes
  | some s => littleEndian 4 (utf8 s).length ++ utf8 s
  | none => [0xff, 0xff, 0xff, 0xff]

namespace Emission

theorem stop_text?_iff {s : Option String} :
    (text? s).stop = none ↔ ∀ t ∈ s, (utf8 t).length ≤ maxLength := by
  refine ⟨fun whole t present => ?_, stop_text?⟩
  subst present
  exact stop_length.1 (stop_andThen.1 whole).1

theorem bytes_text? {s : Option String} (short : ∀ t ∈ s, (utf8 t).length ≤ maxLength) :
    (text? s).bytes = textRecord s := by
  cases s with
  | none => rfl
  | some s =>
    show (text s).bytes = _
    rw [text, bytes_andThen (stop_length.2 (short s rfl)), bytes_length (short s rfl), bytes_run]
    rfl

end Emission

namespace Failure

/-- **The record of a failure**: its code, its message and its class, which may be absent. -/
def record (f : Failure) : Bytes :=
  littleEndian 4 f.code.toUInt32.toNat ++ textRecord (some f.message) ++ textRecord f.remoteKind

variable {f : Failure} {b : Buffer}

/-- **A record is written to its end** exactly if its texts are short. -/
theorem stop_emission : f.emission.stop = none ↔ f.Short := by
  refine ⟨fun whole => ?_, Short.stop⟩
  have parts : (layout f.code (some f.message) f.remoteKind).stop = none := whole
  obtain ⟨message, remoteKind⟩ := stop_layout.1 parts
  exact ⟨Emission.stop_text?_iff.1 message f.message rfl, Emission.stop_text?_iff.1 remoteKind⟩

theorem Short.bytes (short : f.Short) : f.emission.bytes = f.record := by
  have parts : f.emission.bytes = _ := bytes_layout (Emission.stop_text? short.message?)
  rw [parts, Emission.bytes_text? short.message?, Emission.bytes_text? short.remoteKind,
    Emission.int32, Emission.bytes_run, ← List.append_assoc]
  rfl

/-- **The record is taken for the failure** from the front of any message. -/
theorem Short.takes_record (short : f.Short) : Reader.Takes read f.record f := by
  have code : Reader.Takes Reader.int32 _ f.code := Reader.takes_int32 f.code
  have message := Reader.takes_optional (Emission.stop_text? short.message?)
  have remoteKind := Reader.takes_optional (Emission.stop_text? short.remoteKind)
  rw [Emission.bytes_text? short.message?] at message
  rw [Emission.bytes_text? short.remoteKind] at remoteKind
  have all : Reader.Takes read
      (littleEndian 4 f.code.toUInt32.toNat ++
        (textRecord (some f.message) ++ textRecord f.remoteKind)) f :=
    code.bind (message.bind (remoteKind.bind_pure rfl))
  rwa [← List.append_assoc] at all

/-! ## Writing it -/

/-- **A record that fits is shown**, and nothing else is. -/
theorem encodeInto_of_fits (r : Registry) (short : f.Short) (within : b.withinLimit f.size) :
    ∃ b', f.encodeInto r b = (.ok (), b') ∧ b'.committed = f.record := by
  have within : b.reset.withinLimit f.emission.bytes.length := by
    rw [short.length]
    exact within
  obtain ⟨w, hperform, held⟩ := (Writer.holds_start b.reset).perform_of_canHold
    (e := f.emission) (.inr ⟨within, f.length_bytes_emission_le⟩)
  obtain ⟨b', hsync, shown, _⟩ := held.synchronize
  refine ⟨b', ?_, ?_⟩
  · rw [encodeInto_eq, hperform, Emission.outcome, short.stop]
    dsimp only
    rw [hsync]
  · rw [shown, List.nil_append, short.bytes]

/-- **A record that was taken fits.** -/
theorem fits_of_encodeInto {r : Registry} (bounded : b.Bounded)
    (taken : (f.encodeInto r b).1 = .ok ()) : f.Short ∧ b.withinLimit f.size := by
  rw [encodeInto_eq] at taken
  cases hperform : (Writer.start b.reset).perform f.emission with
  | mk answer w =>
    rw [hperform] at taken
    cases answer with
    | error e => cases taken
    | ok _ =>
      -- the writer stands behind the whole record, in a buffer that keeps within its limit
      obtain ⟨whole, held⟩ := (Writer.holds_start b.reset).perform hperform
      have short := stop_emission.1 whole
      have kept := Writer.keeps_perform Buffer.kept_bounded.filled (w := .start b.reset)
        (Buffer.kept_bounded.reset bounded) f.emission
      have limit := (Writer.sameFrame_perform (.start b.reset) f.emission).1
      rw [hperform] at kept limit
      have within := held.within kept
      rw [Buffer.withinLimit_congr limit, List.nil_append, short.length] at within
      exact ⟨short, within⟩

/-- **A failure record replaces what a buffer shows, or leaves it showing
nothing.** It is taken exactly if its texts are short enough for their lengths
and the record is within the limit. Then the buffer shows the record, from
which the failure is read back whatever follows it. Otherwise the buffer shows
nothing. -/
theorem encodeInto_replaces (f : Failure) (r : Registry) {b : Buffer} (bounded : b.Bounded) :
    ((f.encodeInto r b).1 = .ok () ↔ f.Short ∧ ∀ limit ∈ b.limit, f.size ≤ limit) ∧
      ((f.encodeInto r b).1 = .ok () →
        (f.encodeInto r b).2.committed = f.record ∧ f.record.length = f.size ∧
          ∀ trailer, read.runFrom (.start ((f.encodeInto r b).2.committed ++ trailer)) =
            (.ok f, ⟨f.size, trailer⟩)) ∧
      (∀ e, (f.encodeInto r b).1 = .error e →
        (f.encodeInto r b).2.length = 0 ∧ (f.encodeInto r b).2.committed = []) := by
  have limits : b.withinLimit f.size ↔ ∀ limit ∈ b.limit, f.size ≤ limit := by
    unfold Buffer.withinLimit
    cases b.limit with
    | none => simp
    | some limit => simp
  refine ⟨⟨fun taken => ?_, ?_⟩, fun taken => ?_, fun e refused => ?_⟩
  · obtain ⟨short, within⟩ := fits_of_encodeInto bounded taken
    exact ⟨short, limits.1 within⟩
  · rintro ⟨short, within⟩
    obtain ⟨b', hencode, _⟩ := encodeInto_of_fits r short (limits.2 within)
    rw [hencode]
  · obtain ⟨short, within⟩ := fits_of_encodeInto bounded taken
    obtain ⟨b', hencode, shown⟩ := encodeInto_of_fits r short within
    have length : f.record.length = f.size := by rw [← short.bytes, short.length]
    rw [hencode]
    refine ⟨shown, length, fun trailer => ?_⟩
    have read := short.takes_record 0 trailer
    rwa [length, Nat.zero_add, ← shown] at read
  · have length := length_of_refused refused
    exact ⟨length, committed_of_length_eq_zero length⟩

end Failure

namespace Sample

/-- A buffer that shows three bytes and has a limit. -/
def occupied (limit : Nat) : Buffer := ⟨#[1, 2, 3], 3, 3, some limit⟩

/-- The record takes the place of the three bytes where all of it fits, and where one byte of it
does not, nothing is shown. -/
theorem encodeInto_replaces_occupied :
    (occupied 21).Bounded ∧ (refusal.encodeInto .empty (occupied 21)).1 = .ok () ∧
      (refusal.encodeInto .empty (occupied 21)).2.committed = refusal.record ∧
      Failure.read.runFrom (.start (refusal.record ++ [1, 2, 3])) =
        (.ok refusal, ⟨21, [1, 2, 3]⟩) ∧
      (occupied 20).Bounded ∧ (refusal.encodeInto .empty (occupied 20)).2.committed = [] := by
  have bounded : (occupied 21).Bounded := ⟨by decide, rfl⟩
  have narrow : (occupied 20).Bounded := ⟨by decide, rfl⟩
  obtain ⟨fits, shows, _⟩ := Failure.encodeInto_replaces refusal .empty bounded
  obtain ⟨_, _, hides⟩ := Failure.encodeInto_replaces refusal .empty narrow
  have taken : (refusal.encodeInto .empty (occupied 21)).1 = .ok () := by decide +kernel
  have refused : (refusal.encodeInto .empty (occupied 20)).1 = .error (.outOfMemory 21) := by
    decide +kernel
  obtain ⟨committed, _, reads⟩ := shows taken
  have read := reads [1, 2, 3]
  rw [committed] at read
  exact ⟨bounded, taken, committed, read, narrow, (hides _ refused).2⟩

end Sample

end RemoteDispatch
