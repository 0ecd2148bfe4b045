import Mathlib.Algebra.Group.Nat.Defs
import RemoteDispatch.Proofs.Cursors
import RemoteDispatch.Wire.Encoding

/-!
# What is written is taken

`Reader.Takes read bytes a` says that a reader takes exactly `bytes` for the
value `a`, wherever they stand in a message and whatever comes behind them.
The bytes behind are the point: they let the readers of parts be put in
sequence, so that the reader of a whole takes the bytes of its parts one after
another (`Reader.Takes.bind`).

One lemma for each word, length, text and primitive value says that the bytes
an emission lays out for it are taken for it again. An emission counts only if
it comes to its end: a text that is too long for its length emits no text.
-/

namespace RemoteDispatch

/-- **A word reads back** modulo its width. -/
theorem ofLittleEndian_littleEndian (n v : Nat) :
    ofLittleEndian (littleEndian n v) = v % 256 ^ n := by
  induction n generalizing v with
  | zero => simp [littleEndian, ofLittleEndian, Nat.mod_one]
  | succ n ih =>
    have width : 256 ^ (n + 1) = 256 * 256 ^ n := by rw [Nat.pow_succ, Nat.mul_comm]
    rw [littleEndian, ofLittleEndian, ih, UInt8.toNat_ofNat', width, Nat.mod_mul]

/-! ## Emissions that come to their end -/

namespace Emission

/-- Two emissions in a row come to their end if both do. -/
theorem stop_andThen {a b : Emission} :
    (a.andThen b).stop = none ↔ a.stop = none ∧ b.stop = none := by
  obtain ⟨runs, _ | e⟩ := a
  · exact ⟨fun h => ⟨rfl, h⟩, fun h => h.2⟩
  · exact ⟨fun h => absurd h (Option.some_ne_none e), fun h => absurd h.1 (Option.some_ne_none e)⟩

/-- The bytes of two emissions in a row, if the first comes to its end. -/
theorem bytes_andThen {a b : Emission} (h : a.stop = none) :
    (a.andThen b).bytes = a.bytes ++ b.bytes := by
  obtain ⟨runs, stop⟩ := a
  cases h
  show (runs ++ b.runs).flatten = runs.flatten ++ b.runs.flatten
  rw [List.flatten_append]

@[simp] theorem bytes_run (bytes : Bytes) : (run bytes).bytes = bytes := List.flatten_singleton

/-- A length comes to its end if it can be written. -/
theorem stop_length {n : Nat} : (length n).stop = none ↔ n ≤ maxLength := by
  unfold length
  split
  · next h => exact ⟨fun _ => h, fun _ => rfl⟩
  · next h => exact ⟨fun h' => absurd h' (Option.some_ne_none _), fun h' => absurd h' h⟩

theorem bytes_length {n : Nat} (h : n ≤ maxLength) : (length n).bytes = littleEndian 4 n := by
  unfold length
  rw [if_pos h, int32, bytes_run]
  refine congrArg (littleEndian 4) ?_
  rw [Int32.toUInt32_ofNat', UInt32.toNat_ofNat']
  exact Nat.mod_eq_of_lt (Nat.lt_of_le_of_lt h (by decide))

end Emission

namespace Reader

variable {α β : Type}

/-- **The reader takes exactly these bytes for this value**, wherever they stand and whatever comes
behind them. -/
def Takes (read : Reader α) (bytes : Bytes) (a : α) : Prop :=
  ∀ position rest,
    read.runFrom ⟨position, bytes ++ rest⟩ = (.ok a, ⟨position + bytes.length, rest⟩)

theorem takes_pure (a : α) : Takes (pure a) [] a := fun _ _ => rfl

/-- A message that consists of the bytes is read for the value. -/
theorem Takes.eval {read : Reader α} {bytes : Bytes} {a : α} (h : Takes read bytes a) :
    read.eval bytes = .ok a := by
  have whole := h 0 []
  rw [List.append_nil] at whole
  exact congrArg Prod.fst whole

/-- Parts are taken one after another. -/
theorem Takes.bind {read : Reader α} {next : α → Reader β} {xs ys : Bytes} {a : α} {b : β}
    (h : Takes read xs a) (h' : Takes (next a) ys b) : Takes (read >>= next) (xs ++ ys) b := by
  intro position rest
  rw [runFrom_bind, List.append_assoc, h]
  show (next a).runFrom _ = _
  rw [h', List.length_append, Nat.add_assoc]

theorem Takes.map {read : Reader α} {xs : Bytes} {a : α} (f : α → β) (h : Takes read xs a) :
    Takes (f <$> read) xs (f a) := by
  intro position rest
  rw [runFrom_map, h]
  rfl

/-- A step that takes nothing may stand in front. -/
theorem Takes.bind_pure {read : Reader α} {xs : Bytes} {a : α} {next : α → Reader β} {b : β}
    (h : Takes read xs a) (h' : next a = pure b) : Takes (read >>= next) xs b := by
  have step : Takes (read >>= next) (xs ++ []) b := h.bind (h' ▸ takes_pure b)
  rwa [List.append_nil] at step

/-! ## Words -/

theorem takes_take (bytes : Bytes) : Takes (take bytes.length) bytes bytes := by
  intro position rest
  have cut : splitExact? bytes.length (bytes ++ rest) = some (bytes, rest) :=
    splitExact?_eq_some_iff.2 ⟨rfl, rfl⟩
  rw [runFrom_take, cut]

/-- A word is taken for its value modulo its width. -/
theorem takes_word (n v : Nat) : Takes (word n) (littleEndian n v) (v % 256 ^ n) := by
  have h := takes_take (littleEndian n v)
  rw [length_littleEndian] at h
  have h' := h.map ofLittleEndian
  rwa [ofLittleEndian_littleEndian] at h'

/-- A word of a bounded value is taken for that value. -/
theorem takes_word_of_lt {n v : Nat} (h : v < 256 ^ n) : Takes (word n) (littleEndian n v) v := by
  have h' := takes_word n v
  rwa [Nat.mod_eq_of_lt h] at h'

theorem takes_byte (b : UInt8) : Takes byte [b] b := by
  have h := (takes_word_of_lt (n := 1) b.toNat_lt).map UInt8.ofNat
  have hb : littleEndian 1 b.toNat = [b] := by
    show [UInt8.ofNat b.toNat] = [b]
    rw [UInt8.ofNat_toNat]
  rwa [hb, UInt8.ofNat_toNat] at h

theorem takes_int32 (v : Int32) : Takes int32 (littleEndian 4 v.toUInt32.toNat) v := by
  have h := (takes_word_of_lt (n := 4) v.toUInt32.toNat_lt).map fun v => (UInt32.ofNat v).toInt32
  rwa [UInt32.ofNat_toNat, Int32.toInt32_toUInt32] at h

theorem takes_int64 (v : Int64) : Takes int64 (littleEndian 8 v.toUInt64.toNat) v := by
  have h := (takes_word_of_lt (n := 8) v.toUInt64.toNat_lt).map fun v => (UInt64.ofNat v).toInt64
  rwa [UInt64.ofNat_toNat, Int64.toInt64_toUInt64] at h

/-! ## Lengths, texts and sequences -/

/-- A length that can be written is not negative. -/
theorem not_ofNat_lt_zero {n : Nat} (h : n ≤ Emission.maxLength) : ¬Int32.ofNat n < 0 := by
  have bound : n < 2 ^ 31 := Nat.lt_of_le_of_lt h (by decide)
  rw [Int32.lt_iff_toInt_lt, Int32.toInt_ofNat_of_lt bound]
  exact Int.not_lt.2 (Int.natCast_nonneg n)

/-- A length that can be written is not the mark of absence. -/
theorem ofNat_ne_neg_one {n : Nat} (h : n ≤ Emission.maxLength) : Int32.ofNat n ≠ -1 := by
  intro h'
  exact not_ofNat_lt_zero h (h' ▸ by decide)

theorem takes_length? {n : Nat} (h : n ≤ Emission.maxLength) :
    Takes length? (Emission.length n).bytes (some n) := by
  have bound : n < 2 ^ 32 := Nat.lt_of_le_of_lt h (by decide)
  have hn : (Int32.ofNat n).toUInt32.toNat = n := by
    rw [Int32.toUInt32_ofNat', UInt32.toNat_ofNat']
    exact Nat.mod_eq_of_lt bound
  have read := takes_int32 (Int32.ofNat n)
  rw [hn] at read
  rw [Emission.bytes_length h]
  refine read.bind_pure ?_
  rw [if_neg (ofNat_ne_neg_one h), if_neg (not_ofNat_lt_zero h), hn]

theorem takes_noLength : Takes length? Emission.noLength.bytes none := by
  have read := takes_int32 (-1)
  show Takes length? (Emission.run _).bytes none
  rw [Emission.bytes_run]
  exact read.bind_pure rfl

/-- The bytes of a text are well formed. -/
theorem ofUtf8?_utf8 (s : String) : ofUtf8? (utf8 s) = some s := by
  have valid : ByteArray.IsValidUTF8 ⟨(utf8 s).toArray⟩ := s.isValidUTF8
  unfold ofUtf8? String.fromUTF8?
  rw [dif_pos valid]
  rfl

theorem takes_text? {s : String} (h : (Emission.text s).stop = none) :
    Takes text? (Emission.text s).bytes (some s) := by
  unfold Emission.text at h ⊢
  obtain ⟨hlen, _⟩ := Emission.stop_andThen.1 h
  rw [Emission.bytes_andThen hlen, Emission.bytes_run]
  refine (takes_length? (Emission.stop_length.1 hlen)).bind ?_
  refine (takes_take (utf8 s)).bind_pure ?_
  rw [ofUtf8?_utf8]

theorem takes_noText : Takes text? Emission.noLength.bytes none := takes_noLength.bind_pure rfl

theorem takes_text {s : String} (h : (Emission.text s).stop = none) :
    Takes text (Emission.text s).bytes s := (takes_text? h).bind_pure rfl

theorem takes_guid (g : Guid) : Takes guid (Scalar.guid g).emission.bytes g := by
  have first := takes_int64 g.most
  have second := takes_int64 g.least
  show Takes guid ((Emission.int64 g.most).andThen (.int64 g.least)).bytes g
  rw [Emission.bytes_andThen rfl, Emission.int64, Emission.int64, Emission.bytes_run,
    Emission.bytes_run]
  exact first.bind (second.bind_pure rfl)

/-- **A primitive value is taken for itself**, floating-point numbers bit for bit. -/
theorem takes_scalar {s : Scalar} (h : s.emission.stop = none) :
    Takes (scalar s.kind) s.emission.bytes s := by
  cases s with
  | int8 v =>
    have read := (takes_word_of_lt (n := 1) v.toUInt8.toNat_lt).map fun v =>
      Scalar.int8 (UInt8.ofNat v).toInt8
    have hb : littleEndian 1 v.toUInt8.toNat = [v.toUInt8] := by
      show [UInt8.ofNat v.toUInt8.toNat] = _
      rw [UInt8.ofNat_toNat]
    rwa [hb, UInt8.ofNat_toNat, Int8.toInt8_toUInt8] at read
  | int16 v =>
    have read := (takes_word_of_lt (n := 2) v.toUInt16.toNat_lt).map fun v =>
      Scalar.int16 (UInt16.ofNat v).toInt16
    rwa [UInt16.ofNat_toNat, Int16.toInt16_toUInt16, ← Emission.bytes_run (littleEndian 2 _)]
      at read
  | int32 v =>
    have read := (takes_int32 v).map Scalar.int32
    rwa [← Emission.bytes_run (littleEndian 4 _)] at read
  | int64 v =>
    have read := (takes_int64 v).map Scalar.int64
    rwa [← Emission.bytes_run (littleEndian 8 _)] at read
  | float32 bits =>
    have read := (takes_word_of_lt (n := 4) bits.toNat_lt).map fun v =>
      Scalar.float32 (UInt32.ofNat v)
    rwa [UInt32.ofNat_toNat, ← Emission.bytes_run (littleEndian 4 _)] at read
  | float64 bits =>
    have read := (takes_word_of_lt (n := 8) bits.toNat_lt).map fun v =>
      Scalar.float64 (UInt64.ofNat v)
    rwa [UInt64.ofNat_toNat, ← Emission.bytes_run (littleEndian 8 _)] at read
  | uint16 v =>
    have read := (takes_word_of_lt (n := 2) v.toNat_lt).map fun v =>
      Scalar.uint16 (UInt16.ofNat v)
    rwa [UInt16.ofNat_toNat, ← Emission.bytes_run (littleEndian 2 _)] at read
  | bool v =>
    have read := (takes_byte (if v then 1 else 0)).map fun b => Scalar.bool (b != 0)
    cases v with
    | false => exact read
    | true => exact read
  | text s => exact (takes_text h).map Scalar.text
  | guid g => exact (takes_guid g).map Scalar.guid

end Reader

end RemoteDispatch
