import RemoteDispatch.Call.Failure
import RemoteDispatch.Proofs.Taking

/-!
# Failure records, exactly

What is written is taken again; for failure records the converse holds too.
Whenever a record is read off the front of a message, the message starts with
the bytes that lay out that record and nothing shorter or longer. So a message
has a record at its front or it has none, and which one it is does not depend
on what comes behind.

The one freedom is the message text. The far side may leave it out, and then
the record reads as one with an empty text.
-/

namespace RemoteDispatch

/-! ## Words and texts -/

/-- The bytes of a word are determined by its value. -/
theorem littleEndian_ofLittleEndian (bs : Bytes) :
    littleEndian bs.length (ofLittleEndian bs) = bs := by
  induction bs with
  | nil => rfl
  | cons b bs ih =>
    have hlow : UInt8.ofNat (b.toNat + 256 * ofLittleEndian bs) = b := by
      apply UInt8.toNat.inj
      rw [UInt8.toNat_ofNat', Nat.add_mul_mod_self_left, Nat.mod_eq_of_lt b.toNat_lt]
    have hhigh : (b.toNat + 256 * ofLittleEndian bs) / 256 = ofLittleEndian bs := by
      rw [Nat.add_mul_div_left _ _ (by decide), Nat.div_eq_of_lt b.toNat_lt, Nat.zero_add]
    show UInt8.ofNat (b.toNat + 256 * ofLittleEndian bs) ::
      littleEndian bs.length ((b.toNat + 256 * ofLittleEndian bs) / 256) = b :: bs
    rw [hlow, hhigh, ih]

theorem ofLittleEndian_lt (bs : Bytes) : ofLittleEndian bs < 256 ^ bs.length := by
  have h := ofLittleEndian_littleEndian bs.length (ofLittleEndian bs)
  rw [littleEndian_ofLittleEndian] at h
  rw [h]
  exact Nat.mod_lt _ (Nat.pow_pos (by decide))

/-- Only the bytes of a text read as the text. -/
theorem eq_utf8_of_ofUtf8? {bs : Bytes} {s : String} (h : ofUtf8? bs = some s) : bs = utf8 s := by
  unfold ofUtf8? String.fromUTF8? at h
  split at h
  · cases h
    rfl
  · cases h

namespace Reader

variable {α β : Type}

/-- **Whatever the reader takes for a value is what the value lays out.** -/
def TakesOnly (read : Reader α) (layout : α → Emission) : Prop :=
  ∀ {c c' : Cursor} {a}, read.runFrom c = (.ok a, c') →
    (layout a).stop = none ∧ c.rest = (layout a).bytes ++ c'.rest

theorem rest_of_take {n : Nat} {c c' : Cursor} {bs : Bytes}
    (h : (take n).runFrom c = (.ok bs, c')) : c.rest = bs ++ c'.rest ∧ bs.length = n := by
  rw [runFrom_take] at h
  cases hcut : splitExact? n c.rest with
  | none =>
    rw [hcut] at h
    cases h
  | some cut =>
    obtain ⟨front, rest⟩ := cut
    rw [hcut] at h
    cases h
    exact splitExact?_eq_some_iff.1 hcut

theorem takesOnly_int32 : TakesOnly int32 Emission.int32 := by
  intro c c' v h
  refine ⟨rfl, ?_⟩
  unfold int32 word at h
  rw [runFrom_map, runFrom_map] at h
  cases hbytes : (take 4).runFrom c with
  | mk front d =>
    rw [hbytes] at h
    cases front with
    | error e => cases h
    | ok bs =>
      cases h
      obtain ⟨hrest, hlength⟩ := rest_of_take hbytes
      have lt := ofLittleEndian_lt bs
      rw [hlength] at lt
      show c.rest = (Emission.run (littleEndian 4 _)).bytes ++ d.rest
      rw [Emission.bytes_run, UInt32.toUInt32_toInt32, UInt32.toNat_ofNat_of_lt' lt, ← hlength,
        littleEndian_ofLittleEndian]
      exact hrest

/-- A length that is not negative can be written. -/
theorem toNat_le_maxLength {n : Int32} (h : ¬n < 0) :
    n.toUInt32.toNat ≤ Emission.maxLength := by
  rw [Int32.lt_iff_toInt_lt] at h
  have value : n.toInt = n.toBitVec.toInt := rfl
  have word : n.toUInt32.toNat = n.toBitVec.toNat := rfl
  have zero : (0 : Int32).toInt = 0 := rfl
  rw [value, BitVec.toInt_eq_toNat_cond] at h
  have max : Emission.maxLength = 2 ^ 31 - 1 := rfl
  split at h <;> omega

theorem takesOnly_length? :
    TakesOnly length? fun | some n => Emission.length n | none => Emission.noLength := by
  intro c c' length h
  obtain ⟨n, d, hn, hnext⟩ := runFrom_bind_ok.1 h
  obtain ⟨_, hrest⟩ := takesOnly_int32 hn
  by_cases habsent : n = -1
  · rw [if_pos habsent] at hnext
    cases hnext
    rw [habsent] at hrest
    exact ⟨rfl, hrest⟩
  · rw [if_neg habsent] at hnext
    by_cases hneg : n < 0
    · rw [if_pos hneg] at hnext
      cases hnext
    · rw [if_neg hneg] at hnext
      cases hnext
      have bound := toNat_le_maxLength hneg
      refine ⟨Emission.stop_length.2 bound, ?_⟩
      rw [hrest]
      show _ = (Emission.length _).bytes ++ _
      rw [Emission.bytes_length bound, Emission.int32, Emission.bytes_run]

theorem takesOnly_text? : TakesOnly text? Emission.text? := by
  intro c c' s h
  obtain ⟨length, d, hlength, hnext⟩ := runFrom_bind_ok.1 h
  obtain ⟨hstop, hrest⟩ := takesOnly_length? hlength
  cases length with
  | none =>
    cases hnext
    exact ⟨rfl, hrest⟩
  | some n =>
    obtain ⟨bs, d', hbs, hs⟩ := runFrom_bind_ok.1 hnext
    obtain ⟨hrest', hbslength⟩ := rest_of_take hbs
    cases htext : ofUtf8? bs with
    | none =>
      rw [htext] at hs
      cases hs
    | some text =>
      rw [htext] at hs
      cases hs
      obtain rfl := eq_utf8_of_ofUtf8? htext
      subst hbslength
      refine ⟨Emission.stop_andThen.2 ⟨hstop, rfl⟩, ?_⟩
      show c.rest = ((Emission.length _).andThen (Emission.run _)).bytes ++ c'.rest
      rw [Emission.bytes_andThen hstop, Emission.bytes_run, List.append_assoc, ← hrest']
      exact hrest

theorem takes_optional {s : Option String} (h : (Emission.text? s).stop = none) :
    Takes text? (Emission.text? s).bytes s := by
  cases s with
  | none => exact takes_noText
  | some s => exact takes_text? h

end Reader

/-! ## Records -/

namespace Failure

/-- A record as it is laid out, with its message or without one. -/
def layout (code : Int32) (message remoteKind : Option String) : Emission :=
  .sequence [.int32 code, .text? message, .text? remoteKind]

/-- **A message has a record at its front.** A record that leaves its message out stands for an
empty one, and any bytes may follow the record. -/
def AtFront (f : Failure) (bytes : Bytes) : Prop :=
  ∃ message rest, (layout f.code message f.remoteKind).stop = none ∧
    f.message = message.getD "" ∧ bytes = (layout f.code message f.remoteKind).bytes ++ rest

/-- The bytes of a record that comes to its end are those of its parts. -/
theorem bytes_layout {code : Int32} {message remoteKind : Option String}
    (hmessage : (Emission.text? message).stop = none) :
    (layout code message remoteKind).bytes =
      (Emission.int32 code).bytes ++
        ((Emission.text? message).bytes ++ (Emission.text? remoteKind).bytes) := by
  unfold layout Emission.sequence Emission.sequence Emission.sequence Emission.sequence
  rw [Emission.andThen_empty, Emission.bytes_andThen rfl, Emission.bytes_andThen hmessage]

theorem stop_layout {code : Int32} {message remoteKind : Option String} :
    (layout code message remoteKind).stop = none ↔
      (Emission.text? message).stop = none ∧ (Emission.text? remoteKind).stop = none := by
  unfold layout Emission.sequence Emission.sequence Emission.sequence Emission.sequence
  rw [Emission.andThen_empty, Emission.stop_andThen, Emission.stop_andThen]
  exact ⟨fun h => h.2, fun h => ⟨rfl, h⟩⟩

/-- **A record is read from a message exactly if it is at its front.** -/
theorem eval_read {f : Failure} {bytes : Bytes} : read.eval bytes = .ok f ↔ f.AtFront bytes := by
  constructor
  · intro h
    have hrun : read.runFrom (.start bytes) = (.ok f, (read.runFrom (.start bytes)).2) :=
      Prod.ext h rfl
    obtain ⟨code, c₁, hcode, hrun⟩ := Reader.runFrom_bind_ok.1 hrun
    obtain ⟨message, c₂, hmessage, hrun⟩ := Reader.runFrom_bind_ok.1 hrun
    obtain ⟨remoteKind, c₃, hkind, hrun⟩ := Reader.runFrom_bind_ok.1 hrun
    obtain ⟨_, hrest⟩ := Reader.takesOnly_int32 hcode
    obtain ⟨hstop₁, hrest₁⟩ := Reader.takesOnly_text? hmessage
    obtain ⟨hstop₂, hrest₂⟩ := Reader.takesOnly_text? hkind
    obtain rfl : ⟨code, message.getD "", remoteKind⟩ = f := by
      cases hrun
      rfl
    refine ⟨message, c₃.rest, stop_layout.2 ⟨hstop₁, hstop₂⟩, rfl, ?_⟩
    rw [bytes_layout hstop₁, List.append_assoc, List.append_assoc, ← hrest₂, ← hrest₁]
    exact hrest
  · rintro ⟨message, rest, hstop, hmessage, rfl⟩
    obtain ⟨hstop₁, hstop₂⟩ := stop_layout.1 hstop
    have taken : Reader.Takes read (layout f.code message f.remoteKind).bytes f := by
      rw [bytes_layout hstop₁]
      have code : Reader.Takes Reader.int32 (Emission.int32 f.code).bytes f.code := by
        unfold Emission.int32
        rw [Emission.bytes_run]
        exact Reader.takes_int32 f.code
      refine code.bind ((Reader.takes_optional hstop₁).bind
        ((Reader.takes_optional hstop₂).bind_pure ?_))
      rw [← hmessage]
    exact congrArg Prod.fst (taken 0 rest)

end Failure

end RemoteDispatch
