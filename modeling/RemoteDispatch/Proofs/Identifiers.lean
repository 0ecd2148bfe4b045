import Mathlib.Tactic.Ring
import RemoteDispatch.Wire.Primitive

/-!
# The text of an identifier

An identifier is written as five slices of its two words, each slice padded to
its own width. Nothing is lost in this: the slices that are next to each other
in a word are next to each other in the text, so that the digits of each word
stand there in full (`hexDigits_append`), and a reader who knows nothing of
the slices gets the number back by reading the 32 digits as one
(`ofHex_digits_text`). The words are signed; what is written, and read back,
is the number they are without their sign, and that tells words apart as well
as the words do (`Guid.eq_of_unsigned_eq`).

The reader is independent of what writes the digits: a digit is worth its
place among the sixteen of `lowerDigits`.
-/

namespace RemoteDispatch

/-! ## Reading digits -/

/-- The sixteen digits, each at the place that is its value. -/
def lowerDigits : List Char := "0123456789abcdef".toList

/-- A character is a lower-case hexadecimal digit. -/
def LowerHex (c : Char) : Prop := c ∈ lowerDigits

instance : DecidablePred LowerHex := fun c => inferInstanceAs (Decidable (c ∈ lowerDigits))

/-- The number that hexadecimal digits write, the most significant first. -/
def ofHex (cs : List Char) : Nat := cs.foldl (fun v c => 16 * v + lowerDigits.idxOf c) 0

/-- The hexadecimal digits of a text, without what stands between them. -/
def textDigits (s : String) : List Char := s.toList.filter (LowerHex ·)

theorem lowerHex_digitChar : ∀ d < 16, LowerHex (Nat.digitChar d) := by decide

theorem idxOf_digitChar : ∀ d < 16, lowerDigits.idxOf (Nat.digitChar d) = d := by decide

theorem ofHex_push (cs : List Char) (c : Char) :
    ofHex (cs ++ [c]) = 16 * ofHex cs + lowerDigits.idxOf c := by
  rw [ofHex, List.foldl_append]
  rfl

theorem ofHex_append (cs ds : List Char) :
    ofHex (cs ++ ds) = ofHex cs * 16 ^ ds.length + ofHex ds := by
  induction ds generalizing cs with
  | nil => rw [List.append_nil, List.length_nil, Nat.pow_zero, Nat.mul_one]; rfl
  | cons d ds ih =>
    -- What was read so far takes in one more digit; the same digit alone starts the rest.
    have alone : ofHex (d :: ds) = lowerDigits.idxOf d * 16 ^ ds.length + ofHex ds := by
      have := ih [d]
      rwa [show ofHex [d] = lowerDigits.idxOf d by simp [ofHex]] at this
    rw [List.append_cons, ih, ofHex_push, alone, List.length_cons, Nat.pow_succ]
    ring

/-! ## What is written -/

theorem lowerHex_of_mem_hexDigits {n v : Nat} {c : Char} (mem : c ∈ hexDigits n v) :
    LowerHex c := by
  induction n generalizing v with
  | zero => cases mem
  | succ n ih =>
    rcases List.mem_append.1 mem with front | last
    · exact ih front
    · rw [List.mem_singleton.1 last]
      exact lowerHex_digitChar _ (Nat.mod_lt v (by decide))

/-- **The digits read back**: what is lost is what the width has no room for. -/
theorem ofHex_hexDigits (n v : Nat) : ofHex (hexDigits n v) = v % 16 ^ n := by
  induction n generalizing v with
  | zero => rw [Nat.pow_zero, Nat.mod_one]; rfl
  | succ n ih =>
    rw [hexDigits, ofHex_push, ih, idxOf_digitChar _ (Nat.mod_lt v (by decide)),
      Nat.pow_succ, Nat.mul_comm (16 ^ n) 16, Nat.mod_mul, Nat.add_comm]

/-- **Slices join**: the digits above the `n` lowest, and then those, are the
digits in one piece. -/
theorem hexDigits_append (m n v : Nat) :
    hexDigits m (v / 16 ^ n) ++ hexDigits n v = hexDigits (m + n) v := by
  induction n generalizing v with
  | zero => rw [Nat.pow_zero, Nat.div_one]; exact List.append_nil _
  | succ n ih =>
    rw [hexDigits, ← List.append_assoc, Nat.pow_succ, Nat.mul_comm (16 ^ n) 16,
      ← Nat.div_div_eq_div_mul, ih]
    rfl

namespace Guid

/-- The identifier as one number, both words without their sign. -/
def number (g : Guid) : Nat := g.most.toUInt64.toNat * 2 ^ 64 + g.least.toUInt64.toNat

/-- The five groups of digits, each with its width and the slice it writes. -/
def groups (g : Guid) : List (List Char) :=
  [hexDigits 8 (g.most.toUInt64.toNat / 16 ^ 8), hexDigits 4 (g.most.toUInt64.toNat / 16 ^ 4),
    hexDigits 4 g.most.toUInt64.toNat, hexDigits 4 (g.least.toUInt64.toNat / 16 ^ 12),
    hexDigits 12 g.least.toUInt64.toNat]

/-- The groups are the digits of the two words in full, one word after the other. -/
theorem flatten_groups (g : Guid) :
    g.groups.flatten
      = hexDigits 16 g.most.toUInt64.toNat ++ hexDigits 16 g.least.toUInt64.toNat := by
  rw [← hexDigits_append 12 4 g.most.toUInt64.toNat, ← hexDigits_append 4 12,
    ← hexDigits_append 8 4 (g.most.toUInt64.toNat / 16 ^ 4), Nat.div_div_eq_div_mul]
  simp [groups]

theorem toList_text (g : Guid) : g.text.toList = ['-'].intercalate g.groups := by
  rw [text, String.toList_ofList]
  simp [chars, groups, List.intercalate]

theorem lowerHex_of_mem_groups {g : Guid} {c : Char} (mem : c ∈ g.groups.flatten) :
    LowerHex c := by
  rw [flatten_groups] at mem
  rcases List.mem_append.1 mem with high | low
  · exact lowerHex_of_mem_hexDigits high
  · exact lowerHex_of_mem_hexDigits low

/-- What is left of the text without the dashes is the groups. -/
theorem textDigits_text (g : Guid) : textDigits g.text = g.groups.flatten := by
  have kept : g.groups.flatten.filter (LowerHex ·) = g.groups.flatten :=
    List.filter_eq_self.2 fun c mem => decide_eq_true (lowerHex_of_mem_groups mem)
  have dash : ¬ LowerHex '-' := by decide
  rw [textDigits, toList_text, ← kept]
  simp [List.intercalate, groups, List.filter_append, dash]

/-- **The number reads back** from the digits of the text. -/
theorem ofHex_digits_text (g : Guid) : ofHex (textDigits g.text) = g.number := by
  have most : g.most.toUInt64.toNat < 16 ^ 16 := g.most.toUInt64.toNat_lt
  have least : g.least.toUInt64.toNat < 16 ^ 16 := g.least.toUInt64.toNat_lt
  rw [textDigits_text, flatten_groups, ofHex_append, ofHex_hexDigits, ofHex_hexDigits,
    length_hexDigits, Nat.mod_eq_of_lt most, Nat.mod_eq_of_lt least]
  rfl

/-- A word is told by the number it is without its sign. -/
theorem eq_of_unsigned_eq {v w : Int64} (same : v.toUInt64.toNat = w.toUInt64.toNat) : v = w := by
  rw [← Int64.toInt64_toUInt64 v, UInt64.toNat_inj.1 same, Int64.toInt64_toUInt64]

/-- The number says which identifier it is. -/
theorem eq_of_number_eq {g g' : Guid} (same : g.number = g'.number) : g = g' := by
  have low := g.least.toUInt64.toNat_lt
  have low' := g'.least.toUInt64.toNat_lt
  unfold number at same
  have most : g.most.toUInt64.toNat = g'.most.toUInt64.toNat := by omega
  have least : g.least.toUInt64.toNat = g'.least.toUInt64.toNat := by omega
  cases g
  cases g'
  rw [mk.injEq]
  exact ⟨eq_of_unsigned_eq most, eq_of_unsigned_eq least⟩

/-- **The text of an identifier is faithful**: 36 characters, which are five
groups of lower-case digits with a dash between them; its 32 digits, read as
one number, give the two words without their sign; and no two identifiers have
the same text. -/
theorem text_faithful (g g' : Guid) :
    g.text.length = 36 ∧
      (∃ groups : List (List Char), g.text.toList = ['-'].intercalate groups ∧
        groups.map List.length = [8, 4, 4, 4, 12] ∧ groups.flatten = textDigits g.text ∧
        ∀ c ∈ groups.flatten, LowerHex c) ∧
      (textDigits g.text).length = 32 ∧
      ofHex (textDigits g.text) = g.most.toUInt64.toNat * 2 ^ 64 + g.least.toUInt64.toNat ∧
      (g.text = g'.text ↔ g = g') := by
  refine ⟨?_, ⟨g.groups, toList_text g, ?_, (textDigits_text g).symm,
    fun c mem => lowerHex_of_mem_groups mem⟩, ?_, ofHex_digits_text g, ?_, ?_⟩
  · rw [text, String.length_ofList, length_chars]
  · simp [groups]
  · rw [textDigits_text, flatten_groups, List.length_append, length_hexDigits,
      length_hexDigits]
  · intro same
    apply eq_of_number_eq
    rw [← ofHex_digits_text g, same, ofHex_digits_text g']
  · exact congrArg text

example : (⟨0x0011223344556677, -2⟩ : Guid).text = "00112233-4455-6677-ffff-fffffffffffe" := by
  decide +kernel

end Guid
end RemoteDispatch
