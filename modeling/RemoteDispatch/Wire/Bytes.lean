/-!
# Bytes

Everything that crosses the boundary is a string of bytes. This module fixes
the two conventions all else is built on: words are little-endian, and text is
UTF-8. Both come with a reading direction, and each reading direction undoes
the writing one.

The cut `splitExact?` is the only way bytes leave the front of a message. It
accepts exactly the splittings whose front part has the length asked for.
-/

namespace RemoteDispatch

/-- A string of bytes, first byte first. -/
abbrev Bytes := List UInt8

/-! ## Little-endian words -/

/-- The low `n` bytes of `v`, the least significant first. -/
def littleEndian : Nat → Nat → Bytes
  | 0, _ => []
  | n + 1, v => UInt8.ofNat v :: littleEndian n (v / 256)

/-- The number whose little-endian bytes are given. -/
def ofLittleEndian : Bytes → Nat
  | [] => 0
  | b :: bs => b.toNat + 256 * ofLittleEndian bs

@[simp] theorem length_littleEndian (n v : Nat) : (littleEndian n v).length = n := by
  induction n generalizing v with
  | zero => rfl
  | succ n ih => simp [littleEndian, ih]

/-! ## Cutting the front off -/

/-- The first `n` bytes and the rest, if there are `n`. -/
def splitExact? : Nat → Bytes → Option (Bytes × Bytes)
  | 0, bs => some ([], bs)
  | _ + 1, [] => none
  | n + 1, b :: bs => (splitExact? n bs).map fun (front, rest) => (b :: front, rest)

/-- **The cut is exact**: it finds the one splitting with a front of length `n`. -/
theorem splitExact?_eq_some_iff {n : Nat} {bs front rest : Bytes} :
    splitExact? n bs = some (front, rest) ↔ bs = front ++ rest ∧ front.length = n := by
  induction n generalizing bs front with
  | zero =>
    simp only [splitExact?, Option.some.injEq, Prod.mk.injEq]
    constructor
    · rintro ⟨rfl, rfl⟩; exact ⟨rfl, rfl⟩
    · rintro ⟨rfl, h⟩; simp [List.length_eq_zero_iff.1 h]
  | succ n ih =>
    cases bs with
    | nil =>
      simp only [splitExact?]
      constructor
      · intro h; cases h
      · rintro ⟨h, hl⟩
        obtain ⟨rfl, _⟩ := List.append_eq_nil_iff.1 h.symm
        cases hl
    | cons b bs =>
      simp only [splitExact?, Option.map_eq_some_iff, Prod.exists, Prod.mk.injEq]
      constructor
      · rintro ⟨f, r, h, rfl, rfl⟩
        obtain ⟨rfl, rfl⟩ := ih.1 h
        exact ⟨rfl, rfl⟩
      · rintro ⟨h, hl⟩
        cases front with
        | nil => cases hl
        | cons c f =>
          simp only [List.cons_append, List.cons.injEq] at h
          exact ⟨f, rest, ih.2 ⟨h.2, by simpa using hl⟩, by rw [h.1], rfl⟩

/-! ## Text -/

/-- The UTF-8 bytes of a text. -/
def utf8 (s : String) : Bytes := s.toUTF8.data.toList

/-- The text with the given UTF-8 bytes, if they are well formed. -/
def ofUtf8? (bs : Bytes) : Option String := String.fromUTF8? ⟨bs.toArray⟩

/-! ## Hexadecimal digits -/

/-- The low `n` hexadecimal digits of `v`, lower-case, the most significant first. -/
def hexDigits : Nat → Nat → List Char
  | 0, _ => []
  | n + 1, v => hexDigits n (v / 16) ++ [Nat.digitChar (v % 16)]

/-- The low `n` hexadecimal digits of `v` as text. -/
def hexText (n v : Nat) : String := String.ofList (hexDigits n v)

@[simp] theorem length_hexDigits (n v : Nat) : (hexDigits n v).length = n := by
  induction n generalizing v with
  | zero => rfl
  | succ n ih => simp [hexDigits, ih]

end RemoteDispatch
