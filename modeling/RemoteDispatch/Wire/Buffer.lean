import RemoteDispatch.Wire.Error

/-!
# Buffers

A buffer is handed across the boundary, filled on one side and read on the
other. It keeps three sizes apart: what it could hold (its capacity), what it
shows (its committed length) and what it may ever grow to (its limit). Bytes
are written anywhere below the capacity and stay out of sight until they are
committed.

A buffer of a large capacity is mostly zeros, so only the bytes up to the last
one written are stored. `Buffer.byte` is the view all statements use: the byte
at any position, zero where nothing has been written.

Sizes are machine words. `Buffer.addressable` is the largest of them, and
`Buffer.allocatable` the largest capacity that any allocator grants. Whether a
capacity below that is granted is up to the allocator, and `Buffer.refuses`
says it for the one in use here, which never runs short of memory.
-/

namespace RemoteDispatch

/-- A growable string of bytes, part of it committed. -/
structure Buffer where
  /-- The bytes up to the last one written. All bytes past them are zero. -/
  stored : Array UInt8
  /-- How many bytes the buffer holds. -/
  capacity : Nat
  /-- How many bytes the buffer shows. -/
  length : Nat
  /-- The capacity the buffer may never pass, if there is one. -/
  limit : Option Nat
  deriving DecidableEq

namespace Buffer

/-- The largest size that a machine word can express. -/
def addressable : Nat := 0xffffffffffffffff

/-- The largest capacity that any allocator grants. -/
def allocatable : Nat := 0x7fffffffffffffff

/-- The allocator refuses a capacity. -/
def refuses (capacity : Nat) : Bool := allocatable < capacity

/-- No allocator grants a capacity past the largest. -/
theorem le_allocatable {capacity : Nat} (granted : ¬refuses capacity) : capacity ≤ allocatable :=
  Nat.le_of_not_lt fun beyond => granted (decide_eq_true beyond)

/-- This allocator grants every other one. -/
theorem not_refuses {capacity : Nat} (h : capacity ≤ allocatable) : ¬refuses capacity := fun refused =>
  Nat.not_lt_of_le h (of_decide_eq_true refused)

/-- The capacity of a buffer whose maker has no better idea. -/
def defaultCapacity : Nat := 1024

/-! ## Making one -/

/-- A fresh buffer of a capacity, with nothing written or committed, if the allocator grants it. -/
def fresh (capacity : Nat) (limit : Option Nat) : Except CodecError Buffer :=
  if refuses capacity then .error (.outOfMemory capacity)
  else .ok ⟨#[], capacity, 0, limit⟩

/-- What a fresh buffer is like. -/
theorem eq_of_fresh {capacity : Nat} {limit : Option Nat} {b : Buffer}
    (made : fresh capacity limit = .ok b) : b = ⟨#[], capacity, 0, limit⟩ := by
  unfold fresh at made
  split at made
  · cases made
  · exact (Except.ok.inj made).symm

/-- A fresh buffer without a limit. -/
def acquire (capacity : Nat) : Except CodecError Buffer := fresh capacity none

/-- A fresh buffer with a limit, refused if the capacity is past it already. -/
def withLimit (capacity limit : Nat) : Except CodecError Buffer :=
  if capacity ≤ limit then fresh capacity (some limit) else .error (.outOfMemory capacity)

/-- A buffer that shows exactly the given bytes. -/
def ofBytes (bytes : Bytes) : Buffer := ⟨bytes.toArray, bytes.length, bytes.length, none⟩

/-! ## Looking at it -/

/-- The byte at a position. -/
def byte (b : Buffer) (i : Nat) : UInt8 := b.stored.getD i 0

/-- **What the buffer shows**: its committed bytes. -/
def committed (b : Buffer) : Bytes := (List.range b.length).map b.byte

@[simp] theorem length_committed (b : Buffer) : b.committed.length = b.length := by
  simp [committed]

/-! ## Growing it -/

/-- The capacity within the limit, if there is one. -/
def withinLimit (b : Buffer) (n : Nat) : Bool := b.limit.all (n ≤ ·)

/-- The capacity that growth for `n` bytes aims at: twice the present one or `n`, whichever is
more, but no more than the limit. -/
def growth (b : Buffer) (n : Nat) : Nat :=
  let wanted := max (min (2 * b.capacity) addressable) n
  b.limit.elim wanted (min wanted)

/-- The capacity after room for `n` bytes has been made, if it can be made. -/
def grown (b : Buffer) (n : Nat) : Except CodecError Nat :=
  if n ≤ b.capacity then .ok b.capacity
  else if !b.withinLimit n then .error (.outOfMemory n)
  else if refuses (b.growth n) then .error (.outOfMemory (b.growth n))
  else .ok (b.growth n)

/-- **Makes room for `n` bytes.** A buffer grows only if it has to, and then at least doubles as far
as its limit allows. A refusal leaves it as it was. -/
def reserve (b : Buffer) (n : Nat) : Except CodecError Buffer :=
  match b.grown n with
  | .ok capacity => .ok { b with capacity }
  | .error e => .error e

/-! ## Committing -/

/-- Commits the first `n` bytes. -/
def synchronize (b : Buffer) (n : Nat) : Except CodecError Buffer :=
  if n ≤ b.capacity then .ok { b with length := n }
  else .error (.lengthExceedsCapacity n b.capacity)

/-- Forgets what was committed. The bytes stay, out of sight. -/
def reset (b : Buffer) : Buffer := { b with length := 0 }

/-! ## Writing into it -/

/-- An array with the byte at a position replaced, or added if the position is its end. -/
def putByte (a : Array UInt8) (i : Nat) (v : UInt8) : Array UInt8 :=
  if i < a.size then a.setIfInBounds i v else a.push v

/-- An array with the bytes from a position on replaced by the given ones. -/
def putBytes (a : Array UInt8) : Nat → Bytes → Array UInt8
  | _, [] => a
  | i, v :: vs => putBytes (putByte a i v) (i + 1) vs

/-- An array continued with zeros up to a size. -/
def padded (a : Array UInt8) (n : Nat) : Array UInt8 := a ++ Array.replicate (n - a.size) 0

/-- The capacity after room for a run of bytes at a position has been made. -/
def room (b : Buffer) (position length : Nat) : Except CodecError Nat :=
  if position + length ≤ addressable then b.grown (position + length)
  else .error (.outOfMemory addressable)

/-- The buffer with a run of bytes at a position, at a capacity that has room for it. -/
def fill (b : Buffer) (capacity position : Nat) (run : Bytes) : Buffer :=
  { b with capacity, stored := putBytes (padded b.stored position) position run }

/-! ## What writing leaves -/

theorem size_putByte {a : Array UInt8} {i : Nat} (h : i ≤ a.size) (v : UInt8) :
    (putByte a i v).size = max a.size (i + 1) := by
  unfold putByte
  split <;> simp <;> omega

theorem getD_putByte {a : Array UInt8} {i : Nat} (h : i ≤ a.size) (v : UInt8) (j : Nat) :
    (putByte a i v).getD j 0 = if j = i then v else a.getD j 0 := by
  simp only [putByte, Array.getD_eq_getD_getElem?]
  split
  · next lt =>
    rw [Array.getElem?_setIfInBounds]
    by_cases hj : j = i
    · simp [hj, lt]
    · simp [hj, Ne.symm hj]
  · next ge =>
    obtain rfl : i = a.size := by omega
    rw [Array.getElem?_push]
    by_cases hj : j = a.size <;> simp [hj]

theorem getD_putBytes (run : Bytes) {a : Array UInt8} {i : Nat} (h : i ≤ a.size) (j : Nat) :
    (putBytes a i run).getD j 0 =
      if i ≤ j ∧ j < i + run.length then run.getD (j - i) 0 else a.getD j 0 := by
  induction run generalizing a i with
  | nil => exact (if_neg (by simp only [List.length_nil]; omega)).symm
  | cons v vs ih =>
    rw [putBytes, ih (by rw [size_putByte h]; omega), getD_putByte h]
    by_cases hj : j = i
    · subst hj
      have : ¬(j + 1 ≤ j ∧ j < j + 1 + vs.length) := by omega
      rw [if_neg this, if_pos rfl, if_pos ⟨Nat.le_refl j, by rw [List.length_cons]; omega⟩,
        Nat.sub_self]
      rfl
    · by_cases hr : i ≤ j ∧ j < i + (vs.length + 1)
      · have hs : i + 1 ≤ j ∧ j < i + 1 + vs.length := by omega
        obtain ⟨k, rfl⟩ : ∃ k, j = i + 1 + k := ⟨j - (i + 1), by omega⟩
        have hk : i + 1 + k - i = k + 1 := by omega
        simp [hs, hr, hk]
      · have hs : ¬(i + 1 ≤ j ∧ j < i + 1 + vs.length) := by omega
        rw [if_neg hs, if_neg hj, List.length_cons, if_neg hr]

theorem getD_padded (a : Array UInt8) (n j : Nat) : (padded a n).getD j 0 = a.getD j 0 := by
  simp only [padded, Array.getD_eq_getD_getElem?, Array.getElem?_append]
  split
  · rfl
  · next ge =>
    rw [Array.getElem?_eq_none (by omega : a.size ≤ j)]
    rw [Array.getElem?_replicate]
    split <;> rfl

theorem le_size_padded (a : Array UInt8) (n : Nat) : n ≤ (padded a n).size := by
  simp [padded]; omega

/-- **A run shows where it was written** and nowhere else. -/
theorem byte_fill (b : Buffer) (capacity position : Nat) (run : Bytes) (i : Nat) :
    (b.fill capacity position run).byte i =
      if position ≤ i ∧ i < position + run.length then run.getD (i - position) 0 else b.byte i := by
  simp only [fill, byte, getD_putBytes run (le_size_padded b.stored position), getD_padded]

end Buffer

end RemoteDispatch
