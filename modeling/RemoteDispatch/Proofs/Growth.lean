import RemoteDispatch.Proofs.Reuse

/-!
# Buffers that grow

A buffer is asked for room, commits a length, forgets it, and has writers at
work on it, in any order and with sizes of any kind. Much of that is refused: a
size past the limit, a size that no allocator grants, a length that the buffer
does not hold. Whatever is asked of it, the sizes of a buffer stay in order, its
limit stays what it was, and its capacity never falls (`Buffer.GrownFrom`).

A refusal leaves no trace. A growth that is granted leaves what was there, and
it at least doubles the capacity as far as the limit allows, so that growing a
buffer byte by byte does not copy it each time.

A `Deed` is one thing done to a buffer. Deeds that fail are part of the sequence
like all others, and so are writers that are given up half-way.
-/

namespace RemoteDispatch

namespace Buffer

variable {b b' b'' : Buffer} {n : Nat}

/-! ## Room -/

/-- Making room changes nothing but the capacity. -/
theorem reserve_eq_ok (h : b.reserve n = .ok b') :
    ∃ capacity, b.grown n = .ok capacity ∧ b' = { b with capacity } := by
  unfold reserve at h
  cases hg : b.grown n with
  | error e =>
    rw [hg] at h
    cases h
  | ok capacity =>
    rw [hg] at h
    cases h
    exact ⟨capacity, rfl, rfl⟩

theorem exists_reserve_iff : (∃ b', b.reserve n = .ok b') ↔ ∃ capacity, b.grown n = .ok capacity := by
  constructor
  · rintro ⟨b', h⟩
    obtain ⟨capacity, hg, _⟩ := reserve_eq_ok h
    exact ⟨capacity, hg⟩
  · rintro ⟨capacity, hg⟩
    unfold reserve
    rw [hg]
    exact ⟨_, rfl⟩

/-- What a buffer has to grow to at least when it grows: twice what it held, or its limit if that is
less. -/
def stride (b : Buffer) : Nat := b.limit.elim (2 * b.capacity) (min (2 * b.capacity))

/-- **A buffer that grows at least doubles**, as far as its limit allows. The largest size that a
machine word can express does not get in the way, because no allocator grants as much. -/
theorem stride_le_of_grown {capacity : Nat} (h : b.grown n = .ok capacity)
    (grew : b.capacity < capacity) : b.stride ≤ capacity := by
  obtain ⟨_, rfl⟩ | ⟨_, _, unrefused, rfl⟩ := grown_eq_ok_iff.1 h
  · exact absurd grew (Nat.lt_irrefl _)
  · have granted := le_allocatable unrefused
    unfold stride growth allocatable addressable at *
    cases hl : b.limit with
    | none =>
      rw [hl] at granted
      dsimp only [Option.elim] at granted ⊢
      omega
    | some limit =>
      rw [hl] at granted
      dsimp only [Option.elim] at granted ⊢
      omega

/-! ## What is never undone -/

/-- **One buffer may have come of the other**: it has the same limit and holds no less. -/
structure GrownFrom (b b' : Buffer) : Prop where
  limit : b'.limit = b.limit
  capacity : b.capacity ≤ b'.capacity

theorem GrownFrom.refl (b : Buffer) : b.GrownFrom b := ⟨rfl, Nat.le_refl _⟩

theorem GrownFrom.trans (h : b.GrownFrom b') (h' : b'.GrownFrom b'') : b.GrownFrom b'' :=
  ⟨h'.limit.trans h.limit, Nat.le_trans h.capacity h'.capacity⟩

theorem grownFrom_of_grown {capacity : Nat} (h : b.grown n = .ok capacity) :
    b.GrownFrom { b with capacity } := ⟨rfl, (le_of_grown h).2⟩

theorem kept_grownFrom (b : Buffer) : Kept b.GrownFrom where
  filled {b' capacity position run} hroom h := by
    unfold room at hroom
    split at hroom
    · exact ⟨h.limit, Nat.le_trans h.capacity (le_of_grown hroom).2⟩
    · cases hroom
  committed hs h := by
    unfold Buffer.synchronize at hs
    split at hs
    · cases hs
      exact ⟨h.limit, h.capacity⟩
    · cases hs
  reset h := ⟨h.limit, h.capacity⟩

end Buffer

namespace Writer

/-- The writer with its buffer changed, if the change is not refused. -/
def update (w : Writer) : Except CodecError Buffer → Except CodecError Unit × Writer
  | .ok b => (.ok (), { w with buffer := b })
  | .error e => (.error e, w)

theorem commit_eq_update (w : Writer) : w.commit = w.update w.synchronize := by
  unfold commit update
  cases w.synchronize with
  | ok b => rfl
  | error e => rfl

end Writer

/-! ## Deeds -/

/-- **What is done to a buffer**, directly or by the writer at work on it. -/
inductive Deed where
  /-- It is asked for room. -/
  | reserve (n : Nat)
  /-- It is told to commit a length. -/
  | synchronize (n : Nat)
  /-- It forgets what was committed. -/
  | reset
  /-- A new writer starts on it. -/
  | start
  /-- The writer writes or commits. -/
  | operate (o : Operation)

namespace Deed

/-- Does it. -/
def perform : Deed → Writer → Except CodecError Unit × Writer
  | reserve n, w => w.update (w.buffer.reserve n)
  | synchronize n, w => w.update (w.buffer.synchronize n)
  | reset, w => (.ok (), { w with buffer := w.buffer.reset })
  | start, w => (.ok (), .start w.buffer)
  | operate o, w => o.perform w

/-- **What any number of deeds leave**, whether they succeed or fail. -/
def after (deeds : List Deed) (b : Buffer) : Writer :=
  deeds.foldl (fun w d => (d.perform w).2) (.start b)

section Keeps

variable {P : Buffer → Prop} {w : Writer} (kept : Buffer.Kept P)
  (reserved : ∀ {b b' : Buffer} {n : Nat}, b.reserve n = .ok b' → P b → P b')

include kept

/-- What committing keeps, the writer's own committing keeps. -/
theorem keeps_operation (h : P w.buffer) (o : Operation) : P (o.perform w).2.buffer := by
  cases o with
  | write e => exact Writer.keeps_perform kept.filled h e
  | synchronize =>
    show P w.commit.2.buffer
    rw [Writer.commit_eq_update]
    cases hs : w.synchronize with
    | ok b => exact kept.committed hs h
    | error e => exact h

include reserved

/-- **A deed keeps what room, filling, committing and forgetting keep.** -/
theorem keeps_perform (h : P w.buffer) (d : Deed) : P (d.perform w).2.buffer := by
  cases d with
  | reserve n =>
    show P (w.update (w.buffer.reserve n)).2.buffer
    cases hr : w.buffer.reserve n with
    | ok b => exact reserved hr h
    | error e => exact h
  | synchronize n =>
    show P (w.update (w.buffer.synchronize n)).2.buffer
    cases hs : w.buffer.synchronize n with
    | ok b => exact kept.committed hs h
    | error e => exact h
  | reset => exact kept.reset h
  | start => exact h
  | operate o => exact keeps_operation kept h o

theorem keeps_after {b : Buffer} (h : P b) (deeds : List Deed) : P (after deeds b).buffer := by
  unfold after
  have start : P (Writer.start b).buffer := h
  generalize Writer.start b = w at start
  induction deeds generalizing w with
  | nil => exact start
  | cons d deeds ih => exact ih _ (keeps_perform kept reserved start d)

end Keeps

end Deed

namespace Buffer

variable {b b' : Buffer} {n : Nat}

/-! ## Buffers in use -/

/-- **How a buffer is come by**: it is made, or cloned from one that is in use. -/
inductive Obtained : Buffer → Prop where
  | acquire {n : Nat} {b : Buffer} (made : acquire n = .ok b) : Obtained b
  | withLimit {n limit : Nat} {b : Buffer} (made : withLimit n limit = .ok b) : Obtained b
  | ofBytes (bytes : Bytes) : Obtained (ofBytes bytes)
  | clone {b : Buffer} (obtained : Obtained b) (deeds : List Deed) :
      Obtained (Deed.after deeds b).buffer

/-- Room that is made leaves the sizes in order. -/
theorem Bounded.reserve (h : b.reserve n = .ok b') (bounded : b.Bounded) : b'.Bounded := by
  obtain ⟨capacity, hg, rfl⟩ := reserve_eq_ok h
  exact ⟨Nat.le_trans bounded.length_le (le_of_grown hg).2, bounded.within_of_grown hg⟩

theorem GrownFrom.reserve {b₀ : Buffer} (h : b.reserve n = .ok b') (grown : b₀.GrownFrom b) :
    b₀.GrownFrom b' := by
  obtain ⟨capacity, hg, rfl⟩ := reserve_eq_ok h
  exact grown.trans (grownFrom_of_grown hg)

/-- The sizes of a buffer in use are in order. -/
theorem Bounded.after (bounded : b.Bounded) (deeds : List Deed) :
    (Deed.after deeds b).buffer.Bounded :=
  Deed.keeps_after kept_bounded Bounded.reserve bounded deeds

theorem grownFrom_after (b : Buffer) (deeds : List Deed) :
    b.GrownFrom (Deed.after deeds b).buffer :=
  Deed.keeps_after (kept_grownFrom b) GrownFrom.reserve (.refl b) deeds

theorem Obtained.bounded (obtained : b.Obtained) : b.Bounded := by
  induction obtained with
  | acquire made => exact bounded_acquire made
  | withLimit made => exact bounded_withLimit made
  | ofBytes bytes => exact bounded_ofBytes bytes
  | clone _ deeds ih => exact ih.after deeds

/-- **Nothing has happened to the buffer** that anyone could tell. -/
structure Unchanged (b b' : Buffer) : Prop where
  capacity : b'.capacity = b.capacity
  length : b'.length = b.length
  byte : ∀ i, b'.byte i = b.byte i

end Buffer

namespace Writer

variable {w w' : Writer} {e : CodecError}

/-- A refusal leaves the buffer as it was. -/
theorem unchanged_of_update {change : Except CodecError Buffer}
    (h : w.update change = (.error e, w')) : w.buffer.Unchanged w'.buffer := by
  cases change with
  | ok b => cases h
  | error e =>
    cases h
    exact ⟨rfl, rfl, fun _ => rfl⟩

theorem eq_ok_of_update {change : Except CodecError Buffer} (h : w.update change = (.ok (), w')) :
    change = .ok w'.buffer := by
  cases change with
  | ok b =>
    cases h
    rfl
  | error e => cases h

theorem update_eq_ok_iff {change : Except CodecError Buffer} :
    (w.update change).1 = .ok () ↔ ∃ b, change = .ok b := by
  cases change with
  | ok b => exact ⟨fun _ => ⟨b, rfl⟩, fun _ => rfl⟩
  | error e => exact ⟨nofun, nofun⟩

end Writer

/-- **A buffer stays in order whatever is done to it.** However it was come by, and whatever has been
done to it since, with success or without: it shows no more than it holds, and holds no more than its
limit; the limit is the one it started with, and the capacity no less. A request for room or a
length to commit that is refused leaves its capacity, its length and each of its bytes. Room that is
granted is enough, leaves the length and the bytes, and at least doubles the capacity as far as the
limit allows if it changes it. A length is refused exactly if the buffer does not hold it. More room
than there is is granted exactly if it is within the limit and the allocator does not refuse the
capacity that growth aims at, whatever that allocator refuses. -/
theorem Buffer.Obtained.stays_in_order {b : Buffer} (obtained : b.Obtained) (deeds : List Deed) :
    let w := Deed.after deeds b
    (w.buffer.length ≤ w.buffer.capacity ∧
      (∀ limit, w.buffer.limit = some limit → w.buffer.capacity ≤ limit) ∧
      w.buffer.limit = b.limit ∧ b.capacity ≤ w.buffer.capacity) ∧
    (∀ n e w', (Deed.reserve n).perform w = (.error e, w') → w.buffer.Unchanged w'.buffer) ∧
    (∀ n e w', (Deed.synchronize n).perform w = (.error e, w') → w.buffer.Unchanged w'.buffer) ∧
    (∀ n w', (Deed.reserve n).perform w = (.ok (), w') →
      w'.buffer.length = w.buffer.length ∧
      (∀ i < w.buffer.capacity, w'.buffer.byte i = w.buffer.byte i) ∧
      n ≤ w'.buffer.capacity ∧
      (w'.buffer.capacity ≠ w.buffer.capacity → w.buffer.stride ≤ w'.buffer.capacity)) ∧
    (∀ n, ((Deed.synchronize n).perform w).1 = .ok () ↔ n ≤ w.buffer.capacity) ∧
    ∀ n, ((Deed.reserve n).perform w).1 = .ok () ↔ n ≤ w.buffer.capacity ∨
      (∀ limit, w.buffer.limit = some limit → n ≤ limit) ∧ ¬refuses (w.buffer.growth n) := by
  intro w
  have bounded : w.buffer.Bounded := obtained.bounded.after deeds
  have grown : b.GrownFrom w.buffer := b.grownFrom_after deeds
  clear_value w
  refine ⟨⟨bounded.length_le, fun limit hl => ?_, grown.limit, grown.capacity⟩,
    fun n e w' => Writer.unchanged_of_update, fun n e w' => Writer.unchanged_of_update,
    fun n w' granted => ?_, fun n => ?_, fun n => ?_⟩
  · exact (withinLimit_iff hl _).1 bounded.capacity_within
  · obtain ⟨capacity, hg, hb⟩ := reserve_eq_ok (Writer.eq_ok_of_update granted)
    rw [hb]
    refine ⟨rfl, fun _ _ => rfl, (le_of_grown hg).1, fun changed => ?_⟩
    exact stride_le_of_grown hg (Nat.lt_of_le_of_ne (le_of_grown hg).2 (Ne.symm changed))
  · show (w.update (w.buffer.synchronize n)).1 = .ok () ↔ _
    rw [Writer.update_eq_ok_iff, Buffer.synchronize]
    split
    · next le => exact ⟨fun _ => le, fun _ => ⟨_, rfl⟩⟩
    · next beyond => exact ⟨nofun, fun le => absurd le beyond⟩
  · show (w.update (w.buffer.reserve n)).1 = .ok () ↔ _
    rw [Writer.update_eq_ok_iff, exists_reserve_iff, ← withinLimit_iff_forall]
    constructor
    · rintro ⟨capacity, hg⟩
      obtain ⟨enough, _⟩ | ⟨_, within, unrefused, _⟩ := grown_eq_ok_iff.1 hg
      · exact .inl enough
      · exact .inr ⟨within, unrefused⟩
    · intro granted
      by_cases enough : n ≤ w.buffer.capacity
      · exact ⟨_, grown_eq_ok_iff.2 (.inl ⟨enough, rfl⟩)⟩
      · obtain ⟨within, unrefused⟩ := granted.resolve_left enough
        exact ⟨_, grown_eq_ok_iff.2 (.inr ⟨Nat.lt_of_not_le enough, within, unrefused, rfl⟩)⟩

namespace Sample

/-- A byte, a run that does not fit, a length that is not there, and more room than there may be. -/
def strained : List Deed :=
  [.start, .operate (.write (.byte 7)), .operate (.write (.run (List.replicate 20 1))),
    .operate .synchronize, .synchronize 9, .reserve 13]

/-- The byte is what the buffer shows in the end, and all the room that it may have can be had. -/
theorem stays_in_order_strained :
    Buffer.Obtained unused ∧
      (Deed.after strained unused).buffer.committed = [7] ∧
      (Deed.after strained unused).buffer.capacity ≤ 12 ∧
      ((Deed.reserve 12).perform (Deed.after strained unused)).1 = .ok () := by
  have made : Buffer.withLimit 0 12 = .ok unused := rfl
  have obtained : Buffer.Obtained unused := .withLimit made
  obtain ⟨⟨_, limited, limit, _⟩, _, _, _, _, granted⟩ := obtained.stays_in_order strained
  refine ⟨obtained, by decide +kernel, limited 12 limit, (granted 12).2 (.inr ⟨fun l hl => ?_, ?_⟩)⟩
  · rw [limit] at hl
    cases hl
    exact Nat.le_refl 12
  · decide +kernel

end Sample

end RemoteDispatch
