import RemoteDispatch.Call.Pool
import RemoteDispatch.Proofs.Committing

/-!
# Buffers within their bounds

A buffer shows no more than it holds and holds no more than its limit allows
(`Buffer.Bounded`). However a buffer is made, it starts that way, and whatever
is written into it and committed, it stays that way.

For a bounded buffer the limit decides on its own what can be written. What is
within the limit is taken, as `Writer.Holds.perform_of_canHold` has it, and what
is not is refused for want of memory (`Writer.Holds.perform_of_overflow`),
wherever in the emission the limit is met and however much room was left.
-/

namespace RemoteDispatch

namespace Buffer

/-- **A buffer whose sizes are in order**: its length is no more than its capacity, and its capacity
is within its limit. -/
structure Bounded (b : Buffer) : Prop where
  /-- The buffer shows no more than it holds. -/
  length_le : b.length ≤ b.capacity
  /-- The buffer holds no more than it may. -/
  capacity_within : b.withinLimit b.capacity

variable {b b' : Buffer} {n capacity : Nat}

theorem bounded_fresh (limit : Option Nat) (within : limit.all (capacity ≤ ·))
    (h : fresh capacity limit = .ok b) : b.Bounded := by
  rw [eq_of_fresh h]
  exact ⟨Nat.zero_le _, within⟩

theorem bounded_acquire (h : acquire capacity = .ok b) : b.Bounded := bounded_fresh none rfl h

theorem bounded_withLimit {limit : Nat} (h : withLimit capacity limit = .ok b) : b.Bounded := by
  unfold withLimit at h
  split at h
  · next le => exact bounded_fresh (some limit) (decide_eq_true le) h
  · cases h

/-- A buffer that was filled elsewhere has no limit to pass. -/
theorem bounded_ofBytes (bytes : Bytes) : (ofBytes bytes).Bounded := ⟨Nat.le_refl _, rfl⟩

/-- Growth stops at the limit. -/
theorem Bounded.within_of_grown (h : b.Bounded) (hg : b.grown n = .ok capacity) :
    b.withinLimit capacity := by
  obtain ⟨_, rfl⟩ | ⟨_, _, _, rfl⟩ := grown_eq_ok_iff.1 hg
  · exact h.capacity_within
  · unfold withinLimit growth
    cases b.limit with
    | none => rfl
    | some limit => exact decide_eq_true (Nat.min_le_right _ limit)

/-- **Nothing done to a buffer leaves it out of bounds.** -/
theorem kept_bounded : Kept Bounded where
  filled hroom h := by
    unfold room at hroom
    split at hroom
    · exact ⟨Nat.le_trans h.length_le (le_of_grown hroom).2, h.within_of_grown hroom⟩
    · cases hroom
  committed hs h := by
    unfold Buffer.synchronize at hs
    split at hs
    · next le =>
      cases hs
      exact ⟨le, h.capacity_within⟩
    · cases hs
  reset h := ⟨Nat.zero_le _, h.capacity_within⟩

/-- Growth aims at no more than a machine word can express, if no more is asked for. -/
theorem growth_le (b : Buffer) (hn : n ≤ addressable) : b.growth n ≤ addressable := by
  have wanted : max (min (2 * b.capacity) addressable) n ≤ addressable :=
    Nat.max_le.2 ⟨Nat.min_le_right _ _, hn⟩
  unfold growth
  cases b.limit with
  | none => exact wanted
  | some limit => exact Nat.le_trans (Nat.min_le_left _ _) wanted

/-- **Room is refused for want of memory only**, and the size in the refusal is a machine word. -/
theorem outOfMemory_of_room {position : Nat} {e : CodecError}
    (h : b.room position n = .error e) : ∃ size, size ≤ addressable ∧ e = .outOfMemory size := by
  unfold room grown at h
  split at h
  · next asked =>
    split at h
    · cases h
    · split at h
      · cases h
        exact ⟨_, asked, rfl⟩
      · split at h
        · cases h
          exact ⟨_, b.growth_le asked, rfl⟩
        · cases h
  · cases h
    exact ⟨_, Nat.le_refl _, rfl⟩

end Buffer

/-- The buffers that a pool makes are bounded. -/
theorem Pool.bounded_make {c : Config} {b : Buffer} (h : make c = .ok b) : b.Bounded := by
  unfold make at h
  cases hl : c.bufferLimit with
  | none =>
    rw [hl] at h
    exact Buffer.bounded_acquire h
  | some limit =>
    rw [hl] at h
    exact Buffer.bounded_withLimit h

namespace Writer

variable {w : Writer} {bytes : Bytes}

/-- What a bounded buffer holds is within its limit. -/
theorem Holds.within (h : w.Holds bytes) (bounded : w.buffer.Bounded) :
    w.buffer.withinLimit bytes.length :=
  Buffer.withinLimit_of_le bounded.capacity_within h.room

/-- **An answer for want of memory**: a refusal to grow to a size that a machine word can
express. -/
def OutOfMemory (answer : Except CodecError Unit × Writer) : Prop :=
  ∃ size w', size ≤ Buffer.addressable ∧ answer = (.error (.outOfMemory size), w')

theorem put_cases (w : Writer) (run : Bytes) :
    (∃ w', w.put run = (.ok (), w')) ∨ OutOfMemory (w.put run) := by
  unfold Writer.put
  cases hroom : w.buffer.room w.position run.length with
  | ok capacity => exact Or.inl ⟨_, rfl⟩
  | error e =>
    obtain ⟨size, le, rfl⟩ := Buffer.outOfMemory_of_room hroom
    exact Or.inr ⟨size, w, le, rfl⟩

theorem putAll_cases (w : Writer) (runs : List Bytes) :
    (∃ w', w.putAll runs = (.ok (), w')) ∨ OutOfMemory (w.putAll runs) := by
  induction runs generalizing w with
  | nil => exact Or.inl ⟨w, rfl⟩
  | cons run runs ih =>
    unfold Writer.putAll
    obtain ⟨w₁, hput⟩ | ⟨size, w₁, le, hput⟩ := w.put_cases run
    · rw [hput]
      exact ih w₁
    · rw [hput]
      exact Or.inr ⟨size, w₁, le, rfl⟩

/-- **An emission ends as it ends by itself, or for want of memory.** -/
theorem perform_cases (w : Writer) (e : Emission) :
    (∃ w', w.perform e = (e.outcome, w') ∧ w.putAll e.runs = (.ok (), w')) ∨
      OutOfMemory (w.perform e) := by
  unfold Writer.perform Emission.outcome
  obtain ⟨w', hput⟩ | ⟨size, w', le, hput⟩ := w.putAll_cases e.runs
  · refine Or.inl ⟨w', ?_, hput⟩
    rw [hput]
    rcases e.stop with _ | err <;> rfl
  · rw [hput]
    exact Or.inr ⟨size, w', le, rfl⟩

/-- **What is not within the limit is refused for want of memory.** -/
theorem Holds.perform_of_overflow {e : Emission} (h : w.Holds bytes) (bounded : w.buffer.Bounded)
    (exceeds : ¬w.buffer.withinLimit (bytes ++ e.bytes).length) : OutOfMemory (w.perform e) := by
  obtain ⟨w', hperform, hput⟩ | refused := w.perform_cases e
  · -- had every run been taken, the buffer would hold more than it may
    have kept := keeps_perform Buffer.kept_bounded.filled bounded e
    have limit := (sameFrame_perform w e).1
    rw [hperform] at kept limit
    have within := (h.putAll hput).within kept
    rw [Buffer.withinLimit_congr limit] at within
    exact absurd within exceeds
  · exact refused

end Writer

end RemoteDispatch
