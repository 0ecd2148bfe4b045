import Mathlib.Algebra.Group.Nat.Defs
import RemoteDispatch.Wire.Encoding

/-!
# What a pass of writing leaves behind

A buffer may hold anything when a writer starts on it: bytes of an earlier
call below its capacity, and a capacity of any size. `Writer.Holds w bytes`
says what a pass has made of it so far: the writer stands behind `bytes`, the
buffer has room for them, and they are what it shows up to there. The bytes
behind the writer's place do not matter.

Every accepted run extends what the writer holds, and committing shows exactly
that. When the buffer can hold everything that is written, every run is
accepted, so a script ends as if it wrote on paper (`Script.freely`), whatever
buffer it was given.
-/

namespace RemoteDispatch

namespace Buffer

variable {b b' : Buffer} {n m : Nat}

/-- A limit allows what is no longer than it says. -/
theorem withinLimit_iff {limit : Nat} (hl : b.limit = some limit) (n : Nat) :
    b.withinLimit n ↔ n ≤ limit := by
  unfold withinLimit
  rw [hl, Option.all_some, decide_eq_true_iff]

/-- What is within the limit is no more than the limit is, if there is one. -/
theorem withinLimit_iff_forall : b.withinLimit n ↔ ∀ limit, b.limit = some limit → n ≤ limit := by
  unfold withinLimit
  cases b.limit with
  | none => exact ⟨fun _ _ => nofun, fun _ => rfl⟩
  | some l =>
    rw [Option.all_some, decide_eq_true_iff]
    exact ⟨fun le _ hl => Option.some.inj hl ▸ le, fun h => h l rfl⟩

/-- Where there is no limit everything is within it. -/
theorem withinLimit_of_unlimited (hl : b.limit = none) (n : Nat) : b.withinLimit n := by
  unfold withinLimit
  rw [hl]
  rfl

/-- What is less than something within the limit is within the limit. -/
theorem withinLimit_of_le (h : b.withinLimit m) (le : n ≤ m) : b.withinLimit n := by
  cases hl : b.limit with
  | none => exact withinLimit_of_unlimited hl n
  | some limit => exact (withinLimit_iff hl n).2 (Nat.le_trans le ((withinLimit_iff hl m).1 h))

/-- **When there is room, and how much.** Either there was enough, or what is asked for is within the
limit and the allocator grants what growth aims at. -/
theorem grown_eq_ok_iff {capacity : Nat} :
    b.grown n = .ok capacity ↔ n ≤ b.capacity ∧ capacity = b.capacity ∨
      b.capacity < n ∧ b.withinLimit n ∧ ¬refuses (b.growth n) ∧ capacity = b.growth n := by
  unfold grown
  by_cases enough : n ≤ b.capacity
  · rw [if_pos enough]
    constructor
    · intro h
      exact .inl ⟨enough, (Except.ok.inj h).symm⟩
    · rintro (⟨_, rfl⟩ | ⟨more, _⟩)
      · rfl
      · exact absurd enough (Nat.not_le_of_lt more)
  rw [if_neg enough]
  cases within : b.withinLimit n with
  | false => exact ⟨nofun, fun h => h.elim (fun h => absurd h.1 enough) fun h => nomatch h.2.1⟩
  | true =>
    rw [if_neg (by decide)]
    cases refused : refuses (b.growth n) with
    | true => exact ⟨nofun, fun h => h.elim (fun h => absurd h.1 enough) fun h => absurd rfl h.2.2.1⟩
    | false =>
      rw [if_neg (by decide)]
      constructor
      · intro h
        exact .inr ⟨Nat.lt_of_not_le enough, rfl, nofun, (Except.ok.inj h).symm⟩
      · rintro (⟨le, _⟩ | ⟨_, _, _, rfl⟩)
        · exact absurd le enough
        · rfl

/-- Growth aims at what is asked for, if that is within the limit. -/
theorem le_growth (within : b.withinLimit n) : n ≤ b.growth n := by
  unfold growth
  rcases hl : b.limit with _ | limit
  · exact Nat.le_max_right _ _
  · exact Nat.le_min.2 ⟨Nat.le_max_right _ _, (withinLimit_iff hl n).1 within⟩

/-- Room that was made is room enough, and no less than there was. -/
theorem le_of_grown {capacity : Nat} (h : b.grown n = .ok capacity) :
    n ≤ capacity ∧ b.capacity ≤ capacity := by
  obtain ⟨le, rfl⟩ | ⟨more, within, _, rfl⟩ := grown_eq_ok_iff.1 h
  · exact ⟨le, Nat.le_refl _⟩
  · exact ⟨le_growth within, Nat.le_trans (Nat.le_of_lt more) (le_growth within)⟩

theorem withinLimit_congr (hl : b'.limit = b.limit) (n : Nat) :
    b'.withinLimit n = b.withinLimit n := by
  unfold withinLimit
  rw [hl]

/-- **A buffer makes room** for anything within its limit, up to half of the largest capacity. -/
theorem grown_of_within (within : b.withinLimit n) (hn : n ≤ 2 ^ 62) :
    ∃ capacity, b.grown n = .ok capacity := by
  by_cases enough : n ≤ b.capacity
  · exact ⟨_, grown_eq_ok_iff.2 (.inl ⟨enough, rfl⟩)⟩
  · -- a buffer that has to grow is smaller than what is asked for, so its double stays in bounds
    have more := Nat.lt_of_not_le enough
    have wanted : max (min (2 * b.capacity) addressable) n ≤ allocatable := by
      refine Nat.max_le.2 ⟨Nat.le_trans (Nat.min_le_left _ _) ?_, Nat.le_trans hn (by decide)⟩
      have small : b.capacity < 2 ^ 62 := Nat.lt_of_lt_of_le more hn
      unfold allocatable
      omega
    have target : b.growth n ≤ allocatable := by
      unfold growth
      cases b.limit with
      | none => exact wanted
      | some limit => exact Nat.le_trans (Nat.min_le_left _ _) wanted
    exact ⟨_, grown_eq_ok_iff.2 (.inr ⟨more, within, not_refuses target, rfl⟩)⟩

/-- **The buffer can hold so many bytes**: it has room for them, or they are within its limit and
take no more than half of the largest capacity, so that it can grow for them. -/
def CanHold (b : Buffer) (n : Nat) : Prop :=
  n ≤ b.capacity ∧ n ≤ addressable ∨ b.withinLimit n ∧ n ≤ 2 ^ 62

theorem CanHold.of_le (h : b.CanHold m) (le : n ≤ m) : b.CanHold n := by
  rcases h with ⟨room, hm⟩ | ⟨within, hm⟩
  · exact .inl ⟨Nat.le_trans le room, Nat.le_trans le hm⟩
  · exact .inr ⟨withinLimit_of_le within le, Nat.le_trans le hm⟩

/-- A run is accepted where the buffer can hold all up to its end. -/
theorem CanHold.room {position length : Nat} (h : b.CanHold (position + length)) :
    ∃ capacity, b.room position length = .ok capacity := by
  unfold Buffer.room
  rcases h with ⟨room, hn⟩ | ⟨within, hn⟩
  · rw [if_pos hn, grown, if_pos room]
    exact ⟨_, rfl⟩
  · rw [if_pos (Nat.le_trans hn (by decide))]
    exact grown_of_within within hn

/-- A buffer that took a run can hold no less than before. -/
theorem CanHold.fill {capacity position : Nat} {run : Bytes}
    (hroom : b.room position run.length = .ok capacity) (h : b.CanHold n) :
    (b.fill capacity position run).CanHold n := by
  unfold Buffer.room at hroom
  split at hroom
  · exact h.imp (fun h => ⟨Nat.le_trans h.1 (le_of_grown hroom).2, h.2⟩) id
  · cases hroom

end Buffer

/-- How an emission ends by itself. -/
def Emission.outcome (e : Emission) : Except CodecError Unit :=
  match e.stop with
  | none => .ok ()
  | some err => .error err

namespace Writer

/-! ## What a writer holds -/

/-- **What a pass has written so far.** -/
structure Holds (w : Writer) (bytes : Bytes) : Prop where
  /-- The writer stands behind the bytes. -/
  position : w.position = bytes.length
  /-- The buffer has room for them. -/
  room : bytes.length ≤ w.buffer.capacity
  /-- They are what the buffer shows up to there. -/
  shown : (List.range bytes.length).map w.buffer.byte = bytes

variable {w w' : Writer} {bytes : Bytes}

/-- A writer that has just started holds nothing, whatever is in its buffer. -/
theorem holds_start (b : Buffer) : (start b).Holds [] := ⟨rfl, Nat.zero_le _, rfl⟩

/-- What is held can be committed. -/
theorem Holds.synchronize_eq (h : w.Holds bytes) :
    w.synchronize = .ok { w.buffer with length := w.position } := by
  unfold Writer.synchronize Buffer.synchronize
  rw [if_pos (by rw [h.position]; exact h.room)]

/-- **What is held is what committing shows.** -/
theorem Holds.synchronize (h : w.Holds bytes) :
    ∃ b, w.synchronize = .ok b ∧ b.committed = bytes ∧ b.limit = w.buffer.limit := by
  refine ⟨{ w.buffer with length := w.position }, h.synchronize_eq, ?_, rfl⟩
  show (List.range w.position).map w.buffer.byte = bytes
  rw [h.position]
  exact h.shown

/-- The bytes of a run, place by place. -/
theorem map_getD_range (run : Bytes) :
    (List.range run.length).map (fun j => run.getD j 0) = run := by
  refine List.ext_getElem (by rw [List.length_map, List.length_range]) fun i h₁ h₂ => ?_
  rw [List.getElem_map, List.getElem_range]
  exact List.getD_eq_getElem?_getD.trans (by rw [List.getElem?_eq_getElem h₂]; rfl)

/-- **An accepted run extends what is held.** -/
theorem Holds.put (h : w.Holds bytes) {run : Bytes} (hp : w.put run = (.ok (), w')) :
    w'.Holds (bytes ++ run) := by
  unfold Writer.put at hp
  split at hp
  · next capacity hroom =>
    cases hp
    refine ⟨?_, ?_, ?_⟩
    · rw [List.length_append, ← h.position]
    · unfold Buffer.room at hroom
      split at hroom
      · rw [List.length_append, ← h.position]
        exact (Buffer.le_of_grown hroom).1
      · cases hroom
    · -- the bytes before the run stay as they were, those behind them are the run's
      have before : (List.range bytes.length).map
          (w.buffer.fill capacity w.position run).byte = bytes := by
        refine Eq.trans (List.map_congr_left fun i hi => ?_) h.shown
        have lt := List.mem_range.1 hi
        rw [Buffer.byte_fill, if_neg (by rw [h.position]; omega)]
      have behind : (List.range run.length).map
          ((w.buffer.fill capacity w.position run).byte ∘ (bytes.length + ·)) = run := by
        refine Eq.trans (List.map_congr_left fun j hj => ?_) (map_getD_range run)
        have lt := List.mem_range.1 hj
        rw [Function.comp_apply, Buffer.byte_fill, h.position,
          if_pos ⟨Nat.le_add_right _ _, Nat.add_lt_add_left lt _⟩, Nat.add_sub_cancel_left]
      rw [List.length_append, List.range_add, List.map_append, List.map_map, before, behind]
  · cases hp

theorem Holds.putAll {runs : List Bytes} (h : w.Holds bytes)
    (hp : w.putAll runs = (.ok (), w')) : w'.Holds (bytes ++ runs.flatten) := by
  induction runs generalizing w bytes with
  | nil =>
    cases hp
    rw [List.flatten_nil, List.append_nil]
    exact h
  | cons run runs ih =>
    unfold Writer.putAll at hp
    split at hp
    · next w₁ hput =>
      rw [List.flatten_cons, ← List.append_assoc]
      exact ih (h.put hput) hp
    · next notOk => exact absurd hp (notOk _)

/-- **An emission that succeeds came to its end**, and the writer holds its bytes. -/
theorem Holds.perform {e : Emission} (h : w.Holds bytes) (hp : w.perform e = (.ok (), w')) :
    e.stop = none ∧ w'.Holds (bytes ++ e.bytes) := by
  unfold Writer.perform at hp
  split at hp
  · cases hp
  · next answer stop notBoth =>
    rcases hs : e.stop with _ | err
    · exact ⟨rfl, h.putAll hp⟩
    · exact absurd hs (notBoth w' err hp)

/-! ## What a pass keeps

A pass does nothing to its buffer but fill it, at the capacity that room has
been made for. Whatever filling keeps, a pass keeps, and it does so whether it
succeeds or fails. -/

section Keeps

variable {P : Buffer → Prop} (filled : ∀ {b : Buffer} {capacity position : Nat} {run : Bytes},
  b.room position run.length = .ok capacity → P b → P (b.fill capacity position run))

include filled

theorem keeps_put (h : P w.buffer) (run : Bytes) : P (w.put run).2.buffer := by
  unfold Writer.put
  split
  · next capacity hroom => exact filled hroom h
  · exact h

theorem keeps_putAll (h : P w.buffer) (runs : List Bytes) : P (w.putAll runs).2.buffer := by
  induction runs generalizing w with
  | nil => exact h
  | cons run runs ih =>
    have first := keeps_put filled h run
    unfold Writer.putAll
    split
    · next w₁ hput =>
      rw [hput] at first
      exact ih first
    · exact first

theorem keeps_perform (h : P w.buffer) (e : Emission) : P (w.perform e).2.buffer := by
  have all := keeps_putAll filled h e.runs
  unfold Writer.perform
  split
  · next w₁ stop hput hstop =>
    rw [hput] at all
    exact all
  · exact all

theorem keeps_run {α : Type} (h : P w.buffer) (s : Script α) : P (s.run w).2.buffer := by
  induction s generalizing w with
  | finish result => exact h
  | write e next ih => exact ih _ _ (keeps_perform filled h e)

end Keeps

/-- The buffers have the same limit and show the same length. -/
def SameFrame (b b' : Buffer) : Prop := b'.limit = b.limit ∧ b'.length = b.length

/-- Filling a buffer moves neither its limit nor the length it shows. -/
theorem SameFrame.fill {b b' : Buffer} (h : SameFrame b b') (capacity position : Nat)
    (run : Bytes) : SameFrame b (b'.fill capacity position run) := h

theorem sameFrame_perform (w : Writer) (e : Emission) :
    SameFrame w.buffer (w.perform e).2.buffer :=
  keeps_perform (fun _ h => h.fill _ _ _) ⟨rfl, rfl⟩ e

theorem sameFrame_run {α : Type} (s : Script α) (w : Writer) :
    SameFrame w.buffer (s.run w).2.buffer :=
  keeps_run (fun _ h => h.fill _ _ _) ⟨rfl, rfl⟩ s

end Writer

/-- **A property of buffers that nothing done to a buffer takes away**: not filling it, not
committing and not forgetting what was committed. -/
structure Buffer.Kept (P : Buffer → Prop) : Prop where
  filled : ∀ {b : Buffer} {capacity position : Nat} {run : Bytes},
    b.room position run.length = .ok capacity → P b → P (b.fill capacity position run)
  committed : ∀ {b b' : Buffer} {n : Nat}, b.synchronize n = .ok b' → P b → P b'
  reset : ∀ {b : Buffer}, P b → P b.reset

/-- Nothing moves a limit. -/
theorem Buffer.kept_limit (limit : Option Nat) : Kept fun b => b.limit = limit where
  filled _ h := h
  committed hs h := by
    unfold Buffer.synchronize at hs
    split at hs
    · cases hs
      exact h
    · cases hs
  reset h := h

/-- Writing arguments takes no such property away. -/
theorem Encoder.keeps_into {P : Buffer → Prop} (kept : Buffer.Kept P) (encode : Encoder)
    (r : Registry) {b : Buffer} (h : P b) : P (encode.into r b).2 := by
  have written := Writer.keeps_run kept.filled (w := .start b) h (encode r)
  unfold Encoder.into
  cases hrun : (encode r).run (.start b) with
  | mk result w =>
    rw [hrun] at written
    cases result with
    | error e => exact written
    | ok _ =>
      dsimp only
      cases hsync : w.synchronize with
      | error e => exact written
      | ok b => exact kept.committed hsync written

namespace Writer

variable {w w' : Writer} {bytes : Bytes}

/-! ## Room for everything -/

/-- A run is accepted where the buffer can hold it behind what the writer holds. -/
theorem Holds.put_of_canHold (h : w.Holds bytes) {run : Bytes}
    (room : w.buffer.CanHold (bytes ++ run).length) : ∃ w', w.put run = (.ok (), w') := by
  rw [List.length_append, ← h.position] at room
  obtain ⟨capacity, hroom⟩ := room.room
  unfold Writer.put
  rw [hroom]
  exact ⟨_, rfl⟩

theorem Holds.putAll_of_canHold {runs : List Bytes} (h : w.Holds bytes)
    (room : w.buffer.CanHold (bytes ++ runs.flatten).length) :
    ∃ w', w.putAll runs = (.ok (), w') := by
  induction runs generalizing w bytes with
  | nil => exact ⟨w, rfl⟩
  | cons run runs ih =>
    rw [List.flatten_cons, ← List.append_assoc] at room
    have hrun : (bytes ++ run).length ≤ (bytes ++ run ++ runs.flatten).length :=
      Nat.le_trans (Nat.le_add_right _ _) (Nat.le_of_eq List.length_append.symm)
    obtain ⟨w₁, hput⟩ := h.put_of_canHold (room.of_le hrun)
    have room₁ := keeps_put Buffer.CanHold.fill room run
    rw [hput] at room₁
    unfold Writer.putAll
    rw [hput]
    exact ih (h.put hput) room₁

/-- **Where there is room for everything an emission ends as it ends by itself.** -/
theorem Holds.perform_of_canHold {e : Emission} (h : w.Holds bytes)
    (room : w.buffer.CanHold (bytes ++ e.bytes).length) :
    ∃ w', w.perform e = (e.outcome, w') ∧ w'.Holds (bytes ++ e.bytes) := by
  obtain ⟨w', hp⟩ := h.putAll_of_canHold room
  refine ⟨w', ?_, h.putAll hp⟩
  unfold Writer.perform Emission.outcome
  rw [hp]
  rcases e.stop with _ | err <;> rfl

end Writer

namespace Script

variable {α : Type}

/-- **What a script does on paper**, where there is room for everything: its result and all the
bytes written, those that stood there before included. -/
def freely : Script α → Bytes → α × Bytes
  | finish result, bytes => (result, bytes)
  | write e next, bytes => (next e.outcome (bytes ++ e.bytes).length).freely (bytes ++ e.bytes)

/-- On paper nothing is taken back. -/
theorem length_le_freely (s : Script α) (bytes : Bytes) :
    bytes.length ≤ (s.freely bytes).2.length := by
  induction s generalizing bytes with
  | finish result => exact Nat.le_refl _
  | write e next ih =>
    refine Nat.le_trans ?_ (ih _ _ _)
    rw [List.length_append]
    exact Nat.le_add_right _ _

/-- **A script does what it does on paper** in a buffer that can hold all it writes. -/
theorem run_of_canHold (s : Script α) {w : Writer} {bytes : Bytes} (h : w.Holds bytes)
    (room : w.buffer.CanHold (s.freely bytes).2.length) :
    ∃ w', s.run w = ((s.freely bytes).1, w') ∧ w'.Holds (s.freely bytes).2 := by
  induction s generalizing w bytes with
  | finish result => exact ⟨w, rfl, h⟩
  | write e next ih =>
    -- what comes next sees only how the emission ended and where the writer stands
    have first := length_le_freely (next e.outcome (bytes ++ e.bytes).length) (bytes ++ e.bytes)
    obtain ⟨w₁, hperform, h₁⟩ := h.perform_of_canHold (room.of_le first)
    have room₁ := Writer.keeps_perform Buffer.CanHold.fill room e
    rw [hperform] at room₁
    unfold run freely
    rw [hperform]
    show ∃ w', (next e.outcome w₁.position).run w₁ = _ ∧ _
    rw [h₁.position]
    exact ih _ _ h₁ room₁

end Script

end RemoteDispatch
