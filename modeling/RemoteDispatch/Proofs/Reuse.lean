import RemoteDispatch.Proofs.Bounds

/-!
# Buffers used again

A pool hands out buffers that have served before, in whatever size they had
grown to and with the bytes of earlier calls in them. Nothing of that may
show: neither the bytes, nor the size by way of what is accepted.

A pass over a buffer is a `Routine` of writing and of committing what has been
written so far. It is told two things about each of its operations, how it went
and where the writer stands. `Routine.transcript` notes them, together with the
runs that were accepted. Two passes of one routine over two buffers of the same
limit have the same transcript (`Routine.run_alike`), because each run is
decided by the limit and by the bytes written so far, and by nothing else
(`Writer.HasWritten.put_of_fits`, `Writer.HasWritten.put_of_exceeds`). And what
is committed after a pass is what its transcript says was accepted.

The sizes at which an allocator starts to refuse are left out. A buffer that
grows for no more than half of the largest capacity is never refused, whatever
capacity it has grown to before.
-/

namespace RemoteDispatch

namespace Writer

variable {w w' w₁ w₂ : Writer} {limit : Option Nat} {bytes run : Bytes} {b : Buffer}

/-! ## One run -/

/-- **A pass over a bounded buffer of some limit**, and what it has written so far. -/
structure HasWritten (w : Writer) (limit : Option Nat) (bytes : Bytes) : Prop extends
    w.Holds bytes where
  /-- The sizes of the buffer are in order. -/
  bounded : w.buffer.Bounded
  /-- The limit is that of the buffer. -/
  limited : w.buffer.limit = limit

theorem hasWritten_start (bounded : b.Bounded) : (start b).HasWritten b.limit [] :=
  ⟨holds_start b, bounded, rfl⟩

/-- A run that is refused leaves the writer as it was. -/
theorem put_of_refused (refused : (w.put run).1 ≠ .ok ()) : (w.put run).2 = w := by
  unfold put at refused ⊢
  split
  · next accepted =>
    rw [accepted] at refused
    exact absurd rfl refused
  · rfl

namespace HasWritten

/-- A run that is accepted is written behind the others. -/
theorem put (h : w.HasWritten limit bytes) (accepted : w.put run = (.ok (), w')) :
    w'.HasWritten limit (bytes ++ run) := by
  have bounded := keeps_put Buffer.kept_bounded.filled h.bounded run
  have limited := keeps_put (Buffer.kept_limit limit).filled h.limited run
  rw [accepted] at bounded limited
  exact ⟨h.toHolds.put accepted, bounded, limited⟩

/-- **What fits the limit is accepted**, however small the buffer is. -/
theorem put_of_fits (h : w.HasWritten limit bytes) (small : (bytes ++ run).length ≤ 2 ^ 62)
    (fits : limit.all ((bytes ++ run).length ≤ ·)) :
    ∃ w', w.put run = (.ok (), w') ∧ w'.HasWritten limit (bytes ++ run) := by
  have within : w.buffer.withinLimit (bytes ++ run).length := by
    rw [Buffer.withinLimit, h.limited]
    exact fits
  obtain ⟨w', accepted⟩ := h.put_of_canHold (.inr ⟨within, small⟩)
  exact ⟨w', accepted, h.put accepted⟩

/-- **What exceeds the limit is refused**, however large the buffer is, and the refusal says no more
than how far the run would have reached. -/
theorem put_of_exceeds (h : w.HasWritten limit bytes) (small : (bytes ++ run).length ≤ 2 ^ 62)
    (exceeds : ¬limit.all ((bytes ++ run).length ≤ ·)) :
    w.put run = (.error (.outOfMemory (bytes ++ run).length), w) := by
  have beyond : ¬w.buffer.withinLimit (bytes ++ run).length := by
    rw [Buffer.withinLimit, h.limited]
    exact exceeds
  -- the capacity is within the limit, so that there is no room for the run either
  have full : ¬(bytes ++ run).length ≤ w.buffer.capacity := fun le =>
    beyond (Buffer.withinLimit_of_le h.bounded.capacity_within le)
  have addressable : (bytes ++ run).length ≤ Buffer.addressable := Nat.le_trans small (by decide)
  have refused : w.buffer.room w.position run.length =
      .error (.outOfMemory (bytes ++ run).length) := by
    unfold Buffer.room Buffer.grown
    rw [h.position, ← List.length_append, if_pos addressable, if_neg full,
      if_pos (by simpa using beyond)]
  unfold Writer.put
  rw [refused]

end HasWritten

/-- **Commits what has been written so far**, and goes on behind it. -/
def commit (w : Writer) : Except CodecError Unit × Writer :=
  match w.synchronize with
  | .ok b => (.ok (), { w with buffer := b })
  | .error e => (.error e, w)

/-- **Committing succeeds**, and the pass goes on with what it has written. -/
theorem HasWritten.commit (h : w.HasWritten limit bytes) :
    ∃ w', w.commit = (.ok (), w') ∧ w'.HasWritten limit bytes := by
  have committed := h.synchronize_eq
  have bounded := Buffer.kept_bounded.committed committed h.bounded
  refine ⟨{ w with buffer := { w.buffer with length := w.position } }, ?_,
    ⟨h.position, h.room, h.shown⟩, bounded, h.limited⟩
  unfold Writer.commit
  rw [committed]

/-- **The places that a writer can come to** in a pass over a buffer, with any runs accepted and
refused and anything committed on the way. -/
inductive Pass (b : Buffer) : Writer → Prop where
  | start : Pass b (.start b)
  | put {w : Writer} (pass : Pass b w) (run : Bytes) : Pass b (w.put run).2
  | commit {w : Writer} (pass : Pass b w) : Pass b w.commit.2

/-- Wherever a writer has come to, it has written something to a buffer of the limit. -/
theorem Pass.hasWritten (bounded : b.Bounded) (pass : Pass b w) :
    ∃ bytes, w.HasWritten b.limit bytes := by
  induction pass with
  | start => exact ⟨[], hasWritten_start bounded⟩
  | @put w _ run ih =>
    obtain ⟨bytes, h⟩ := ih
    rcases hp : w.put run with ⟨e | ⟨⟩, w'⟩
    · have refused : (w.put run).1 ≠ .ok () := by
        rw [hp]
        exact nofun
      have stays := put_of_refused refused
      rw [hp] at stays
      exact ⟨bytes, stays ▸ h⟩
    · exact ⟨bytes ++ run, h.put hp⟩
  | commit _ ih =>
    obtain ⟨bytes, h⟩ := ih
    obtain ⟨w', committed, h'⟩ := h.commit
    rw [committed]
    exact ⟨bytes, h'⟩

/-- A run is accepted in a pass exactly if it fits the limit. -/
theorem Pass.put_eq_ok_iff (bounded : b.Bounded) (pass : Pass b w)
    (small : w.position + run.length ≤ 2 ^ 62) :
    (w.put run).1 = .ok () ↔ b.limit.all (w.position + run.length ≤ ·) := by
  obtain ⟨bytes, h⟩ := pass.hasWritten bounded
  rw [h.position, ← List.length_append] at small ⊢
  by_cases fits : b.limit.all ((bytes ++ run).length ≤ ·)
  · obtain ⟨w', accepted, _⟩ := h.put_of_fits small fits
    rw [accepted]
    exact ⟨fun _ => fits, fun _ => rfl⟩
  · rw [h.put_of_exceeds small fits]
    exact ⟨nofun, fun h => absurd h fits⟩

/-! ## One operation -/

/-- The runs that are accepted, up to the first that is refused. -/
def accepts (w : Writer) : List Bytes → List Bytes
  | [] => []
  | run :: runs =>
    match w.put run with
    | (.ok (), w) => run :: w.accepts runs
    | (.error _, _) => []

/-- Two passes that have written the same, at one limit, write the same runs from there. -/
theorem putAll_alike {runs : List Bytes} (h₁ : w₁.HasWritten limit bytes)
    (h₂ : w₂.HasWritten limit bytes) (small : (bytes ++ runs.flatten).length ≤ 2 ^ 62) :
    (w₁.putAll runs).1 = (w₂.putAll runs).1 ∧ w₁.accepts runs = w₂.accepts runs ∧
      (w₁.putAll runs).2.HasWritten limit (bytes ++ (w₁.accepts runs).flatten) ∧
      (w₂.putAll runs).2.HasWritten limit (bytes ++ (w₁.accepts runs).flatten) := by
  induction runs generalizing w₁ w₂ bytes with
  | nil =>
    rw [accepts, List.flatten_nil, List.append_nil]
    exact ⟨rfl, rfl, h₁, h₂⟩
  | cons run runs ih =>
    rw [List.flatten_cons, ← List.append_assoc] at small
    have first : (bytes ++ run).length ≤ 2 ^ 62 :=
      Nat.le_trans (Nat.le_trans (Nat.le_add_right _ _) (Nat.le_of_eq List.length_append.symm)) small
    unfold putAll accepts
    by_cases fits : limit.all ((bytes ++ run).length ≤ ·)
    · obtain ⟨w₁', accepted₁, h₁'⟩ := h₁.put_of_fits first fits
      obtain ⟨w₂', accepted₂, h₂'⟩ := h₂.put_of_fits first fits
      obtain ⟨outcome, accepts, written⟩ := ih h₁' h₂' small
      rw [accepted₁, accepted₂]
      dsimp only
      rw [List.flatten_cons, ← List.append_assoc]
      exact ⟨outcome, congrArg _ accepts, written⟩
    · rw [h₁.put_of_exceeds first fits, h₂.put_of_exceeds first fits]
      dsimp only
      rw [List.flatten_nil, List.append_nil]
      exact ⟨rfl, rfl, h₁, h₂⟩

/-- **One operation goes alike in both**, and both have written the same after it. -/
theorem perform_alike {e : Emission} (h₁ : w₁.HasWritten limit bytes)
    (h₂ : w₂.HasWritten limit bytes) (small : (bytes ++ e.bytes).length ≤ 2 ^ 62) :
    ∃ outcome w₁' w₂', w₁.perform e = (outcome, w₁') ∧ w₂.perform e = (outcome, w₂') ∧
      w₁.accepts e.runs = w₂.accepts e.runs ∧
      w₁'.HasWritten limit (bytes ++ (w₁.accepts e.runs).flatten) ∧
      w₂'.HasWritten limit (bytes ++ (w₁.accepts e.runs).flatten) := by
  obtain ⟨answer, accepts, written₁, written₂⟩ := putAll_alike h₁ h₂ small
  unfold perform
  rcases hp₁ : w₁.putAll e.runs with ⟨answer₁, w₁'⟩
  rcases hp₂ : w₂.putAll e.runs with ⟨answer₂, w₂'⟩
  rw [hp₁] at written₁
  rw [hp₂] at written₂
  rw [hp₁, hp₂] at answer
  cases answer
  rcases answer₁ with err | ⟨⟩
  · exact ⟨_, w₁', w₂', rfl, rfl, accepts, written₁, written₂⟩
  · rcases e.stop with _ | stop
    · exact ⟨_, w₁', w₂', rfl, rfl, accepts, written₁, written₂⟩
    · exact ⟨_, w₁', w₂', rfl, rfl, accepts, written₁, written₂⟩

end Writer

/-! ## A whole pass -/

/-- **What is done with a writer.** -/
inductive Operation where
  /-- Something is written. -/
  | write (e : Emission)
  /-- What has been written so far is committed. -/
  | synchronize

namespace Operation

/-- Carries out an operation. -/
def perform : Operation → Writer → Except CodecError Unit × Writer
  | write e, w => w.perform e
  | synchronize, w => w.commit

/-- The runs of an operation that are accepted. -/
def accepted : Operation → Writer → List Bytes
  | write e, w => w.accepts e.runs
  | synchronize, _ => []

/-- The place that an operation asks to write up to. -/
def reach : Operation → Writer → Nat
  | write e, w => w.position + e.bytes.length
  | synchronize, w => w.position

variable {w₁ w₂ : Writer} {limit : Option Nat} {bytes : Bytes}

/-- **An operation goes alike in two passes that have written the same**, and both have written the
same after it. -/
theorem perform_alike (o : Operation) (h₁ : w₁.HasWritten limit bytes)
    (h₂ : w₂.HasWritten limit bytes) (small : o.reach w₁ ≤ 2 ^ 62) :
    ∃ outcome w₁' w₂', o.perform w₁ = (outcome, w₁') ∧ o.perform w₂ = (outcome, w₂') ∧
      o.accepted w₁ = o.accepted w₂ ∧
      w₁'.HasWritten limit (bytes ++ (o.accepted w₁).flatten) ∧
      w₂'.HasWritten limit (bytes ++ (o.accepted w₁).flatten) := by
  cases o with
  | write e =>
    rw [reach, h₁.position, ← List.length_append] at small
    exact Writer.perform_alike h₁ h₂ small
  | synchronize =>
    obtain ⟨w₁', committed₁, written₁⟩ := h₁.commit
    obtain ⟨w₂', committed₂, written₂⟩ := h₂.commit
    rw [accepted, List.flatten_nil, List.append_nil]
    exact ⟨.ok (), w₁', w₂', committed₁, committed₂, rfl, written₁, written₂⟩

end Operation

/-- **What is done with a writer in a pass.** Each operation depends on how those before it went and
on where they left the writer. -/
inductive Routine (α : Type) where
  /-- Stops with a result. -/
  | finish (result : α)
  /-- Does something, and goes on as the outcome and the new position suggest. -/
  | step (o : Operation) (next : Except CodecError Unit → Nat → Routine α)

/-- **What there is to be known of an operation** once it is over. -/
structure Report where
  /-- How it went. -/
  outcome : Except CodecError Unit
  /-- Where the writer stands. -/
  position : Nat
  /-- The runs that were accepted. -/
  accepted : List Bytes

namespace Routine

variable {α : Type} {limit : Option Nat} {bytes : Bytes}

/-- Follows a routine on a writer. -/
def run : Routine α → Writer → α × Writer
  | finish result, w => (result, w)
  | step o next, w =>
    let (outcome, w) := o.perform w
    (next outcome w.position).run w

/-- **The reports of all operations of a routine**, in order. -/
def transcript : Routine α → Writer → List Report
  | finish _, _ => []
  | step o next, w =>
    let (outcome, w') := o.perform w
    ⟨outcome, w'.position, o.accepted w⟩ :: (next outcome w'.position).transcript w'

/-- The farthest place that a routine asks to write up to. -/
def reach : Routine α → Writer → Nat
  | finish _, w => w.position
  | step o next, w =>
    max (o.reach w) ((next (o.perform w).1 (o.perform w).2.position).reach (o.perform w).2)

/-- **Two passes that have written the same go on alike**, whatever routine they follow from
there. -/
theorem run_alike (s : Routine α) {w₁ w₂ : Writer} (h₁ : w₁.HasWritten limit bytes)
    (h₂ : w₂.HasWritten limit bytes) (small : s.reach w₁ ≤ 2 ^ 62) :
    (s.run w₁).1 = (s.run w₂).1 ∧ s.transcript w₁ = s.transcript w₂ ∧
      (s.run w₁).2.HasWritten limit
        (bytes ++ ((s.transcript w₁).flatMap Report.accepted).flatten) ∧
      (s.run w₂).2.HasWritten limit
        (bytes ++ ((s.transcript w₁).flatMap Report.accepted).flatten) := by
  induction s generalizing w₁ w₂ bytes with
  | finish result =>
    rw [transcript, List.flatMap_nil, List.flatten_nil, List.append_nil]
    exact ⟨rfl, rfl, h₁, h₂⟩
  | step o next ih =>
    rw [reach, Nat.max_le] at small
    obtain ⟨asked, small⟩ := small
    obtain ⟨outcome, w₁', w₂', performed₁, performed₂, accepts, written₁, written₂⟩ :=
      o.perform_alike h₁ h₂ asked
    -- both passes are told the same, so that they go on with the same operation
    have positions : w₂'.position = w₁'.position := written₂.position.trans written₁.position.symm
    rw [performed₁] at small
    unfold run transcript
    rw [performed₁, performed₂, ← accepts]
    dsimp only
    rw [positions, List.flatMap_cons, List.flatten_append, ← List.append_assoc]
    obtain ⟨result, rest, onward⟩ := ih _ _ written₁ written₂ small
    exact ⟨result, congrArg _ rest, onward⟩

/-- A script is a routine that commits nothing. -/
def ofScript : Script α → Routine α
  | .finish result => finish result
  | .write e next => step (.write e) fun outcome position => ofScript (next outcome position)

theorem run_ofScript (s : Script α) (w : Writer) : (ofScript s).run w = s.run w := by
  induction s generalizing w with
  | finish result => rfl
  | write e next ih => exact ih _ _ _

end Routine

/-- The bytes of the arguments, if they can be written into a buffer. -/
def Encoder.layOut (encode : Encoder) (r : Registry) (b : Buffer) : Except CodecError Bytes :=
  match encode.into r b with
  | (.error e, _) => .error e
  | (.ok (), b) => .ok b.committed

/-- **Arguments come to the same bytes in all buffers of one limit**, or to the same error. -/
theorem Encoder.layOut_alike (encode : Encoder) (r : Registry) {b₁ b₂ : Buffer}
    (bounded₁ : b₁.Bounded) (bounded₂ : b₂.Bounded) (same : b₂.limit = b₁.limit)
    (small : (Routine.ofScript (encode r)).reach (.start b₁) ≤ 2 ^ 62) :
    encode.layOut r b₁ = encode.layOut r b₂ := by
  have started₂ := Writer.hasWritten_start bounded₂
  rw [same] at started₂
  obtain ⟨result, _, written₁, written₂⟩ :=
    (Routine.ofScript (encode r)).run_alike (Writer.hasWritten_start bounded₁) started₂ small
  obtain ⟨c₁, committed₁, shown₁, _⟩ := written₁.synchronize
  obtain ⟨c₂, committed₂, shown₂, _⟩ := written₂.synchronize
  rw [Routine.run_ofScript, Routine.run_ofScript] at result
  rw [Routine.run_ofScript] at committed₁ committed₂
  unfold layOut into
  cases h₁ : (encode r).run (.start b₁) with
  | mk result₁ w₁ =>
    cases h₂ : (encode r).run (.start b₂) with
    | mk result₂ w₂ =>
      rw [h₁] at committed₁
      rw [h₂] at committed₂
      rw [h₁, h₂] at result
      cases result
      cases result₁ with
      | error e => rfl
      | ok _ =>
        dsimp only at committed₁ committed₂ ⊢
        rw [committed₁, committed₂]
        exact congrArg Except.ok (shown₁.trans shown₂.symm)

/-- **A pass depends on nothing but the limit and what is written.** Wherever a pass over a buffer
has come to, a run is accepted exactly if there is no limit or the limit is not exceeded, one that
is refused leaves the writer where it was, and what has been written can be committed. So one
routine has the same reports and the same result on any two buffers of one limit, however large they
are and whatever is in them. Afterwards both show the runs that were accepted, in order, and nothing
else. -/
theorem pass_depends_on_limit {b₁ b₂ : Buffer} (bounded₁ : b₁.Bounded) (bounded₂ : b₂.Bounded)
    (same : b₂.limit = b₁.limit) :
    (∀ {w : Writer}, w.Pass b₁ →
      (∀ run : Bytes, w.position + run.length ≤ 2 ^ 62 →
        ((w.put run).1 = .ok () ↔ b₁.limit.all (w.position + run.length ≤ ·)) ∧
          ((w.put run).1 ≠ .ok () → (w.put run).2 = w)) ∧
      ∃ c, w.synchronize = .ok c) ∧
    ∀ {α : Type} (s : Routine α), s.reach (.start b₁) ≤ 2 ^ 62 →
      (s.run (.start b₁)).1 = (s.run (.start b₂)).1 ∧
      s.transcript (.start b₁) = s.transcript (.start b₂) ∧
      ∃ c₁ c₂, (s.run (.start b₁)).2.synchronize = .ok c₁ ∧
        (s.run (.start b₂)).2.synchronize = .ok c₂ ∧
        c₁.committed = ((s.transcript (.start b₁)).flatMap Report.accepted).flatten ∧
        c₂.committed = ((s.transcript (.start b₁)).flatMap Report.accepted).flatten := by
  refine ⟨fun pass => ⟨fun run small => ⟨pass.put_eq_ok_iff bounded₁ small,
    Writer.put_of_refused⟩, ?_⟩, fun s small => ?_⟩
  · obtain ⟨_, written⟩ := pass.hasWritten bounded₁
    exact ⟨_, written.synchronize_eq⟩
  · have started₂ := Writer.hasWritten_start bounded₂
    rw [same] at started₂
    obtain ⟨result, reports, written₁, written₂⟩ :=
      s.run_alike (Writer.hasWritten_start bounded₁) started₂ small
    obtain ⟨c₁, committed₁, shown₁, _⟩ := written₁.synchronize
    obtain ⟨c₂, committed₂, shown₂, _⟩ := written₂.synchronize
    rw [List.nil_append] at shown₁ shown₂
    exact ⟨result, reports, c₁, c₂, committed₁, committed₂, shown₁, shown₂⟩

namespace Sample

/-- A buffer that has not been written to and has room for nothing yet. -/
def unused : Buffer := ⟨#[], 0, 0, some 12⟩

/-- A buffer of the same limit that has grown as far as it can and is full of another message. -/
def usedBefore : Buffer := ⟨#[1, 2, 3, 4, 5, 6, 7, 8, 9, 10, 11, 12], 12, 0, some 12⟩

/-- A number that is committed, a text that is refused behind its length, and a byte all the same. -/
def insistent : Routine Nat :=
  .step (.write (.int64 5)) fun _ _ => .step .synchronize fun _ _ =>
    .step (.write (.text "hello")) fun _ _ => .step (.write (.byte 7)) fun _ position =>
      .finish position

/-- Both buffers show the number and the length of the text. -/
theorem pass_depends_on_limit_insistent :
    unused.Bounded ∧ usedBefore.Bounded ∧ usedBefore.limit = unused.limit ∧
      insistent.reach (.start unused) ≤ 2 ^ 62 ∧
      (insistent.transcript (.start usedBefore)).map Report.position = [8, 8, 12, 12] ∧
      (∃ c, (insistent.run (.start usedBefore)).2.synchronize = .ok c ∧
        c.committed = [5, 0, 0, 0, 0, 0, 0, 0, 5, 0, 0, 0]) ∧
      ((Writer.start unused).put [1]).1 = .ok () := by
  have bounded : unused.Bounded := ⟨by decide, by decide⟩
  have bounded' : usedBefore.Bounded := ⟨by decide, by decide⟩
  have small : insistent.reach (.start unused) ≤ 2 ^ 62 := by decide +kernel
  obtain ⟨decided, alike⟩ := pass_depends_on_limit bounded bounded' rfl
  obtain ⟨_, reports, _, c, _, committed, _, shown⟩ := alike insistent small
  refine ⟨bounded, bounded', rfl, small, ?_, ⟨c, committed, shown.trans (by decide +kernel)⟩,
    ((decided .start).1 [1] (by decide)).1.2 (by decide)⟩
  rw [← reports]
  decide +kernel

end Sample

end RemoteDispatch
