import Mathlib.Data.List.GetD
import RemoteDispatch.Proofs.Reuse
import RemoteDispatch.Proofs.RoundTrip

/-!
# What shows before a pass commits

A writer starts at the front of its buffer, and that is where a message stands
that the buffer shows already. The length that is shown moves when the writer
commits and not before. The bytes are another matter: they are written where
they belong at once, and those that come to lie below the length can be seen.

`Writer.Wrote` says what one pass has done to a buffer, whatever went wrong on
the way: the accepted bytes stand in order from where the writer was, and all
else is as it was. So a pass that has not committed shows its own bytes as far
as the shown length goes, and the rest of the old message behind them. It goes
unseen exactly if it has written the old message once more. A buffer that shows
nothing is safe to write to, and this is why a buffer is reset before it is
written to again.
-/

namespace RemoteDispatch

namespace Writer

/-- **What lies between two states of a writer**: the bytes were written from where it stood, and
the rest of the buffer is as it was. -/
structure Wrote (w : Writer) (bytes : Bytes) (w' : Writer) : Prop where
  position : w'.position = w.position + bytes.length
  length : w'.buffer.length = w.buffer.length
  byte : ∀ i, w'.buffer.byte i =
    if w.position ≤ i ∧ i < w.position + bytes.length then bytes.getD (i - w.position) 0
    else w.buffer.byte i

variable {w w' w'' : Writer} {bytes more : Bytes}

theorem Wrote.refl (w : Writer) : w.Wrote [] w := by
  refine ⟨rfl, rfl, fun i => ?_⟩
  rw [List.length_nil, if_neg (by omega)]

/-- What is written next stands behind what was written first. -/
theorem Wrote.trans (h : w.Wrote bytes w') (h' : w'.Wrote more w'') :
    w.Wrote (bytes ++ more) w'' := by
  refine ⟨?_, h'.length.trans h.length, fun i => ?_⟩
  · rw [h'.position, h.position, List.length_append, Nat.add_assoc]
  · rw [h'.byte, h.byte, h.position, List.length_append]
    by_cases first : w.position ≤ i ∧ i < w.position + bytes.length
    · rw [if_neg (by omega), if_pos first, if_pos (by omega), List.getD_append _ _ _ _ (by omega)]
    · by_cases second : w.position + bytes.length ≤ i ∧ i < w.position + bytes.length + more.length
      · rw [if_pos second, if_pos (by omega), List.getD_append_right _ _ _ _ (by omega)]
        congr 1
        omega
      · rw [if_neg second, if_neg first, if_neg (by omega)]

/-- A run that is accepted is written. -/
theorem wrote_of_put {run : Bytes} (accepted : w.put run = (.ok (), w')) : w.Wrote run w' := by
  unfold put at accepted
  split at accepted
  · cases accepted
    exact ⟨rfl, rfl, Buffer.byte_fill _ _ _ _⟩
  · cases accepted

theorem wrote_putAll (w : Writer) (runs : List Bytes) :
    w.Wrote (w.accepts runs).flatten (w.putAll runs).2 := by
  induction runs generalizing w with
  | nil => exact .refl w
  | cons run runs ih =>
    unfold accepts putAll
    rcases hput : w.put run with ⟨e | ⟨⟩, w₁⟩
    · -- a run that is refused leaves the writer alone
      have refused : (w.put run).1 ≠ .ok () := fun accepted => by
        rw [hput] at accepted
        cases accepted
      have stays := put_of_refused refused
      rw [hput] at stays
      subst stays
      exact .refl _
    · exact (wrote_of_put hput).trans (ih w₁)

/-- Where every run is accepted, all are written. -/
theorem wrote_of_putAll {runs : List Bytes} (accepted : w.putAll runs = (.ok (), w')) :
    w.Wrote runs.flatten w' := by
  induction runs generalizing w with
  | nil =>
    cases accepted
    exact .refl _
  | cons run runs ih =>
    unfold putAll at accepted
    rcases hput : w.put run with ⟨e | ⟨⟩, w₁⟩
    · rw [hput] at accepted
      cases accepted
    · rw [hput] at accepted
      exact (wrote_of_put hput).trans (ih accepted)

/-- **An operation writes the runs that are accepted**, however it ends. -/
theorem wrote_perform (w : Writer) (e : Emission) :
    w.Wrote (w.accepts e.runs).flatten (w.perform e).2 := by
  have all := w.wrote_putAll e.runs
  unfold perform
  split
  · next w₁ stop hput hstop =>
    rw [hput] at all
    exact all
  · exact all

end Writer

/-- The bytes that are accepted while a script runs. -/
def Script.written {α : Type} (s : Script α) (w : Writer) : Bytes :=
  (((Routine.ofScript s).transcript w).flatMap Report.accepted).flatten

/-- **A script writes what is accepted of it**, whether its operations succeed or fail. -/
theorem Script.wrote_run {α : Type} (s : Script α) (w : Writer) :
    w.Wrote (s.written w) (s.run w).2 := by
  induction s generalizing w with
  | finish result => exact .refl w
  | write e next ih =>
    have first := w.wrote_perform e
    unfold run written Routine.ofScript Routine.transcript
    rw [List.flatMap_cons, List.flatten_append]
    exact first.trans (ih _ _ _)

/-- What a buffer shows in front of a commit: the bytes of the pass as far as the old message went,
and the rest of the old message. -/
theorem Writer.Wrote.committed {b : Buffer} {bytes : Bytes} {w : Writer}
    (h : (Writer.start b).Wrote bytes w) :
    w.buffer.committed = bytes.take b.length ++ b.committed.drop bytes.length := by
  have length : w.buffer.length = b.length := h.length
  have byte (i : Nat) :
      w.buffer.byte i = if i < bytes.length then bytes.getD i 0 else b.byte i := by
    simpa [Writer.start] using h.byte i
  refine List.ext_getElem ?_ fun i shown _ => ?_
  · rw [List.length_append, List.length_take, List.length_drop, Buffer.length_committed,
      Buffer.length_committed, length]
    omega
  · rw [Buffer.length_committed, length] at shown
    have here : w.buffer.committed[i] = w.buffer.byte i := by simp [Buffer.committed]
    rw [here, byte, List.getElem_append]
    by_cases inside : i < bytes.length
    · rw [if_pos inside, dif_pos (by rw [List.length_take]; omega), List.getElem_take,
        List.getD_eq_getElem _ _ inside]
    · rw [if_neg inside, dif_neg (by rw [List.length_take]; omega), List.getElem_drop]
      simp only [Buffer.committed, List.getElem_map, List.getElem_range, List.length_take]
      congr 1
      omega

/-- **A pass that has not committed shows all the same.** Whatever is done with a new writer and
however it ends, the shown length stays, and the bytes behind the writer's place stay. But what is
shown starts with the bytes of the pass, in the place of those of the old message. So the pass goes
unseen exactly if it has written what was there, which is always so for a buffer that was reset. -/
theorem Script.shown_uncommitted {α : Type} (s : Script α) (b : Buffer) :
    let bytes := s.written (.start b)
    let w := (s.run (.start b)).2
    w.position = bytes.length ∧
      w.buffer.length = b.length ∧
      (∀ i, bytes.length ≤ i → w.buffer.byte i = b.byte i) ∧
      w.buffer.committed = bytes.take b.length ++ b.committed.drop bytes.length ∧
      (w.buffer.committed = b.committed ↔
        bytes.take b.length = b.committed.take bytes.length) ∧
      (s.run (.start b.reset)).2.buffer.committed = [] := by
  intro bytes w
  have wrote : (Writer.start b).Wrote bytes w := s.wrote_run _
  have afresh : (Writer.start b.reset).Wrote _ _ := s.wrote_run _
  refine ⟨wrote.position.trans (Nat.zero_add _), wrote.length, fun i behind => ?_, wrote.committed,
    ?_, ?_⟩
  · rw [wrote.byte, if_neg fun inside => ?_]
    · rfl
    · have before : i < 0 + bytes.length := inside.2
      omega
  · -- both are the same behind the pass, so all depends on what is in front
    have old : b.committed = b.committed.take bytes.length ++ b.committed.drop bytes.length :=
      (List.take_append_drop _ _).symm
    rw [wrote.committed]
    constructor
    · intro unseen
      exact List.append_cancel_right (unseen.trans old)
    · intro again
      rw [again, List.take_append_drop]
  · exact List.eq_nil_of_length_eq_zero
      ((Buffer.length_committed _).trans afresh.length)

namespace Sample

/-- A message of four bytes that has been committed. -/
def message : Buffer := .ofBytes [1, 2, 3, 4]

/-- A pass that writes a byte and fails at a value whose type nobody registered. -/
def failsMidway : Script (Except CodecError Unit) :=
  .inOrder .empty [.byte 9, .object (.composite pair.key) unlabelled]

/-- **The failed pass has spoilt the message**, although nothing was committed. -/
theorem message_spoilt :
    (failsMidway.run (.start message)).1 = .error (.unregistered "Pair") ∧
      message.committed = [1, 2, 3, 4] ∧
      (failsMidway.run (.start message)).2.buffer.committed = [9, 2, 3, 4] := by
  decide +kernel

end Sample

end RemoteDispatch
