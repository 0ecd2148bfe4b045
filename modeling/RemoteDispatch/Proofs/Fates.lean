import Mathlib.Data.List.Infix
import RemoteDispatch.Proofs.Completion
import RemoteDispatch.Proofs.Joining

/-!
# Joined futures, by the record

The record of a run says how each call ends, and so what becomes of its future:
the future of a refused call has failed at once, and that of a call that was
entered ends with what the first happening for the call decides. `fate` reads
this off.

A future joined from several ends when they have decided it, and that can be
read off the record too, though the store goes through it one happening at a
time. A happening settles slots with one error at most: a reply or a rejection
settles one slot and what is joined from it, and closing an environment gives
up all that wait there with the same error. So it is enough to look at the fates
after each happening, and a joined future ends with what they come to at the
first moment at which they come to anything (`decision`). The join is the
first of these moments. What has happened before it is one moment, in whatever
order it happened.
-/

namespace RemoteDispatch

variable {σ α : Type}

/-! ## Reading fates -/

/-- **What has become of a future** that was handed out for a call, by the record. -/
def fate (f : FutureId) : List (Happening α) → Option (Outcome α)
  | [] => none
  | .refused f' error :: h => if f' = f then some (.error error) else fate f h
  | .entered c :: h => if c.future = f then h.findSome? c.decides else fate f h
  | _ :: h => fate f h

/-- The future was handed out for a call of the record. -/
def HandedOut (f : FutureId) : List (Happening α) → Prop
  | [] => False
  | .refused f' _ :: h => f' = f ∨ HandedOut f h
  | .entered c :: h => c.future = f ∨ HandedOut f h
  | _ :: h => HandedOut f h

/-- **What futures come to together** that are joined after the past: at the first moment from then
on at which they have come to anything. -/
def decision (futures : List FutureId) (past later : List (Happening α)) : Option (Outcome α) :=
  later.inits.findSome? fun seen => combined (futures.map fun f => fate f (past ++ seen))

variable {f : FutureId} {futures : List FutureId} {h past later : List (Happening α)}

theorem HandedOut.append (handed : HandedOut f h) (later : List (Happening α)) :
    HandedOut f (h ++ later) := by
  induction h with
  | nil => exact handed.elim
  | cons x h ih =>
    cases x with
    | refused f' error => exact handed.imp_right ih
    | entered c => exact handed.imp_right ih
    | _ => exact ih handed

theorem HandedOut.prepend (handed : HandedOut f later) (h : List (Happening α)) :
    HandedOut f (h ++ later) := by
  induction h with
  | nil => exact handed
  | cons x h ih =>
    cases x with
    | refused f' error => exact Or.inr ih
    | entered c => exact Or.inr ih
    | _ => exact ih

/-- At the join only the past counts. -/
theorem decision_nil (futures : List FutureId) (past : List (Happening α)) :
    decision futures past [] = combined (futures.map fun f => fate f past) := by
  have first : decision futures past [] = combined (futures.map fun f => fate f (past ++ [])) :=
    List.findSome?_singleton
  rw [first, List.append_nil]

/-- One more happening decides if nothing before has. -/
theorem decision_snoc (futures : List FutureId) (past later : List (Happening α))
    (x : Happening α) :
    decision futures past (later ++ [x]) = (decision futures past later).or
      (combined (futures.map fun f => fate f (past ++ (later ++ [x])))) := by
  unfold decision
  rw [List.inits_append, List.findSome?_append]
  exact congrArg _ List.findSome?_singleton

namespace Futures

/-- **Giving several slots up** keeps the invariant, if they are pending and none is named twice, and
the slots that fail fail as abandoned. -/
theorem Sound.abandonAll {β : Type} {fs : Futures α} {joins : Joins} (slotOf : β → FutureId)
    {l : List β} (sound : Sound joins [] fs) (single : ∀ b ∈ l, fs.Single (slotOf b) none)
    (distinct : (l.map slotOf).Nodup) :
    Sound joins [] (l.foldl (fun fs b => fs.abandon (slotOf b)) fs) ∧
      Cascaded 0 (.error .abandoned) fs (l.foldl (fun fs b => fs.abandon (slotOf b)) fs) := by
  induction l generalizing fs with
  | nil => exact ⟨sound, .refl _ _ fs⟩
  | cons b l ih =>
    obtain ⟨new, distinct⟩ := List.nodup_cons.1 distinct
    obtain ⟨fs', checked, sound', cascaded⟩ :=
      sound.settle (single b List.mem_cons_self) (.error .abandoned)
    have settled : fs.abandon (slotOf b) = fs' := settle_of_checked checked
    rw [List.foldl_cons, settled]
    have rest : ∀ b' ∈ l, fs'.Single (slotOf b') none := by
      intro b' hb'
      have other : slotOf b ≠ slotOf b' := fun same => new (same ▸ List.mem_map_of_mem hb')
      exact settled ▸ (single b' (List.mem_cons_of_mem b hb')).settle_ne other _
    obtain ⟨sound'', cascaded'⟩ := ih sound' rest distinct
    exact ⟨sound'', (cascaded.mono (Nat.zero_le _) fun _ h => h).trans cascaded'⟩

end Futures

namespace World

variable {w w' : World σ α} {joins joins' : Futures.Joins} {j : FutureId} {h' : List (Happening α)}

/-- **The futures handed out for calls are as the record says.** -/
theorem Tracks.handedOut (t : Tracks w h) (handed : HandedOut f h) :
    f < w.futures.slots.length ∧ w.futures.outcome? f = fate f h := by
  -- what comes first in the record about the future is what the invariant is about
  suffices rest : ∀ before later, before ++ later = h → HandedOut f later →
      f < w.futures.slots.length ∧ w.futures.outcome? f = fate f later from rest [] h rfl handed
  clear handed
  intro before later same handed
  induction later generalizing before with
  | nil => exact handed.elim
  | cons x later ih =>
    have next := ih (before ++ [x]) ((List.append_cons ..).symm.trans same)
    subst same
    cases x with
    | refused f' error =>
      show _ ∧ _ = if f' = f then some (.error error) else fate f later
      by_cases here : f' = f
      · subst here
        have failed := t.refused (List.mem_append_right before List.mem_cons_self)
        rw [if_pos rfl]
        exact ⟨Futures.lt_of_outcome? failed, failed⟩
      · rw [if_neg here]
        exact next (Or.resolve_left handed here)
    | entered c =>
      show _ ∧ _ = if c.future = f then later.findSome? c.decides else fate f later
      by_cases here : c.future = f
      · subst here
        have settled := t.settled _ (mem_verdicts before c later)
        rw [if_pos rfl]
        exact ⟨settled.lt_length, settled.outcome?⟩
      · rw [if_neg here]
        exact next (Or.resolve_left handed here)
    | rejected e id error => exact next handed
    | replied d => exact next handed
    | closed e => exact next handed

/-! ## One change at a time -/

/-- **A world whose slots and tables are in order**, and whose record is kept. -/
structure Tracked (joins : Futures.Joins) (h : List (Happening α)) (w : World σ α) : Prop where
  tracks : Tracks w h
  sound : Futures.Sound joins [] w.futures

/-- What one happening does to the slots. -/
structure Onward (joins joins' : Futures.Joins) (w w' : World σ α) : Prop where
  moved : Futures.Moved w.futures w'.futures
  same : ∀ j < w.futures.slots.length, joins' j = joins j

/-- Taking a call out settles one slot, if it settles any. -/
theorem Tracks.sound_takeCall (t : Tracks w h) (sound : Futures.Sound joins [] w.futures)
    (e : EnvironmentId) (id : CallId) (outcome : Awaited α → Outcome α) :
    Futures.Sound joins [] (w.takeCall e id outcome).2.futures ∧
      Futures.Moved w.futures (w.takeCall e id outcome).2.futures := by
  cases hfound : (w.environment e).calls.find? id with
  | none =>
    rw [takeCall_of_none hfound]
    exact ⟨sound, (Futures.Quiet.refl _).moved⟩
  | some held =>
    rw [takeCall_of_some hfound]
    obtain ⟨entry, hentry, rfl⟩ := Option.map_eq_some_iff.1 hfound
    obtain ⟨v, hv, pending, _, rfl⟩ := t.of_entry_mem (List.mem_of_find?_eq_some hentry)
    obtain ⟨fs', checked, sound', cascaded⟩ :=
      sound.settle (pending ▸ t.settled v hv) (outcome v.1.entry.2)
    have settled : w.futures.settle v.1.entry.2.future (outcome v.1.entry.2) = fs' :=
      Futures.settle_of_checked checked
    show Futures.Sound joins [] (w.futures.settle _ _) ∧
      Futures.Moved w.futures (w.futures.settle _ _)
    rw [settled]
    exact ⟨sound', cascaded.moved⟩

/-- **Closing an environment** settles several slots, all with one error. -/
theorem Tracks.sound_close (t : Tracks w h) (sound : Futures.Sound joins [] w.futures)
    {e : EnvironmentId} (last : (w.environment e).owners = 1) :
    Futures.Sound joins [] (w.dropOwner e).futures ∧
      Futures.Moved w.futures (w.dropOwner e).futures := by
  rw [dropOwner_of_last w last]
  have waiting : (w.environment e).calls.entries.map (fun entry => entry.2.future) =
      (undecided e h).map AsyncCall.future := by
    rw [t.waiting e, List.map_map]
    rfl
  have distinct : ((undecided e h).map AsyncCall.future).Nodup := by
    unfold undecided
    rw [List.map_map]
    exact t.distinct.sublist (List.filter_sublist.map _)
  have single : ∀ entry ∈ (w.environment e).calls.entries,
      w.futures.Single entry.2.future none := by
    intro entry hentry
    obtain ⟨v, hv, pending, _, rfl⟩ := t.of_entry_mem hentry
    exact pending ▸ t.settled v hv
  obtain ⟨sound', cascaded⟩ := sound.abandonAll (fun entry : CallId × Awaited α => entry.2.future)
    single (waiting ▸ distinct)
  exact ⟨sound', cascaded.moved⟩

/-- **What every happening keeps, changes keep**, if nothing that happens without a record takes it
away. -/
theorem Changes.carry {P : Futures.Joins → List (Happening α) → World σ α → Prop}
    (still : ∀ {joins joins' h w w'}, P joins h w → Tracked joins' h w' →
      Futures.Quiet w.futures w'.futures → Onward joins joins' w w' → P joins' h w')
    (happens : ∀ {joins joins' h x w w'}, P joins h w → Tracked joins h w →
      Tracked joins' (h ++ [x]) w' → Onward joins joins' w w' → P joins' (h ++ [x]) w')
    (changes : Changes w h' w') (few : ∀ e, (entered e (h ++ h')).length < 2 ^ 64)
    (tracked : Tracked joins h w) (inv : P joins h w) :
    ∃ joins', Tracked joins' (h ++ h') w' ∧ P joins' (h ++ h') w' := by
  have calmly {joins h x} {w w' : World σ α} (tracked : Tracked joins h w) (inv : P joins h w)
      (tracks' : Tracks w' (h ++ [x])) (calm : w.futures.Calm w'.futures) :
      ∃ joins', Tracked joins' (h ++ [x]) w' ∧ P joins' (h ++ [x]) w' := by
    obtain ⟨joins', sound', same, quiet⟩ := calm.sound tracked.sound
    have tracked' : Tracked joins' (h ++ [x]) w' := ⟨tracks', sound'⟩
    exact ⟨joins', tracked', happens inv tracked tracked' ⟨quiet.moved, same⟩⟩
  have settling {joins h x} {w w' : World σ α} (tracked : Tracked joins h w) (inv : P joins h w)
      (tracks' : Tracks w' (h ++ [x]))
      (settled : Futures.Sound joins [] w'.futures ∧ Futures.Moved w.futures w'.futures) :
      ∃ joins', Tracked joins' (h ++ [x]) w' ∧ P joins' (h ++ [x]) w' := by
    have tracked' : Tracked joins (h ++ [x]) w' := ⟨tracks', settled.1⟩
    exact ⟨joins, tracked', happens inv tracked tracked' ⟨settled.2, fun _ _ => rfl⟩⟩
  induction changes generalizing joins h with
  | @same w w' same =>
    obtain ⟨joins', sound', agree, quiet⟩ := same.calm.sound tracked.sound
    have tracked' : Tracked joins' h w' := ⟨tracked.tracks.same same, sound'⟩
    rw [List.append_nil]
    exact ⟨joins', tracked', still inv tracked' quiet ⟨quiet.moved, agree⟩⟩
  | refuse error =>
    exact calmly tracked inv ((Changes.refuse error).tracks tracked.tracks few) (.add rfl rfl)
  | enter e decode known =>
    exact calmly tracked inv ((Changes.enter e decode known).tracks tracked.tracks few)
      (.add rfl rfl)
  | reject e id error =>
    exact settling tracked inv ((Changes.reject e id error).tracks tracked.tracks few)
      (tracked.tracks.sound_takeCall tracked.sound _ _ _)
  | reply d =>
    exact settling tracked inv ((Changes.reply d).tracks tracked.tracks few)
      (tracked.tracks.sound_takeCall tracked.sound _ _ _)
  | close e last =>
    exact settling tracked inv ((Changes.close e last).tracks tracked.tracks few)
      (tracked.tracks.sound_close tracked.sound last)
  | andThen first second ih ih' =>
    rw [← List.append_assoc] at few ⊢
    obtain ⟨joins₁, tracked₁, inv₁⟩ := ih (few_of_append few) tracked inv
    exact ih' few tracked₁ inv₁

/-- Changes keep slots and tables in order. -/
theorem Tracked.after (tracked : Tracked joins h w) (changes : Changes w h' w')
    (few : ∀ e, (entered e (h ++ h')).length < 2 ^ 64) : ∃ joins', Tracked joins' (h ++ h') w' := by
  obtain ⟨joins', tracked', _⟩ := changes.carry (P := fun _ _ _ => True)
    (fun _ _ _ _ => trivial) (fun _ _ _ _ => trivial) few tracked trivial
  exact ⟨joins', tracked'⟩

/-- In every world that a run reaches they are in order. -/
theorem Run.tracked {eng : Engine σ} {s : σ} (run : Run eng (ofEngine s) h w)
    (few : ∀ e, (entered e h).length < 2 ^ 64) : ∃ joins, Tracked joins h w := by
  have started : Tracked (fun _ => none) [] (ofEngine s : World σ α) :=
    ⟨tracks_start s, Holding.kept_empty.sound⟩
  exact started.after run.changes few

/-! ## A joined future in a run -/

/-- **A future joined from futures of calls** when the past had happened, some time later. -/
structure JoinedAfter (past : List (Happening α)) (futures : List FutureId) (j : FutureId)
    (joins : Futures.Joins) (h : List (Happening α)) (w : World σ α) : Prop where
  gathers : Futures.Gathers joins futures j w.futures
  decided : ∃ later, past ++ later = h ∧ w.futures.outcome? j = decision futures past later

namespace JoinedAfter

variable {x : Happening α}

/-- Nothing that happens without a record changes how it has ended. -/
theorem still (joined : JoinedAfter past futures j joins h w)
    (quiet : Futures.Quiet w.futures w'.futures) (onward : Onward joins joins' w w') :
    JoinedAfter past futures j joins' h w' where
  gathers := joined.gathers.moved onward.moved onward.same
  decided := by
    rw [quiet.same j joined.gathers.lt]
    exact joined.decided

/-- **One more happening** ends it, if it has not ended yet and the futures have come to something
by then. -/
theorem happens (joined : JoinedAfter past futures j joins h w) (tracked : Tracked joins h w)
    (tracked' : Tracked joins' (h ++ [x]) w') (onward : Onward joins joins' w w')
    (handed : ∀ f ∈ futures, HandedOut f past) :
    JoinedAfter past futures j joins' (h ++ [x]) w' where
  gathers := joined.gathers.moved onward.moved onward.same
  decided := by
    obtain ⟨later, rfl, decided⟩ := joined.decided
    refine ⟨later ++ [x], (List.append_assoc ..).symm, ?_⟩
    have fates : futures.map w'.futures.outcome? =
        futures.map fun f => fate f (past ++ (later ++ [x])) := by
      refine List.map_congr_left fun f hf => ?_
      rw [← List.append_assoc]
      exact (tracked'.tracks.handedOut (((handed f hf).append later).append [x])).2
    rw [decision_snoc, ← decided, ← fates]
    exact joined.gathers.ends tracked.sound tracked'.sound onward.moved onward.same

end JoinedAfter

/-- The join is the first moment. -/
theorem Tracked.join (tracked : Tracked joins past w) (handed : ∀ f ∈ futures, HandedOut f past) :
    ∃ joins', Tracked joins' past (w.join futures).2 ∧
      JoinedAfter past futures (w.join futures).1 joins' past (w.join futures).2 := by
  have tracks' := tracked.tracks.same (.join w futures)
  obtain ⟨_, number, joins', sound', _, _, joined⟩ := tracked.sound.joinAll futures
  obtain ⟨gathers, ended⟩ := joined fun f hf => (tracked.tracks.handedOut (handed f hf)).1
  have fates : futures.map (w.futures.join futures).2.outcome? =
      futures.map fun f => fate f past :=
    List.map_congr_left fun f hf => (tracks'.handedOut (handed f hf)).2
  refine ⟨joins', ⟨tracks', sound'⟩, ?_⟩
  show JoinedAfter past futures (w.futures.join futures).1 joins' past (w.join futures).2
  rw [number]
  refine ⟨gathers, [], List.append_nil past, ?_⟩
  rw [decision_nil, ← fates]
  exact ended

/-- **A joined future ends with what the fates of its inputs decide**, whatever happens after the
join. -/
theorem Tracked.joined_decided (tracked : Tracked joins past w)
    (handed : ∀ f ∈ futures, HandedOut f past) (changes : Changes (w.join futures).2 later w')
    (few : ∀ e, (entered e (past ++ later)).length < 2 ^ 64) :
    w'.futures.outcome? (w.join futures).1 = decision futures past later := by
  obtain ⟨joins₁, tracked₁, joined₁⟩ := tracked.join handed
  obtain ⟨joins', _, joined'⟩ := changes.carry
    (P := JoinedAfter past futures (w.join futures).1)
    (fun joined _ quiet onward => joined.still quiet onward)
    (fun joined tracked tracked' onward => joined.happens tracked tracked' onward handed)
    few tracked₁ joined₁
  obtain ⟨later', same, decided⟩ := joined'.decided
  obtain rfl := List.append_cancel_left same
  exact decided

end World

end RemoteDispatch
