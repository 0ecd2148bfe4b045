import RemoteDispatch.Proofs.Cascades

/-!
# Joined slots over every order of completion

Whoever holds futures makes promises, completes or drops them in any order,
and joins any slots there are at any moment, joined ones and one slot several
times too. Each of these settles slots with at most one error: what an
error reaches through joined slots ends with that error
(`Futures.Moved.alike`).

So the inputs of a joined slot that fail in one move fail alike, and looking at
the inputs after each move is enough to say how the joined slot ends. It ends
with what they have decided, `combined`, at the first moment at which they have
decided anything, and the join itself is the first of these moments
(`Holding.Run.joined_settles`).
-/

namespace RemoteDispatch

variable {α : Type}

namespace Futures

variable {fs fs' fs'' : Futures α} {joins joins' : Joins} {j : FutureId} {inputs : List FutureId}

/-! ## One move -/

/-- **What a move does to the outcomes**: they stay, and the slots that fail fail alike. -/
structure Moved (fs fs' : Futures α) : Prop where
  grows : fs.slots.length ≤ fs'.slots.length
  stays : ∀ {i o}, fs.outcome? i = some o → fs'.outcome? i = some o
  alike : ∀ {i i' e e'}, i < fs.slots.length → i' < fs.slots.length →
    fs.outcome? i = none → fs'.outcome? i = some (.error e) →
    fs.outcome? i' = none → fs'.outcome? i' = some (.error e') → e = e'

/-- A slot that has an outcome is there. -/
theorem lt_of_outcome? {o : Outcome α} (h : fs.outcome? j = some o) : j < fs.slots.length := by
  obtain ⟨slot, hslot, _⟩ := Option.bind_eq_some_iff.1 h
  exact (List.getElem?_eq_some_iff.1 hslot).1

/-- **No slot that is there gets an outcome.** -/
structure Quiet (fs fs' : Futures α) : Prop where
  grows : fs.slots.length ≤ fs'.slots.length
  same : ∀ i < fs.slots.length, fs'.outcome? i = fs.outcome? i

theorem Quiet.refl (fs : Futures α) : Quiet fs fs := ⟨Nat.le_refl _, fun _ _ => rfl⟩

theorem Quiet.trans (q : Quiet fs fs') (q' : Quiet fs' fs'') : Quiet fs fs'' where
  grows := Nat.le_trans q.grows q'.grows
  same i hi := (q'.same i (Nat.lt_of_lt_of_le hi q.grows)).trans (q.same i hi)

theorem quiet_add (fs : Futures α) (slot : Slot α) : Quiet fs (fs.add slot).2 where
  grows := by
    rw [length_add]
    exact Nat.le_succ _
  same i hi := outcome?_add_ne slot (Nat.ne_of_lt hi)

theorem Quiet.moved (q : Quiet fs fs') : Moved fs fs' where
  grows := q.grows
  stays := fun h => (q.same _ (lt_of_outcome? h)).trans h
  alike := by
    intro i i' e e' hi _ pending failed _ _
    rw [q.same i hi, pending] at failed
    cases failed

theorem Cascaded.moved {floor : FutureId} {outcome : Outcome α}
    (c : Cascaded floor outcome fs fs') : Moved fs fs' where
  grows := Nat.le_of_eq c.length.symm
  stays := c.stays
  alike := by
    intro i i' e e' _ _ pending failed pending' failed'
    have same := c.alike pending failed
    rw [c.alike pending' failed'] at same
    cases same
    rfl

/-- Looking at a slot keeps the invariant. -/
theorem Sound.poll (sound : Sound joins [] fs) (id : FutureId) (waker : Waker) :
    Sound joins [] (fs.poll id waker).2 ∧ Quiet fs (fs.poll id waker).2 := by
  cases found : fs.outcome? id with
  | some o =>
    rw [poll_of_some found]
    exact ⟨sound, .refl fs⟩
  | none =>
    rw [poll_of_none found]
    cases hslot : fs.slots[id]? with
    | none =>
      rw [modify_of_none hslot]
      exact ⟨sound, .refl fs⟩
    | some slot =>
      have b := becomes_modify hslot fun slot =>
        { slot with wakers := withWaker waker slot.wakers }
      exact ⟨sound.becomes_same b hslot rfl rfl rfl, Nat.le_of_eq b.length.symm,
        fun i _ => b.outcome?_same hslot rfl i⟩

/-- **A slot joined from others.** One joined from none has ended at once, and is a slot like any
other that has ended. -/
structure Gathers (joins : Joins) (inputs : List FutureId) (j : FutureId) (fs : Futures α) :
    Prop where
  lt : j < fs.slots.length
  older : ∀ i ∈ inputs, i < j
  known : inputs = [] ∧ fs.outcome? j = some (.ok (.all [])) ∨ joins j = some inputs

/-- **Joining changes no outcome**, counts no counter below zero and settles no slot twice. The new slot
has the end that its inputs have decided by then, if these are older. -/
theorem Sound.joinAll (sound : Sound joins [] fs) (inputs : List FutureId) :
    fs.joinChecked inputs = some (fs.join inputs) ∧ (fs.join inputs).1 = fs.slots.length ∧
      ∃ joins', Sound joins' [] (fs.join inputs).2 ∧ (∀ j < fs.slots.length, joins' j = joins j) ∧
        Quiet fs (fs.join inputs).2 ∧
        ((∀ i ∈ inputs, i < fs.slots.length) →
          Gathers joins' inputs fs.slots.length (fs.join inputs).2 ∧
            (fs.join inputs).2.outcome? fs.slots.length =
              combined (inputs.map (fs.join inputs).2.outcome?)) := by
  by_cases some_ : inputs = []
  · subst some_
    have ended : (fs.join []).2.outcome? fs.slots.length = some (.ok (.all [])) :=
      (single_ready fs _).outcome?
    refine ⟨rfl, rfl, joins, sound.add_single rfl rfl, fun _ _ => rfl, quiet_add fs _,
      fun older => ⟨⟨?_, older, Or.inl ⟨rfl, ended⟩⟩, ended⟩⟩
    exact Nat.lt_of_lt_of_eq (Nat.lt_succ_self _) (length_add fs _).symm
  · obtain ⟨fs', checked, sound', length, below, due⟩ := sound.join some_
    rw [join_of_checked checked]
    refine ⟨checked, rfl, _, sound', fun j hj => Function.update_of_ne (Nat.ne_of_lt hj) _ _,
      ⟨length ▸ Nat.le_succ _, below⟩, fun older => ⟨⟨?_, older, Or.inr ?_⟩, ?_⟩⟩
    · exact Nat.lt_of_lt_of_eq (Nat.lt_succ_self _) length.symm
    · exact Function.update_self ..
    · rw [← news_nil older]
      exact due

/-- **While nothing is settled the invariant is kept**, no joined slot is forgotten and no slot gets
an outcome. -/
theorem Calm.sound (calm : Calm fs fs') (sound : Sound joins [] fs) :
    ∃ joins', Sound joins' [] fs' ∧ (∀ j < fs.slots.length, joins' j = joins j) ∧
      Quiet fs fs' := by
  induction calm generalizing joins with
  | refl => exact ⟨joins, sound, fun _ _ => rfl, .refl _⟩
  | add fresh single =>
    exact ⟨joins, sound.add_single fresh single, fun _ _ => rfl, quiet_add _ _⟩
  | poll id waker =>
    obtain ⟨sound', quiet⟩ := sound.poll id waker
    exact ⟨joins, sound', fun _ _ => rfl, quiet⟩
  | join inputs =>
    obtain ⟨_, _, joins', sound', same, quiet, _⟩ := sound.joinAll inputs
    exact ⟨joins', sound', same, quiet⟩
  | trans _ _ ih ih' =>
    obtain ⟨joins', sound', same, quiet⟩ := ih sound
    obtain ⟨joins'', sound'', same', quiet'⟩ := ih' sound'
    exact ⟨joins'', sound'',
      fun j hj => (same' j (Nat.lt_of_lt_of_le hj quiet.grows)).trans (same j hj),
      quiet.trans quiet'⟩

/-! ## One joined slot -/

namespace Gathers

/-- What a joined slot has gathered tallies with what its inputs have told. -/
theorem tallies (gathers : Gathers joins inputs j fs) (sound : Sound joins [] fs) :
    ∃ g : Gathering α, g.Tallies (inputs.map fs.outcome?) (fs.outcome? j) := by
  obtain ⟨rfl, ended⟩ | known := gathers.known
  · rw [ended]
    exact ⟨_, Gathering.tallies_nil⟩
  · obtain ⟨slot, g, hslot, hg⟩ := sound.wired.joined known
    rw [outcome?_of_slot hslot, ← news_nil gathers.older]
    exact ⟨g, sound.tallied j inputs slot g known hslot hg⟩

/-- It stays a joined slot of the same inputs. -/
theorem moved (gathers : Gathers joins inputs j fs) (moved : Moved fs fs')
    (same : ∀ j < fs.slots.length, joins' j = joins j) : Gathers joins' inputs j fs' where
  lt := Nat.lt_of_lt_of_le gathers.lt moved.grows
  older := gathers.older
  known := gathers.known.imp (fun ended => ⟨ended.1, moved.stays ended.2⟩)
    (same j gathers.lt).trans

/-- **A joined slot after a move** has the end it had before, or else the one that its inputs have
decided by then. Those that have failed have done so in the move, and so alike. -/
theorem ends (gathers : Gathers joins inputs j fs) (sound : Sound joins [] fs)
    (sound' : Sound joins' [] fs') (moved : Moved fs fs')
    (same : ∀ j < fs.slots.length, joins' j = joins j) :
    fs'.outcome? j = (fs.outcome? j).or (combined (inputs.map fs'.outcome?)) := by
  obtain ⟨g, tallies⟩ := gathers.tallies sound
  obtain ⟨g', tallies'⟩ := (gathers.moved moved same).tallies sound'
  cases before : fs.outcome? j with
  | some o => exact moved.stays before
  | none =>
    have fresh {i : FutureId} {e : CallError} (hi : i ∈ inputs)
        (failed : fs'.outcome? i = some (.error e)) : fs.outcome? i = none := by
      cases told : fs.outcome? i with
      | none => rfl
      | some o =>
        rw [moved.stays told] at failed
        cases failed
        exact absurd (List.mem_map.2 ⟨i, hi, told⟩) ((tallies.pending before).2 e)
    refine tallies'.eq_combined fun e e' he he' => ?_
    obtain ⟨i, hi, failed⟩ := List.mem_map.1 he
    obtain ⟨i', hi', failed'⟩ := List.mem_map.1 he'
    exact moved.alike (Nat.lt_trans (gathers.older i hi) gathers.lt)
      (Nat.lt_trans (gathers.older i' hi') gathers.lt) (fresh hi failed) failed
      (fresh hi' failed') failed'

end Gathers

end Futures

/-! ## Runs -/

/-- **A store of slots and the promises that are held for some of them.** -/
structure Holding (α : Type) where
  /-- The slots. -/
  futures : Futures α
  /-- The slots whose promise is held, by whomever. -/
  promises : List FutureId

namespace Holding

open Futures

/-- Nothing has been made. -/
def empty : Holding α := ⟨.empty, []⟩

/-- The same promises with another store. -/
def withFutures (h : Holding α) (fs : Futures α) : Holding α := { h with futures := fs }

/-- The holding once a promise has been used up. -/
def useUp (h : Holding α) (id : FutureId) (outcome : Outcome α) : Holding α :=
  ⟨h.futures.settle id outcome, h.promises.erase id⟩

/-- **What can be done with futures and promises.** A promise is completed or dropped by whoever
holds it, and gone with that. Only futures that have been handed out can be joined. -/
inductive Step : Holding α → Holding α → Prop where
  | pair {h : Holding α} : Step h ⟨h.futures.promise.2, h.futures.promise.1 :: h.promises⟩
  | ready {h : Holding α} (outcome : Outcome α) : Step h (h.withFutures (h.futures.ready outcome).2)
  | join {h : Holding α} (inputs : List FutureId)
      (made : ∀ i ∈ inputs, i < h.futures.slots.length) :
      Step h (h.withFutures (h.futures.join inputs).2)
  | complete {h : Holding α} (id : FutureId) (held : id ∈ h.promises) (outcome : Outcome α) :
      Step h (h.useUp id outcome)
  | drop {h : Holding α} (id : FutureId) (held : id ∈ h.promises) :
      Step h (h.useUp id (.error .abandoned))
  | poll {h : Holding α} (id : FutureId) (waker : Waker) :
      Step h (h.withFutures (h.futures.poll id waker).2)

/-- **Any number of steps**, with the store after each of them. -/
inductive Run : Holding α → List (Futures α) → Holding α → Prop where
  | refl {h : Holding α} : Run h [] h
  | snoc {h h' h'' : Holding α} {seen : List (Futures α)} (run : Run h seen h')
      (step : Step h' h'') : Run h (seen ++ [h''.futures]) h''

variable {h h' h'' : Holding α} {joins joins' : Joins} {seen past : List (Futures α)}

/-- **The promises held are for pending slots**, each for another one and none for a joined one. -/
structure Kept (joins : Joins) (h : Holding α) : Prop where
  sound : Sound joins [] h.futures
  nodup : h.promises.Nodup
  single : ∀ id ∈ h.promises, h.futures.Single id none

theorem kept_empty : Kept (fun _ => none) (empty : Holding α) where
  sound := by
    have noSlot {i : FutureId} {slot : Slot α} : (empty : Holding α).futures.slots[i]? ≠ some slot :=
      nofun
    exact ⟨⟨nofun, fun h => absurd h noSlot, List.nodup_nil, fun h => absurd h noSlot,
      fun h => absurd h noSlot⟩, fun _ _ _ _ known => nomatch known⟩
  nodup := List.nodup_nil
  single := fun _ h => nomatch h

theorem Step.promises (step : Step h h') (kept : Kept joins h) :
    h'.promises.Nodup ∧ ∀ id ∈ h'.promises, h'.futures.Single id none := by
  have used (id : FutureId) (outcome : Outcome α) :
      (h.useUp id outcome).promises.Nodup ∧
        ∀ other ∈ (h.useUp id outcome).promises, (h.useUp id outcome).futures.Single other none := by
    refine ⟨kept.nodup.erase id, fun other hother => ?_⟩
    obtain ⟨hne, hmem⟩ := (kept.nodup.mem_erase_iff).1 hother
    exact (kept.single other hmem).settle_ne (Ne.symm hne) outcome
  cases step with
  | pair =>
    have new : h.futures.promise.1 ∉ h.promises := fun held =>
      Nat.lt_irrefl _ (kept.single _ held).lt_length
    refine ⟨List.nodup_cons.2 ⟨new, kept.nodup⟩, fun id hid => ?_⟩
    cases hid with
    | head => exact single_promise h.futures
    | tail _ held => exact (lasting_single id none).add _ (kept.single id held)
  | ready outcome =>
    exact ⟨kept.nodup, fun id held => (lasting_single id none).add _ (kept.single id held)⟩
  | join inputs _ =>
    refine ⟨kept.nodup, fun id held => ?_⟩
    have single := kept.single id held
    exact (lasting_single id none).join (kept_single (Nat.ne_of_gt single.lt_length) none) inputs single
  | complete id _ outcome => exact used id outcome
  | drop id _ => exact used id _
  | poll id waker =>
    exact ⟨kept.nodup, fun id' held => (lasting_single id' none).poll id waker (kept.single id' held)⟩

/-- **Every step keeps the promises good** and moves the outcomes as a move may. -/
theorem Step.kept (step : Step h h') (kept : Kept joins h) :
    ∃ joins', Kept joins' h' ∧ (∀ j < h.futures.slots.length, joins' j = joins j) ∧
      Moved h.futures h'.futures := by
  obtain ⟨nodup, single⟩ := step.promises kept
  have calm (calm : h.futures.Calm h'.futures) : ∃ joins', Kept joins' h' ∧
      (∀ j < h.futures.slots.length, joins' j = joins j) ∧ Moved h.futures h'.futures := by
    obtain ⟨joins', sound, same, quiet⟩ := calm.sound kept.sound
    exact ⟨joins', ⟨sound, nodup, single⟩, same, quiet.moved⟩
  have settled (id : FutureId) (held : id ∈ h.promises) (outcome : Outcome α)
      (same : h'.futures = h.futures.settle id outcome) : ∃ joins', Kept joins' h' ∧
      (∀ j < h.futures.slots.length, joins' j = joins j) ∧ Moved h.futures h'.futures := by
    obtain ⟨fs', checked, sound, cascaded⟩ := kept.sound.settle (kept.single id held) outcome
    rw [settle_of_checked checked] at same
    exact ⟨joins, ⟨same ▸ sound, nodup, single⟩, fun _ _ => rfl, same ▸ cascaded.moved⟩
  cases step with
  | pair => exact calm (.add rfl rfl)
  | ready outcome => exact calm (.add rfl rfl)
  | join inputs _ => exact calm (.join inputs)
  | complete id held outcome => exact settled id held outcome rfl
  | drop id held => exact settled id held _ rfl
  | poll id waker => exact calm (.poll id waker)

theorem Run.kept (run : Run empty seen h) : ∃ joins, Kept joins h := by
  induction run with
  | refl => exact ⟨_, kept_empty⟩
  | snoc _ step ih =>
    obtain ⟨joins, kept⟩ := ih
    obtain ⟨joins', kept', _⟩ := step.kept kept
    exact ⟨joins', kept'⟩

/-! ## A joined slot in a run -/

/-- **How a joined slot fares.** The timeline has the store right after the join and the stores after
all later steps, and the holding is the one at the end of it. -/
structure Joined (inputs : List FutureId) (joined : FutureId) (timeline : List (Futures α))
    (h : Holding α) : Prop where
  /-- It ends with what the inputs have decided at the first moment when they have decided it. -/
  decided : h.futures.outcome? joined =
    timeline.findSome? fun fs => combined (inputs.map fs.outcome?)
  /-- It is pending exactly while no input has failed and one is pending. -/
  pending_iff : h.futures.outcome? joined = none ↔
    (∀ i ∈ inputs, ∀ e, h.futures.outcome? i ≠ some (.error e)) ∧
      ∃ i ∈ inputs, h.futures.outcome? i = none
  /-- Once all inputs have succeeded it has one value for each, in the order of the list. -/
  values : ∀ values, inputs.map h.futures.outcome? = values.map (fun value => some (.ok value)) →
    h.futures.outcome? joined = some (.ok (.all values))
  /-- Once an input has failed it has failed. -/
  failed : ∀ i ∈ inputs, ∀ e, h.futures.outcome? i = some (.error e) →
    ∃ e', h.futures.outcome? joined = some (.error e')
  /-- No later step changes how it has ended. -/
  stays : ∀ {h'}, Step h h' → ∀ o, h.futures.outcome? joined = some o →
    h'.futures.outcome? joined = some o
  /-- The inputs that fail in one step fail with the same error. -/
  alike : ∀ {h'}, Step h h' → ∀ i ∈ inputs, ∀ i' ∈ inputs, ∀ e e',
    h.futures.outcome? i = none → h'.futures.outcome? i = some (.error e) →
    h.futures.outcome? i' = none → h'.futures.outcome? i' = some (.error e') → e = e'
  /-- Whichever promise is completed next, no counter falls below zero and no slot is settled
  twice. -/
  counted : ∀ id ∈ h.promises, ∀ o, h.futures.settleChecked id o = some (h.futures.settle id o)

/-- What is known of a joined slot and its inputs all along a run. -/
structure Follows (joins : Joins) (inputs : List FutureId) (joined : FutureId)
    (timeline : List (Futures α)) (h : Holding α) : Prop where
  kept : Kept joins h
  gathers : Gathers joins inputs joined h.futures
  decided : h.futures.outcome? joined =
    timeline.findSome? fun fs => combined (inputs.map fs.outcome?)

variable {inputs : List FutureId} {joined : FutureId} {timeline : List (Futures α)}

/-- One step further. -/
theorem Follows.step (follows : Follows joins inputs joined timeline h) (step : Step h h') :
    ∃ joins', Follows joins' inputs joined (timeline ++ [h'.futures]) h' := by
  obtain ⟨joins', kept', same, moved⟩ := step.kept follows.kept
  refine ⟨joins', kept', follows.gathers.moved moved same, ?_⟩
  rw [List.findSome?_append, ← follows.decided, List.findSome?_singleton]
  exact follows.gathers.ends follows.kept.sound kept'.sound moved same

/-- **The join** is the first moment. -/
theorem Kept.join (kept : Kept joins h) (inputs : List FutureId)
    (made : ∀ i ∈ inputs, i < h.futures.slots.length) :
    h.futures.joinChecked inputs = some (h.futures.join inputs) ∧
      ∃ joins', Follows joins' inputs (h.futures.join inputs).1 [(h.futures.join inputs).2]
        (h.withFutures (h.futures.join inputs).2) := by
  obtain ⟨nodup, single⟩ := (Step.join inputs made).promises kept
  obtain ⟨checked, number, joins', sound, _, _, joined⟩ := kept.sound.joinAll inputs
  obtain ⟨gathers, decided⟩ := joined made
  rw [number]
  exact ⟨checked, joins', ⟨sound, nodup, single⟩, gathers,
    decided.trans List.findSome?_singleton.symm⟩

theorem Follows.run (follows : Follows joins inputs joined timeline h) (run : Run h seen h') :
    ∃ joins', Follows joins' inputs joined (timeline ++ seen) h' := by
  induction run with
  | refl =>
    rw [List.append_nil]
    exact ⟨joins, follows⟩
  | snoc _ step ih =>
    obtain ⟨joins', follows'⟩ := ih
    rw [← List.append_assoc]
    exact follows'.step step

/-- What is known all along is how the joined slot fares. -/
theorem Follows.fares (follows : Follows joins inputs joined timeline h) :
    Joined inputs joined timeline h where
  decided := follows.decided
  pending_iff := by
    obtain ⟨g, tallies⟩ := follows.gathers.tallies follows.kept.sound
    rw [tallies.eq_none_iff, combined_eq_none_iff]
    refine and_congr ?_ List.mem_map
    exact ⟨fun sound i hi e failed => sound e (List.mem_map.2 ⟨i, hi, failed⟩),
      fun sound e he => by
        obtain ⟨i, hi, failed⟩ := List.mem_map.1 he
        exact sound i hi e failed⟩
  values := by
    intro values told
    obtain ⟨g, tallies⟩ := follows.gathers.tallies follows.kept.sound
    rw [told] at tallies
    have sound (e : CallError) :
        some (Except.error e : Outcome α) ∉ values.map fun value => some (.ok value) := by
      intro he
      obtain ⟨_, _, absurd_⟩ := List.mem_map.1 he
      cases absurd_
    rw [tallies.eq_combined fun e _ he => absurd he (sound e), combined_of_values]
  failed := by
    intro i hi e failed
    obtain ⟨g, tallies⟩ := follows.gathers.tallies follows.kept.sound
    exact tallies.failed (List.mem_map.2 ⟨i, hi, failed⟩)
  stays := by
    intro h' step o before
    obtain ⟨_, _, _, moved⟩ := step.kept follows.kept
    exact moved.stays before
  alike := by
    intro h' step i hi i' hi' e e' pending failed pending' failed'
    obtain ⟨_, _, _, moved⟩ := step.kept follows.kept
    have lt := follows.gathers.lt
    exact moved.alike (Nat.lt_trans (follows.gathers.older i hi) lt)
      (Nat.lt_trans (follows.gathers.older i' hi') lt) pending failed pending' failed'
  counted := by
    intro id held o
    obtain ⟨fs', checked, _⟩ := follows.kept.sound.settle (follows.kept.single id held) o
    rw [settle_of_checked checked]
    exact checked

/-- **Joining over every order of completion.** Whatever futures are joined, in whatever run of
making, joining, completing and dropping and at whatever moment of it, and however the run goes on:
the join itself counts no counter below zero and settles no slot twice, and the joined slot fares as
it has to. -/
theorem Run.joined_settles (before : Run empty past h) (inputs : List FutureId)
    (made : ∀ i ∈ inputs, i < h.futures.slots.length)
    (after : Run (h.withFutures (h.futures.join inputs).2) seen h') :
    h.futures.joinChecked inputs = some (h.futures.join inputs) ∧
      Joined inputs (h.futures.join inputs).1 ((h.futures.join inputs).2 :: seen) h' := by
  obtain ⟨joins, kept⟩ := before.kept
  obtain ⟨checked, joins', follows⟩ := kept.join inputs made
  obtain ⟨joins'', follows'⟩ := follows.run after
  exact ⟨checked, follows'.fares⟩

end Holding

namespace Sample

open Holding

/-- Two promises, and a slot joined from the futures of both, one of them given twice. -/
def joinedTwice : Holding Nat :=
  ⟨((Futures.promise Futures.empty.promise.2).2.join [0, 1, 0]).2, [1, 0]⟩

/-- The slot joined from that and from one of its inputs, once the later promise has been completed
and then the earlier one. -/
def nested : Holding Nat :=
  ((joinedTwice.withFutures (joinedTwice.futures.join [2, 1]).2).useUp 1 (.ok (.one 5))).useUp 0
    (.ok (.one 7))

/-- The values are in the order of the lists, and they are there with the last completion only. -/
theorem joined_settles_nested :
    (∃ past, Run empty past joinedTwice) ∧ (∀ i ∈ [2, 1], i < joinedTwice.futures.slots.length) ∧
      ∃ before after,
        Run (joinedTwice.withFutures (joinedTwice.futures.join [2, 1]).2) [before, after] nested ∧
          before.outcome? 3 = none ∧
          nested.futures.outcome? 3 =
            some (.ok (.all [.all [.one 7, .one 5, .one 7], .one 5])) := by
  have twoPromises : Run (empty : Holding Nat) _ _ := (Run.refl.snoc .pair).snoc .pair
  have past : Run (empty : Holding Nat) _ joinedTwice := twoPromises.snoc (.join [0, 1, 0] (by decide))
  have made : ∀ i ∈ [2, 1], i < joinedTwice.futures.slots.length := by decide
  have first := (Run.refl (h := joinedTwice.withFutures (joinedTwice.futures.join [2, 1]).2)).snoc
    (.complete 1 (by decide) (.ok (.one 5)))
  have run : Run _ _ nested := first.snoc (.complete 0 (by decide) (.ok (.one 7)))
  refine ⟨⟨_, past⟩, made, _, _, run, ?_, ?_⟩
  · refine (past.joined_settles [2, 1] made first).2.pending_iff.2
      ⟨fun i hi e => ?_, 2, List.mem_cons_self, rfl⟩
    obtain rfl | rfl := List.mem_pair.1 hi
    · show (none : Option (Outcome Nat)) ≠ some (.error e)
      nofun
    · show some (.ok (.one 5)) ≠ (some (.error e) : Option (Outcome Nat))
      nofun
  · exact (past.joined_settles [2, 1] made run).2.values
      [.all [.one 7, .one 5, .one 7], .one 5] rfl

end Sample

end RemoteDispatch
