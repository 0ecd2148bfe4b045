import RemoteDispatch.Call.Future
import Mathlib.Data.List.Nodup

/-!
# What settling leaves alone

Settling a slot may settle joined slots in turn, along paths of any length, so
what it leaves alone has to be said about the whole cascade. The cascade is
made of two elementary changes: a pending slot ends, and a joined slot counts
an input in. When all who are to learn of it have, wakers are woken. A property
that all this keeps is kept by the cascade
(`Futures.Kept.settleWithin`), and two properties are enough for what calls
need to know.

An outcome, once there, stays (`Futures.outcome?_settle`). And a slot that is
not a joined one ends only when it is settled itself: `Futures.Single` is such
a slot with the outcome it has so far, and settling any other slot, joining
and polling leave it as it is.
-/

namespace RemoteDispatch

namespace Futures

variable {α : Type} {fs : Futures α} {id : FutureId}

/-! ## The cascade -/

/-- The store with a pending slot ended, before any joined slot has learnt of it and anyone has been
woken. -/
def finish (fs : Futures α) (id : FutureId) (slot : Slot α) (outcome : Outcome α) : Futures α :=
  let settled := { slot with outcome := some outcome, wakers := [], listeners := [] }
  { fs with slots := fs.slots.set id settled }

/-- The slot is a joined one. -/
def IsJoined (fs : Futures α) (id : FutureId) : Prop :=
  ∃ slot g, fs.slots[id]? = some slot ∧ slot.gathering = some g

/-- **A property of stores that the elementary changes keep**, when the cascade starts at `target`:
joined slots count inputs in, pending slots end, the target or joined ones, and wakers are woken. -/
structure Kept (target : FutureId) (P : Futures α → Prop) : Prop where
  gather : ∀ {fs j} g, P fs → fs.IsJoined j →
    P (fs.modify j fun slot => { slot with gathering := some g })
  finish : ∀ {fs j slot} outcome, P fs → fs.slots[j]? = some slot → slot.outcome = none →
    j = target ∨ fs.IsJoined j → P (fs.finish j slot outcome)
  wake : ∀ {fs} wakers, P fs → P (fs.wake wakers)

namespace Kept

variable {target : FutureId} {P : Futures α → Prop}

/-- Telling a joined slot keeps what settling it keeps. -/
theorem tell (kept : Kept target P) {settle : FutureId → Outcome α → Futures α → Futures α}
    (hsettle : ∀ {fs j} outcome, P fs → fs.IsJoined j → P (settle j outcome fs))
    (outcome : Outcome α) (l : Listener) (h : P fs) : P (Futures.tell settle outcome fs l) := by
  unfold Futures.tell
  cases hg : fs.slots[l.joined]?.bind Slot.gathering with
  | none => exact h
  | some g =>
    obtain ⟨slot, hslot, hgather⟩ := Option.bind_eq_some_iff.1 hg
    have told := kept.gather (g.observe l.place outcome).1 h ⟨slot, g, hslot, hgather⟩
    have joined : (fs.modify l.joined fun slot =>
        { slot with gathering := some (g.observe l.place outcome).1 }).IsJoined l.joined := by
      refine ⟨{ slot with gathering := some (g.observe l.place outcome).1 }, _, ?_, rfl⟩
      show (fs.slots.modify _ _)[l.joined]? = _
      rw [List.getElem?_modify_eq, hslot]
      rfl
    dsimp only
    cases (g.observe l.place outcome).2 with
    | none => exact told
    | some end_ => exact hsettle end_ told joined

/-- Telling joined slots one after another keeps it too. -/
theorem tellAll (kept : Kept target P) {settle : FutureId → Outcome α → Futures α → Futures α}
    (hsettle : ∀ {fs j} outcome, P fs → fs.IsJoined j → P (settle j outcome fs))
    (outcome : Outcome α) (ls : List Listener) (h : P fs) :
    P (ls.foldl (Futures.tell settle outcome) fs) := by
  induction ls generalizing fs with
  | nil => exact h
  | cons l ls ih => exact ih (kept.tell hsettle outcome l h)

/-- **The whole cascade keeps it.** The induction is on how many joined slots in a row may be
settled. -/
theorem settleWithin (kept : Kept target P) (depth : Nat) {j : FutureId} (outcome : Outcome α)
    (h : P fs) (hj : j = target ∨ fs.IsJoined j) : P (Futures.settleWithin depth j outcome fs) := by
  induction depth generalizing fs j outcome with
  | zero => exact h
  | succ depth ih =>
    unfold Futures.settleWithin
    cases hslot : fs.slots[j]? with
    | none => exact h
    | some slot =>
      by_cases hdone : slot.outcome.isSome
      · show P (if _ then fs else _)
        rw [if_pos hdone]
        exact h
      · show P (if _ then fs else _)
        rw [if_neg hdone]
        have pending : slot.outcome = none := Option.not_isSome_iff_eq_none.1 hdone
        have ended := kept.finish outcome h hslot pending hj
        show P ((slot.listeners.foldl (Futures.tell (Futures.settleWithin depth) outcome)
          (fs.finish j slot outcome)).wake slot.wakers)
        -- every slot that learns of it is a joined one, so that the rest of the cascade starts there
        have told :=
          kept.tellAll (fun o hP hjoined => ih o hP (Or.inr hjoined)) outcome slot.listeners ended
        exact kept.wake slot.wakers told

theorem settle (kept : Kept target P) (outcome : Outcome α) (h : P fs) :
    P (fs.settle target outcome) := kept.settleWithin _ outcome h (Or.inl rfl)

end Kept

/-- A list of wakers with one more on it, unless it is there already. -/
def withWaker (waker : Waker) (wakers : List Waker) : List Waker :=
  if waker ∈ wakers then wakers else wakers ++ [waker]

theorem mem_withWaker {waker other : Waker} {wakers : List Waker} :
    other ∈ withWaker waker wakers ↔ other ∈ wakers ∨ other = waker := by
  unfold withWaker
  split
  · next known => exact ⟨.inl, fun h => h.elim id fun same => same ▸ known⟩
  · rw [List.mem_append, List.mem_singleton]

theorem nodup_withWaker {waker : Waker} {wakers : List Waker} (distinct : wakers.Nodup) :
    (withWaker waker wakers).Nodup := by
  unfold withWaker
  split
  · exact distinct
  · next unknown =>
    rw [← List.concat_eq_append]
    exact distinct.concat unknown

/-- Polling a slot that has settled changes nothing. -/
theorem poll_of_some {o : Outcome α} (h : fs.outcome? id = some o) (waker : Waker) :
    fs.poll id waker = (some o, fs) := by
  unfold Futures.poll
  rw [h]

/-- **Polling a pending slot** leaves the waker. -/
theorem poll_of_none (h : fs.outcome? id = none) (waker : Waker) :
    fs.poll id waker =
      (none, fs.modify id fun slot => { slot with wakers := withWaker waker slot.wakers }) := by
  have left : (fun slot : Slot α => if waker ∈ slot.wakers then slot
        else { slot with wakers := slot.wakers ++ [waker] }) =
      fun slot => { slot with wakers := withWaker waker slot.wakers } := by
    funext slot
    unfold withWaker
    split
    · rfl
    · rfl
  unfold Futures.poll
  rw [h, left]

/-- **A property of stores that new slots leave alone**, and waiting at a slot too. -/
structure Lasting (P : Futures α → Prop) : Prop where
  add : ∀ {fs} slot, P fs → P (fs.add slot).2
  touch : ∀ {fs} j {f : Slot α → Slot α},
    (∀ slot, (f slot).gathering = slot.gathering ∧ (f slot).outcome = slot.outcome) →
    P fs → P (fs.modify j f)

namespace Lasting

variable {target : FutureId} {P : Futures α → Prop}

theorem poll (lasting : Lasting P) (j : FutureId) (waker : Waker) (h : P fs) :
    P (fs.poll j waker).2 := by
  cases found : fs.outcome? j with
  | some outcome =>
    rw [poll_of_some found]
    exact h
  | none =>
    rw [poll_of_none found]
    exact lasting.touch j (fun _ => ⟨rfl, rfl⟩) h

theorem attend (lasting : Lasting P) (kept : Kept target P) (input : FutureId) (l : Listener)
    (h : P fs) : P (fs.attend input l) := by
  unfold Futures.attend
  cases fs.outcome? input with
  | some outcome =>
    exact kept.tell (fun o hP joined => kept.settleWithin _ o hP (Or.inr joined)) outcome l h
  | none => exact lasting.touch input (fun _ => ⟨rfl, rfl⟩) h

theorem join (lasting : Lasting P) (kept : Kept target P) (inputs : List FutureId) (h : P fs) :
    P (fs.join inputs).2 := by
  cases inputs with
  | nil => exact lasting.add _ h
  | cons first others =>
    let joined : Slot α :=
      { Slot.pending with gathering := some (.start (first :: others).length) }
    have added := lasting.add joined h
    -- an input that has settled already is counted in at once, which may settle the joined slot
    show P (((first :: others).zipIdx).foldl _ (fs.add joined).2)
    generalize (fs.add joined).2 = after at added
    induction (first :: others).zipIdx generalizing after with
    | nil => exact added
    | cons p ps ih => exact ih _ (lasting.attend kept p.1 _ added)

end Lasting

/-! ## An outcome stays -/

theorem kept_outcome (target : FutureId) (id : FutureId) (o : Outcome α) :
    Kept target fun fs => fs.outcome? id = some o where
  gather := by
    intro fs j g h _
    show (fs.slots.modify j _)[id]?.bind Slot.outcome = some o
    rw [List.getElem?_modify]
    obtain ⟨slot, hslot, hout⟩ := Option.bind_eq_some_iff.1 h
    rw [hslot]
    show (if j = id then { slot with gathering := some g } else slot).outcome = some o
    by_cases hj : j = id
    · rw [if_pos hj]
      exact hout
    · rw [if_neg hj]
      exact hout
  finish := by
    intro fs j slot outcome h hslot pending _
    show (fs.slots.set j _)[id]?.bind Slot.outcome = some o
    -- a slot that ends was pending, and this one is not
    have hne : j ≠ id := by
      intro hj
      obtain ⟨slot', hslot', hout⟩ := Option.bind_eq_some_iff.1 h
      rw [← hj, hslot] at hslot'
      cases hslot'
      rw [pending] at hout
      cases hout
    rw [List.getElem?_set_ne hne]
    exact h
  wake _ h := h

theorem lasting_outcome (id : FutureId) (o : Outcome α) :
    Lasting fun fs => fs.outcome? id = some o where
  add := by
    intro fs new h
    obtain ⟨slot, hslot, hout⟩ := Option.bind_eq_some_iff.1 h
    have lt := (List.getElem?_eq_some_iff.1 hslot).1
    show (fs.slots ++ [new])[id]?.bind Slot.outcome = some o
    rw [List.getElem?_append_left lt, hslot]
    exact hout
  touch := by
    intro fs j f hf h
    obtain ⟨slot, hslot, hout⟩ := Option.bind_eq_some_iff.1 h
    show (fs.slots.modify j f)[id]?.bind Slot.outcome = some o
    rw [List.getElem?_modify, hslot]
    show (if j = id then f slot else slot).outcome = some o
    by_cases hj : j = id
    · rw [if_pos hj]
      exact (hf slot).2.trans hout
    · rw [if_neg hj]
      exact hout

/-- **An outcome, once there, stays.** -/
theorem outcome?_settle {o : Outcome α} (h : fs.outcome? id = some o) (target : FutureId)
    (outcome : Outcome α) : (fs.settle target outcome).outcome? id = some o :=
  (kept_outcome target id o).settle outcome h

/-! ## Slots that are not joined ones -/

/-- **The slot is not a joined one**, and its outcome so far is `o`. -/
def Single (fs : Futures α) (id : FutureId) (o : Option (Outcome α)) : Prop :=
  ∃ slot, fs.slots[id]? = some slot ∧ slot.gathering = none ∧ slot.outcome = o

variable {o : Option (Outcome α)}

theorem Single.outcome? (h : fs.Single id o) : fs.outcome? id = o := by
  obtain ⟨slot, hslot, _, hout⟩ := h
  show fs.slots[id]?.bind Slot.outcome = o
  rw [hslot]
  exact hout

theorem Single.lt_length (h : fs.Single id o) : id < fs.slots.length := by
  obtain ⟨slot, hslot, _⟩ := h
  exact (List.getElem?_eq_some_iff.1 hslot).1

theorem Single.not_isJoined (h : fs.Single id o) : ¬fs.IsJoined id := by
  rintro ⟨slot', g, hslot', hg⟩
  obtain ⟨slot, hslot, hnone, _⟩ := h
  rw [hslot] at hslot'
  cases hslot'
  rw [hnone] at hg
  cases hg

theorem lasting_single (id : FutureId) (o : Option (Outcome α)) :
    Lasting fun fs => fs.Single id o where
  add := by
    intro fs new h
    obtain ⟨slot, hslot, hsingle⟩ := h
    have lt := (List.getElem?_eq_some_iff.1 hslot).1
    refine ⟨slot, ?_, hsingle⟩
    show (fs.slots ++ [new])[id]? = _
    rw [List.getElem?_append_left lt]
    exact hslot
  touch := by
    intro fs j f hf h
    obtain ⟨slot, hslot, hg, hout⟩ := h
    refine ⟨if j = id then f slot else slot, ?_, ?_, ?_⟩
    · show (fs.slots.modify j f)[id]? = _
      rw [List.getElem?_modify, hslot]
      rfl
    · by_cases hj : j = id
      · rw [if_pos hj]
        exact (hf slot).1.trans hg
      · rw [if_neg hj]
        exact hg
    · by_cases hj : j = id
      · rw [if_pos hj]
        exact (hf slot).2.trans hout
      · rw [if_neg hj]
        exact hout

theorem kept_single {target : FutureId} (hne : target ≠ id) (o : Option (Outcome α)) :
    Kept target fun fs => fs.Single id o where
  gather := by
    intro fs j g h hj
    have other : j ≠ id := fun hid => h.not_isJoined (hid ▸ hj)
    obtain ⟨slot, hslot, hsingle⟩ := h
    refine ⟨slot, ?_, hsingle⟩
    show (fs.slots.modify j _)[id]? = _
    rw [List.getElem?_modify_ne _ _ other]
    exact hslot
  finish := by
    intro fs j slot outcome h hslot _ hj
    have other : j ≠ id := by
      cases hj with
      | inl target => exact target ▸ hne
      | inr joined => exact fun hid => h.not_isJoined (hid ▸ joined)
    obtain ⟨slot', hslot', hsingle⟩ := h
    refine ⟨slot', ?_, hsingle⟩
    show (fs.slots.set j _)[id]? = _
    rw [List.getElem?_set_ne other]
    exact hslot'
  wake _ h := h

/-- Settling another slot leaves it as it is. -/
theorem Single.settle_ne (h : fs.Single id o) {target : FutureId} (hne : target ≠ id)
    (outcome : Outcome α) : (fs.settle target outcome).Single id o :=
  (kept_single hne o).settle outcome h

/-- **Settling a pending slot** ends it, tells the joined slots that wait for it and then wakes those
who wait for it. -/
theorem settle_of_pending {slot : Slot α} (hslot : fs.slots[id]? = some slot)
    (pending : slot.outcome = none) (outcome : Outcome α) :
    ∃ depth, fs.settle id outcome =
      (slot.listeners.foldl (Futures.tell (settleWithin depth) outcome)
        (fs.finish id slot outcome)).wake slot.wakers := by
  have lt := (List.getElem?_eq_some_iff.1 hslot).1
  obtain ⟨depth, hdepth⟩ : ∃ depth, fs.slots.length = depth + 1 :=
    Nat.exists_eq_add_one.2 (Nat.lt_of_le_of_lt (Nat.zero_le id) lt)
  refine ⟨depth, ?_⟩
  unfold Futures.settle
  rw [hdepth]
  unfold Futures.settleWithin
  rw [hslot]
  show (if slot.outcome.isSome then fs else _) = _
  rw [pending]
  rfl

/-- **Settling it while it is pending ends it.** -/
theorem Single.settle (h : fs.Single id none) (outcome : Outcome α) :
    (fs.settle id outcome).Single id (some outcome) := by
  have lt := h.lt_length
  obtain ⟨slot, hslot, hg, hout⟩ := h
  have ended : (fs.finish id slot outcome).Single id (some outcome) := by
    refine ⟨{ slot with outcome := some outcome, wakers := [], listeners := [] }, ?_, hg, rfl⟩
    show (fs.slots.set id _)[id]? = _
    rw [List.getElem?_set_self lt]
  obtain ⟨depth, settled⟩ := settle_of_pending hslot hout outcome
  rw [settled]
  -- what follows settles joined slots, and this one is none, so any other target will do
  have kept : Kept fs.slots.length fun fs => fs.Single id (some outcome) :=
    kept_single (Nat.ne_of_gt lt) _
  exact kept.wake _ (kept.tellAll (fun end_ hP hjoined =>
    kept.settleWithin depth end_ hP (Or.inr hjoined)) outcome _ ended)

/-- Settling a slot that has an outcome changes nothing. -/
theorem settle_of_outcome {o : Outcome α} (h : fs.outcome? id = some o) (outcome : Outcome α) :
    fs.settle id outcome = fs := by
  obtain ⟨slot, hslot, hout⟩ := Option.bind_eq_some_iff.1 h
  unfold Futures.settle
  cases fs.slots.length with
  | zero => rfl
  | succ depth =>
    unfold Futures.settleWithin
    rw [hslot]
    show (if slot.outcome.isSome then fs else _) = fs
    rw [hout]
    rfl

theorem Single.settle_of_some {o : Outcome α} (h : fs.Single id (some o)) (target : FutureId)
    (outcome : Outcome α) : (fs.settle target outcome).Single id (some o) := by
  by_cases ht : target = id
  · subst ht
    rw [settle_of_outcome h.outcome?]
    exact h
  · exact h.settle_ne ht outcome

/-! ## Giving several slots up -/

section GivingUp

variable {β : Type} (slotOf : β → FutureId)

theorem outcome?_abandonAll {o : Outcome α} (l : List β) (h : fs.outcome? id = some o) :
    (l.foldl (fun fs b => fs.abandon (slotOf b)) fs).outcome? id = some o := by
  induction l generalizing fs with
  | nil => exact h
  | cons b l ih => exact ih (outcome?_settle h _ _)

theorem Single.abandonAll_ne (l : List β) (hne : ∀ b ∈ l, slotOf b ≠ id) (h : fs.Single id o) :
    (l.foldl (fun fs b => fs.abandon (slotOf b)) fs).Single id o := by
  induction l generalizing fs with
  | nil => exact h
  | cons b l ih =>
    exact ih (fun b' hb' => hne b' (List.mem_cons_of_mem b hb'))
      (h.settle_ne (hne b List.mem_cons_self) _)

theorem Single.abandonAll_of_some {o : Outcome α} (l : List β) (h : fs.Single id (some o)) :
    (l.foldl (fun fs b => fs.abandon (slotOf b)) fs).Single id (some o) := by
  induction l generalizing fs with
  | nil => exact h
  | cons b l ih => exact ih (h.settle_of_some _ _)

theorem Single.abandonAll (l : List β) (hmem : ∃ b ∈ l, slotOf b = id) (h : fs.Single id none) :
    (l.foldl (fun fs b => fs.abandon (slotOf b)) fs).Single id (some (.error .abandoned)) := by
  induction l generalizing fs with
  | nil =>
    obtain ⟨b, hb, _⟩ := hmem
    cases hb
  | cons b l ih =>
    -- the first entry for the slot ends it, the later ones find it ended
    by_cases hb : slotOf b = id
    · have ended : (fs.abandon (slotOf b)).Single id (some (.error .abandoned)) :=
        hb ▸ (hb ▸ h : fs.Single (slotOf b) none).settle _
      exact ended.abandonAll_of_some slotOf l
    · refine ih ?_ (h.settle_ne hb _)
      obtain ⟨b', hb', hid⟩ := hmem
      cases hb' with
      | head => exact absurd hid hb
      | tail _ hb' => exact ⟨b', hb', hid⟩

end GivingUp

/-! ## New slots -/

/-- A slot just added is the last one of the store. -/
theorem getElem?_add (fs : Futures α) (slot : Slot α) :
    (fs.add slot).2.slots[(fs.add slot).1]? = some slot := by
  show (fs.slots ++ [slot])[fs.slots.length]? = some slot
  rw [List.getElem?_append_right (Nat.le_refl _), Nat.sub_self]
  rfl

/-- The other slots are as they were. -/
theorem getElem?_add_of_ne (fs : Futures α) (slot : Slot α) (hne : id ≠ (fs.add slot).1) :
    (fs.add slot).2.slots[id]? = fs.slots[id]? := by
  show (fs.slots ++ [slot])[id]? = fs.slots[id]?
  rcases Nat.lt_or_gt_of_ne hne with lt | gt
  · exact List.getElem?_append_left lt
  · rw [List.getElem?_eq_none (Nat.le_of_lt gt), List.getElem?_eq_none]
    rw [List.length_append]
    exact gt

theorem single_ready (fs : Futures α) (outcome : Outcome α) :
    (fs.ready outcome).2.Single (fs.ready outcome).1 (some outcome) :=
  ⟨_, getElem?_add fs _, rfl, rfl⟩

theorem single_promise (fs : Futures α) : fs.promise.2.Single fs.promise.1 none :=
  ⟨_, getElem?_add fs _, rfl, rfl⟩

/-! ## Stores in which nothing is settled -/

/-- **Slots are made, looked at and joined**, but nothing is settled. A joined slot may end as soon
as it is made. -/
inductive Calm : Futures α → Futures α → Prop where
  | refl {fs : Futures α} : Calm fs fs
  | add {fs : Futures α} {slot : Slot α} (fresh : slot.listeners = [])
      (single : slot.gathering = none) : Calm fs (fs.add slot).2
  | poll {fs : Futures α} (id : FutureId) (waker : Waker) : Calm fs (fs.poll id waker).2
  | join {fs : Futures α} (inputs : List FutureId) : Calm fs (fs.join inputs).2
  | trans {fs fs' fs'' : Futures α} (first : Calm fs fs') (second : Calm fs' fs'') : Calm fs fs''

/-- What lasts, lasts while nothing is settled. -/
theorem Calm.lasting {fs' : Futures α} (calm : Calm fs fs') {target : FutureId}
    {P : Futures α → Prop} (lasting : Lasting P) (kept : Kept target P) (h : P fs) : P fs' := by
  induction calm with
  | refl => exact h
  | add _ _ => exact lasting.add _ h
  | poll id waker => exact lasting.poll id waker h
  | join inputs => exact lasting.join kept inputs h
  | trans _ _ ih ih' => exact ih' (ih h)

end Futures

end RemoteDispatch
