import RemoteDispatch.Proofs.Tallies

/-!
# How settling reaches the joined slots

Settling a slot tells the joined slots that wait for it, and one of these may
end at once and tell others before the next in the row is told. In between,
the store is in no state that a caller could see: some joined slots have
listeners that are no longer at their input and have not been told either.
These listeners are the *agenda*. With the agenda written down, every moment of
a cascade is described by one invariant, `Futures.Sound`: each listener is
either at its input or on the agenda or has been told, and each joined slot
tallies with what its inputs have told it.

Telling the next listener on the agenda keeps the invariant and may put the
listeners of a slot that ends in front of it (`Sound.tell`). An induction on
the depth of the cascade, and in it on the agenda, gives the whole of it
(`Sound.tellAll`), and settling and joining follow.

The machine itself never fails: a counter at zero stays there, and a slot that
has settled is left as it is. So that neither of these is what makes things
come out right, each operation has a *checked* form here that stops instead,
and what is proved is proved about the checked forms.
-/

namespace RemoteDispatch

namespace Futures

variable {α : Type} {fs fs' fs'' : Futures α}

/-! ## The checked machine -/

/-- An outcome can be counted in: there is an input left to be counted if it brings a value. -/
def countable (g : Gathering α) : Outcome α → Bool
  | .ok _ => 0 < g.remaining
  | .error _ => true

/-- `tell`, stopping if the slot is no joined one or its counter would fall below zero. -/
def tellChecked (settle : FutureId → Outcome α → Futures α → Option (Futures α))
    (outcome : Outcome α) (fs : Futures α) (l : Listener) : Option (Futures α) :=
  match fs.slots[l.joined]?.bind Slot.gathering with
  | none => none
  | some g =>
    if countable g outcome then
      let (g, decided) := g.observe l.place outcome
      let fs := fs.modify l.joined fun slot => { slot with gathering := some g }
      match decided with
      | some end_ => settle l.joined end_ fs
      | none => some fs
    else none

/-- `settleWithin`, stopping if the slot has settled before or the depth does not suffice. -/
def settleCheckedWithin : Nat → FutureId → Outcome α → Futures α → Option (Futures α)
  | 0, _, _, _ => none
  | depth + 1, id, outcome, fs =>
    match fs.slots[id]? with
    | none => none
    | some slot =>
      if slot.outcome.isSome then none
      else
        let settled := { slot with outcome := some outcome, wakers := [], listeners := [] }
        let fs := { fs with slots := fs.slots.set id settled }
        let told := slot.listeners.foldlM (tellChecked (settleCheckedWithin depth) outcome) fs
        told.map (·.wake slot.wakers)

/-- **`settle`, stopping if a counter would fall below zero or a slot would be settled twice.** -/
def settleChecked (fs : Futures α) (id : FutureId) (outcome : Outcome α) : Option (Futures α) :=
  settleCheckedWithin fs.slots.length id outcome fs

/-- `attend`, checked. -/
def attendChecked (fs : Futures α) (input : FutureId) (l : Listener) : Option (Futures α) :=
  match fs.outcome? input with
  | some outcome => tellChecked (fun id outcome fs => fs.settleChecked id outcome) outcome fs l
  | none => some (fs.modify input fun slot => { slot with listeners := slot.listeners ++ [l] })

/-- **`join`, stopping if a counter would fall below zero or a slot would be settled twice.** -/
def joinChecked (fs : Futures α) (inputs : List FutureId) : Option (FutureId × Futures α) :=
  match inputs with
  | [] => some (fs.ready (.ok (.all [])))
  | _ =>
    let (joined, fs) := fs.add { Slot.pending with gathering := some (.start inputs.length) }
    let told : Option (Futures α) := inputs.zipIdx.foldlM
      (fun (fs : Futures α) (input, place) => fs.attendChecked input ⟨joined, place⟩) fs
    told.map (joined, ·)

section Checked

variable {settle : FutureId → Outcome α → Futures α → Futures α}
  {settle' : FutureId → Outcome α → Futures α → Option (Futures α)}

theorem tell_of_tellChecked {outcome : Outcome α} {l : Listener}
    (agree : ∀ {id outcome fs fs'}, settle' id outcome fs = some fs' → settle id outcome fs = fs')
    (checked : tellChecked settle' outcome fs l = some fs') : tell settle outcome fs l = fs' := by
  unfold tellChecked at checked
  unfold tell
  cases hg : fs.slots[l.joined]?.bind Slot.gathering with
  | none =>
    rw [hg] at checked
    cases checked
  | some g =>
    rw [hg] at checked
    dsimp only at checked ⊢
    split at checked
    · cases hd : (g.observe l.place outcome).2 with
      | none =>
        rw [hd] at checked
        exact Option.some.inj checked
      | some end_ =>
        rw [hd] at checked
        exact agree checked
    · cases checked

theorem foldl_of_foldlM {β : Type} {f : Futures α → β → Futures α}
    {f' : Futures α → β → Option (Futures α)}
    (agree : ∀ {fs b fs'}, f' fs b = some fs' → f fs b = fs') {bs : List β}
    (checked : bs.foldlM f' fs = some fs') : bs.foldl f fs = fs' := by
  induction bs generalizing fs with
  | nil => exact Option.some.inj checked
  | cons b bs ih =>
    rw [List.foldlM_cons] at checked
    obtain ⟨next, first, rest⟩ := Option.bind_eq_some_iff.1 checked
    rw [List.foldl_cons, agree first]
    exact ih rest

theorem settleWithin_of_checked {depth : Nat} {id : FutureId} {outcome : Outcome α}
    (checked : settleCheckedWithin depth id outcome fs = some fs') :
    settleWithin depth id outcome fs = fs' := by
  induction depth generalizing id outcome fs fs' with
  | zero => cases checked
  | succ depth ih =>
    unfold settleCheckedWithin at checked
    unfold settleWithin
    cases hslot : fs.slots[id]? with
    | none =>
      rw [hslot] at checked
      cases checked
    | some slot =>
      rw [hslot] at checked
      dsimp only at checked ⊢
      split at checked
      · cases checked
      · next pending =>
        rw [if_neg pending]
        obtain ⟨told, htold, rfl⟩ := Option.map_eq_some_iff.1 checked
        rw [foldl_of_foldlM (fun told => tell_of_tellChecked ih told) htold]

/-- Where the checked form does not stop, settling comes to the same. -/
theorem settle_of_checked {id : FutureId} {outcome : Outcome α}
    (checked : fs.settleChecked id outcome = some fs') : fs.settle id outcome = fs' :=
  settleWithin_of_checked checked

theorem attend_of_checked {input : FutureId} {l : Listener}
    (checked : fs.attendChecked input l = some fs') : fs.attend input l = fs' := by
  unfold attendChecked at checked
  unfold attend
  cases ho : fs.outcome? input with
  | none =>
    rw [ho] at checked
    exact Option.some.inj checked
  | some outcome =>
    rw [ho] at checked
    exact tell_of_tellChecked settle_of_checked checked

/-- Where the checked form does not stop, joining comes to the same. -/
theorem join_of_checked {inputs : List FutureId} {joined : FutureId × Futures α}
    (checked : fs.joinChecked inputs = some joined) : fs.join inputs = joined := by
  cases inputs with
  | nil => exact Option.some.inj checked
  | cons first others =>
    obtain ⟨after, hafter, rfl⟩ := Option.map_eq_some_iff.1 checked
    exact congrArg (Prod.mk _) (foldl_of_foldlM attend_of_checked hafter)

end Checked

/-! ## One slot at a time -/

/-- **One slot changes**, and all the others are as they were. -/
structure Becomes (fs fs' : Futures α) (j : FutureId) (slot : Slot α) : Prop where
  here : fs'.slots[j]? = some slot
  there : ∀ {i}, i ≠ j → fs'.slots[i]? = fs.slots[i]?
  length : fs'.slots.length = fs.slots.length

variable {j : FutureId} {slot slot' : Slot α}

theorem outcome?_of_slot (hslot : fs.slots[j]? = some slot) : fs.outcome? j = slot.outcome := by
  unfold outcome?
  rw [hslot]
  rfl

namespace Becomes

/-- A slot is the one that has changed, or it is as it was. -/
theorem slot_cases (b : Becomes fs fs' j slot) {i : FutureId} {slotᵢ : Slot α}
    (hslotᵢ : fs'.slots[i]? = some slotᵢ) :
    (i = j ∧ slotᵢ = slot) ∨ (i ≠ j ∧ fs.slots[i]? = some slotᵢ) := by
  by_cases hi : i = j
  · subst hi
    rw [b.here] at hslotᵢ
    cases hslotᵢ
    exact Or.inl ⟨rfl, rfl⟩
  · exact Or.inr ⟨hi, (b.there hi).symm.trans hslotᵢ⟩

theorem outcome?_ne (b : Becomes fs fs' j slot) {i : FutureId} (hi : i ≠ j) :
    fs'.outcome? i = fs.outcome? i := by
  unfold outcome?
  rw [b.there hi]

theorem outcome?_same (b : Becomes fs fs' j slot') (hslot : fs.slots[j]? = some slot)
    (same : slot'.outcome = slot.outcome) (i : FutureId) : fs'.outcome? i = fs.outcome? i := by
  by_cases hi : i = j
  · subst hi
    rw [outcome?_of_slot b.here, outcome?_of_slot hslot, same]
  · exact b.outcome?_ne hi

end Becomes

theorem becomes_modify (hslot : fs.slots[j]? = some slot) (f : Slot α → Slot α) :
    Becomes fs (fs.modify j f) j (f slot) where
  here := by
    show (fs.slots.modify j f)[j]? = _
    rw [List.getElem?_modify_eq, hslot]
    rfl
  there := fun hi => List.getElem?_modify_ne _ _ (Ne.symm hi)
  length := List.length_modify ..

/-- Where there is no slot, nothing changes. -/
theorem modify_of_none (hslot : fs.slots[j]? = none) (f : Slot α → Slot α) : fs.modify j f = fs := by
  unfold modify
  rw [List.modify_eq_self (List.getElem?_eq_none_iff.1 hslot)]

theorem becomes_finish (hslot : fs.slots[j]? = some slot) (outcome : Outcome α) :
    Becomes fs (fs.finish j slot outcome) j
      { slot with outcome := some outcome, wakers := [], listeners := [] } where
  here := List.getElem?_set_self (List.getElem?_eq_some_iff.1 hslot).1
  there := fun hi => List.getElem?_set_ne (Ne.symm hi)
  length := List.length_set

/-! ## The invariant -/

/-- **Which slots are joined ones**, and of which inputs. -/
abbrev Joins := FutureId → Option (List FutureId)

/-- The slot is the input that a listener stands for. Only an older slot can be one that the joined
slot ever hears of. -/
def Feeds (joins : Joins) (i : FutureId) (l : Listener) : Prop :=
  i ≤ l.joined ∧ ∃ inputs, joins l.joined = some inputs ∧ inputs[l.place]? = some i

theorem Feeds.eq_of_place {joins : Joins} {i i' : FutureId} {l : Listener}
    {inputs : List FutureId} (h : Feeds joins i l) (known : joins l.joined = some inputs)
    (hplace : inputs[l.place]? = some i') : i = i' := by
  obtain ⟨_, inputs', known', hplace'⟩ := h
  rw [known] at known'
  cases known'
  rw [hplace'] at hplace
  exact Option.some.inj hplace

/-- A place has one input. -/
theorem Feeds.unique {joins : Joins} {i i' : FutureId} {l : Listener} (h : Feeds joins i l)
    (h' : Feeds joins i' l) : i = i' := by
  obtain ⟨_, inputs, known, hplace⟩ := h'
  exact h.eq_of_place known hplace

/-- **What the inputs of a joined slot have told it** while the listeners on the agenda are still to
be told. A slot that is not older than the joined one tells it nothing. -/
def news (fs : Futures α) (agenda : List Listener) (j : FutureId) (inputs : List FutureId) :
    List (Option (Outcome α)) :=
  inputs.mapIdx fun place i =>
    if ⟨j, place⟩ ∈ agenda ∨ j ≤ i then none else fs.outcome? i

variable {joins : Joins} {agenda agenda' : List Listener} {l : Listener} {i : FutureId}
  {inputs : List FutureId} {place : Nat} {outcome : Outcome α}

theorem getElem?_news :
    (fs.news agenda j inputs)[place]? = inputs[place]?.map fun i =>
      if ⟨j, place⟩ ∈ agenda ∨ j ≤ i then none else fs.outcome? i :=
  List.getElem?_mapIdx ..

/-- Two moments at which every place has heard the same. -/
theorem news_congr
    (same : ∀ place i, inputs[place]? = some i → i < j →
      (if ⟨j, place⟩ ∈ agenda' then none else fs'.outcome? i) =
        if ⟨j, place⟩ ∈ agenda then none else fs.outcome? i) :
    fs'.news agenda' j inputs = fs.news agenda j inputs := by
  refine List.ext_getElem? fun place => ?_
  rw [getElem?_news, getElem?_news]
  cases hplace : inputs[place]? with
  | none => rfl
  | some i =>
    refine congrArg some ?_
    by_cases older : i < j
    · simp only [Nat.not_le_of_lt older, or_false]
      exact same place i hplace older
    · simp only [Nat.le_of_not_lt older, or_true, if_true]

/-- **The listeners are where they have to be.** A listener is at its input as long as this is
pending, unless it is on the agenda. -/
structure Wired (joins : Joins) (agenda : List Listener) (fs : Futures α) : Prop where
  joined : ∀ {j inputs}, joins j = some inputs →
    ∃ slot g, fs.slots[j]? = some slot ∧ slot.gathering = some g
  single : ∀ {j slot}, fs.slots[j]? = some slot → joins j = none → slot.gathering = none
  agenda_nodup : agenda.Nodup
  nodup : ∀ {i : FutureId} {slot : Slot α}, fs.slots[i]? = some slot → slot.listeners.Nodup
  listens : ∀ {i : FutureId} {slot : Slot α}, fs.slots[i]? = some slot →
    ∀ {l}, l ∈ slot.listeners ↔ slot.outcome = none ∧ l ∉ agenda ∧ Feeds joins i l

/-- A joined slot has gathered what its inputs have told it. -/
def Tallied (joins : Joins) (agenda : List Listener) (fs : Futures α) (j : FutureId) : Prop :=
  ∀ inputs slot g, joins j = some inputs → fs.slots[j]? = some slot →
    slot.gathering = some g → g.Tallies (fs.news agenda j inputs) slot.outcome

/-- **The invariant of a cascade.** -/
structure Sound (joins : Joins) (agenda : List Listener) (fs : Futures α) : Prop where
  wired : Wired joins agenda fs
  tallied : ∀ j, Tallied joins agenda fs j

/-! ## The agenda gets shorter -/

/-- A listener that no pending slot feeds need not be on the agenda. -/
theorem Wired.strike (wired : Wired joins (l :: agenda) fs)
    (idle : ∀ {i slot}, fs.slots[i]? = some slot → Feeds joins i l → slot.outcome ≠ none) :
    Wired joins agenda fs where
  joined := wired.joined
  single := wired.single
  agenda_nodup := wired.agenda_nodup.of_cons
  nodup := wired.nodup
  listens := by
    intro i slot hslot l'
    rw [wired.listens hslot, List.mem_cons, not_or]
    constructor
    · exact fun ⟨pending, ⟨_, hmem⟩, feeds⟩ => ⟨pending, hmem, feeds⟩
    · rintro ⟨pending, hmem, feeds⟩
      refine ⟨pending, ⟨?_, hmem⟩, feeds⟩
      rintro rfl
      exact idle hslot feeds pending

/-- For the other joined slots nothing changes when a listener is taken off the agenda. -/
theorem news_strike_ne (hj : j ≠ l.joined) :
    fs.news agenda j inputs = fs.news (l :: agenda) j inputs := by
  refine news_congr fun place i _ _ => ?_
  have other : (⟨j, place⟩ : Listener) ≠ l := by
    rintro rfl
    exact hj rfl
  have same : ⟨j, place⟩ ∈ l :: agenda ↔ ⟨j, place⟩ ∈ agenda := by
    rw [List.mem_cons, or_iff_right other]
  simp only [same]

theorem Tallied.strike_ne (hj : j ≠ l.joined) (tallied : Tallied joins (l :: agenda) fs j) :
    Tallied joins agenda fs j := by
  intro inputs slot g known hslot hg
  rw [news_strike_ne hj]
  exact tallied inputs slot g known hslot hg

/-- A place on the agenda is silent. -/
theorem news_silent (fs : Futures α) (agenda : List Listener)
    (hplace : inputs[l.place]? = some i) :
    (fs.news (l :: agenda) l.joined inputs)[l.place]? = some none := by
  rw [getElem?_news, hplace]
  exact congrArg some (if_pos (Or.inl List.mem_cons_self))

/-- **Taken off the agenda, a place is heard.** -/
theorem news_strike (new : l ∉ agenda) (hplace : inputs[l.place]? = some i) :
    fs.news agenda l.joined inputs =
      (fs.news (l :: agenda) l.joined inputs).set l.place
        (if l.joined ≤ i then none else fs.outcome? i) := by
  refine List.ext_getElem? fun place => ?_
  by_cases hp : place = l.place
  · subst hp
    have inside := (List.getElem?_eq_some_iff.1 (news_silent fs agenda hplace)).1
    rw [List.getElem?_set_self inside, getElem?_news, hplace]
    have absent : (⟨l.joined, l.place⟩ : Listener) ∉ agenda := new
    simp only [Option.map_some, absent, false_or]
  · rw [List.getElem?_set_ne (Ne.symm hp), getElem?_news, getElem?_news]
    have other : (⟨l.joined, place⟩ : Listener) ≠ l := fun h => hp (congrArg Listener.place h)
    have same : ⟨l.joined, place⟩ ∈ l :: agenda ↔ ⟨l.joined, place⟩ ∈ agenda := by
      rw [List.mem_cons, or_iff_right other]
    simp only [same]

/-- A place that hears nothing might as well not be on the agenda. -/
theorem news_strike_none (new : l ∉ agenda) (hplace : inputs[l.place]? = some i)
    (silent : i < l.joined → fs.outcome? i = none) :
    fs.news agenda l.joined inputs = fs.news (l :: agenda) l.joined inputs := by
  have nothing : (if l.joined ≤ i then none else fs.outcome? i) = none := by
    split
    · rfl
    · next older => exact silent (Nat.lt_of_not_le older)
  obtain ⟨inside, empty⟩ :=
    List.getElem?_eq_some_iff.1 (news_silent fs agenda hplace)
  have same := List.set_getElem_self inside
  rw [empty] at same
  rw [news_strike new hplace, nothing, same]

/-! ## A slot changes -/

/-- The wiring is kept when one slot changes, as long as its own listeners are where they have to be
and the agenda loses and gains none that another slot feeds. -/
theorem Wired.becomes (wired : Wired joins agenda fs) (b : Becomes fs fs' j slot')
    (hslot : fs.slots[j]? = some slot) (gathers : slot'.gathering.isSome = slot.gathering.isSome)
    (agenda_nodup : agenda'.Nodup) (nodup : slot'.listeners.Nodup)
    (listens : ∀ {l}, l ∈ slot'.listeners ↔ slot'.outcome = none ∧ l ∉ agenda' ∧ Feeds joins j l)
    (others : ∀ {i l}, i ≠ j → Feeds joins i l → (l ∈ agenda' ↔ l ∈ agenda)) :
    Wired joins agenda' fs' where
  joined := by
    intro i inputs known
    obtain ⟨slotᵢ, g, hslotᵢ, hg⟩ := wired.joined known
    by_cases hi : i = j
    · subst hi
      rw [hslot] at hslotᵢ
      cases hslotᵢ
      rw [hg] at gathers
      obtain ⟨g', hg'⟩ := Option.isSome_iff_exists.1 gathers
      exact ⟨slot', g', b.here, hg'⟩
    · exact ⟨slotᵢ, g, (b.there hi).trans hslotᵢ, hg⟩
  single := by
    intro i slotᵢ hslotᵢ none_
    obtain ⟨rfl, rfl⟩ | ⟨_, hslotᵢ⟩ := b.slot_cases hslotᵢ
    · rw [wired.single hslot none_] at gathers
      exact Option.not_isSome_iff_eq_none.1 (Bool.eq_false_iff.1 gathers)
    · exact wired.single hslotᵢ none_
  agenda_nodup := agenda_nodup
  nodup := by
    intro i slotᵢ hslotᵢ
    obtain ⟨rfl, rfl⟩ | ⟨_, hslotᵢ⟩ := b.slot_cases hslotᵢ
    · exact nodup
    · exact wired.nodup hslotᵢ
  listens := by
    intro i slotᵢ hslotᵢ l
    obtain ⟨rfl, rfl⟩ | ⟨hi, hslotᵢ⟩ := b.slot_cases hslotᵢ
    · exact listens
    · rw [wired.listens hslotᵢ]
      exact and_congr_right fun _ => and_congr_left fun feeds => not_congr (others hi feeds).symm

/-- A change that is no outcome is no news. -/
theorem Becomes.news_same (b : Becomes fs fs' j slot') (hslot : fs.slots[j]? = some slot)
    (same : slot'.outcome = slot.outcome) (agenda : List Listener) (i : FutureId)
    (inputs : List FutureId) : fs'.news agenda i inputs = fs.news agenda i inputs :=
  news_congr fun _ i' _ _ => by rw [b.outcome?_same hslot same i']

theorem Tallied.becomes_ne (tallied : Tallied joins agenda fs i) (b : Becomes fs fs' j slot')
    (hi : i ≠ j)
    (quiet : ∀ {inputs}, joins i = some inputs →
      fs'.news agenda' i inputs = fs.news agenda i inputs) : Tallied joins agenda' fs' i := by
  intro inputs slotᵢ g known hslotᵢ hg
  rw [quiet known]
  exact tallied inputs slotᵢ g known ((b.there hi).symm.trans hslotᵢ) hg

/-- What waits and wakes at a slot does not matter. -/
theorem Sound.becomes_same (sound : Sound joins agenda fs) (b : Becomes fs fs' j slot')
    (hslot : fs.slots[j]? = some slot) (outcome : slot'.outcome = slot.outcome)
    (listeners : slot'.listeners = slot.listeners) (gathering : slot'.gathering = slot.gathering) :
    Sound joins agenda fs' := by
  refine ⟨sound.wired.becomes b hslot (congrArg _ gathering) sound.wired.agenda_nodup ?_ ?_
    fun _ _ => Iff.rfl, fun i => ?_⟩
  · rw [listeners]
    exact sound.wired.nodup hslot
  · rw [listeners, outcome]
    exact sound.wired.listens hslot
  · intro inputs slotᵢ g known hslotᵢ hg
    rw [b.news_same hslot outcome]
    obtain ⟨rfl, rfl⟩ | ⟨_, hslotᵢ⟩ := b.slot_cases hslotᵢ
    · rw [outcome]
      exact sound.tallied i inputs slot g known hslot (gathering.symm.trans hg)
    · exact sound.tallied i inputs slotᵢ g known hslotᵢ hg

/-- **A pending slot ends**, and its listeners go on the agenda. What the joined slots have been told
is then still what it was. -/
theorem Wired.news_finish (wired : Wired joins agenda fs) (b : Becomes fs fs' j slot')
    (hslot : fs.slots[j]? = some slot) (pending : slot.outcome = none)
    (known : joins i = some inputs) :
    fs'.news (slot.listeners ++ agenda) i inputs = fs.news agenda i inputs := by
  refine news_congr fun place k hplace older => ?_
  have feeds : Feeds joins k ⟨i, place⟩ := ⟨Nat.le_of_lt older, inputs, known, hplace⟩
  by_cases hk : k = j
  · subst hk
    have waits : ⟨i, place⟩ ∈ slot.listeners ++ agenda := by
      rw [List.mem_append, wired.listens hslot]
      exact (Classical.em (⟨i, place⟩ ∈ agenda)).elim Or.inr
        fun away => Or.inl ⟨pending, away, feeds⟩
    rw [if_pos waits, outcome?_of_slot hslot, pending, ite_self]
  · have elsewhere : ⟨i, place⟩ ∉ slot.listeners := fun h =>
      hk (feeds.unique ((wired.listens hslot).1 h).2.2)
    simp only [List.mem_append, or_iff_right elsewhere, b.outcome?_ne hk]

theorem Wired.finish (wired : Wired joins agenda fs) (hslot : fs.slots[j]? = some slot)
    (outcome : Outcome α) :
    Wired joins (slot.listeners ++ agenda) (fs.finish j slot outcome) := by
  have waits {l : Listener} (h : l ∈ slot.listeners) : l ∉ agenda ∧ Feeds joins j l :=
    ((wired.listens hslot).1 h).2
  refine wired.becomes (becomes_finish hslot outcome) hslot rfl ?_ List.nodup_nil ?_ ?_
  · refine List.nodup_append.2 ⟨wired.nodup hslot, wired.agenda_nodup, ?_⟩
    rintro l hl l' hl' rfl
    exact (waits hl).1 hl'
  · exact ⟨fun h => absurd h List.not_mem_nil, nofun⟩
  · intro i l hi feeds
    rw [List.mem_append, or_iff_right]
    exact fun h => hi (feeds.unique (waits h).2)

/-! ## The cascade -/

/-- **What a cascade does to the outcomes**: those below the floor stay, and so does every outcome
that is there; and if the cascade starts with an error, this is the only one that spreads, while
from a value no error comes. -/
structure Cascaded (floor : FutureId) (outcome : Outcome α) (fs fs' : Futures α) : Prop where
  length : fs'.slots.length = fs.slots.length
  stays : ∀ {i o}, fs.outcome? i = some o → fs'.outcome? i = some o
  below : ∀ {i}, i < floor → fs'.outcome? i = fs.outcome? i
  alike : ∀ {i e}, fs.outcome? i = none → fs'.outcome? i = some (.error e) → outcome = .error e

namespace Cascaded

variable {floor floor' : FutureId}

theorem refl (floor : FutureId) (outcome : Outcome α) (fs : Futures α) :
    Cascaded floor outcome fs fs where
  length := rfl
  stays := fun h => h
  below := fun _ => rfl
  alike := fun h h' => by
    rw [h] at h'
    cases h'

theorem trans (c : Cascaded floor outcome fs fs') (c' : Cascaded floor outcome fs' fs'') :
    Cascaded floor outcome fs fs'' where
  length := c'.length.trans c.length
  stays := fun h => c'.stays (c.stays h)
  below := fun h => (c'.below h).trans (c.below h)
  alike := by
    intro i e pending failed
    cases h : fs'.outcome? i with
    | none => exact c'.alike h failed
    | some o =>
      rw [c'.stays h] at failed
      cases failed
      exact c.alike pending h

theorem mono (c : Cascaded floor outcome fs fs') (le : floor' ≤ floor) {outcome' : Outcome α}
    (tone : ∀ e, outcome = .error e → outcome' = .error e) : Cascaded floor' outcome' fs fs' where
  length := c.length
  stays := c.stays
  below := fun h => c.below (Nat.lt_of_lt_of_le h le)
  alike := fun pending failed => tone _ (c.alike pending failed)

end Cascaded

/-- A change that is no outcome. -/
theorem Becomes.cascaded_same (b : Becomes fs fs' j slot') (hslot : fs.slots[j]? = some slot)
    (same : slot'.outcome = slot.outcome) (floor : FutureId) (outcome : Outcome α) :
    Cascaded floor outcome fs fs' where
  length := b.length
  stays := fun h => (b.outcome?_same hslot same _).trans h
  below := fun _ => b.outcome?_same hslot same _
  alike := fun h h' => by
    rw [b.outcome?_same hslot same, h] at h'
    cases h'

/-- Waking changes no outcome. -/
theorem Cascaded.wake {floor : FutureId} (c : Cascaded floor outcome fs fs') (wakers : List Waker) :
    Cascaded floor outcome fs (fs'.wake wakers) := ⟨c.length, c.stays, c.below, c.alike⟩

/-- Nor does it change what joined slots wait for or have gathered. -/
theorem Sound.wake (sound : Sound joins agenda fs) (wakers : List Waker) :
    Sound joins agenda (fs.wake wakers) where
  wired := ⟨sound.wired.joined, sound.wired.single, sound.wired.agenda_nodup, sound.wired.nodup,
    sound.wired.listens⟩
  tallied := sound.tallied

theorem cascaded_finish (hslot : fs.slots[j]? = some slot) (pending : slot.outcome = none)
    (outcome : Outcome α) : Cascaded j outcome fs (fs.finish j slot outcome) := by
  have b := becomes_finish hslot outcome
  refine ⟨b.length, ?_, fun h => b.outcome?_ne (Nat.ne_of_lt h), ?_⟩
  · intro i o h
    have hi : i ≠ j := by
      rintro rfl
      rw [outcome?_of_slot hslot, pending] at h
      cases h
    exact (b.outcome?_ne hi).trans h
  · intro i e h h'
    by_cases hi : i = j
    · subst hi
      rw [outcome?_of_slot b.here] at h'
      exact Option.some.inj h'
    · rw [b.outcome?_ne hi, h] at h'
      cases h'

/-- **Telling works** through so many joined slots in a row: it does not stop, it works the listeners
off the agenda, and it changes no outcome below the slots that are told. -/
def TellsAll (α : Type) (joins : Joins) (depth : Nat) : Prop :=
  ∀ (floor : FutureId) {fs : Futures α} {ls agenda : List Listener} {outcome : Outcome α},
    Sound joins (ls ++ agenda) fs →
    (∀ l ∈ ls, ∃ i, Feeds joins i l ∧ fs.outcome? i = some outcome) →
    (∀ l ∈ ls, floor ≤ l.joined ∧
      (fs.outcome? l.joined = none → fs.slots.length ≤ l.joined + depth)) →
    ∃ fs', ls.foldlM (tellChecked (settleCheckedWithin depth) outcome) fs = some fs' ∧
      Sound joins agenda fs' ∧ Cascaded floor outcome fs fs'

/-- **Settling a pending slot** ends it and tells those that wait for it. If it is a joined one, it
tallies with the end it gets. -/
theorem settleCheckedWithin_sound {depth : Nat} (tells : TellsAll α joins depth)
    (outcome : Outcome α)
    (wired : Wired joins agenda fs) (others : ∀ i, i ≠ j → Tallied joins agenda fs i)
    (hslot : fs.slots[j]? = some slot) (pending : slot.outcome = none)
    (own : ∀ {inputs g}, joins j = some inputs → slot.gathering = some g →
      g.Tallies (fs.news agenda j inputs) (some outcome))
    (deep : fs.slots.length ≤ j + (depth + 1)) :
    ∃ fs', settleCheckedWithin (depth + 1) j outcome fs = some fs' ∧ Sound joins agenda fs' ∧
      Cascaded j outcome fs fs' ∧ fs'.outcome? j = some outcome := by
  have b := becomes_finish hslot outcome
  have sound : Sound joins (slot.listeners ++ agenda) (fs.finish j slot outcome) := by
    refine ⟨wired.finish hslot outcome, fun i => ?_⟩
    by_cases hi : i = j
    · subst hi
      intro inputs slot' g known hslot' hg
      rw [b.here] at hslot'
      cases hslot'
      rw [wired.news_finish b hslot pending known]
      exact own known hg
    · exact (others i hi).becomes_ne b hi (wired.news_finish b hslot pending)
  have ended := cascaded_finish hslot pending outcome
  have mine : (fs.finish j slot outcome).outcome? j = some outcome := outcome?_of_slot b.here
  have waits {l : Listener} (h : l ∈ slot.listeners) : Feeds joins j l :=
    ((wired.listens hslot).1 h).2.2
  obtain ⟨fs', checked, sound', cascaded⟩ := tells j sound
    (fun l hl => ⟨j, waits hl, mine⟩) (by
      intro l hl
      refine ⟨(waits hl).1, fun open_ => ?_⟩
      -- a slot that waits for itself has just ended, any other one is younger
      have younger : j < l.joined := by
        refine Nat.lt_of_le_of_ne (waits hl).1 fun same => ?_
        rw [← same, mine] at open_
        cases open_
      rw [ended.length]
      calc fs.slots.length ≤ j + (depth + 1) := deep
        _ = j + 1 + depth := (Nat.succ_add_eq_add_succ j depth).symm
        _ ≤ l.joined + depth := Nat.add_le_add_right younger depth)
  refine ⟨fs'.wake slot.wakers, ?_, sound'.wake _, (ended.trans cascaded).wake _,
    cascaded.stays mine⟩
  unfold settleCheckedWithin
  rw [hslot]
  dsimp only
  rw [if_neg (Option.not_isSome_iff_eq_none.2 pending)]
  exact Option.map_eq_some_iff.2 ⟨fs', checked, rfl⟩

/-- **A joined slot hears of one input.** It can count it in, and tallies with the news either as it
is or with the end that this decides. -/
theorem Sound.hear {g : Gathering α} (sound : Sound joins (l :: agenda) fs)
    (known : joins l.joined = some inputs) (hplace : inputs[l.place]? = some i)
    (le : i ≤ l.joined) (told : fs.outcome? i = some outcome)
    (hslot : fs.slots[l.joined]? = some slot) (hg : slot.gathering = some g) :
    countable g outcome ∧
      ((∃ g', g.observe l.place outcome = (g', none) ∧
          g'.Tallies (fs.news agenda l.joined inputs) slot.outcome) ∨
        ∃ g' end_, g.observe l.place outcome = (g', some end_) ∧ slot.outcome = none ∧
          (∀ e, end_ = .error e → outcome = .error e) ∧
          g'.Tallies (fs.news agenda l.joined inputs) (some end_)) := by
  have new : l ∉ agenda := (List.nodup_cons.1 sound.wired.agenda_nodup).1
  have tallies := sound.tallied l.joined inputs slot g known hslot hg
  have silent := news_silent fs agenda hplace
  have room := tallies.remaining_pos (List.mem_of_getElem? silent)
  have counted : countable g outcome := by
    cases outcome with
    | ok _ => exact decide_eq_true room
    | error _ => rfl
  refine ⟨counted, ?_⟩
  by_cases older : i < l.joined
  · rw [news_strike new hplace, if_neg (Nat.not_le_of_lt older), told]
    exact tallies.observe silent outcome
  · -- a slot that waits for itself hears of its own end, which can only be an error
    have same : i = l.joined := Nat.le_antisymm le (Nat.le_of_not_lt older)
    rw [same, outcome?_of_slot hslot] at told
    rw [news_strike_none new hplace fun h => absurd h older]
    refine Or.inl ⟨g, ?_, tallies⟩
    cases outcome with
    | ok y => exact absurd told (tallies.not_ok (List.mem_of_getElem? silent) y)
    | error e =>
      have closed : ¬g.isOpen := by
        rw [tallies.isOpen, told]
        exact Bool.false_ne_true
      exact if_neg closed

/-- **Counting the input in** changes nothing but what the joined slot has gathered. -/
theorem Sound.count {g : Gathering α} (sound : Sound joins (l :: agenda) fs)
    (feeds : Feeds joins i l) (told : fs.outcome? i = some outcome)
    (hslot : fs.slots[l.joined]? = some slot) (hg : slot.gathering.isSome)
    (b : Becomes fs fs' l.joined { slot with gathering := some g }) :
    Wired joins agenda fs' ∧ ∀ k ≠ l.joined, Tallied joins agenda fs' k := by
  have struck : Wired joins agenda fs := by
    refine sound.wired.strike fun hslot' feeds' pending => ?_
    have same : _ = i := feeds'.unique feeds
    rw [← same, outcome?_of_slot hslot', pending] at told
    cases told
  have nodup := struck.nodup hslot
  have listens (l' : Listener) : l' ∈ slot.listeners ↔
      slot.outcome = none ∧ l' ∉ agenda ∧ Feeds joins l.joined l' := struck.listens hslot
  refine ⟨struck.becomes b hslot hg.symm struck.agenda_nodup nodup (listens _)
    fun _ _ => Iff.rfl, fun k hk => ?_⟩
  exact ((sound.tallied k).strike_ne hk).becomes_ne b hk fun _ => b.news_same hslot rfl agenda k _

/-- **Telling one listener** takes it off the agenda. -/
theorem Sound.tell {depth : Nat} (nested : ∀ d, depth = d + 1 → TellsAll α joins d)
    (sound : Sound joins (l :: agenda) fs) (feeds : Feeds joins i l)
    (told : fs.outcome? i = some outcome)
    (deep : fs.outcome? l.joined = none → fs.slots.length ≤ l.joined + depth) :
    ∃ fs', tellChecked (settleCheckedWithin depth) outcome fs l = some fs' ∧
      Sound joins agenda fs' ∧ Cascaded l.joined outcome fs fs' := by
  have ⟨le, inputs, known, hplace⟩ := feeds
  obtain ⟨slot, g, hslot, hg⟩ := sound.wired.joined known
  obtain ⟨counted, heard⟩ := sound.hear known hplace le told hslot hg
  have gathering : fs.slots[l.joined]?.bind Slot.gathering = some g := by
    rw [hslot]
    exact hg
  have b (g' : Gathering α) := becomes_modify hslot fun slot => { slot with gathering := some g' }
  have rest (g' : Gathering α) := sound.count feeds told hslot (Option.isSome_of_eq_some hg) (b g')
  have same (g' : Gathering α) := (b g').cascaded_same hslot rfl l.joined outcome
  have own {g' : Gathering α} {ending : Option (Outcome α)}
      (tallies : g'.Tallies (fs.news agenda l.joined inputs) ending) {inputs' : List FutureId}
      (known' : joins l.joined = some inputs') :
      g'.Tallies ((fs.modify l.joined fun slot => { slot with gathering := some g' }).news agenda
        l.joined inputs') ending := by
    rw [known] at known'
    cases known'
    rw [(b g').news_same hslot rfl]
    exact tallies
  unfold tellChecked
  rw [gathering]
  dsimp only
  rw [if_pos counted]
  obtain ⟨g', observed, tallies⟩ | ⟨g', end_, observed, pending, tone, tallies⟩ := heard
  · rw [observed]
    refine ⟨_, rfl, ⟨(rest g').1, fun k => ?_⟩, same g'⟩
    by_cases hk : k = l.joined
    · subst hk
      intro inputs' slot' g'' known' hslot' hg'
      rw [(b g').here] at hslot'
      cases hslot'
      cases hg'
      exact own tallies known'
    · exact (rest g').2 k hk
  · rw [observed]
    have inside : l.joined < fs.slots.length := (List.getElem?_eq_some_iff.1 hslot).1
    have enough := deep ((outcome?_of_slot hslot).trans pending)
    obtain ⟨d, rfl⟩ : ∃ d, depth = d + 1 := by
      refine Nat.exists_eq_add_one.2 (Nat.pos_of_ne_zero ?_)
      rintro rfl
      exact Nat.not_lt_of_le enough inside
    obtain ⟨fs', checked, sound', cascaded, _⟩ := settleCheckedWithin_sound (nested d rfl)
      end_ (rest g').1 (rest g').2 (b g').here pending
      (fun known' hg' => by cases hg'; exact own tallies known')
      (by rw [(b g').length]; exact enough)
    exact ⟨fs', checked, sound', (same g').trans (cascaded.mono (Nat.le_refl _) tone)⟩

/-- **A row of listeners is told**, if what may end in between can be settled. -/
theorem tellsAll_of_nested {depth : Nat} (nested : ∀ d, depth = d + 1 → TellsAll α joins d) :
    TellsAll α joins depth := by
  intro floor fs ls agenda outcome sound feeds deep
  induction ls generalizing fs with
  | nil => exact ⟨fs, rfl, sound, .refl floor outcome fs⟩
  | cons l ls ih =>
    obtain ⟨i, hfeeds, told⟩ := feeds l List.mem_cons_self
    obtain ⟨high, hdeep⟩ := deep l List.mem_cons_self
    obtain ⟨next, first, sound', cascaded⟩ := sound.tell nested hfeeds told hdeep
    obtain ⟨fs', rest, sound'', cascaded'⟩ := ih sound'
      (fun l' hl' => by
        obtain ⟨i', hfeeds', told'⟩ := feeds l' (List.mem_cons_of_mem _ hl')
        exact ⟨i', hfeeds', cascaded.stays told'⟩)
      (fun l' hl' => by
        obtain ⟨high', hdeep'⟩ := deep l' (List.mem_cons_of_mem _ hl')
        refine ⟨high', fun pending => ?_⟩
        rw [cascaded.length]
        refine hdeep' (Option.eq_none_iff_forall_ne_some.2 fun o ho => ?_)
        rw [cascaded.stays ho] at pending
        cases pending)
    refine ⟨fs', ?_, sound'', (cascaded.mono high fun _ same => same).trans cascaded'⟩
    rw [List.foldlM_cons, first]
    exact rest

/-- **The whole agenda is worked off**, through any number of joined slots in a row. The induction is
on that number. -/
theorem tellsAll (joins : Joins) (depth : Nat) : TellsAll α joins depth := by
  induction depth with
  | zero => exact tellsAll_of_nested fun d hd => absurd hd.symm (Nat.succ_ne_zero d)
  | succ depth ih => exact tellsAll_of_nested fun d hd => Nat.succ.inj hd ▸ ih

/-- **Settling a pending slot that is no joined one** keeps the invariant. -/
theorem Sound.settle (sound : Sound joins [] fs) (single : fs.Single j none)
    (outcome : Outcome α) :
    ∃ fs', fs.settleChecked j outcome = some fs' ∧ Sound joins [] fs' ∧
      Cascaded j outcome fs fs' := by
  have lt := single.lt_length
  obtain ⟨slot, hslot, hg, pending⟩ := single
  obtain ⟨depth, hdepth⟩ : ∃ depth, fs.slots.length = depth + 1 :=
    Nat.exists_eq_add_one.2 (Nat.lt_of_le_of_lt (Nat.zero_le j) lt)
  obtain ⟨fs', checked, sound', cascaded, _⟩ := settleCheckedWithin_sound (tellsAll joins depth)
    outcome sound.wired (fun i _ => sound.tallied i) hslot pending
    (fun _ hg' => by rw [hg] at hg'; cases hg')
    (hdepth ▸ Nat.le_add_left _ _)
  refine ⟨fs', ?_, sound', cascaded⟩
  unfold settleChecked
  rw [hdepth]
  exact checked

/-! ## New slots -/

/-- A number that no slot has is no joined slot. -/
theorem Wired.unused (wired : Wired joins agenda fs) (hj : fs.slots.length ≤ j) :
    joins j = none := by
  refine Option.eq_none_iff_forall_ne_some.2 fun inputs known => ?_
  obtain ⟨slot, _, hslot, _⟩ := wired.joined known
  exact Nat.not_lt_of_le hj (List.getElem?_eq_some_iff.1 hslot).1

theorem length_add (fs : Futures α) (slot : Slot α) :
    (fs.add slot).2.slots.length = fs.slots.length + 1 :=
  List.length_append

theorem outcome?_add_ne (slot : Slot α) (hi : i ≠ fs.slots.length) :
    (fs.add slot).2.outcome? i = fs.outcome? i := by
  unfold outcome?
  rw [getElem?_add_of_ne fs slot hi]

/-- A slot is the new one, or it was there. -/
theorem slot_cases_add {slot slotᵢ : Slot α} (hslotᵢ : (fs.add slot).2.slots[i]? = some slotᵢ) :
    (i = fs.slots.length ∧ slotᵢ = slot) ∨ (i < fs.slots.length ∧ fs.slots[i]? = some slotᵢ) := by
  by_cases hi : i = fs.slots.length
  · subst hi
    cases hslotᵢ.symm.trans (getElem?_add fs slot)
    exact Or.inl ⟨rfl, rfl⟩
  · rw [getElem?_add_of_ne fs slot hi] at hslotᵢ
    exact Or.inr ⟨(List.getElem?_eq_some_iff.1 hslotᵢ).1, hslotᵢ⟩

section Add

variable {o : Option (List FutureId)}
  (mine : ∀ l ∈ agenda, l.joined = fs.slots.length)
  (places : ∀ {inputs place i}, o = some inputs → inputs[place]? = some i →
    ⟨fs.slots.length, place⟩ ∈ agenda)

include mine places

/-- The places of the new slot are all on the agenda, and no others are. -/
theorem Wired.feeds_add (wired : Wired joins [] fs) :
    (l ∉ agenda ∧ Feeds (Function.update joins fs.slots.length o) i l) ↔ Feeds joins i l := by
  unfold Feeds
  by_cases hl : l.joined = fs.slots.length
  · -- before, nothing waited for a slot that was not there
    constructor
    · rintro ⟨away, _, inputs, known, hplace⟩
      rw [hl, Function.update_self] at known
      have listed := places known hplace
      rw [← hl] at listed
      exact absurd listed away
    · rintro ⟨_, inputs, known, _⟩
      rw [wired.unused (Nat.le_of_eq hl.symm)] at known
      cases known
  · rw [Function.update_of_ne hl]
    exact and_iff_right fun h => hl (mine l h)

theorem Wired.add (wired : Wired joins [] fs) {slot : Slot α} (fresh : slot.listeners = [])
    (gathers : slot.gathering.isSome = o.isSome) (agenda_nodup : agenda.Nodup) :
    Wired (Function.update joins fs.slots.length o) agenda (fs.add slot).2 where
  joined := by
    intro j inputs known
    by_cases hj : j = fs.slots.length
    · subst hj
      rw [Function.update_self] at known
      rw [known] at gathers
      obtain ⟨g, hg⟩ := Option.isSome_iff_exists.1 gathers
      exact ⟨slot, g, getElem?_add fs slot, hg⟩
    · rw [Function.update_of_ne hj] at known
      obtain ⟨slotⱼ, g, hslotⱼ, hg⟩ := wired.joined known
      exact ⟨slotⱼ, g, (getElem?_add_of_ne fs slot hj).trans hslotⱼ, hg⟩
  single := by
    intro j slotⱼ hslotⱼ none_
    obtain ⟨rfl, rfl⟩ | ⟨older, hslotⱼ⟩ := slot_cases_add hslotⱼ
    · rw [Function.update_self] at none_
      rw [none_] at gathers
      exact Option.not_isSome_iff_eq_none.1 (Bool.eq_false_iff.1 gathers)
    · rw [Function.update_of_ne (Nat.ne_of_lt older)] at none_
      exact wired.single hslotⱼ none_
  agenda_nodup := agenda_nodup
  nodup := by
    intro i slotᵢ hslotᵢ
    obtain ⟨rfl, rfl⟩ | ⟨_, hslotᵢ⟩ := slot_cases_add hslotᵢ
    · exact fresh ▸ List.nodup_nil
    · exact wired.nodup hslotᵢ
  listens := by
    intro i slotᵢ hslotᵢ l
    rw [wired.feeds_add mine places]
    obtain ⟨rfl, rfl⟩ | ⟨_, hslotᵢ⟩ := slot_cases_add hslotᵢ
    · rw [fresh]
      refine ⟨fun h => absurd h List.not_mem_nil, ?_⟩
      rintro ⟨_, le, inputs, known, _⟩
      rw [wired.unused le] at known
      cases known
    · rw [wired.listens hslotᵢ]
      exact and_congr_right fun _ => and_iff_right List.not_mem_nil

/-- **A new slot** nobody waits at. If it is a joined one, all its places are put on the agenda. -/
theorem Sound.add (sound : Sound joins [] fs) {slot : Slot α} (fresh : slot.listeners = [])
    (gathers : slot.gathering.isSome = o.isSome) (agenda_nodup : agenda.Nodup)
    (own : ∀ {inputs g}, o = some inputs → slot.gathering = some g →
      g.Tallies (List.replicate inputs.length none) slot.outcome) :
    Sound (Function.update joins fs.slots.length o) agenda (fs.add slot).2 := by
  refine ⟨sound.wired.add mine places fresh gathers agenda_nodup, ?_⟩
  intro j inputs slotⱼ g known hslotⱼ hg
  obtain ⟨rfl, rfl⟩ | ⟨older, hslotⱼ⟩ := slot_cases_add hslotⱼ
  · rw [Function.update_self] at known
    have silent : (fs.add slotⱼ).2.news agenda fs.slots.length inputs =
        List.replicate inputs.length none := by
      refine List.ext_getElem? fun place => ?_
      rw [getElem?_news, List.getElem?_replicate]
      cases hplace : inputs[place]? with
      | none => rw [if_neg (Nat.not_lt_of_le (List.getElem?_eq_none_iff.1 hplace))]; rfl
      | some i =>
        rw [if_pos (List.getElem?_eq_some_iff.1 hplace).1, Option.map_some,
          if_pos (Or.inl (places known hplace))]
    rw [silent]
    exact own known hg
  · rw [Function.update_of_ne (Nat.ne_of_lt older)] at known
    have same : (fs.add slot).2.news agenda j inputs = fs.news [] j inputs := by
      refine news_congr fun place i _ younger => ?_
      have away : (⟨j, place⟩ : Listener) ∉ agenda := fun h => Nat.ne_of_lt older (mine _ h)
      rw [if_neg away, if_neg List.not_mem_nil,
        outcome?_add_ne slot (Nat.ne_of_lt (Nat.lt_trans younger older))]
    rw [same]
    exact sound.tallied j inputs slotⱼ g known hslotⱼ hg

end Add

/-- A new slot that is no joined one. -/
theorem Sound.add_single (sound : Sound joins [] fs) {slot : Slot α}
    (fresh : slot.listeners = []) (single : slot.gathering = none) :
    Sound joins [] (fs.add slot).2 := by
  have grown := sound.add (o := none) (fun l h => absurd h List.not_mem_nil)
    (fun known _ => nomatch known) fresh (congrArg Option.isSome single) List.nodup_nil
    (fun known _ => nomatch known)
  rwa [← sound.wired.unused (Nat.le_refl _), Function.update_eq_self] at grown

/-! ## Joining -/

theorem tellChecked_settleChecked (outcome : Outcome α) (l : Listener) :
    tellChecked (fun id outcome fs => fs.settleChecked id outcome) outcome fs l =
      tellChecked (settleCheckedWithin fs.slots.length) outcome fs l := by
  have same (f : Slot α → Slot α) : (fs.modify l.joined f).slots.length = fs.slots.length :=
    List.length_modify ..
  unfold tellChecked settleChecked
  simp only [same]

/-- A place whose input has not ended hears nothing when it is taken off the agenda. -/
theorem Sound.tallied_of_silent (sound : Sound joins (l :: agenda) fs)
    (known : joins l.joined = some inputs) (hplace : inputs[l.place]? = some i)
    (silent : fs.outcome? i = none) (k : FutureId) : Tallied joins agenda fs k := by
  by_cases hk : k = l.joined
  · subst hk
    intro inputs' slot g known' hslot hg
    have tallies := sound.tallied l.joined inputs' slot g known' hslot hg
    have new : l ∉ agenda := (List.nodup_cons.1 sound.wired.agenda_nodup).1
    rw [known] at known'
    cases known'
    rw [news_strike_none new hplace fun _ => silent]
    exact tallies
  · exact (sound.tallied k).strike_ne hk

/-- **Listening to a pending input** takes the place off the agenda. -/
theorem Sound.listen (sound : Sound joins (l :: agenda) fs) (feeds : Feeds joins i l)
    (hslot : fs.slots[i]? = some slot) (pending : slot.outcome = none)
    (b : Becomes fs fs' i { slot with listeners := slot.listeners ++ [l] }) :
    Sound joins agenda fs' := by
  have ⟨_, inputs, known, hplace⟩ := feeds
  obtain ⟨new, nodup⟩ := List.nodup_cons.1 sound.wired.agenda_nodup
  have silent : fs.outcome? i = none := (outcome?_of_slot hslot).trans pending
  have elsewhere : l ∉ slot.listeners := fun h =>
    ((sound.wired.listens hslot).1 h).2.1 List.mem_cons_self
  refine ⟨sound.wired.becomes b hslot rfl nodup ?_ ?_ ?_, fun k => ?_⟩
  · refine List.nodup_append.2 ⟨sound.wired.nodup hslot, List.nodup_singleton l, ?_⟩
    rintro l' hl' _ hl rfl
    exact elsewhere (List.mem_singleton.1 hl ▸ hl')
  · intro l'
    rw [List.mem_append, List.mem_singleton, sound.wired.listens hslot, List.mem_cons, not_or]
    constructor
    · rintro (⟨_, ⟨_, away⟩, feeds'⟩ | rfl)
      · exact ⟨pending, away, feeds'⟩
      · exact ⟨pending, new, feeds⟩
    · rintro ⟨_, away, feeds'⟩
      by_cases hl : l' = l
      · exact Or.inr hl
      · exact Or.inl ⟨pending, ⟨hl, away⟩, feeds'⟩
  · intro k l' hk feeds'
    rw [List.mem_cons, or_iff_right]
    rintro rfl
    exact hk (feeds'.unique feeds)
  · intro inputs' slot' g known' hslot' hg
    have tallied := sound.tallied_of_silent known hplace silent k
    rw [b.news_same hslot rfl]
    obtain ⟨rfl, rfl⟩ | ⟨_, hslot'⟩ := b.slot_cases hslot'
    · exact tallied inputs' slot g known' hslot hg
    · exact tallied inputs' slot' g known' hslot' hg

/-- **Attending to one input** takes its place off the agenda: the joined slot is told at once, or
listens. -/
theorem Sound.attend (sound : Sound joins (l :: agenda) fs)
    (known : joins l.joined = some inputs) (hplace : inputs[l.place]? = some i)
    (last : fs.slots.length = l.joined + 1) :
    ∃ fs' outcome, fs.attendChecked i l = some fs' ∧ Sound joins agenda fs' ∧
      Cascaded l.joined outcome fs fs' := by
  have feeds {slot : Slot α} (hslot : fs.slots[i]? = some slot) : Feeds joins i l :=
    ⟨Nat.le_of_lt_succ (Nat.lt_of_lt_of_eq (List.getElem?_eq_some_iff.1 hslot).1 last),
      inputs, known, hplace⟩
  unfold attendChecked
  cases told : fs.outcome? i with
  | some o =>
    obtain ⟨slot, hslot, _⟩ := Option.bind_eq_some_iff.1 told
    obtain ⟨fs', checked, sound', cascaded⟩ := sound.tell (fun d _ => tellsAll joins d)
      (feeds hslot) told fun _ => Nat.le_add_left fs.slots.length _
    exact ⟨fs', o, (tellChecked_settleChecked o l).trans checked, sound', cascaded⟩
  | none =>
    -- no outcome spreads, so any will do
    refine ⟨_, .error .abandoned, rfl, ?_⟩
    cases hslot : fs.slots[i]? with
    | none =>
      -- a slot that is not there is not older, and nothing is ever heard of it
      rw [modify_of_none hslot]
      refine ⟨⟨sound.wired.strike fun {k slot} hslot' feeds' => ?_,
        sound.tallied_of_silent known hplace told⟩, .refl _ _ fs⟩
      rw [feeds'.eq_of_place known hplace, hslot] at hslot'
      cases hslot'
    | some slot =>
      have pending : slot.outcome = none := (outcome?_of_slot hslot).symm.trans told
      have b := becomes_modify hslot fun slot => { slot with listeners := slot.listeners ++ [l] }
      exact ⟨sound.listen (feeds hslot) hslot pending b, b.cascaded_same hslot rfl _ _⟩

/-- The listeners of the inputs from one place on. -/
def placesFrom (j : FutureId) (inputs : List FutureId) (first : Nat) : List Listener :=
  (inputs.zipIdx first).map fun p => ⟨j, p.2⟩

theorem mem_placesFrom {first : Nat} :
    l ∈ placesFrom j inputs first ↔
      l.joined = j ∧ first ≤ l.place ∧ l.place < first + inputs.length := by
  unfold placesFrom
  rw [List.mem_map]
  constructor
  · rintro ⟨⟨i, p⟩, h, rfl⟩
    obtain ⟨le, lt, _⟩ := List.mem_zipIdx h
    exact ⟨rfl, le, lt⟩
  · rintro ⟨rfl, le, lt⟩
    have within : l.place - first < inputs.length := by omega
    refine ⟨(inputs[l.place - first], l.place), ?_, rfl⟩
    rw [List.mk_mem_zipIdx_iff_le_and_getElem?_sub]
    exact ⟨le, List.getElem?_eq_getElem within⟩

theorem nodup_placesFrom (j : FutureId) (inputs : List FutureId) (first : Nat) :
    (placesFrom j inputs first).Nodup := by
  have numbered : placesFrom j inputs first =
      (List.range' first inputs.length).map fun p => ⟨j, p⟩ := by
    unfold placesFrom
    rw [← List.zipIdx_map_snd first inputs, List.map_map]
    rfl
  rw [numbered]
  exact (List.nodup_range' ..).map fun _ _ h => congrArg Listener.place h

/-- **The end that is due stays due** when the places are heard in order. -/
theorem Sound.due_of_heard (sound : Sound joins (l :: agenda) fs) (sound' : Sound joins agenda fs')
    (cascaded : Cascaded l.joined outcome fs fs') (known : joins l.joined = some inputs)
    (hplace : inputs[l.place]? = some i)
    (later : ∀ q, l.place ≤ q → q < inputs.length → ⟨l.joined, q⟩ ∈ l :: agenda)
    (due : fs.outcome? l.joined = combined (fs.news (l :: agenda) l.joined inputs)) :
    fs'.outcome? l.joined = combined (fs'.news agenda l.joined inputs) := by
  have new : l ∉ agenda := (List.nodup_cons.1 sound.wired.agenda_nodup).1
  have silent := news_silent fs agenda hplace
  have same : fs'.news agenda l.joined inputs = fs.news agenda l.joined inputs :=
    news_congr fun _ k _ older => by rw [cascaded.below older]
  rw [same, news_strike new hplace]
  cases before : fs.outcome? l.joined with
  | some o =>
    -- it has ended with an error, and every place from this one on was still silent
    rw [before] at due
    cases o with
    | ok y => exact absurd due.symm (combined_ne_ok (List.mem_of_getElem? silent) rfl y)
    | error e =>
      rw [cascaded.stays before]
      refine (combined_set_of_error due.symm fun q n le hn => ?_).symm
      rw [getElem?_news] at hn
      obtain ⟨k, hk, rfl⟩ := Option.map_eq_some_iff.1 hn
      exact if_pos (Or.inl (later q le (List.getElem?_eq_some_iff.1 hk).1))
  | none =>
    -- none has failed so far, so that at most the one just heard has
    rw [before] at due
    obtain ⟨sound_, _⟩ := combined_eq_none_iff.1 due.symm
    obtain ⟨slot, g, hslot, hg⟩ := sound'.wired.joined known
    have tallies := sound'.tallied l.joined inputs slot g known hslot hg
    rw [same, news_strike new hplace] at tallies
    rw [outcome?_of_slot hslot]
    refine tallies.eq_combined fun e e' he he' => ?_
    have heard := (List.mem_or_eq_of_mem_set he).resolve_left (sound_ e)
    have heard' := (List.mem_or_eq_of_mem_set he').resolve_left (sound_ e')
    rw [← heard'] at heard
    cases heard
    rfl

/-- **Attending to the rest of the inputs**, in order, leaves the joined slot with the end that is
due: an error that was there before is that of an earlier place. -/
theorem Sound.attendAll {done rest : List FutureId}
    (sound : Sound joins (placesFrom j rest done.length) fs)
    (known : joins j = some (done ++ rest)) (last : fs.slots.length = j + 1)
    (due : fs.outcome? j = combined (fs.news (placesFrom j rest done.length) j (done ++ rest))) :
    ∃ fs', (rest.zipIdx done.length).foldlM
        (fun (fs : Futures α) p => fs.attendChecked p.1 ⟨j, p.2⟩) fs = some fs' ∧
      Sound joins [] fs' ∧ fs'.slots.length = fs.slots.length ∧
      (∀ i < j, fs'.outcome? i = fs.outcome? i) ∧
      fs'.outcome? j = combined (fs'.news [] j (done ++ rest)) := by
  induction rest generalizing done fs with
  | nil => exact ⟨fs, rfl, sound, rfl, fun _ _ => rfl, due⟩
  | cons i rest ih =>
    have split : done ++ i :: rest = (done ++ [i]) ++ rest := (List.append_cons ..)
    have next : (done ++ [i]).length = done.length + 1 := List.length_append
    have hplace : (done ++ i :: rest)[done.length]? = some i := by
      rw [List.getElem?_append_right (Nat.le_refl _), Nat.sub_self]
      rfl
    have sound₀ : Sound joins (⟨j, done.length⟩ :: placesFrom j rest (done.length + 1)) fs := sound
    obtain ⟨fs₁, o, attended, sound₁, cascaded⟩ := sound₀.attend known hplace last
    have due₁ : fs₁.outcome? j =
        combined (fs₁.news (placesFrom j rest (done.length + 1)) j (done ++ i :: rest)) := by
      refine sound₀.due_of_heard sound₁ cascaded known hplace (fun q le lt => ?_) due
      rw [List.length_append] at lt
      have listed : ⟨j, q⟩ ∈ placesFrom j (i :: rest) done.length :=
        mem_placesFrom.2 ⟨rfl, le, lt⟩
      exact listed
    rw [split] at known due₁
    rw [← next] at sound₁ due₁
    obtain ⟨fs', rest', sound', length, below, due'⟩ :=
      ih sound₁ known (cascaded.length.trans last) due₁
    refine ⟨fs', ?_, sound', length.trans cascaded.length,
      fun k hk => (below k hk).trans (cascaded.below hk), ?_⟩
    · rw [List.zipIdx_cons, List.foldlM_cons, attended]
      rw [next] at rest'
      exact rest'
    · rw [split]
      exact due'

/-- **Joining** makes one more slot, which ends at once if its inputs have decided that, and changes
no outcome. -/
theorem Sound.join (sound : Sound joins [] fs) (some_ : inputs ≠ []) :
    ∃ fs', fs.joinChecked inputs = some (fs.slots.length, fs') ∧
      Sound (Function.update joins fs.slots.length (some inputs)) [] fs' ∧
      fs'.slots.length = fs.slots.length + 1 ∧
      (∀ i < fs.slots.length, fs'.outcome? i = fs.outcome? i) ∧
      fs'.outcome? fs.slots.length = combined (fs'.news [] fs.slots.length inputs) := by
  let slot : Slot α := { Slot.pending with gathering := some (.start inputs.length) }
  have places {place : Nat} {i : FutureId} (hplace : inputs[place]? = some i) :
      ⟨fs.slots.length, place⟩ ∈ placesFrom fs.slots.length inputs 0 := by
    refine mem_placesFrom.2 ⟨rfl, Nat.zero_le _, ?_⟩
    rw [Nat.zero_add]
    exact (List.getElem?_eq_some_iff.1 hplace).1
  have fresh : slot.listeners = [] := rfl
  have added : Sound (Function.update joins fs.slots.length (some inputs)) _ (fs.add slot).2 :=
    sound.add (fun l hl => (mem_placesFrom.1 hl).1)
      (fun known hplace => by cases known; exact places hplace) fresh rfl
      (nodup_placesFrom fs.slots.length inputs 0)
      (fun known hg => by
        cases known
        cases hg
        exact Gathering.tallies_start (List.length_pos_iff.2 some_))
  have known : Function.update joins fs.slots.length (some inputs) fs.slots.length =
      some ([] ++ inputs) := Function.update_self ..
  have grown := length_add fs slot
  have pending : (fs.add slot).2.outcome? fs.slots.length = none :=
    outcome?_of_slot (getElem?_add fs slot)
  have due : (fs.add slot).2.outcome? fs.slots.length = combined
      ((fs.add slot).2.news (placesFrom fs.slots.length inputs 0) fs.slots.length inputs) := by
    obtain ⟨_, g, hslot, hg⟩ := added.wired.joined known
    have tallies := added.tallied _ _ _ g known hslot hg
    rw [← outcome?_of_slot hslot, pending] at tallies
    exact pending.trans (tallies.eq_none_iff.1 rfl).symm
  obtain ⟨fs', checked, sound', length, below, due'⟩ := added.attendAll known grown due
  refine ⟨fs', ?_, sound', length.trans grown, fun i hi => ?_, due'⟩
  · unfold joinChecked
    cases inputs with
    | nil => exact absurd rfl some_
    | cons first others => exact congrArg (Option.map (Prod.mk fs.slots.length)) checked
  · exact (below i hi).trans (outcome?_add_ne slot (Nat.ne_of_lt hi))

/-- Of older inputs everything is known once the agenda is empty. -/
theorem news_nil (older : ∀ i ∈ inputs, i < j) : fs.news [] j inputs = inputs.map fs.outcome? := by
  refine List.ext_getElem? fun place => ?_
  rw [getElem?_news, List.getElem?_map]
  cases hplace : inputs[place]? with
  | none => rfl
  | some i =>
    have lt := older i (List.mem_of_getElem? hplace)
    refine congrArg some (if_neg ?_)
    rw [or_iff_right List.not_mem_nil]
    exact Nat.not_le_of_lt lt

end Futures

end RemoteDispatch
