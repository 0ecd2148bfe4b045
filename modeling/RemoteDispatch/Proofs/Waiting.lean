import RemoteDispatch.Proofs.Slots

/-!
# Slots that settle once

A slot has one promise and any number of views. Whoever holds the promise
completes it or gives it up, and has no promise after that. Whoever holds a
view asks the slot whether it has settled, gets its outcome, polls it with
whatever waker is at hand, or makes another view. All this is done in any
order, and the store of slots knows nothing of who may do what.

`Waiting` keeps the promises and the views beside the store. A *history* is
what has been done, with the answers and with who was woken by each act. It
tells by itself what to expect of a slot: the `verdicts` on it are the outcomes
that its promise was completed or given up with, and its `waits` are the wakers
of those who polled it and were told that it was pending. `Stands` says how the
store agrees with that. A slot is pending with its promise held, no verdict and
all who wait for it on its list, or it has settled with its only verdict and
all who waited for it have been woken by it. Every step keeps this, and every
answer is read off it.
-/

namespace RemoteDispatch

/-- **A store of slots, and who may do what to them.** -/
structure Waiting (α : Type) where
  /-- The slots. -/
  store : Futures α
  /-- The slots whose promises are held. -/
  promises : List FutureId
  /-- The slots that are viewed, each as often as there are views of it. -/
  views : List FutureId

namespace Waiting

variable {α : Type}

/-! ## Acts and histories -/

/-- **What is done to a slot**, and what the answer is. -/
inductive Act (α : Type) where
  /-- A slot is made, with its promise and a first view of it. -/
  | pair (f : FutureId)
  /-- Another view is made, to keep or to poll through. -/
  | clone (f : FutureId)
  /-- A view is dropped. -/
  | drop (f : FutureId)
  /-- The slot is asked whether it has settled. -/
  | ask (f : FutureId) (answer : Bool)
  /-- Its outcome is got. Whoever does so blocks until there is one. -/
  | get (f : FutureId) (outcome : Outcome α)
  /-- It is polled with a waker. -/
  | poll (f : FutureId) (waker : Waker) (answer : Option (Outcome α))
  /-- Its promise is completed. -/
  | complete (f : FutureId) (outcome : Outcome α)
  /-- Its promise is given up. -/
  | giveUp (f : FutureId)

/-- The outcome that an act settles a slot with. -/
def Act.settles (f : FutureId) : Act α → Option (Outcome α)
  | complete g outcome => if g = f then some outcome else none
  | giveUp g => if g = f then some (.error .abandoned) else none
  | _ => none

/-- The waker of an act that finds a slot pending. -/
def Act.awaits (f : FutureId) : Act α → Option Waker
  | poll g waker none => if g = f then some waker else none
  | _ => none

/-- An act, and who was woken by it. -/
structure Event (α : Type) where
  /-- The act. -/
  act : Act α
  /-- Who was woken, in order. -/
  woken : List Waker

/-- What has been done, in order. -/
abbrev History (α : Type) := List (Event α)

/-- The outcomes that a slot has been settled with, in order. -/
def verdicts (f : FutureId) (h : History α) : List (Outcome α) :=
  h.filterMap fun e => e.act.settles f

/-- The wakers that a slot has been polled with while pending, each as often as it was. -/
def waits (f : FutureId) (h : History α) : List Waker := h.filterMap fun e => e.act.awaits f

/-- Those who have been woken by a slot: by the acts that settled it. -/
def wokenBy (f : FutureId) (h : History α) : List Waker :=
  h.flatMap fun e => if (e.act.settles f).isSome then e.woken else []

/-- **What an act must find**, by what has been done before it. -/
def Act.Agrees (before : History α) : Act α → Prop
  | ask f answer => answer = !(verdicts f before).isEmpty
  | get f outcome => verdicts f before = [outcome]
  | poll f _ answer => answer = (verdicts f before).head?
  | complete f _ | giveUp f => verdicts f before = []
  | pair _ | clone _ | drop _ => True

/-- **What an event must be**, by what has been done before it. An act that settles a slot wakes
each of those who wait for it once, and any other act wakes nobody. -/
structure Event.Fits (before : History α) (e : Event α) : Prop where
  answer : e.act.Agrees before
  once : e.woken.Nodup
  woken : ∀ waker, waker ∈ e.woken ↔ ∃ f, (e.act.settles f).isSome ∧ waker ∈ waits f before

/-! ## Runs -/

/-- No slots yet. -/
def start : Waiting α := ⟨.empty, [], []⟩

/-- **One step**, taken by someone who holds what it takes. -/
inductive Step (c : Waiting α) : Act α → Waiting α → Prop where
  | pair : Step c (.pair c.store.promise.1)
      ⟨c.store.promise.2, c.store.promise.1 :: c.promises, c.store.promise.1 :: c.views⟩
  | clone {f} (held : f ∈ c.views) : Step c (.clone f) { c with views := f :: c.views }
  | drop {f} (held : f ∈ c.views) : Step c (.drop f) { c with views := c.views.erase f }
  | ask {f} (held : f ∈ c.views) : Step c (.ask f (c.store.isReady f)) c
  | get {f outcome} (held : f ∈ c.views) (settled : c.store.outcome? f = some outcome) :
      Step c (.get f outcome) c
  | poll {f} (waker) (held : f ∈ c.views) :
      Step c (.poll f waker (c.store.poll f waker).1)
        { c with store := (c.store.poll f waker).2 }
  | complete {f} (outcome) (held : f ∈ c.promises) :
      Step c (.complete f outcome) ⟨c.store.settle f outcome, c.promises.erase f, c.views⟩
  | giveUp {f} (held : f ∈ c.promises) :
      Step c (.giveUp f) ⟨c.store.abandon f, c.promises.erase f, c.views⟩

/-- Those who have been woken between two states. -/
def wokenUntil (c c' : Waiting α) : List Waker := c'.store.woken.drop c.store.woken.length

/-- **Any number of steps**, with their history. -/
inductive Run : History α → Waiting α → Prop where
  | start : Run [] start
  | step {h c act c'} (run : Run h c) (step : Step c act c') :
      Run (h ++ [⟨act, c.wokenUntil c'⟩]) c'

variable {c c' : Waiting α} {h : History α} {act : Act α} {f g : FutureId} {woken : List Waker}

theorem wokenUntil_eq (hwoken : c'.store.woken = c.store.woken ++ woken) :
    c.wokenUntil c' = woken := by
  unfold wokenUntil
  rw [hwoken, List.drop_left]

/-! ### A history that grows -/

theorem verdicts_append (f : FutureId) (before after : History α) :
    verdicts f (before ++ after) = verdicts f before ++ verdicts f after := List.filterMap_append

@[simp] theorem verdicts_snoc :
    verdicts f (h ++ [⟨act, woken⟩]) = verdicts f h ++ (act.settles f).toList := by
  rw [verdicts_append]
  unfold verdicts
  cases hs : act.settles f <;> simp [hs]

@[simp] theorem waits_snoc :
    waits f (h ++ [⟨act, woken⟩]) = waits f h ++ (act.awaits f).toList := by
  unfold waits
  rw [List.filterMap_append]
  cases hs : act.awaits f <;> simp [hs]

@[simp] theorem wokenBy_snoc :
    wokenBy f (h ++ [⟨act, woken⟩]) =
      wokenBy f h ++ if (act.settles f).isSome then woken else [] := by
  unfold wokenBy
  rw [List.flatMap_append, List.flatMap_singleton]

/-! ## How a slot stands -/

/-- **How a slot stands after a history.** -/
inductive Stands (f : FutureId) (h : History α) (c : Waiting α) : Prop where
  /-- It has not been made. -/
  | unmade (slot : c.store.slots[f]? = none) (held : c.promises.count f = 0)
      (verdict : verdicts f h = []) (waiting : waits f h = []) (woken : wokenBy f h = [])
  /-- It is pending, and those who have polled it wait. -/
  | pending {wakers : List Waker} (slot : c.store.slots[f]? = some ⟨none, wakers, [], none⟩)
      (held : c.promises.count f = 1) (verdict : verdicts f h = []) (woken : wokenBy f h = [])
      (distinct : wakers.Nodup) (waiting : ∀ waker, waker ∈ wakers ↔ waker ∈ waits f h)
  /-- It has settled, and those who have polled it before that have been woken. -/
  | settled {outcome : Outcome α} (slot : c.store.slots[f]? = some ⟨some outcome, [], [], none⟩)
      (held : c.promises.count f = 0) (verdict : verdicts f h = [outcome])
      (distinct : (wokenBy f h).Nodup) (woken : ∀ waker, waker ∈ wokenBy f h ↔ waker ∈ waits f h)

/-- **The store and the promises agree with the history.** -/
structure Sound (h : History α) (c : Waiting α) : Prop where
  stands : ∀ f, Stands f h c
  viewed : ∀ f ∈ c.views, f < c.store.slots.length
  told : c.store.woken = h.flatMap Event.woken

theorem sound_start : Sound [] (start : Waiting α) where
  stands _ := .unmade rfl rfl rfl rfl rfl
  viewed _ held := nomatch held
  told := rfl

namespace Stands

/-- An act that neither settles a slot nor waits for it leaves it as it stands. -/
theorem frame (stands : Stands f h c) (settles : act.settles f = none)
    (awaits : act.awaits f = none) (slot : c'.store.slots[f]? = c.store.slots[f]?)
    (held : c'.promises.count f = c.promises.count f) :
    Stands f (h ++ [⟨act, woken⟩]) c' := by
  have verdict' : verdicts f (h ++ [⟨act, woken⟩]) = verdicts f h := by simp [settles]
  have waiting' : waits f (h ++ [⟨act, woken⟩]) = waits f h := by simp [awaits]
  have woken' : wokenBy f (h ++ [⟨act, woken⟩]) = wokenBy f h := by simp [settles]
  cases stands with
  | unmade unmade unheld verdict waiting woken =>
    exact .unmade (slot.trans unmade) (held.trans unheld) (verdict'.trans verdict)
      (waiting'.trans waiting) (woken'.trans woken)
  | pending pending one verdict woken distinct waiting =>
    exact .pending (slot.trans pending) (held.trans one) (verdict'.trans verdict)
      (woken'.trans woken) distinct fun waker => waiting' ▸ waiting waker
  | settled settled unheld verdict distinct woken =>
    exact .settled (slot.trans settled) (held.trans unheld) (verdict'.trans verdict)
      (woken' ▸ distinct) fun waker => waiting' ▸ woken' ▸ woken waker

/-- A slot that is polled with a waker while pending has it on its list. -/
theorem poll (stands : Stands f h c) (made : f < c.store.slots.length)
    (pending : c.store.outcome? f = none) (waker : Waker) (woken : List Waker) :
    Stands f (h ++ [⟨.poll f waker none, woken⟩])
      { c with store := (c.store.poll f waker).2 } := by
  have polled : (c.store.poll f waker).2.slots[f]? = c.store.slots[f]?.map fun slot =>
      { slot with wakers := Futures.withWaker waker slot.wakers } := by
    rw [Futures.poll_of_none pending]
    exact List.getElem?_modify_eq ..
  have waits' : waits f (h ++ [⟨.poll f waker none, woken⟩]) = waits f h ++ [waker] := by
    simp [Act.awaits]
  cases stands with
  | unmade slot =>
    exact absurd (List.getElem?_eq_none_iff.1 slot) (Nat.not_le_of_lt made)
  | settled slot =>
    unfold Futures.outcome? at pending
    rw [slot] at pending
    cases pending
  | @pending wakers slot held verdict unwoken distinct waiting =>
    rw [slot] at polled
    have verdict' : verdicts f (h ++ [⟨.poll f waker none, woken⟩]) = [] := by
      simp [Act.settles, verdict]
    have unwoken' : wokenBy f (h ++ [⟨.poll f waker none, woken⟩]) = [] := by
      simp [Act.settles, unwoken]
    refine .pending polled held verdict' unwoken' (Futures.nodup_withWaker distinct) fun other => ?_
    rw [Futures.mem_withWaker, waits', List.mem_append, List.mem_singleton, waiting]

/-- The promise of a slot is held until there is a verdict. -/
theorem promised_iff (stands : Stands f h c) (made : f < c.store.slots.length) :
    f ∈ c.promises ↔ verdicts f h = [] := by
  rw [← List.count_pos_iff]
  cases stands with
  | unmade slot => exact absurd (List.getElem?_eq_none_iff.1 slot) (Nat.not_le_of_lt made)
  | pending _ held verdict =>
    rw [held, verdict]
    exact ⟨fun _ => rfl, fun _ => Nat.one_pos⟩
  | settled _ unheld verdict =>
    rw [unheld, verdict]
    exact ⟨fun pos => absurd pos (Nat.lt_irrefl 0), nofun⟩

/-- **A slot has woken those who waited for it**, each once, as soon as there is a verdict. -/
theorem count_wokenBy (stands : Stands f h c) (waker : Waker) :
    (wokenBy f h).count waker = if verdicts f h ≠ [] ∧ waker ∈ waits f h then 1 else 0 := by
  cases stands with
  | unmade _ _ verdict _ unwoken =>
    rw [unwoken, if_neg fun h => h.1 verdict]
    rfl
  | pending _ _ verdict unwoken =>
    rw [unwoken, if_neg fun h => h.1 verdict]
    rfl
  | settled _ _ verdict distinct woken =>
    have settled : verdicts f h ≠ [] := by
      rw [verdict]
      exact List.cons_ne_nil _ _
    simp only [distinct.count, woken, settled, ne_eq, not_false_eq_true, true_and]

end Stands

/-! ## What every step keeps -/

namespace Sound

/-- **A slot whose promise is held is pending**, so settling it wakes those who wait for it and does
nothing else. -/
theorem settle_eq (sound : Sound h c) (held : f ∈ c.promises) (outcome : Outcome α) :
    ∃ wakers, c.store.slots[f]? = some ⟨none, wakers, [], none⟩ ∧ c.promises.count f = 1 ∧
      verdicts f h = [] ∧ wokenBy f h = [] ∧ wakers.Nodup ∧
      (∀ waker, waker ∈ wakers ↔ waker ∈ waits f h) ∧
      c.store.settle f outcome =
        ⟨c.store.slots.set f ⟨some outcome, [], [], none⟩, c.store.woken ++ wakers⟩ := by
  have unsettled : c.promises.count f ≠ 0 := Nat.ne_of_gt (List.count_pos_iff.2 held)
  cases sound.stands f with
  | unmade _ unheld => exact absurd unheld unsettled
  | settled _ unheld => exact absurd unheld unsettled
  | @pending wakers slot one verdict unwoken distinct waiting =>
    obtain ⟨depth, settled⟩ := Futures.settle_of_pending slot rfl outcome
    exact ⟨wakers, slot, one, verdict, unwoken, distinct, waiting, settled⟩

/-- What is left to show when slots stand as they should after an act. -/
theorem after (sound : Sound h c) (told : c'.store.woken = c.store.woken ++ woken)
    (viewed : ∀ f ∈ c'.views, f < c'.store.slots.length)
    (stands : ∀ f, Stands f (h ++ [⟨act, woken⟩]) c') :
    Sound (h ++ [⟨act, c.wokenUntil c'⟩]) c' := by
  rw [wokenUntil_eq told]
  refine ⟨stands, viewed, ?_⟩
  rw [told, List.flatMap_append, List.flatMap_singleton, sound.told]

/-- **Settling a slot whose promise is held.** -/
theorem settle (sound : Sound h c) (held : f ∈ c.promises) (outcome : Outcome α)
    (settles : ∀ g, act.settles g = if f = g then some outcome else none)
    (awaits : ∀ g, act.awaits g = none) :
    let c' : Waiting α := ⟨c.store.settle f outcome, c.promises.erase f, c.views⟩
    Sound (h ++ [⟨act, c.wokenUntil c'⟩]) c' := by
  obtain ⟨wakers, slot, one, verdict, unwoken, distinct, waiting, settled⟩ :=
    sound.settle_eq held outcome
  intro c'
  have slots : c'.store.slots = c.store.slots.set f ⟨some outcome, [], [], none⟩ :=
    congrArg Futures.slots settled
  refine sound.after (congrArg Futures.woken settled) (fun g viewed => ?_) fun g => ?_
  · rw [slots, List.length_set]
    exact sound.viewed g viewed
  · by_cases hg : f = g
    · subst hg
      have here : act.settles f = some outcome := (settles f).trans (if_pos rfl)
      have ended : c'.store.slots[f]? = some ⟨some outcome, [], [], none⟩ := by
        rw [slots]
        exact List.getElem?_set_self (List.getElem?_eq_some_iff.1 slot).1
      refine .settled ended ?_ ?_ ?_ ?_
      · show (c.promises.erase f).count f = 0
        rw [List.count_erase_self, one]
      · simp [here, verdict]
      · simpa [here, unwoken] using distinct
      · simpa [here, unwoken, awaits] using waiting
    · refine (sound.stands g).frame ((settles g).trans (if_neg hg)) (awaits g) ?_
        (List.count_erase_of_ne (Ne.symm hg))
      rw [slots]
      exact List.getElem?_set_ne hg

/-- An act that changes no slot. -/
theorem same (sound : Sound h c) {views : List FutureId} (viewed : ∀ f ∈ views, f ∈ c.views)
    (settles : ∀ f, act.settles f = none) (awaits : ∀ f, act.awaits f = none) :
    Sound (h ++ [⟨act, c.wokenUntil { c with views := views }⟩]) { c with views := views } :=
  sound.after (List.append_nil _).symm (fun f held => sound.viewed f (viewed f held))
    fun f => (sound.stands f).frame (settles f) (awaits f) rfl rfl

/-- A slot that is made. -/
theorem pair (sound : Sound h c) :
    let c' : Waiting α :=
      ⟨c.store.promise.2, c.store.promise.1 :: c.promises, c.store.promise.1 :: c.views⟩
    Sound (h ++ [⟨.pair c.store.promise.1, c.wokenUntil c'⟩]) c' := by
  intro c'
  refine sound.after (List.append_nil _).symm (fun f viewed => ?_) fun f => ?_
  · have longer : c'.store.slots.length = c.store.slots.length + 1 := List.length_append
    rw [longer]
    cases viewed with
    | head => exact Nat.lt_succ_self _
    | tail _ viewed => exact Nat.lt_succ_of_lt (sound.viewed f viewed)
  · by_cases hf : f = c.store.promise.1
    · subst hf
      -- nothing has been done to a slot before it is made
      cases sound.stands c.store.promise.1 with
      | unmade _ unheld verdict waiting unwoken =>
        have slot : c'.store.slots[c.store.promise.1]? = some ⟨none, [], [], none⟩ :=
          Futures.getElem?_add c.store .pending
        refine .pending slot ?_ ?_ ?_ List.nodup_nil fun waker => ?_
        · exact List.count_cons_self.trans (congrArg (· + 1) unheld)
        · simp [verdict, Act.settles]
        · simp [unwoken, Act.settles]
        · simp [waiting, Act.awaits]
      | pending slot => exact absurd (List.getElem?_eq_some_iff.1 slot).1 (Nat.lt_irrefl _)
      | settled slot => exact absurd (List.getElem?_eq_some_iff.1 slot).1 (Nat.lt_irrefl _)
    · exact (sound.stands f).frame rfl rfl (Futures.getElem?_add_of_ne c.store .pending hf)
        (List.count_cons_of_ne (Ne.symm hf))

/-- A slot that is polled. -/
theorem poll (sound : Sound h c) (held : f ∈ c.views) (waker : Waker) :
    let c' : Waiting α := { c with store := (c.store.poll f waker).2 }
    Sound (h ++ [⟨.poll f waker (c.store.poll f waker).1, c.wokenUntil c'⟩]) c' := by
  cases found : c.store.outcome? f with
  | some outcome =>
    rw [Futures.poll_of_some found]
    exact sound.same (fun _ => id) (fun _ => rfl) fun _ => rfl
  | none =>
    have polled := (sound.stands f).poll (sound.viewed f held) found waker []
    rw [Futures.poll_of_none found] at polled ⊢
    intro c'
    have length : c'.store.slots.length = c.store.slots.length := List.length_modify ..
    refine sound.after (List.append_nil _).symm (fun g viewed => ?_) fun g => ?_
    · rw [length]
      exact sound.viewed g viewed
    · by_cases hg : f = g
      · exact hg ▸ polled
      · exact (sound.stands g).frame rfl (if_neg hg) (List.getElem?_modify_ne _ _ hg) rfl

end Sound

/-- **Every step keeps the agreement.** -/
theorem Step.sound (step : Step c act c') (sound : Sound h c) :
    Sound (h ++ [⟨act, c.wokenUntil c'⟩]) c' := by
  cases step with
  | pair => exact sound.pair
  | @clone f held =>
    exact sound.same (List.forall_mem_cons.2 ⟨held, fun _ => id⟩) (fun _ => rfl) fun _ => rfl
  | drop _ => exact sound.same (fun _ => List.mem_of_mem_erase) (fun _ => rfl) fun _ => rfl
  | ask _ => exact sound.same (fun _ => id) (fun _ => rfl) fun _ => rfl
  | get _ _ => exact sound.same (fun _ => id) (fun _ => rfl) fun _ => rfl
  | poll waker held => exact sound.poll held waker
  | complete outcome held => exact sound.settle held outcome (fun _ => rfl) fun _ => rfl
  | giveUp held => exact sound.settle held _ (fun _ => rfl) fun _ => rfl

/-- So does a whole run. -/
theorem Run.sound (run : Run h c) : Sound h c := by
  induction run with
  | start => exact sound_start
  | step _ step ih => exact step.sound ih

/-! ## What is answered, and who is woken -/

/-- The verdict on a slot is its outcome. -/
theorem Sound.verdicts_eq (sound : Sound h c) (f : FutureId) :
    verdicts f h = (c.store.outcome? f).toList := by
  unfold Futures.outcome?
  cases sound.stands f with
  | unmade slot _ verdict =>
    rw [slot]
    exact verdict
  | pending slot _ verdict =>
    rw [slot]
    exact verdict
  | settled slot _ verdict =>
    rw [slot]
    exact verdict

/-- Where there is one verdict at most, what there is of it early on stays. -/
theorem verdicts_stay {before after : History α}
    (single : (verdicts f (before ++ after)).length ≤ 1) :
    verdicts f before = [] ∨ verdicts f before = verdicts f (before ++ after) := by
  rw [verdicts_append, List.length_append] at single
  rw [verdicts_append]
  rcases Nat.eq_zero_or_pos (verdicts f before).length with none | some
  · exact .inl (List.eq_nil_of_length_eq_zero none)
  · have no_more : verdicts f after = [] := List.eq_nil_of_length_eq_zero (by omega)
    exact .inr (by rw [no_more, List.append_nil])

/-- An act that settles no slot fits if it wakes nobody. -/
theorem fits_of_quiet (answer : act.Agrees h) (settles : ∀ f, act.settles f = none)
    (told : c'.store.woken = c.store.woken) :
    Event.Fits h ⟨act, c.wokenUntil c'⟩ := by
  rw [wokenUntil_eq (told.trans (List.append_nil _).symm)]
  refine ⟨answer, List.nodup_nil, fun waker => ⟨nofun, ?_⟩⟩
  rintro ⟨f, settled, _⟩
  rw [settles f] at settled
  cases settled

/-- An act that settles a slot wakes those who wait for it. -/
theorem Sound.fits (sound : Sound h c) (held : f ∈ c.promises) (outcome : Outcome α)
    (answer : verdicts f h = [] → act.Agrees h)
    (settles : ∀ g, act.settles g = if f = g then some outcome else none) :
    Event.Fits h
      ⟨act, c.wokenUntil ⟨c.store.settle f outcome, c.promises.erase f, c.views⟩⟩ := by
  obtain ⟨wakers, _, _, verdict, _, distinct, waiting, settled⟩ := sound.settle_eq held outcome
  rw [wokenUntil_eq (congrArg Futures.woken settled)]
  refine ⟨answer verdict, distinct, fun waker => (waiting waker).trans ⟨fun waits => ?_, ?_⟩⟩
  · refine ⟨f, ?_, waits⟩
    rw [settles, if_pos rfl]
    rfl
  · rintro ⟨g, settled, waits⟩
    by_cases hg : f = g
    · exact hg ▸ waits
    · rw [settles, if_neg hg] at settled
      cases settled

/-- **Every step is what it must be.** -/
theorem Step.fits (step : Step c act c') (sound : Sound h c) :
    Event.Fits h ⟨act, c.wokenUntil c'⟩ := by
  cases step with
  | pair => exact fits_of_quiet trivial (fun _ => rfl) rfl
  | clone _ => exact fits_of_quiet trivial (fun _ => rfl) rfl
  | drop _ => exact fits_of_quiet trivial (fun _ => rfl) rfl
  | @ask f _ =>
    refine fits_of_quiet ?_ (fun _ => rfl) rfl
    show (c.store.outcome? f).isSome = !(verdicts f h).isEmpty
    rw [sound.verdicts_eq]
    cases c.store.outcome? f with
    | none => rfl
    | some _ => rfl
  | @get f outcome _ settled =>
    refine fits_of_quiet ?_ (fun _ => rfl) rfl
    show verdicts f h = [outcome]
    rw [sound.verdicts_eq, settled]
    rfl
  | @poll f waker _ =>
    show Event.Fits h ⟨.poll f waker (c.store.poll f waker).1, _⟩
    cases found : c.store.outcome? f with
    | some outcome =>
      rw [Futures.poll_of_some found]
      refine fits_of_quiet ?_ (fun _ => rfl) rfl
      show some outcome = (verdicts f h).head?
      rw [sound.verdicts_eq, found]
      rfl
    | none =>
      rw [Futures.poll_of_none found]
      refine fits_of_quiet ?_ (fun _ => rfl) rfl
      show none = (verdicts f h).head?
      rw [sound.verdicts_eq, found]
      rfl
  | complete outcome held => exact sound.fits held outcome id fun _ => rfl
  | giveUp held => exact sound.fits held _ id fun _ => rfl

/-- A run is a run up to each of its events, and goes on with it. -/
theorem Run.event {before after : History α} {e : Event α}
    (run : Run (before ++ e :: after) c) :
    ∃ c₁ c₂, Run before c₁ ∧ Step c₁ e.act c₂ ∧ e.woken = c₁.wokenUntil c₂ := by
  generalize hh : before ++ e :: after = h at run
  induction run generalizing after with
  | start => exact absurd hh (List.append_ne_nil_of_right_ne_nil _ (List.cons_ne_nil _ _))
  | @step h c act c' run step ih =>
    -- the event is the last one, or the run before the last one has it already
    rcases List.eq_nil_or_concat' after with rfl | ⟨after, last, rfl⟩
    · obtain ⟨rfl, single⟩ := List.append_inj' hh rfl
      cases single
      exact ⟨c, c', run, step, rfl⟩
    · rw [← List.cons_append, ← List.append_assoc] at hh
      exact ih (List.append_inj' hh rfl).1

/-- **A slot settles once, and wakes everyone who waits for it once.** In any run each slot has at
most one verdict: the outcome that its promise was completed with, or that it was abandoned. There
is none as long as the promise is held, and that is as long as the slot is pending. Afterwards the
verdict is the outcome of the slot, and stays. Whoever has polled the slot while it was pending,
through however many views and however often, has been woken by it once, and nobody else has been.
Each event of the run is what it must be by those before it: whoever asks, gets or polls is
answered by the verdict so far, and wakers are woken when a slot settles and at no other time. -/
theorem settles_once (run : Run h c) :
    (∀ f < c.store.slots.length,
      (verdicts f h).length ≤ 1 ∧ (f ∈ c.promises ↔ verdicts f h = []) ∧
      c.store.outcome? f = (verdicts f h).head? ∧
      (∀ before after, h = before ++ after →
        verdicts f before = [] ∨ verdicts f before = verdicts f h) ∧
      ∀ waker, (wokenBy f h).count waker =
        if verdicts f h ≠ [] ∧ waker ∈ waits f h then 1 else 0) ∧
    (∀ before e after, h = before ++ e :: after → e.Fits before) ∧
    c.store.woken = h.flatMap Event.woken := by
  have sound := run.sound
  refine ⟨fun f made => ?_, fun before e after split => ?_, sound.told⟩
  · have outcome := sound.verdicts_eq f
    have single : (verdicts f h).length ≤ 1 := by
      rw [outcome]
      exact Option.length_toList_le
    refine ⟨single, ?_, ?_, fun before after split => ?_, fun waker => ?_⟩
    · exact (sound.stands f).promised_iff made
    · rw [outcome, Option.head?_toList]
    · subst split
      exact verdicts_stay single
    · exact (sound.stands f).count_wokenBy waker
  · subst split
    obtain ⟨c₁, c₂, run₁, step, woken⟩ := run.event
    have fits := step.fits run₁.sound
    rw [← woken] at fits
    exact fits

end Waiting

namespace Sample

open Waiting

/-- A slot with two views, polled five times and by three wakers, and one that is abandoned. -/
def twoSlots : History Nat :=
  [⟨.pair 0, []⟩, ⟨.clone 0, []⟩, ⟨.poll 0 "reader" none, []⟩, ⟨.poll 0 "logger" none, []⟩,
    ⟨.poll 0 "reader" none, []⟩, ⟨.complete 0 (.ok (.one 7)), ["reader", "logger"]⟩,
    ⟨.poll 0 "late" (some (.ok (.one 7))), []⟩, ⟨.drop 0, []⟩,
    ⟨.poll 0 "reader" (some (.ok (.one 7))), []⟩, ⟨.pair 1, []⟩, ⟨.ask 1 false, []⟩,
    ⟨.giveUp 1, []⟩, ⟨.get 1 (.error .abandoned), []⟩]

theorem run_twoSlots : ∃ c, Run twoSlots c ∧ c.store.slots.length = 2 := by
  have made : Run ([] : History Nat) start := .start
  have polled := (((made.step .pair).step (.clone (f := 0) (by decide))).step
    (.poll (f := 0) "reader" (by decide))).step (.poll (f := 0) "logger" (by decide))
  have completed := (polled.step (.poll (f := 0) "reader" (by decide))).step
    (.complete (f := 0) (.ok (.one 7)) (by decide))
  have late := ((completed.step (.poll (f := 0) "late" (by decide))).step
    (.drop (f := 0) (by decide))).step (.poll (f := 0) "reader" (by decide))
  have abandoned := ((late.step .pair).step (.ask (f := 1) (by decide +kernel))).step
    (.giveUp (f := 1) (by decide +kernel))
  exact ⟨_, abandoned.step (.get (f := 1) (by decide +kernel) rfl), rfl⟩

/-- The reader has polled three times and is woken once, and the one who is late is not. -/
theorem settles_once_twoSlots :
    ∃ c, Run twoSlots c ∧
      c.store.outcome? 0 = some (.ok (.one 7)) ∧ c.store.outcome? 1 = some (.error .abandoned) ∧
      0 ∉ c.promises ∧ 1 ∉ c.promises ∧ (wokenBy 0 twoSlots).count "reader" = 1 ∧
      (wokenBy 0 twoSlots).count "late" = 0 ∧ c.store.woken = ["reader", "logger"] := by
  obtain ⟨c, run, two⟩ := run_twoSlots
  obtain ⟨slots, _, woken⟩ := settles_once run
  obtain ⟨_, promised₀, outcome₀, _, wakes₀⟩ := slots 0 (by rw [two]; decide)
  obtain ⟨_, promised₁, outcome₁, _, _⟩ := slots 1 (by rw [two]; decide)
  exact ⟨c, run, outcome₀, outcome₁, mt promised₀.1 nofun, mt promised₁.1 nofun,
    (wakes₀ "reader").trans (by decide +kernel), (wakes₀ "late").trans (by decide +kernel), woken⟩

end Sample

end RemoteDispatch
