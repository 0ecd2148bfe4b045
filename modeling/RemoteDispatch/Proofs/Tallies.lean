import Mathlib.Data.List.Basic
import RemoteDispatch.Proofs.Slots

/-!
# What a joined slot makes of its inputs

What the inputs of a joined slot have told it so far is a list with one place
per input: nothing yet, a value or an error. How the slot has to end is a
function of that list, `combined`: with the error of the first input in the
list that failed, or with all the values, or not yet.

The slot itself keeps less than the list. It has the values, a counter and a
flag, and it does not look at the list again when one more input is heard.
`Gathering.Tallies` ties the three to the list and to how the slot has ended,
and `Gathering.Tallies.observe` keeps them tied, whichever place is heard
next: the counter is above zero when it is counted down, and the slot is ended
only while it is open.
-/

namespace RemoteDispatch

variable {α : Type}

/-- The value that an outcome brings. -/
def Outcome.value? : Outcome α → Option (Yield α)
  | .ok value => some value
  | .error _ => none

/-- The error that an outcome brings. -/
def Outcome.fault? : Outcome α → Option CallError
  | .ok _ => none
  | .error e => some e

/-- **How a joined slot ends** when this is what its inputs have told, in the order in which they
were given: with the error of the first that failed, or with the values of all. -/
def combined (news : List (Option (Outcome α))) : Option (Outcome α) :=
  match news.findSome? (·.bind Outcome.fault?) with
  | some e => some (.error e)
  | none =>
    if news.all Option.isSome then some (.ok (.all (news.filterMap (·.bind Outcome.value?))))
    else none

variable {news : List (Option (Outcome α))} {ending : Option (Outcome α)}

theorem fault?_eq_some {told : Option (Outcome α)} {e : CallError} :
    told.bind Outcome.fault? = some e ↔ told = some (.error e) := by
  cases told with
  | none => exact ⟨nofun, nofun⟩
  | some outcome =>
    cases outcome with
    | ok value => exact ⟨nofun, nofun⟩
    | error e' =>
      exact ⟨fun h => congrArg (fun e => some (Except.error e)) (Option.some.inj h),
        fun h => by cases h; rfl⟩

theorem fault?_eq_none {told : Option (Outcome α)} :
    told.bind Outcome.fault? = none ↔ ∀ e, told ≠ some (.error e) := by
  rw [Option.eq_none_iff_forall_ne_some]
  exact forall_congr' fun e => not_congr fault?_eq_some

/-- **It has not ended** as long as none has failed and one has told nothing. -/
theorem combined_eq_none_iff :
    combined news = none ↔ (∀ e, some (.error e) ∉ news) ∧ none ∈ news := by
  have sound : news.findSome? (·.bind Outcome.fault?) = none ↔ ∀ e, some (.error e) ∉ news := by
    rw [List.findSome?_eq_none_iff]
    exact ⟨fun h e he => fault?_eq_none.1 (h _ he) e rfl,
      fun h told htold => fault?_eq_none.2 fun e he => h e (he ▸ htold)⟩
  unfold combined
  cases hfirst : news.findSome? (·.bind Outcome.fault?) with
  | some e =>
    refine ⟨nofun, fun h => ?_⟩
    rw [sound.2 h.1] at hfirst
    cases hfirst
  | none =>
    dsimp only
    rw [and_iff_right (sound.1 hfirst)]
    have open_ : ¬news.all Option.isSome ↔ none ∈ news := by
      rw [List.all_eq_true, not_forall]
      refine ⟨fun ⟨told, h⟩ => ?_, fun h => ⟨none, fun all => Bool.false_ne_true (all h)⟩⟩
      obtain ⟨htold, hnone⟩ := Classical.not_imp.1 h
      exact Option.not_isSome_iff_eq_none.1 hnone ▸ htold
    rw [← open_]
    by_cases all : news.all Option.isSome
    · rw [if_pos all]
      exact ⟨nofun, fun h => absurd all h⟩
    · rw [if_neg all]
      exact ⟨fun _ => all, fun _ => rfl⟩

/-- **With values from all of them it ends with these**, one for each input and in their order. -/
theorem combined_of_values (values : List (Yield α)) :
    combined (values.map fun value => some (.ok value)) = some (.ok (.all values)) := by
  have sound : (values.map fun value => some (Except.ok value : Outcome α)).findSome?
      (·.bind Outcome.fault?) = none := by
    rw [List.findSome?_eq_none_iff]
    intro told htold
    obtain ⟨value, _, rfl⟩ := List.mem_map.1 htold
    rfl
  have complete : (values.map fun value => some (Except.ok value : Outcome α)).all
      Option.isSome = true := by
    rw [List.all_map]
    exact List.all_eq_true.2 fun _ _ => rfl
  have same : (values.map fun value => some (Except.ok value : Outcome α)).filterMap
      (·.bind Outcome.value?) = values := by
    rw [List.filterMap_map]
    exact List.filterMap_some
  unfold combined
  rw [sound]
  dsimp only
  rw [if_pos complete, same]

/-- If all that failed did so with one error, it ends with that. -/
theorem combined_of_error {e : CallError} (failed : some (.error e) ∈ news)
    (alike : ∀ e', some (.error e') ∈ news → e' = e) : combined news = some (.error e) := by
  unfold combined
  cases hfirst : news.findSome? (·.bind Outcome.fault?) with
  | some e' =>
    obtain ⟨told, htold, fault⟩ := List.exists_of_findSome?_eq_some hfirst
    rw [alike e' (fault?_eq_some.1 fault ▸ htold)]
  | none => exact absurd rfl (fault?_eq_none.1 (List.findSome?_eq_none_iff.1 hfirst _ failed) e)

/-- The error with which it ends is that of the first that failed. -/
theorem combined_eq_error_iff {e : CallError} :
    combined news = some (.error e) ↔ news.findSome? (·.bind Outcome.fault?) = some e := by
  unfold combined
  cases news.findSome? (·.bind Outcome.fault?) with
  | some e' =>
    exact ⟨fun h => by cases h; rfl, fun h => by cases h; rfl⟩
  | none =>
    refine ⟨fun h => ?_, nofun⟩
    dsimp only at h
    split at h
    · cases h
    · cases h

/-- Inputs that have all told a value have told a list of values. -/
theorem exists_values (told : ∀ n ∈ news, ∃ value, n = some (.ok value)) :
    ∃ values : List (Yield α), news = values.map fun value => some (.ok value) := by
  induction news with
  | nil => exact ⟨[], rfl⟩
  | cons n news ih =>
    obtain ⟨value, rfl⟩ := told n List.mem_cons_self
    obtain ⟨values, rfl⟩ := ih fun n hn => told n (List.mem_cons_of_mem _ hn)
    exact ⟨value :: values, rfl⟩

/-- **It ends with values only when it has them from all.** -/
theorem combined_eq_ok_iff {y : Yield α} :
    combined news = some (.ok y) ↔
      ∃ values, y = .all values ∧ news = values.map fun value => some (.ok value) := by
  constructor
  · intro h
    have told : ∀ n ∈ news, ∃ value, n = some (.ok value) := by
      unfold combined at h
      cases hfirst : news.findSome? (·.bind Outcome.fault?) with
      | some e =>
        rw [hfirst] at h
        cases h
      | none =>
        rw [hfirst] at h
        dsimp only at h
        split at h
        · next all =>
          intro n hn
          obtain ⟨outcome, rfl⟩ := Option.isSome_iff_exists.1 (List.all_eq_true.1 all n hn)
          cases outcome with
          | ok value => exact ⟨value, rfl⟩
          | error e =>
            exact absurd rfl (fault?_eq_none.1 (List.findSome?_eq_none_iff.1 hfirst _ hn) e)
        · cases h
    obtain ⟨values, rfl⟩ := exists_values told
    rw [combined_of_values] at h
    cases h
    exact ⟨values, rfl, rfl⟩
  · rintro ⟨values, rfl, rfl⟩
    exact combined_of_values values

/-- It does not end with values while a place is silent or has failed. -/
theorem combined_ne_ok {told : Option (Outcome α)} (h : told ∈ news)
    (bare : told.bind Outcome.value? = none) (y : Yield α) : combined news ≠ some (.ok y) := by
  intro done
  obtain ⟨values, _, rfl⟩ := combined_eq_ok_iff.1 done
  obtain ⟨value, _, rfl⟩ := List.mem_map.1 h
  cases bare

/-- **The first error decides**: what a place tells later in the list is nothing to it. -/
theorem combined_set_of_error {e : CallError} {place : Nat} {told : Option (Outcome α)}
    (failed : combined news = some (.error e))
    (silent : ∀ q n, place ≤ q → news[q]? = some n → n = none) :
    combined (news.set place told) = some (.error e) := by
  rw [combined_eq_error_iff] at failed ⊢
  obtain ⟨before, first, after, rfl, fault, sound⟩ := List.findSome?_eq_some_iff.1 failed
  have earlier : before.length < place := by
    refine Nat.lt_of_not_le fun le => ?_
    have nothing := silent before.length first le (by
      rw [List.getElem?_append_right (Nat.le_refl _), Nat.sub_self]
      rfl)
    rw [nothing] at fault
    cases fault
  obtain ⟨d, hd⟩ := Nat.exists_eq_add_of_lt earlier
  have later : (before ++ first :: after).set place told = before ++ first :: after.set d told := by
    rw [hd, Nat.add_assoc, List.set_append_right _ _ (Nat.le_add_right _ _),
      Nat.add_sub_cancel_left]
    rfl
  rw [later]
  exact List.findSome?_eq_some_iff.2 ⟨before, first, after.set d told, rfl, fault, sound⟩

namespace Gathering

/-- **The gathering agrees with what the inputs have told**, and with how the slot has ended. -/
structure Tallies (g : Gathering α) (news : List (Option (Outcome α)))
    (ending : Option (Outcome α)) : Prop where
  values : g.values = news.map (·.bind Outcome.value?)
  remaining : g.remaining = g.values.countP Option.isNone
  isOpen : g.isOpen = ending.isNone
  pending : ending = none → 0 < g.remaining ∧ ∀ e, some (.error e) ∉ news
  ok : ∀ y, ending = some (.ok y) → g.remaining = 0 ∧ y = .all (g.values.filterMap id)
  error : ∀ e, ending = some (.error e) → some (.error e) ∈ news

/-- At first nothing has been told. -/
theorem tallies_start {n : Nat} (some_ : 0 < n) :
    (start n : Gathering α).Tallies (List.replicate n none) none where
  values := by
    rw [List.map_replicate]
    rfl
  remaining := by
    show n = (List.replicate n none).countP _
    rw [List.countP_replicate]
    rfl
  isOpen := rfl
  pending := fun _ => ⟨some_, fun _ h => nomatch (List.mem_replicate.1 h).2⟩
  ok := nofun
  error := nofun

/-- With no inputs at all everything has been told. -/
theorem tallies_nil : (⟨[], 0, false⟩ : Gathering α).Tallies [] (some (.ok (.all []))) where
  values := rfl
  remaining := rfl
  isOpen := rfl
  pending := nofun
  ok := fun _ same => by cases same; exact ⟨rfl, rfl⟩
  error := nofun

namespace Tallies

variable {g : Gathering α} {place : Nat}

/-- While an input has told nothing, the counter is above zero. -/
theorem remaining_pos (h : g.Tallies news ending) (silent : none ∈ news) : 0 < g.remaining := by
  rw [h.remaining, List.countP_pos_iff, h.values]
  exact ⟨none, List.mem_map.2 ⟨none, silent, rfl⟩, rfl⟩

/-- While an input has told nothing, the slot has not ended with values. -/
theorem not_ok (h : g.Tallies news ending) (silent : none ∈ news) (y : Yield α) :
    ending ≠ some (.ok y) :=
  fun done => Nat.ne_of_gt (h.remaining_pos silent) (h.ok y done).1

/-- Once the counter is at zero, the values are those that the inputs have told. -/
theorem combined_of_remaining (h : g.Tallies news ending) (done : g.remaining = 0) :
    combined news = some (.ok (.all (g.values.filterMap id))) := by
  have told : ∀ n ∈ news, ∃ value, n = some (.ok value) := by
    intro n hn
    have counted : ¬(n.bind Outcome.value?).isNone := by
      intro isNone
      refine Nat.ne_of_gt (List.countP_pos_iff.2 ⟨_, ?_, isNone⟩) (h.remaining ▸ done)
      rw [h.values]
      exact List.mem_map_of_mem hn
    cases n with
    | none => exact absurd rfl counted
    | some outcome =>
      cases outcome with
      | ok value => exact ⟨value, rfl⟩
      | error e => exact absurd rfl counted
  obtain ⟨values, rfl⟩ := exists_values told
  have same : g.values = values.map some := by
    rw [h.values, List.map_map]
    rfl
  have listed : values = (values.map some).filterMap id := by
    rw [List.filterMap_map]
    exact List.filterMap_some.symm
  rw [combined_of_values, same, ← listed]

/-- **The slot has ended as soon as it has to.** -/
theorem eq_none_iff (h : g.Tallies news ending) : ending = none ↔ combined news = none := by
  rw [combined_eq_none_iff]
  constructor
  · intro hnone
    refine ⟨(h.pending hnone).2, ?_⟩
    have counted := (h.pending hnone).1
    rw [h.remaining, List.countP_pos_iff, h.values] at counted
    obtain ⟨_, hmem, isNone⟩ := counted
    obtain ⟨n, hn, rfl⟩ := List.mem_map.1 hmem
    cases n with
    | none => exact hn
    | some outcome =>
      cases outcome with
      | ok value => cases isNone
      | error e => exact absurd hn ((h.pending hnone).2 e)
  · rintro ⟨sound, silent⟩
    cases ending with
    | none => rfl
    | some outcome =>
      cases outcome with
      | ok y => exact absurd rfl (h.not_ok silent y)
      | error e => exact absurd (h.error e rfl) (sound e)

/-- If an input has failed, the slot has failed. -/
theorem failed (h : g.Tallies news ending) {e : CallError} (he : some (.error e) ∈ news) :
    ∃ e', ending = some (.error e') := by
  cases ending with
  | none => exact absurd he ((h.pending rfl).2 e)
  | some outcome =>
    cases outcome with
    | ok y => exact absurd (h.combined_of_remaining (h.ok y rfl).1) (combined_ne_ok he rfl _)
    | error e' => exact ⟨e', rfl⟩

/-- **If all that failed did so with one error, the slot has ended as it has to.** -/
theorem eq_combined (h : g.Tallies news ending)
    (alike : ∀ e e', some (.error e) ∈ news → some (.error e') ∈ news → e = e') :
    ending = combined news := by
  cases ending with
  | none => exact (h.eq_none_iff.1 rfl).symm
  | some outcome =>
    cases outcome with
    | ok y =>
      obtain ⟨done, rfl⟩ := h.ok y rfl
      exact (h.combined_of_remaining done).symm
    | error e =>
      have failed := h.error e rfl
      exact (combined_of_error failed fun e' he' => alike e' e he' failed).symm

/-! ## Hearing of one more input -/

/-- What has been told stays when a silent place is heard. -/
theorem mem_set_of_silent {outcome : Outcome α} {told : Option (Outcome α)}
    (silent : news[place]? = some none) (h : some outcome ∈ news) :
    some outcome ∈ news.set place told := by
  obtain ⟨q, hq⟩ := List.mem_iff_getElem?.1 h
  have other : place ≠ q := by
    rintro rfl
    rw [silent] at hq
    cases hq
  refine List.mem_iff_getElem?.2 ⟨q, ?_⟩
  rw [List.getElem?_set_ne other]
  exact hq

/-- There is no value yet from an input that has told nothing. -/
theorem empty_of_silent (h : g.Tallies news ending) (silent : news[place]? = some none) :
    ∃ within : place < g.values.length, g.values[place] = none := by
  refine List.getElem?_eq_some_iff.1 ?_
  rw [h.values, List.getElem?_map, silent]
  rfl

/-- **Counting a value in** keeps the tally, and ends the slot if that was the last value and nothing
has ended it. -/
theorem observe_ok (h : g.Tallies news ending) (silent : news[place]? = some none)
    (value : Yield α) :
    (∃ g', g.observe place (.ok value) = (g', none) ∧
        g'.Tallies (news.set place (some (.ok value))) ending) ∨
      ∃ g' all, g.observe place (.ok value) = (g', some (.ok all)) ∧ ending = none ∧
        g'.Tallies (news.set place (some (.ok value))) (some (.ok all)) := by
  have known : none ∈ news := List.mem_of_getElem? silent
  have values : (g.record place value).values =
      (news.set place (some (.ok value))).map (·.bind Outcome.value?) := by
    rw [List.map_set, ← h.values]
    rfl
  have remaining : (g.record place value).remaining =
      (g.record place value).values.countP Option.isNone := by
    obtain ⟨within, empty⟩ := h.empty_of_silent silent
    show g.remaining - 1 = (g.values.set place (some value)).countP Option.isNone
    rw [List.countP_set within, empty, h.remaining]
    rfl
  by_cases decided : (g.record place value).remaining = 0 ∧ (g.record place value).isOpen
  · have hnone : ending = none :=
      Option.isNone_iff_eq_none.1 (h.isOpen.symm.trans decided.2)
    refine Or.inr ⟨_, _, if_pos decided, hnone, ⟨values, remaining, rfl, nofun, ?_, nofun⟩⟩
    rintro y ⟨⟩
    exact ⟨decided.1, rfl⟩
  · refine Or.inl ⟨_, if_neg decided, ⟨values, remaining, h.isOpen, ?_, ?_, ?_⟩⟩
    · intro hnone
      have isOpen : (g.record place value).isOpen = true :=
        h.isOpen.trans (hnone ▸ rfl)
      refine ⟨Nat.pos_of_ne_zero fun done => decided ⟨done, isOpen⟩, fun e he => ?_⟩
      exact (h.pending hnone).2 e ((List.mem_or_eq_of_mem_set he).resolve_right nofun)
    · exact fun y done => absurd done (h.not_ok known y)
    · exact fun e failed => mem_set_of_silent silent (h.error e failed)

/-- **Counting an error in** keeps the tally, and ends the slot if nothing has ended it. -/
theorem observe_error (h : g.Tallies news ending) (silent : news[place]? = some none)
    (e : CallError) :
    (∃ g', g.observe place (.error e) = (g', none) ∧
        g'.Tallies (news.set place (some (.error e))) ending) ∨
      ∃ g', g.observe place (.error e) = (g', some (.error e)) ∧ ending = none ∧
        g'.Tallies (news.set place (some (.error e))) (some (.error e)) := by
  have known : none ∈ news := List.mem_of_getElem? silent
  have mine : some (.error e) ∈ news.set place (some (.error e)) :=
    List.mem_iff_getElem?.2
      ⟨place, List.getElem?_set_self (List.getElem?_eq_some_iff.1 silent).1⟩
  -- an error brings no value, so the place stays empty
  have values : g.values = (news.set place (some (.error e))).map (·.bind Outcome.value?) := by
    obtain ⟨within, empty⟩ := h.empty_of_silent silent
    have same := List.set_getElem_self within
    rw [empty] at same
    rw [List.map_set, ← h.values]
    exact same.symm
  by_cases isOpen : g.isOpen
  · have hnone : ending = none := Option.isNone_iff_eq_none.1 (h.isOpen ▸ isOpen)
    refine Or.inr ⟨_, if_pos isOpen, hnone, ⟨values, h.remaining, rfl, nofun, nofun, ?_⟩⟩
    rintro e' ⟨⟩
    exact mine
  · refine Or.inl ⟨_, if_neg isOpen, ⟨values, h.remaining, h.isOpen, ?_, ?_, ?_⟩⟩
    · intro hnone
      rw [h.isOpen, hnone] at isOpen
      exact absurd rfl isOpen
    · exact fun y done => absurd done (h.not_ok known y)
    · exact fun e' failed => mem_set_of_silent silent (h.error e' failed)

/-- **Hearing of one more input keeps the tally**, and ends the slot only if nothing has ended it; an
error that ends it is the one just heard. -/
theorem observe (h : g.Tallies news ending) (silent : news[place]? = some none)
    (outcome : Outcome α) :
    let told := news.set place (some outcome)
    (∃ g', g.observe place outcome = (g', none) ∧ g'.Tallies told ending) ∨
      ∃ g' end_, g.observe place outcome = (g', some end_) ∧ ending = none ∧
        (∀ e, end_ = .error e → outcome = .error e) ∧ g'.Tallies told (some end_) := by
  intro told
  cases outcome with
  | ok value =>
    obtain goesOn | ⟨g', all, observed, hnone, tallies⟩ := h.observe_ok silent value
    · exact Or.inl goesOn
    · exact Or.inr ⟨g', .ok all, observed, hnone, nofun, tallies⟩
  | error e =>
    obtain goesOn | ⟨g', observed, hnone, tallies⟩ := h.observe_error silent e
    · exact Or.inl goesOn
    · exact Or.inr ⟨g', .error e, observed, hnone, fun _ same => same, tallies⟩

end Tallies

end Gathering

end RemoteDispatch
