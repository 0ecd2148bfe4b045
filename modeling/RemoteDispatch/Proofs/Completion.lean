import Mathlib.Algebra.Group.Nat.Defs
import Mathlib.Data.List.Nodup
import RemoteDispatch.Engine.Scripted
import RemoteDispatch.Proofs.Runs

/-!
# Every call ends once, and by its own reply

Environments number their calls from one, each for itself, so the ids of
different environments coincide all the time, and replies may come late, twice,
under ids that nobody has or to environments that are gone. Still no reply is
lost, doubled or crossed.

What each call has come to can be read off the record of a run: the first
happening after the call was entered that is for the call decides it. This
reading is `verdicts`. The invariant `World.Tracks` says that a world shows
exactly that: the pending table of an environment holds the calls that nothing
has decided yet, in the order they were entered, the ids are the numbers from
one on, and the future of each call has the outcome that was decided, if one
was.
-/

namespace RemoteDispatch

variable {σ α : Type}

/-! ## Reading the record -/

/-- **The calls of a record and how each was decided**, if it was: by the first happening for it. -/
def verdicts : List (Happening α) → List (AsyncCall α × Option (Outcome α))
  | [] => []
  | .entered c :: h => (c, h.findSome? c.decides) :: verdicts h
  | _ :: h => verdicts h

/-- The calls of an environment that nothing has decided. -/
def undecided (e : EnvironmentId) (h : List (Happening α)) : List (AsyncCall α) :=
  ((verdicts h).filter fun v => v.2.isNone && v.1.environment = e).map Prod.fst

theorem verdicts_append (h h' : List (Happening α)) :
    verdicts (h ++ h') =
      (verdicts h).map (fun v => (v.1, v.2.or (h'.findSome? v.1.decides))) ++ verdicts h' := by
  induction h with
  | nil => rfl
  | cons x h ih =>
    cases x with
    | entered c =>
      show (c, (h ++ h').findSome? c.decides) :: verdicts (h ++ h') = _
      rw [List.findSome?_append, ih]
      rfl
    | _ => exact ih

/-- One more happening that enters no call may decide calls that were undecided. -/
theorem verdicts_snoc (h : List (Happening α)) {x : Happening α} (hx : verdicts [x] = []) :
    verdicts (h ++ [x]) = (verdicts h).map fun v => (v.1, v.2.or (v.1.decides x)) := by
  rw [verdicts_append, hx, List.append_nil]
  refine List.map_congr_left fun v _ => ?_
  rw [List.findSome?_singleton]

theorem verdicts_entered (h : List (Happening α)) (c : AsyncCall α) :
    verdicts (h ++ [.entered c]) = verdicts h ++ [(c, none)] := by
  rw [verdicts_append]
  refine congrArg (· ++ _) (List.map_id'' (fun v => ?_) _)
  show (v.1, v.2.or none) = v
  rw [Option.or_none]

theorem mem_verdicts (before : List (Happening α)) (c : AsyncCall α) (after : List (Happening α)) :
    (c, after.findSome? c.decides) ∈ verdicts (before ++ .entered c :: after) := by
  rw [verdicts_append]
  exact List.mem_append_right _ List.mem_cons_self

/-- The verdicts are about the calls entered. -/
theorem entered_eq (e : EnvironmentId) (h : List (Happening α)) :
    entered e h = ((verdicts h).filter fun v => v.1.environment = e).map Prod.fst := by
  induction h with
  | nil => rfl
  | cons x h ih =>
    cases x with
    | entered c =>
      show (if c.environment = e then c :: entered e h else entered e h) = _
      rw [ih]
      show _ = (List.filter _ ((c, h.findSome? c.decides) :: verdicts h)).map Prod.fst
      rw [List.filter_cons]
      by_cases hc : c.environment = e
      · rw [if_pos hc, if_pos (decide_eq_true hc)]
        rfl
      · rw [if_neg hc, if_neg (fun h => hc (of_decide_eq_true h))]
    | _ => exact ih

theorem entered_append (e : EnvironmentId) (h h' : List (Happening α)) :
    entered e (h ++ h') = entered e h ++ entered e h' := by
  induction h with
  | nil => rfl
  | cons x h ih =>
    cases x with
    | entered c =>
      show (if c.environment = e then c :: entered e (h ++ h') else entered e (h ++ h')) =
        (if c.environment = e then c :: entered e h else entered e h) ++ entered e h'
      rw [ih]
      by_cases hc : c.environment = e
      · rw [if_pos hc, if_pos hc]
        rfl
      · rw [if_neg hc, if_neg hc]
    | _ => exact ih

theorem undecided_snoc (e : EnvironmentId) (h : List (Happening α)) {x : Happening α}
    (hx : verdicts [x] = []) :
    undecided e (h ++ [x]) = (undecided e h).filter fun c => (c.decides x).isNone := by
  unfold undecided
  rw [verdicts_snoc h hx, List.filter_map, List.filter_map, List.map_map, List.filter_filter]
  refine congrArg (List.map Prod.fst) (List.filter_congr fun v _ => ?_)
  show ((v.2.or (v.1.decides x)).isNone && decide (v.1.environment = e)) =
    ((v.1.decides x).isNone && (v.2.isNone && decide (v.1.environment = e)))
  cases v.2 with
  | none => rfl
  | some o => exact (Bool.and_false _).symm

theorem entered_snoc (e : EnvironmentId) (h : List (Happening α)) {x : Happening α}
    (hx : verdicts [x] = []) : entered e (h ++ [x]) = entered e h := by
  rw [entered_append, entered_eq e [x], hx]
  exact List.append_nil _

theorem few_of_append {h h' : List (Happening α)} {n : Nat}
    (few : ∀ e, (entered e (h ++ h')).length < n) (e : EnvironmentId) :
    (entered e h).length < n := by
  refine Nat.lt_of_le_of_lt ?_ (few e)
  rw [entered_append, List.length_append]
  exact Nat.le_add_right _ _

theorem undecided_entered (e : EnvironmentId) (h : List (Happening α)) (c : AsyncCall α) :
    undecided e (h ++ [.entered c]) =
      undecided e h ++ if c.environment = e then [c] else [] := by
  unfold undecided
  rw [verdicts_entered, List.filter_append, List.map_append]
  refine congrArg (_ ++ ·) ?_
  rw [List.filter_singleton]
  show List.map Prod.fst (bif decide (c.environment = e) then _ else _) = _
  by_cases hc : c.environment = e
  · rw [if_pos hc, decide_eq_true hc]
    rfl
  · rw [if_neg hc, decide_eq_false hc]
    rfl

theorem entered_entered (e : EnvironmentId) (h : List (Happening α)) (c : AsyncCall α) :
    entered e (h ++ [.entered c]) = entered e h ++ if c.environment = e then [c] else [] :=
  entered_append e h _

/-! ## Ids -/

/-- The id of the call that comes after `n` others. -/
def nthId (n : Nat) : CallId := ⟨.ofNat (n + 1)⟩

theorem nthId_succ (n : Nat) : nthId (n + 1) = ⟨(nthId n).word + 1⟩ :=
  congrArg CallId.mk (UInt64.ofNat_add (n + 1) 1)

theorem nthId_inj {m n : Nat} (hm : m + 1 < 2 ^ 64) (hn : n + 1 < 2 ^ 64)
    (h : nthId m = nthId n) : m = n := by
  have hword : (UInt64.ofNat (m + 1)).toNat = (UInt64.ofNat (n + 1)).toNat :=
    congrArg (fun id : CallId => id.word.toNat) h
  rw [UInt64.toNat_ofNat_of_lt' hm, UInt64.toNat_ofNat_of_lt' hn] at hword
  exact Nat.succ.inj hword

/-- The first ids are distinct as long as the numbers do not wrap around. -/
theorem nodup_nthId {n : Nat} (hn : n < 2 ^ 64) : ((List.range n).map nthId).Nodup := by
  refine List.Nodup.map_on (fun i hi j hj hij => ?_) List.nodup_range
  exact nthId_inj (Nat.lt_of_le_of_lt (List.mem_range.1 hi) hn)
    (Nat.lt_of_le_of_lt (List.mem_range.1 hj) hn) hij

/-! ## The invariant -/

/-- The entry of a call in the pending table. -/
def AsyncCall.entry (c : AsyncCall α) : CallId × Awaited α := (c.id, ⟨c.future, c.decode⟩)

namespace World

variable {w w' : World σ α} {h : List (Happening α)}

/-- **A world shows what its record says.** -/
structure Tracks (w : World σ α) (h : List (Happening α)) : Prop where
  /-- The calls that wait are the ones that nothing has decided. -/
  waiting : ∀ e, (w.environment e).calls.entries = (undecided e h).map AsyncCall.entry
  /-- The next id is the next number. -/
  next : ∀ e, (w.environment e).calls.next = nthId (entered e h).length
  /-- The calls are numbered as they were entered. -/
  numbered : ∀ e,
    (entered e h).map AsyncCall.id = (List.range (entered e h).length).map nthId
  /-- The future of a call has the outcome decided for the call. -/
  settled : ∀ v ∈ verdicts h, w.futures.Single v.1.future v.2
  /-- The future of a refused call has failed. -/
  refused : ∀ {f error}, .refused f error ∈ h → w.futures.outcome? f = some (.error error)
  /-- Every call has a future of its own. -/
  distinct : ((verdicts h).map fun v => v.1.future).Nodup
  /-- The environments of calls exist. -/
  known : ∀ v ∈ verdicts h, v.1.environment < w.environments.length
  /-- The types that an environment knows stay the same. -/
  registry : ∀ v ∈ verdicts h, v.1.registry = w.registry v.1.environment

theorem tracks_start (s : σ) : Tracks (ofEngine s : World σ α) [] where
  waiting _ := rfl
  next _ := rfl
  numbered _ := rfl
  settled _ hv := nomatch hv
  refused hx := nomatch hx
  distinct := List.nodup_nil
  known _ hv := nomatch hv
  registry _ hv := nomatch hv

namespace Tracks

theorem nodup_ids (t : Tracks w h) {e : EnvironmentId} (few : (entered e h).length < 2 ^ 64) :
    ((entered e h).map AsyncCall.id).Nodup := by
  rw [t.numbered e]
  exact nodup_nthId few

/-- A call is known by its environment and its id. -/
theorem eq_of_id (t : Tracks w h) (few : ∀ e, (entered e h).length < 2 ^ 64)
    {v v' : AsyncCall α × Option (Outcome α)} (hv : v ∈ verdicts h) (hv' : v' ∈ verdicts h)
    (he : v.1.environment = v'.1.environment) (hid : v.1.id = v'.1.id) : v = v' := by
  have nodup := t.nodup_ids (few v'.1.environment)
  rw [entered_eq, List.map_map] at nodup
  exact List.inj_on_of_nodup_map nodup (List.mem_filter.2 ⟨hv, decide_eq_true he⟩)
    (List.mem_filter.2 ⟨hv', decide_eq_true rfl⟩) hid

/-- **A happening that enters no call**, when the slots and the tables follow it. -/
theorem decided (t : Tracks w h) {x : Happening α} (hx : verdicts [x] = [])
    (changes : Changes w [x] w')
    (hentries : ∀ e, (w'.environment e).calls.entries =
      ((undecided e h).filter fun c => (c.decides x).isNone).map AsyncCall.entry)
    (hnext : ∀ e, (w'.environment e).calls.next = (w.environment e).calls.next)
    (hregistry : ∀ e, e < w.environments.length → w'.registry e = w.registry e)
    (hlength : w.environments.length ≤ w'.environments.length)
    (hsettled : ∀ v ∈ verdicts h, w'.futures.Single v.1.future (v.2.or (v.1.decides x)))
    (hrefused : ∀ f error, x = .refused f error →
      w'.futures.outcome? f = some (.error error)) :
    Tracks w' (h ++ [x]) where
  waiting e := by
    rw [undecided_snoc e h hx]
    exact hentries e
  next e := by
    rw [entered_snoc e h hx, hnext]
    exact t.next e
  numbered e := by
    rw [entered_snoc e h hx]
    exact t.numbered e
  settled := by
    rw [verdicts_snoc h hx]
    exact List.forall_mem_map.2 hsettled
  refused hmem := by
    cases List.mem_append.1 hmem with
    | inl before => exact changes.outcome (t.refused before)
    | inr last => exact hrefused _ _ (List.mem_singleton.1 last).symm
  distinct := by
    rw [verdicts_snoc h hx, List.map_map]
    exact t.distinct
  known := by
    rw [verdicts_snoc h hx]
    exact List.forall_mem_map.2 fun v hv => Nat.lt_of_lt_of_le (t.known v hv) hlength
  registry := by
    rw [verdicts_snoc h hx]
    exact List.forall_mem_map.2 fun v hv =>
      (t.registry v hv).trans (hregistry _ (t.known v hv)).symm

theorem same (t : Tracks w h) (same : SameCalls w w') : Tracks w' h where
  waiting e := by
    rw [same.calls]
    exact t.waiting e
  next e := by
    rw [same.calls]
    exact t.next e
  numbered := t.numbered
  settled v hv := same.single (t.settled v hv)
  refused hmem := same.outcome (t.refused hmem)
  distinct := t.distinct
  known v hv := Nat.lt_of_lt_of_le (t.known v hv) same.length
  registry v hv := (t.registry v hv).trans (same.registry _ (t.known v hv)).symm

theorem refuse (t : Tracks w h) (error : CallError) :
    Tracks (w.failed error).2 (h ++ [.refused (w.failed error).1 error]) := by
  have same := SameCalls.failed w error
  refine t.decided rfl (.refuse error) (fun e => ?_) (fun e => ?_) same.registry same.length
    (fun v hv => ?_) ?_
  · rw [same.calls, t.waiting]
    exact congrArg _ (List.filter_true _).symm
  · rw [same.calls]
  · show (w.failed error).2.futures.Single v.1.future (v.2.or none)
    rw [Option.or_none]
    exact same.single (t.settled v hv)
  · rintro f error' ⟨⟩
    exact (Futures.single_ready w.futures (.error error)).outcome?

/-! ### The entries of the pending table -/

theorem entry_mem (t : Tracks w h) {v : AsyncCall α × Option (Outcome α)} (hv : v ∈ verdicts h)
    (hnone : v.2 = none) : v.1.entry ∈ (w.environment v.1.environment).calls.entries := by
  rw [t.waiting]
  refine List.mem_map_of_mem (List.mem_map_of_mem (List.mem_filter.2 ⟨hv, ?_⟩))
  rw [hnone]
  exact decide_eq_true rfl

theorem of_entry_mem (t : Tracks w h) {e : EnvironmentId} {entry : CallId × Awaited α}
    (hentry : entry ∈ (w.environment e).calls.entries) :
    ∃ v ∈ verdicts h, v.2 = none ∧ v.1.environment = e ∧ v.1.entry = entry := by
  rw [t.waiting e] at hentry
  obtain ⟨c, hc, rfl⟩ := List.mem_map.1 hentry
  obtain ⟨v, hv, rfl⟩ := List.mem_map.1 hc
  obtain ⟨hv, hpending⟩ := List.mem_filter.1 hv
  obtain ⟨hnone, he⟩ := Bool.and_eq_true_iff.1 hpending
  exact ⟨v, hv, Option.isNone_iff_eq_none.1 hnone, of_decide_eq_true he, rfl⟩

/-! ### Entering a call -/

theorem future_ne_promise (t : Tracks w h) {v : AsyncCall α × Option (Outcome α)}
    (hv : v ∈ verdicts h) : v.1.future ≠ w.promise.1 :=
  Nat.ne_of_lt (t.settled v hv).lt_length

/-- The next id is not in use, so that entering a call erases none. -/
theorem erase_next (t : Tracks w h) {e : EnvironmentId}
    (few : (entered e h).length + 1 < 2 ^ 64) :
    (w.environment e).calls.erase (w.environment e).calls.next = (w.environment e).calls := by
  have unused : ∀ entry ∈ (w.environment e).calls.entries,
      entry.1 != (w.environment e).calls.next := by
    intro entry hentry
    obtain ⟨v, hv, _, he, rfl⟩ := t.of_entry_mem hentry
    have hentered : v.1 ∈ entered e h := by
      rw [entered_eq]
      exact List.mem_map_of_mem (List.mem_filter.2 ⟨hv, decide_eq_true he⟩)
    have hid := List.mem_map_of_mem (f := AsyncCall.id) hentered
    rw [t.numbered e] at hid
    obtain ⟨n, hn, hnth⟩ := List.mem_map.1 hid
    have lt := List.mem_range.1 hn
    refine bne_iff_ne.2 fun heq => ?_
    rw [t.next e] at heq
    exact absurd (nthId_inj (Nat.lt_of_le_of_lt (Nat.succ_le_of_lt lt) (Nat.lt_of_succ_lt few))
      few (hnth.trans heq)) (Nat.ne_of_lt lt)
  unfold PendingCalls.erase
  rw [List.filter_eq_self.2 unused]

/-- The tables of calls after a call has been entered. -/
theorem calls_enter (w : World σ α) {e : EnvironmentId} (decode : Decoder α)
    (known : e < w.environments.length) (e' : EnvironmentId) :
    ((w.promise.2.register e ⟨w.promise.1, decode⟩).2.environment e').calls =
      if e = e' then ((w.environment e).calls.register ⟨w.promise.1, decode⟩).2
      else (w.environment e').calls :=
  modify_get Environment.calls w.promise.2 known _ e'

theorem enter (t : Tracks w h) {e : EnvironmentId} (decode : Decoder α)
    (known : e < w.environments.length) (few : (entered e h).length + 1 < 2 ^ 64) :
    Tracks (w.promise.2.register e ⟨w.promise.1, decode⟩).2
      (h ++ [.entered (w.nextCall e decode)]) where
  waiting e' := by
    rw [undecided_entered, List.map_append, calls_enter w decode known]
    show _ = _ ++ List.map _ (if e = e' then _ else _)
    by_cases he : e = e'
    · subst he
      rw [if_pos rfl, if_pos rfl, ← t.waiting e]
      show ((w.environment e).calls.erase (w.environment e).calls.next).entries ++ _ = _
      -- the numbers have not wrapped around, so the new entry replaces none
      rw [t.erase_next few]
      rfl
    · rw [if_neg he, if_neg he, t.waiting]
      exact (List.append_nil _).symm
  next e' := by
    rw [entered_entered, List.length_append, calls_enter w decode known]
    show _ = nthId (_ + List.length (if e = e' then _ else _))
    by_cases he : e = e'
    · subst he
      rw [if_pos rfl, if_pos rfl]
      show (⟨(w.environment e).calls.next.word + 1⟩ : CallId) = _
      rw [t.next e]
      exact (nthId_succ _).symm
    · rw [if_neg he, if_neg he, t.next]
      rfl
  numbered e' := by
    rw [entered_entered, List.map_append, List.length_append, t.numbered]
    show _ ++ List.map _ (if e = e' then _ else _) =
      (List.range (_ + List.length (if e = e' then _ else _))).map nthId
    by_cases he : e = e'
    · subst he
      rw [if_pos rfl]
      show _ ++ [(w.environment e).calls.next] = (List.range (_ + 1)).map nthId
      rw [List.range_succ, List.map_append, t.next e]
      rfl
    · rw [if_neg he]
      exact List.append_nil _
  settled := by
    rw [verdicts_entered]
    refine List.forall_mem_append.2 ⟨fun v hv => ?_, ?_⟩
    · exact (Futures.lasting_single _ _).add _ (t.settled v hv)
    · rintro v (_ | ⟨_, ⟨⟩⟩)
      exact Futures.single_promise w.futures
  refused hmem := by
    cases List.mem_append.1 hmem with
    | inl before => exact (Futures.lasting_outcome _ _).add _ (t.refused before)
    | inr last => exact nomatch List.mem_singleton.1 last
  distinct := by
    rw [verdicts_entered, List.map_append]
    refine List.nodup_append.2 ⟨t.distinct, List.nodup_singleton _, fun f hf f' hf' => ?_⟩
    obtain ⟨v, hv, rfl⟩ := List.mem_map.1 hf
    rw [List.mem_singleton.1 hf']
    exact t.future_ne_promise hv
  known := by
    rw [verdicts_entered]
    have hlength := length_modify w.promise.2 e
    refine List.forall_mem_append.2 ⟨fun v hv => ?_, ?_⟩
    · exact Nat.lt_of_lt_of_eq (t.known v hv) (hlength _).symm
    · rintro v (_ | ⟨_, ⟨⟩⟩)
      exact Nat.lt_of_lt_of_eq known (hlength _).symm
  registry := by
    rw [verdicts_entered]
    have hregistry := modify_keeps Environment.registry w.promise.2 e (fun env => { env with
      calls := ((w.promise.2.environment e).calls.register ⟨w.promise.1, decode⟩).2 }) rfl
    refine List.forall_mem_append.2 ⟨fun v hv => ?_, ?_⟩
    · exact (t.registry v hv).trans (hregistry _).symm
    · rintro v (_ | ⟨_, ⟨⟩⟩)
      exact (hregistry e).symm

/-! ### Taking a call out -/

theorem mem_undecided {e : EnvironmentId} {c : AsyncCall α} (hc : c ∈ undecided e h) :
    ∃ v ∈ verdicts h, v.2 = none ∧ v.1.environment = e ∧ v.1 = c := by
  obtain ⟨v, hv, rfl⟩ := List.mem_map.1 hc
  obtain ⟨hv, hpending⟩ := List.mem_filter.1 hv
  obtain ⟨hnone, he⟩ := Bool.and_eq_true_iff.1 hpending
  exact ⟨v, hv, Option.isNone_iff_eq_none.1 hnone, of_decide_eq_true he, rfl⟩

theorem or_decides_of_missed {v : AsyncCall α × Option (Outcome α)} {x : Happening α}
    (missed : v.2 = none → v.1.decides x = none) : v.2.or (v.1.decides x) = v.2 := by
  cases hv : v.2 with
  | none => exact missed hv
  | some o => rfl

/-- **A happening for one id of one environment**: a call that is entered there under the id has the
outcome that comes from its entry, and no other call is touched. -/
structure IsFor (w : World σ α) (x : Happening α) (e : EnvironmentId) (id : CallId)
    (outcome : Awaited α → Outcome α) : Prop where
  /-- It enters no call. -/
  enters : verdicts [x] = []
  /-- It refuses no call. -/
  refuses : ∀ f error, x ≠ .refused f error
  /-- What it decides, for a call that knows the types of its environment. -/
  decides : ∀ c : AsyncCall α, c.registry = w.registry c.environment → c.decides x =
    if c.environment = e ∧ c.id = id then some (outcome ⟨c.future, c.decode⟩) else none

section

variable {x : Happening α} {e : EnvironmentId} {id : CallId} {outcome : Awaited α → Outcome α}

theorem decides_of_miss (t : Tracks w h) (isFor : IsFor w x e id outcome)
    {v : AsyncCall α × Option (Outcome α)} (hv : v ∈ verdicts h)
    (miss : ¬(v.1.environment = e ∧ v.1.id = id)) : v.1.decides x = none := by
  rw [isFor.decides v.1 (t.registry v hv), if_neg miss]

theorem decides_of_hit (t : Tracks w h) (isFor : IsFor w x e id outcome)
    {v : AsyncCall α × Option (Outcome α)} (hv : v ∈ verdicts h) (he : v.1.environment = e)
    (hid : v.1.id = id) : v.1.decides x = some (outcome ⟨v.1.future, v.1.decode⟩) := by
  rw [isFor.decides v.1 (t.registry v hv), if_pos ⟨he, hid⟩]

/-- **A happening for an id under which nothing waits** changes nothing. -/
theorem take_missed (t : Tracks w h) (isFor : IsFor w x e id outcome) (changes : Changes w [x] w)
    (missing : (w.environment e).calls.find? id = none) : Tracks w (h ++ [x]) := by
  -- an undecided call with this id would have been found
  have missed : ∀ v ∈ verdicts h, v.2 = none → v.1.decides x = none := by
    intro v hv hnone
    refine t.decides_of_miss isFor hv fun hit => ?_
    have hentry := t.entry_mem hv hnone
    rw [hit.1] at hentry
    exact absurd (beq_iff_eq.2 hit.2)
      (List.find?_eq_none.1 (Option.map_eq_none_iff.1 missing) _ hentry)
  refine t.decided isFor.enters changes (fun e' => ?_) (fun _ => rfl) (fun _ _ => rfl)
    (Nat.le_refl _) (fun v hv => ?_) fun f error hf => absurd hf (isFor.refuses f error)
  · rw [t.waiting e', List.filter_eq_self.2 fun c hc => ?_]
    obtain ⟨v, hv, hnone, _, rfl⟩ := mem_undecided hc
    exact Option.isNone_iff_eq_none.2 (missed v hv hnone)
  · rw [or_decides_of_missed (missed v hv)]
    exact t.settled v hv

/-- Taking an id out of a table leaves the calls that the happening for the id does not decide. -/
theorem entries_erase (t : Tracks w h) (isFor : IsFor w x e id outcome) (e' : EnvironmentId) :
    (if e = e' then (w.environment e).calls.erase id else (w.environment e').calls).entries =
      ((undecided e' h).filter fun c => (c.decides x).isNone).map AsyncCall.entry := by
  by_cases he : e = e'
  · subst he
    rw [if_pos rfl]
    show (w.environment e).calls.entries.filter (·.1 != id) = _
    rw [t.waiting e, List.filter_map]
    refine congrArg _ (List.filter_congr fun c hc => ?_)
    obtain ⟨v, hv, _, he, rfl⟩ := mem_undecided hc
    show (v.1.id != id) = (v.1.decides x).isNone
    by_cases hid : v.1.id = id
    · rw [t.decides_of_hit isFor hv he hid, hid]
      exact bne_self_eq_false id
    · rw [t.decides_of_miss isFor hv fun hit => hid hit.2]
      exact bne_iff_ne.2 hid
  · rw [if_neg he, t.waiting e', List.filter_eq_self.2 fun c hc => ?_]
    obtain ⟨v, hv, _, he', rfl⟩ := mem_undecided hc
    rw [t.decides_of_miss isFor hv fun hit => he (hit.1.symm.trans he')]
    rfl

/-- Settling the future of the call that waits settles no other one. -/
theorem single_settle (t : Tracks w h) (few : ∀ e, (entered e h).length < 2 ^ 64)
    (isFor : IsFor w x e id outcome) {v₀ v : AsyncCall α × Option (Outcome α)}
    (hv₀ : v₀ ∈ verdicts h) (hnone₀ : v₀.2 = none) (he₀ : v₀.1.environment = e)
    (hid₀ : v₀.1.id = id) (hv : v ∈ verdicts h) :
    (w.futures.settle v₀.1.future (outcome ⟨v₀.1.future, v₀.1.decode⟩)).Single v.1.future
      (v.2.or (v.1.decides x)) := by
  by_cases hv₀v : v = v₀
  · subst hv₀v
    rw [t.decides_of_hit isFor hv he₀ hid₀, hnone₀]
    exact (hnone₀ ▸ t.settled v hv).settle _
  · -- no other call has this id there, and every call has a future of its own
    have missed : v.1.decides x = none := t.decides_of_miss isFor hv fun hit =>
      hv₀v (t.eq_of_id few hv hv₀ (hit.1.trans he₀.symm) (hit.2.trans hid₀.symm))
    rw [or_decides_of_missed fun _ => missed]
    exact (t.settled v hv).settle_ne
      (fun hf => hv₀v (List.inj_on_of_nodup_map t.distinct hv hv₀ hf.symm)) _

/-- **A happening for one id of one environment** ends the call that waits there, if there is one,
and nothing else. -/
theorem take (t : Tracks w h) (few : ∀ e, (entered e h).length < 2 ^ 64)
    (isFor : IsFor w x e id outcome) (changes : Changes w [x] (w.takeCall e id outcome).2) :
    Tracks (w.takeCall e id outcome).2 (h ++ [x]) := by
  cases hfound : (w.environment e).calls.find? id with
  | none =>
    rw [takeCall_of_none hfound] at changes ⊢
    exact t.take_missed isFor changes hfound
  | some held =>
    rw [takeCall_of_some hfound] at changes ⊢
    obtain ⟨entry, hentry, hheld⟩ := Option.map_eq_some_iff.1 hfound
    obtain ⟨v₀, hv₀, hnone₀, he₀, rfl⟩ := t.of_entry_mem (List.mem_of_find?_eq_some hentry)
    have hid₀ : v₀.1.id = id := beq_iff_eq.1 (List.find?_some hentry :)
    subst hheld
    have known : e < w.environments.length := he₀ ▸ t.known v₀ hv₀
    have hcalls := modify_get Environment.calls w known
      fun env => { env with calls := (w.environment e).calls.erase id }
    refine t.decided isFor.enters changes (fun e' => ?_) (fun e' => ?_)
      (fun e' _ => modify_keeps Environment.registry w e
        (fun env => { env with calls := (w.environment e).calls.erase id }) rfl e')
      (Nat.le_of_eq (length_modify w e _).symm)
      (fun v hv => t.single_settle few isFor hv₀ hnone₀ he₀ hid₀ hv)
      fun f error hf => absurd hf (isFor.refuses f error)
    · exact (congrArg PendingCalls.entries (hcalls e')).trans (t.entries_erase isFor e')
    · refine (congrArg PendingCalls.next (hcalls e')).trans ?_
      by_cases he : e = e'
      · rw [if_pos he, ← he]
        rfl
      · rw [if_neg he]

end

theorem reject (t : Tracks w h) (few : ∀ e, (entered e h).length < 2 ^ 64) (e : EnvironmentId)
    (id : CallId) (error : TransportError) :
    Tracks (w.takeCall e id fun _ => .error (.ofTransport error)).2
      (h ++ [.rejected e id error]) :=
  t.take few ⟨rfl, by rintro _ _ ⟨⟩, fun _ _ => rfl⟩ (.reject e id error)

theorem reply (t : Tracks w h) (few : ∀ e, (entered e h).length < 2 ^ 64) (d : Delivery) :
    Tracks (w.deliver d).2 (h ++ [.replied d]) := by
  refine t.take few ⟨rfl, by rintro _ _ ⟨⟩, fun c hc => ?_⟩ (.reply d)
  show (if _ then _ else _) = _
  by_cases hit : c.environment = d.sink.environment ∧ c.id = d.call
  · rw [if_pos hit, if_pos hit, hc, hit.1]
  · rw [if_neg hit, if_neg hit]

/-! ### Closing an environment -/

/-- Closing an environment leaves the calls of the others. -/
theorem undecided_closed (e e' : EnvironmentId) :
    ((undecided e' h).filter fun c => (c.decides (.closed e)).isNone) =
      if e = e' then [] else undecided e' h := by
  by_cases he : e = e'
  · rw [if_pos he]
    refine List.filter_eq_nil_iff.2 fun c hc => ?_
    obtain ⟨v, _, _, he', rfl⟩ := mem_undecided hc
    show ¬(if v.1.environment = e then some _ else none).isNone
    rw [if_pos (he'.trans he.symm)]
    exact Bool.false_ne_true
  · rw [if_neg he]
    refine List.filter_eq_self.2 fun c hc => ?_
    obtain ⟨v, _, _, he', rfl⟩ := mem_undecided hc
    show (if v.1.environment = e then some _ else none).isNone
    rw [if_neg fun h => he (h.symm.trans he')]
    rfl

/-- Abandoning all that wait in an environment settles the futures of its undecided calls only. -/
theorem single_abandonAll (t : Tracks w h) (e : EnvironmentId)
    {v : AsyncCall α × Option (Outcome α)} (hv : v ∈ verdicts h) :
    ((w.environment e).calls.entries.foldl (fun fs entry => fs.abandon entry.2.future)
      w.futures).Single v.1.future (v.2.or (v.1.decides (.closed e))) := by
  show Futures.Single _ v.1.future
    (v.2.or (if v.1.environment = e then some (.error .abandoned) else none))
  have settled := t.settled v hv
  by_cases he : v.1.environment = e
  · rw [if_pos he]
    cases hv2 : v.2 with
    | none =>
      rw [hv2] at settled
      exact settled.abandonAll _ _ ⟨v.1.entry, he ▸ t.entry_mem hv hv2, rfl⟩
    | some o =>
      rw [hv2] at settled
      exact settled.abandonAll_of_some _ _
  · rw [if_neg he, Option.or_none]
    refine settled.abandonAll_ne _ _ fun entry hentry hf => ?_
    -- a waiting call of this environment has a future of its own
    obtain ⟨v', hv', _, he', rfl⟩ := t.of_entry_mem hentry
    exact he (List.inj_on_of_nodup_map t.distinct hv' hv hf ▸ he')

/-- **Closing an environment** ends the calls that still wait there, and nothing else. -/
theorem close (t : Tracks w h) (e : EnvironmentId) (last : (w.environment e).owners = 1) :
    Tracks (w.dropOwner e) (h ++ [.closed e]) := by
  have changes := Changes.close e last
  rw [dropOwner_of_last w last] at changes ⊢
  have known : e < w.environments.length :=
    lt_of_isAlive (decide_eq_true (last ▸ Nat.zero_lt_one))
  let count : Environment α → Environment α := fun env => { env with owners := env.owners - 1 }
  let counted := w.modify e count
  have hcounted : e < counted.environments.length :=
    Nat.lt_of_lt_of_eq known (length_modify w e _).symm
  refine t.decided rfl changes (fun e' => ?_) (fun e' => ?_) (fun e' _ => ?_) ?_
    (fun v hv => t.single_abandonAll e hv) (fun _ _ h => nomatch h)
  · rw [undecided_closed]
    show ((counted.modify e Environment.shutDown).environment e').calls.entries = _
    by_cases he : e = e'
    · subst he
      rw [environment_modify_self counted hcounted, if_pos rfl]
      rfl
    · rw [environment_modify_ne counted he, environment_modify_ne w he, if_neg he]
      exact t.waiting e'
  · exact (modify_keeps (fun env => env.calls.next) counted e Environment.shutDown rfl e').trans
      (modify_keeps (fun env => env.calls.next) w e count rfl e')
  · exact (modify_keeps Environment.registry counted e Environment.shutDown rfl e').trans
      (modify_keeps Environment.registry w e count rfl e')
  · exact Nat.le_of_eq
      ((length_modify counted e Environment.shutDown).trans (length_modify w e _)).symm

end Tracks

/-- **Every change keeps the invariant**, as long as no environment has made too many calls. -/
theorem Changes.tracks {h' : List (Happening α)} (changes : Changes w h' w') :
    ∀ {h}, Tracks w h → (∀ e, (entered e (h ++ h')).length < 2 ^ 64) → Tracks w' (h ++ h') := by
  induction changes with
  | same same => exact fun t _ => (List.append_nil _).symm ▸ t.same same
  | refuse error => exact fun t _ => t.refuse error
  | @enter w₀ e decode known =>
    intro h t few
    refine t.enter decode known ?_
    have fewer := few e
    have here : (w₀.nextCall e decode).environment = e := rfl
    rw [entered_entered, List.length_append, if_pos here] at fewer
    exact fewer
  | reject e id error => exact fun t few => t.reject (few_of_append few) e id error
  | reply d => exact fun t few => t.reply (few_of_append few) d
  | close e last => exact fun t _ => t.close e last
  | andThen _ _ ih ih' =>
    intro h t few
    rw [← List.append_assoc] at few ⊢
    exact ih' (ih t (few_of_append few)) few

/-- **A world reached by a run shows what happened in it.** -/
theorem Run.tracks {eng : Engine σ} {s : σ} (run : Run eng (ofEngine s) h w)
    (few : ∀ e, (entered e h).length < 2 ^ 64) : Tracks w h :=
  run.changes.tracks (h := []) (tracks_start s) few

/-- The calls that wait are the ones whose futures are still pending. -/
theorem Tracks.size_calls (t : Tracks w h) (e : EnvironmentId) :
    (w.environment e).calls.size =
      (entered e h).countP fun c => !w.futures.isReady c.future := by
  unfold PendingCalls.size
  rw [t.waiting e, entered_eq, List.length_map, List.countP_map, List.countP_filter]
  unfold undecided
  rw [List.length_map, ← List.countP_eq_length_filter]
  refine List.countP_congr fun v hv => ?_
  have ready : w.futures.isReady v.1.future = v.2.isSome :=
    congrArg Option.isSome (t.settled v hv).outcome?
  show _ ↔ (!w.futures.isReady v.1.future && decide (v.1.environment = e)) = true
  rw [ready, Option.not_isSome]

/-- **Every asynchronous call completes once, and by what is for it.** In every run in which no
environment makes 2 ^ 64 calls or more, the ids of one environment are distinct, and an outcome
that a future has stays its outcome in every further run. The future of a call that was refused has
failed with the error. The future of a call that was entered has the outcome that the first
happening for the call decided, and is pending as long as there was none: the rejection of the
call, a reply to its own environment under its own id, or the end of the environment. The pending
table of an environment counts the calls whose futures are pending. -/
theorem Run.completes_once {eng : Engine σ} {s : σ} (run : Run eng (ofEngine s) h w)
    (few : ∀ e, (entered e h).length < 2 ^ 64) :
    (∀ e, ((entered e h).map AsyncCall.id).Nodup) ∧
    (∀ h' w', Run eng w h' w' → ∀ f o,
      w.futures.outcome? f = some o → w'.futures.outcome? f = some o) ∧
    (∀ f error, .refused f error ∈ h → w.futures.outcome? f = some (.error error)) ∧
    (∀ before c after, h = before ++ .entered c :: after →
      w.futures.outcome? c.future = after.findSome? c.decides) ∧
    ∀ e, (w.environment e).calls.size =
      (entered e h).countP fun c => !w.futures.isReady c.future := by
  have t := run.tracks few
  refine ⟨fun e => t.nodup_ids (few e), fun _ _ further _ _ => further.changes.outcome,
    fun _ _ => t.refused, ?_, t.size_calls⟩
  rintro before c after rfl
  exact (t.settled _ (mem_verdicts before c after)).outcome?

end World

theorem length_entered_le (e : EnvironmentId) (h : List (Happening α)) :
    (entered e h).length ≤ h.length := by
  induction h with
  | nil => exact Nat.le_refl 0
  | cons x h ih =>
    cases x with
    | entered c =>
      show (if c.environment = e then c :: entered e h else entered e h).length ≤ h.length + 1
      by_cases hc : c.environment = e
      · rw [if_pos hc]
        exact Nat.succ_le_succ ih
      · rw [if_neg hc]
        exact Nat.le_succ_of_le ih
    | _ => exact Nat.le_succ_of_le ih

namespace Sample

/-- An engine that holds calls back. -/
def heldBack : Scripted :=
  { Scripted.start with replies := [{ ScriptedReply.blank with hold := true }] }

/-- Two environments on it. -/
def twoEnvironments : World Scripted Int32 :=
  (((World.ofEngine heldBack).addEnvironment .standard .empty).2.addEnvironment .standard .empty).2

/-- An object as an environment reaches it. -/
def seventh (e : EnvironmentId) : Target := ⟨e, ⟨e, ⟨7⟩⟩⟩

/-- A number as the result. -/
def number : Decoder Int32 := fun _ => Reader.int32

/-- The world after each environment has submitted a call. -/
def bothSubmitted : World Scripted Int32 :=
  let w := (twoEnvironments.submit Scripted.engine (seventh 0) 1 .none number).2
  (w.submit Scripted.engine (seventh 1) 1 .none number).2

/-- The calls that the environments have submitted. They have the same id. -/
def submittedCall (e : EnvironmentId) : AsyncCall Int32 := ⟨e, ⟨1⟩, e, number, .empty⟩

/-- A reply to the first call of an environment. -/
def firstReply (e : EnvironmentId) (n : UInt8) : Delivery := ⟨⟨e⟩, ⟨1⟩, ⟨0, .ofBytes [n, 0, 0, 0]⟩⟩

/-- The second environment gets a reply twice, the first is closed and gets one too late. -/
def crossedWorld : World Scripted Int32 :=
  let w := (bothSubmitted.deliver (firstReply 1 20)).2
  let w := (w.deliver (firstReply 1 30)).2.dropOwner 0
  (w.deliver (firstReply 0 10)).2

/-- What has happened in it. -/
def crossedRecord : List (Happening Int32) :=
  [.entered (submittedCall 0), .entered (submittedCall 1), .replied (firstReply 1 20),
    .replied (firstReply 1 30), .closed 0, .replied (firstReply 0 10)]

theorem run_bothSubmitted : World.Run Scripted.engine (.ofEngine heldBack)
    [.entered (submittedCall 0), .entered (submittedCall 1)] bothSubmitted := by
  have opened : World.Run Scripted.engine (.ofEngine heldBack) [] twoEnvironments :=
    (World.Run.refl.snoc (.openEnvironment .standard .empty)).snoc
      (.openEnvironment .standard .empty)
  have first := opened.snoc (.submit (seventh 0) 1 .none number rfl)
  have second := first.snoc (.submit (seventh 1) 1 .none number rfl)
  exact second

theorem run_crossed : World.Run Scripted.engine (.ofEngine heldBack) crossedRecord crossedWorld := by
  have answered := run_bothSubmitted.snoc (.deliver (firstReply 1 20))
  have again := answered.snoc (.deliver (firstReply 1 30))
  have closed := again.snoc (.dropOwner 0 rfl)
  exact closed.snoc (.deliver (firstReply 0 10))

/-- The call of the first environment is abandoned although its reply comes later, and the call of
the second has the value of the first reply. -/
theorem completes_once_crossed :
    (∀ e, (entered e crossedRecord).length < 2 ^ 64) ∧
    crossedWorld.futures.outcome? 0 = some (.error .abandoned) ∧
    crossedWorld.futures.outcome? 1 = some (.ok (.one 20)) ∧
    (crossedWorld.environment 1).calls.size = 0 := by
  have few : ∀ e, (entered e crossedRecord).length < 2 ^ 64 := fun e =>
    Nat.lt_of_le_of_lt (length_entered_le e _) (by decide)
  obtain ⟨_, _, _, decided, counted⟩ := run_crossed.completes_once few
  have first := decided [] (submittedCall 0) _ rfl
  have second := decided [.entered (submittedCall 0)] (submittedCall 1) _ rfl
  refine ⟨few, first.trans rfl, second.trans rfl, ?_⟩
  rw [counted 1]
  show List.countP _ [submittedCall 1] = 0
  rw [List.countP_singleton, Futures.isReady, second]
  rfl

end Sample

end RemoteDispatch
