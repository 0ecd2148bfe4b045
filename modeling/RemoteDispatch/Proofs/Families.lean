import Mathlib.Data.List.Dedup
import RemoteDispatch.Engine.Scripted
import RemoteDispatch.Proofs.Pools

/-!
# Families of handles

A handle is adopted, found by its raw handle, cloned and dropped, by itself or
with a target that holds it, in any order and long after its environment has
gone. The table of an environment knows nothing of who holds which handle. It
counts, and when a count runs out the engine is told to dispose of the object.

A `Custody` keeps book of what the table cannot know: which handles there are,
which families have begun and which have ended. `Custody.Sound` says that the
counts of every table agree with the book, and that the engine has been told to
dispose of the families that have ended, in the order in which they did, and of
nothing else. Every step keeps it.
-/

namespace RemoteDispatch

/-! ## A table that counts -/

namespace HandleTable

/-- **A table counts as a function says**: it has one entry for each raw handle with a count, and no
other. -/
structure Counts (t : HandleTable) (n : RawHandle → Nat) : Prop where
  nodup : (t.families.map Prod.fst).Nodup
  entries : ∀ {raw k}, (raw, k) ∈ t.families ↔ k = n raw ∧ 0 < n raw

variable {t : HandleTable} {n : RawHandle → Nat}

theorem counts_empty : empty.Counts fun _ => 0 where
  nodup := List.nodup_nil
  entries := ⟨fun h => (nomatch h), fun h => absurd h.2 (Nat.lt_irrefl 0)⟩

theorem Counts.refs (h : t.Counts n) (raw : RawHandle) : t.refs raw = n raw := by
  unfold HandleTable.refs
  cases hfind : t.families.find? (·.1 == raw) with
  | none =>
    refine (Nat.eq_zero_of_not_pos fun live => ?_).symm
    have missed := List.find?_eq_none.1 hfind _ (h.entries.2 ⟨rfl, live⟩)
    exact missed (beq_self_eq_true raw)
  | some entry =>
    obtain ⟨raw', k⟩ := entry
    have key := List.find?_some hfind
    obtain rfl : raw' = raw := beq_iff_eq.1 key
    exact (h.entries.1 (List.mem_of_find?_eq_some hfind)).1

theorem Counts.isLive (h : t.Counts n) (raw : RawHandle) : t.isLive raw ↔ 0 < n raw := by
  unfold HandleTable.isLive
  rw [h.refs, decide_eq_true_iff]

/-- **One count changed**, to another that is not zero. -/
theorem Counts.change (h : t.Counts n) {raw : RawHandle} (live : 0 < n raw) (f : Nat → Nat)
    (hf : 0 < f (n raw)) :
    Counts ⟨t.families.map fun (r, k) => if r = raw then (r, f k) else (r, k)⟩
      fun r => if r = raw then f (n r) else n r where
  nodup := by
    have keys : (t.families.map fun (r, k) => if r = raw then (r, f k) else (r, k)).map Prod.fst =
        t.families.map Prod.fst := by
      rw [List.map_map]
      refine List.map_congr_left fun entry _ => ?_
      dsimp only [Function.comp_apply]
      split
      · rfl
      · rfl
    rw [keys]
    exact h.nodup
  entries {r k} := by
    rw [List.mem_map]
    by_cases hr : r = raw
    · subst hr
      rw [if_pos rfl]
      constructor
      · rintro ⟨⟨r', k'⟩, hmem, heq⟩
        dsimp only at heq
        split at heq
        · cases heq
          obtain ⟨rfl, _⟩ := h.entries.1 hmem
          exact ⟨rfl, hf⟩
        · next hr' =>
          cases heq
          exact absurd rfl hr'
      · rintro ⟨rfl, _⟩
        exact ⟨(r, n r), h.entries.2 ⟨rfl, live⟩, if_pos rfl⟩
    · rw [if_neg hr, ← h.entries]
      constructor
      · rintro ⟨⟨r', k'⟩, hmem, heq⟩
        dsimp only at heq
        split at heq
        · next hr' =>
          cases heq
          exact absurd hr' hr
        · cases heq
          exact hmem
      · exact fun hmem => ⟨(r, k), hmem, if_neg hr⟩

/-- **A handle more.** -/
theorem Counts.adopt (h : t.Counts n) (raw : RawHandle) :
    (t.adopt raw).Counts fun r => if r = raw then n r + 1 else n r := by
  unfold HandleTable.adopt
  by_cases live : t.isLive raw
  · rw [if_pos live]
    exact h.change ((h.isLive raw).1 live) (· + 1) (Nat.succ_pos _)
  · rw [if_neg live]
    have dead : n raw = 0 := Nat.eq_zero_of_not_pos fun pos => live ((h.isLive raw).2 pos)
    have absent : ∀ k, (raw, k) ∉ t.families := fun k hmem =>
      Nat.ne_of_gt (h.entries.1 hmem).2 dead
    refine ⟨?_, fun {r k} => ?_⟩
    · rw [List.map_append, List.nodup_append]
      refine ⟨h.nodup, List.nodup_singleton raw, ?_⟩
      rintro r hr r' hr' rfl
      obtain ⟨⟨r, k⟩, hmem, rfl⟩ := List.mem_map.1 hr
      obtain rfl := List.mem_singleton.1 hr'
      exact absent k hmem
    · rw [List.mem_append, List.mem_singleton]
      by_cases hr : r = raw
      · subst hr
        rw [if_pos rfl, dead]
        constructor
        · rintro (hmem | heq)
          · exact absurd hmem (absent k)
          · cases heq
            exact ⟨rfl, Nat.one_pos⟩
        · rintro ⟨rfl, _⟩
          exact Or.inr rfl
      · rw [if_neg hr, ← h.entries]
        refine or_iff_left fun heq => ?_
        cases heq
        exact hr rfl

/-- **A handle fewer.** The answer says whether it was the last. -/
theorem Counts.release (h : t.Counts n) {raw : RawHandle} (live : 0 < n raw) :
    (t.release raw).1.Counts (fun r => if r = raw then n r - 1 else n r) ∧
      (t.release raw).2 = decide (n raw = 1) := by
  unfold HandleTable.release
  rw [h.refs raw]
  split
  · next none => exact absurd none (Nat.ne_of_gt live)
  · next one =>
    rw [one]
    refine ⟨⟨(List.filter_sublist.map Prod.fst).nodup h.nodup, fun {r k} => ?_⟩, rfl⟩
    rw [List.mem_filter, bne_iff_ne]
    by_cases hr : r = raw
    · subst hr
      rw [if_pos rfl, one]
      exact ⟨fun hmem => absurd rfl hmem.2, fun hk => absurd hk.2 (Nat.lt_irrefl 0)⟩
    · rw [if_neg hr, ← h.entries]
      exact ⟨fun hmem => hmem.1, fun hmem => ⟨hmem, hr⟩⟩
  · next more =>
    have many : 1 < n raw := Nat.lt_of_le_of_ne live fun one => more one.symm
    exact ⟨h.change live (· - 1) (Nat.sub_pos_of_lt many), (decide_eq_false more).symm⟩

/-- The raw handles with a family are those with a count. -/
theorem Counts.mem_keys (h : t.Counts n) {raw : RawHandle} :
    raw ∈ t.families.map Prod.fst ↔ 0 < n raw := by
  rw [List.mem_map]
  constructor
  · rintro ⟨⟨r, k⟩, hmem, rfl⟩
    exact (h.entries.1 hmem).2
  · exact fun live => ⟨(raw, n raw), h.entries.2 ⟨rfl, live⟩, rfl⟩

/-- **The number of families is the number of different raw handles with a count.** -/
theorem Counts.size (h : t.Counts n) {live : List RawHandle} (hlive : ∀ r, r ∈ live ↔ 0 < n r) :
    t.size = live.dedup.length := by
  have perm : (t.families.map Prod.fst).Perm live.dedup := by
    refine (List.perm_ext_iff_of_nodup h.nodup live.nodup_dedup).2 fun r => ?_
    rw [List.mem_dedup, hlive, h.mem_keys]
  unfold HandleTable.size
  rw [← perm.length_eq, List.length_map]

end HandleTable

/-! ## An engine with a log -/

/-- **The engine with a log** of the objects it was told to dispose of, in order. Apart from that it
does what it did. -/
def Engine.logged {σ : Type} (eng : Engine σ) : Engine (σ × List RawHandle) where
  call target op input output s :=
    let (status, output, after) := eng.call target op input output s.1
    (status, output, after, s.2)
  callScalar target op value output s :=
    let (status, output, after) := eng.callScalar target op value output s.1
    (status, output, after, s.2)
  submit target op sink id input s :=
    let (accepted, after) := eng.submit target op sink id input s.1
    (accepted, after, s.2)
  create kind input output s :=
    let (status, output, after) := eng.create kind input output s.1
    (status, output, after, s.2)
  dispose raw s := (eng.dispose raw s.1, s.2 ++ [raw])

namespace World

variable {σ α β : Type} {w w' w'' : World (σ × List RawHandle) α}

/-- **The same handles are counted**, and no object has been disposed of in between. -/
structure SameHandles (w w' : World (σ × List RawHandle) α) : Prop where
  length : w.environments.length ≤ w'.environments.length
  handles : ∀ e, (w'.environment e).handles = (w.environment e).handles
  log : w'.engine.2 = w.engine.2

namespace SameHandles

/-- A change outside the environments. -/
theorem outside (h : w'.environments = w.environments) (log : w'.engine.2 = w.engine.2) :
    SameHandles w w' where
  length := Nat.le_of_eq (congrArg List.length h.symm)
  handles e := congrArg Environment.handles (environment_eq h e)
  log := log

theorem refl (w : World (σ × List RawHandle) α) : SameHandles w w := outside rfl rfl

theorem trans (h : SameHandles w w') (h' : SameHandles w' w'') : SameHandles w w'' where
  length := Nat.le_trans h.length h'.length
  handles e := (h'.handles e).trans (h.handles e)
  log := h'.log.trans h.log

/-- A change of one environment outside its table. -/
theorem modify (w : World (σ × List RawHandle) α) (e : EnvironmentId)
    {f : Environment α → Environment α}
    (hf : (f (w.environment e)).handles = (w.environment e).handles) :
    SameHandles w (w.modify e f) where
  length := Nat.le_of_eq (length_modify w e f).symm
  handles := modify_keeps Environment.handles w e f hf
  log := rfl

theorem onlyLeases (leased : OnlyLeases w w') : SameHandles w w' :=
  ⟨leased.length, leased.handles, congrArg Prod.snd leased.engine⟩

theorem respected (eng : Engine σ) :
    Respected eng.logged (SameHandles (σ := σ) (α := α)) where
  refl := refl
  trans := trans
  allocate w e := modify w e rfl
  recycle w e _ := modify w e rfl
  calls _ _ _ _ _ := outside rfl rfl
  callsScalar _ _ _ _ _ := outside rfl rfl
  creates _ _ _ _ := outside rfl rfl

theorem addEnvironment (w : World (σ × List RawHandle) α) (config : Config)
    (registry : Registry) : SameHandles w (w.addEnvironment config registry).2 where
  length := (SameCalls.addEnvironment w config registry).length
  handles e := by
    rw [environment_addEnvironment]
    split
    · next new =>
      -- the new table is empty, and so is one that is missing
      rw [environment_of_length_le (Nat.le_of_eq new.symm)]
      rfl
    · rfl
  log := rfl

theorem dropOwner (w : World (σ × List RawHandle) α) (e : EnvironmentId) :
    SameHandles w (w.dropOwner e) := by
  have counted : SameHandles w (w.modify e fun env => { env with owners := env.owners - 1 }) :=
    modify w e rfl
  by_cases last : (w.environment e).owners = 1
  · rw [dropOwner_of_last w last]
    exact counted.trans ((modify _ e rfl).trans (outside rfl rfl))
  · rw [dropOwner_of_more w last]
    exact counted

theorem takeCall (w : World (σ × List RawHandle) α) (e : EnvironmentId) (id : CallId)
    (outcome : Awaited α → Outcome α) : SameHandles w (w.takeCall e id outcome).2 := by
  unfold World.takeCall
  cases (w.environment e).calls.take id with
  | none => exact refl w
  | some taken =>
    have taken : SameHandles w (w.modify e fun env => { env with calls := taken.2 }) :=
      modify w e rfl
    exact taken.trans (outside rfl rfl)

theorem deliverAll (w : World (σ × List RawHandle) α) (ds : List Delivery) :
    SameHandles w (w.deliverAll ds) := by
  induction ds generalizing w with
  | nil => exact refl w
  | cons d ds ih => exact (takeCall w _ _ _).trans (ih _)

variable (eng : Engine σ)

theorem handIn (w : World (σ × List RawHandle) α) (t : Target) (op : Int32) (input : Bytes)
    (decode : Decoder α) : SameHandles w (w.handIn eng.logged t op input decode) := by
  have entered : SameHandles w (w.promise.2.register t.environment ⟨w.promise.1, decode⟩).2 :=
    (outside rfl rfl : SameHandles w w.promise.2).trans (modify _ _ rfl)
  unfold World.handIn
  dsimp only
  cases hsubmit : eng.logged.submit t.raw op ⟨t.environment⟩
      (w.environment t.environment).calls.next input w.engine with
  | mk accepted s =>
    have moved : SameHandles w
        ((w.promise.2.register t.environment ⟨w.promise.1, decode⟩).2.withEngine s) :=
      entered.trans (outside rfl (congrArg (fun submitted => submitted.2.2) hsubmit).symm)
    cases accepted with
    | error e => exact moved.trans (takeCall _ _ _ _)
    | ok replies => exact moved.trans (deliverAll _ replies)

theorem submit (w : World (σ × List RawHandle) α) (t : Target) (op : Int32) (encode : Encoder)
    (decode : Decoder α) : SameHandles w (w.submit eng.logged t op encode decode).2 := by
  cases written : w.written t encode with
  | error e =>
    obtain ⟨w₁, leased, hsubmit, _⟩ := submit_of_unwritten eng.logged op decode written
    rw [hsubmit]
    exact (onlyLeases leased).trans (outside rfl rfl)
  | ok input =>
    obtain ⟨w₁, leased, hsubmit, _⟩ := submit_of_written eng.logged op decode written
    rw [hsubmit]
    exact (onlyLeases leased).trans (handIn eng w₁ t op input decode)

theorem submitObject (w : World (σ × List RawHandle) α) (t : Target) (op : Int32)
    (argument : TypeRef) (payload : Datum) (result : TypeRef) (yields : Datum → α) :
    SameHandles w (w.submitObject eng.logged t op argument payload result yields).2 := by
  unfold World.submitObject
  cases checkTypes (w.registry t.environment) argument result with
  | error e => exact outside rfl rfl
  | ok _ => exact submit eng w t op _ _

end SameHandles

/-! ## Where handles come from -/

variable {w₀ : World σ α}

/-- **To find a handle is to adopt one where there is one already.** -/
theorem handle?_eq_some {e : EnvironmentId} {raw : RawHandle} {h : Handle} {w₁ : World σ α} :
    w₀.handle? e raw = some (h, w₁) ↔
      (w₀.environment e).handles.isLive raw ∧ (h, w₁) = w₀.adopt e raw := by
  have same : (w₀.modify e fun env =>
      { env with handles := (w₀.environment e).handles.adopt raw }) = (w₀.adopt e raw).2 :=
    modify_congr rfl
  unfold handle? HandleTable.get?
  split
  · next live =>
    rw [Option.map_some, same, Option.some_inj]
    exact ⟨fun h => ⟨live, h.symm⟩, fun h => h.2.symm⟩
  · next dead =>
    exact ⟨fun h => (nomatch h), fun h => absurd h.1 dead⟩

/-- **What dropping a handle does**: its table counts one fewer, and the engine disposes of the
object if it was the last. -/
theorem dropHandle_cases (eng : Engine σ) (w : World σ α) (h : Handle) :
    let released := (w.environment h.table).handles.release h.raw
    (w.dropHandle eng h).environments =
        (w.modify h.table fun env => { env with handles := released.1 }).environments ∧
      (w.dropHandle eng h).engine =
        if released.2 then eng.dispose h.raw w.engine else w.engine := by
  unfold World.dropHandle
  cases (w.environment h.table).handles.release h.raw with
  | mk handles last =>
    cases last with
    | true => exact ⟨rfl, rfl⟩
    | false => exact ⟨rfl, rfl⟩

/-- **Making an object adopts the raw handle that comes back**, and nothing else if none does. -/
theorem create_cases (eng : Engine σ) (w : World (σ × List RawHandle) α) (e : EnvironmentId)
    (kind : String) (encode : Encoder) :
    ∃ w₁, SameHandles w w₁ ∧
      ((∃ err, w.create eng.logged e kind encode = (.error err, w₁)) ∨
        ∃ raw, w.create eng.logged e kind encode =
          (.ok (w₁.attach e raw).1, (w₁.attach e raw).2)) := by
  refine ⟨_, (SameHandles.respected eng).made w e kind encode, ?_⟩
  cases came : (w.withLeases e (makeObject eng.logged e kind encode)).1 with
  | error err => exact .inl ⟨err, create_of_error came⟩
  | ok word => exact .inr ⟨⟨word.toUInt64⟩, create_of_ok came⟩

/-- So does reading a target from a message. -/
theorem readTarget_cases (w : World σ α) (e : EnvironmentId) (message : Bytes) :
    (∃ err, w.readTarget e message = (.error err, w)) ∨
      ∃ raw, w.readTarget e message = (.ok (w.attach e raw).1, (w.attach e raw).2) := by
  unfold readTarget
  cases Reader.int64.eval message with
  | error err => exact .inl ⟨_, rfl⟩
  | ok word => exact .inr ⟨⟨word.toUInt64⟩, rfl⟩

end World

/-! ## Steps and runs -/

/-- What a step means for handles. -/
inductive HandleAct where
  /-- There is one more. -/
  | gain (h : Handle)
  /-- There is one fewer. -/
  | lose (h : Handle)
  /-- There are the same. -/
  | none

/-- A target that has been made holds a handle more. -/
def HandleAct.ofMade : Except CallError Target → HandleAct
  | .error _ => none
  | .ok t => gain t.handle

/-- **A world on an engine with a log, and the book of its handles.** -/
structure Custody (σ α : Type) where
  /-- The world. -/
  world : World (σ × List RawHandle) α
  /-- The handles there are, each as often as it is held. -/
  live : List Handle
  /-- The families that have begun, in order. -/
  begun : List Handle
  /-- The families that have ended, in order. -/
  ended : List Handle

namespace Custody

variable {σ α : Type}

/-- An engine with nothing on it, and no handles. -/
def start (s : σ) : Custody σ α := ⟨.ofEngine (s, []), [], [], []⟩

/-- **The book after a step.** A family begins with the first handle and ends with the last. -/
def after (c : Custody σ α) (w : World (σ × List RawHandle) α) : HandleAct → Custody σ α
  | .gain h => ⟨w, h :: c.live, if c.live.count h = 0 then c.begun ++ [h] else c.begun, c.ended⟩
  | .lose h => ⟨w, c.live.erase h, c.begun, if c.live.count h = 1 then c.ended ++ [h] else c.ended⟩
  | .none => ⟨w, c.live, c.begun, c.ended⟩

/-- **One step**, and what it means for handles. A handle is used by whoever holds it, whether its
environment is alive or not. -/
inductive Step (eng : Engine σ) (c : Custody σ α) :
    HandleAct → World (σ × List RawHandle) α → Prop where
  | adopt (e raw) (known : e < c.world.environments.length) :
      Step eng c (.gain ⟨e, raw⟩) (c.world.adopt e raw).2
  | get {e raw h w'} (found : c.world.handle? e raw = some (h, w')) : Step eng c (.gain h) w'
  | cloneHandle {h} (held : h ∈ c.live) : Step eng c (.gain h) (c.world.cloneHandle h)
  | dropHandle {h} (held : h ∈ c.live) : Step eng c (.lose h) (c.world.dropHandle eng.logged h)
  | attach (e raw) (alive : (c.world.environment e).isAlive) :
      Step eng c (.gain ⟨e, raw⟩) (c.world.attach e raw).2
  | readTarget (e message) (alive : (c.world.environment e).isAlive) :
      Step eng c (.ofMade (c.world.readTarget e message).1) (c.world.readTarget e message).2
  | create (e kind encode) (alive : (c.world.environment e).isAlive) :
      Step eng c (.ofMade (c.world.create eng.logged e kind encode).1)
        (c.world.create eng.logged e kind encode).2
  | cloneTarget {t : Target} (held : t.handle ∈ c.live) :
      Step eng c (.gain t.handle) (c.world.cloneTarget t)
  | dropTarget {t : Target} (held : t.handle ∈ c.live) :
      Step eng c (.lose t.handle) (c.world.dropTarget eng.logged t)
  | openEnvironment (config registry) :
      Step eng c .none (c.world.addEnvironment config registry).2
  | retain (e) : Step eng c .none (c.world.retain e)
  | dropOwner (e) : Step eng c .none (c.world.dropOwner e)
  | allocate (e) : Step eng c .none (c.world.allocate e).2
  | recycle (e b) : Step eng c .none (c.world.recycle e b)
  | stream (t op input output) : Step eng c .none (c.world.stream eng.logged t op input output).2.2
  | call {β : Type} (t op encode) (decode : Decoder β) :
      Step eng c .none (c.world.call eng.logged t op encode decode).2
  | callScalar (t op value) : Step eng c .none (c.world.callScalar eng.logged t op value).2
  | submit (t op encode decode) :
      Step eng c .none (c.world.submit eng.logged t op encode decode).2
  | submitObject (t op argument payload result yields) :
      Step eng c .none (c.world.submitObject eng.logged t op argument payload result yields).2
  | deliver (d) : Step eng c .none (c.world.deliver d).2
  | engine (s) : Step eng c .none (c.world.withEngine (s, c.world.engine.2))
  | join (futures) : Step eng c .none (c.world.join futures).2
  | poll (f waker) : Step eng c .none { c.world with futures := (c.world.futures.poll f waker).2 }

/-- **Any number of steps.** -/
inductive Run (eng : Engine σ) : Custody σ α → Custody σ α → Prop where
  | refl {c} : Run eng c c
  | snoc {c₁ c₂ act w} (run : Run eng c₁ c₂) (step : Step eng c₂ act w) :
      Run eng c₁ (c₂.after w act)

/-! ## What every step keeps -/

variable {eng : Engine σ} {c c' : Custody σ α} {act : HandleAct}
  {w w' : World (σ × List RawHandle) α}

/-- **The tables and the log agree with the book.** -/
structure Sound (c : Custody σ α) : Prop where
  known : ∀ h ∈ c.live, h.table < c.world.environments.length
  counts : ∀ e, (c.world.environment e).handles.Counts fun raw => c.live.count ⟨e, raw⟩
  told : c.world.engine.2 = c.ended.map Handle.raw
  balanced : ∀ h, c.begun.count h = c.ended.count h + if 0 < c.live.count h then 1 else 0

theorem sound_start (s : σ) : (start s : Custody σ α).Sound where
  known _ h := nomatch h
  counts _ := HandleTable.counts_empty
  told := rfl
  balanced _ := rfl

/-- Nothing happens to handles. -/
theorem Sound.same (sound : c.Sound) (same : c.world.SameHandles w) : (c.after w .none).Sound where
  known h live := Nat.lt_of_lt_of_le (sound.known h live) same.length
  counts e := by
    show (w.environment e).handles.Counts _
    rw [same.handles]
    exact sound.counts e
  told := same.log.trans sound.told
  balanced := sound.balanced

theorem eq_mk_iff {h : Handle} {e : EnvironmentId} {raw : RawHandle} :
    h = ⟨e, raw⟩ ↔ h.table = e ∧ raw = h.raw := by
  constructor
  · rintro rfl
    exact ⟨rfl, rfl⟩
  · rintro ⟨rfl, rfl⟩
    rfl

/-- The book with a handle more. -/
theorem count_cons (live : List Handle) (h : Handle) (e : EnvironmentId) (raw : RawHandle) :
    (h :: live).count ⟨e, raw⟩ =
      if h.table = e ∧ raw = h.raw then live.count ⟨e, raw⟩ + 1 else live.count ⟨e, raw⟩ := by
  by_cases here : h = ⟨e, raw⟩
  · rw [if_pos (eq_mk_iff.1 here), here, List.count_cons_self]
  · rw [if_neg (mt eq_mk_iff.2 here), List.count_cons_of_ne here]

/-- The book with a handle fewer. -/
theorem count_erase (live : List Handle) (h : Handle) (e : EnvironmentId) (raw : RawHandle) :
    (live.erase h).count ⟨e, raw⟩ =
      if h.table = e ∧ raw = h.raw then live.count ⟨e, raw⟩ - 1 else live.count ⟨e, raw⟩ := by
  by_cases here : h = ⟨e, raw⟩
  · rw [if_pos (eq_mk_iff.1 here), here, List.count_erase_self]
  · rw [if_neg (mt eq_mk_iff.2 here), List.count_erase_of_ne (Ne.symm here)]

/-- A family apart from those that begin or end. -/
theorem count_append_of_ne {g h : Handle} (hg : h ≠ g) (p : Prop) [Decidable p]
    (book : List Handle) : (if p then book ++ [h] else book).count g = book.count g := by
  split
  · rw [List.count_append, List.count_singleton, beq_false_of_ne hg]
    rfl
  · rfl

/-- **A handle more**, wherever it comes from. -/
theorem Sound.gain (sound : c.Sound) {h : Handle} (known : h.table < c.world.environments.length) :
    (c.after (c.world.adopt h.table h.raw).2 (.gain h)).Sound where
  known g live := by
    show g.table < (c.world.modify h.table _).environments.length
    rw [World.length_modify]
    cases live with
    | head => exact known
    | tail _ live => exact sound.known g live
  counts e := by
    show ((c.world.modify h.table _).environment e).handles.Counts
      fun raw => (h :: c.live).count ⟨e, raw⟩
    rw [World.modify_get Environment.handles _ known]
    simp only [count_cons]
    by_cases he : h.table = e
    · subst he
      simp only [true_and, if_true]
      exact (sound.counts h.table).adopt h.raw
    · simp only [he, false_and, if_false]
      exact sound.counts e
  told := sound.told
  balanced g := by
    have before := sound.balanced g
    show (if c.live.count h = 0 then c.begun ++ [h] else c.begun).count g =
      c.ended.count g + if 0 < (h :: c.live).count g then 1 else 0
    by_cases hg : h = g
    · subst hg
      rw [List.count_cons_self, if_pos (Nat.succ_pos _)]
      split
      · next first =>
        rw [first] at before
        rw [List.count_append, List.count_singleton_self, before]
        rfl
      · next more =>
        rw [if_pos (Nat.pos_of_ne_zero more)] at before
        exact before
    · rw [List.count_cons_of_ne hg, count_append_of_ne hg, before]

theorem Sound.isLive_iff (sound : c.Sound) {e : EnvironmentId} {raw : RawHandle} :
    (c.world.environment e).handles.isLive raw ↔ ⟨e, raw⟩ ∈ c.live :=
  ((sound.counts e).isLive raw).trans List.count_pos_iff

theorem Sound.attach (sound : c.Sound) {e : EnvironmentId} {raw : RawHandle}
    (known : e < c.world.environments.length) :
    (c.after (c.world.attach e raw).2 (.gain ⟨e, raw⟩)).Sound :=
  (sound.gain (h := ⟨e, raw⟩) known).same (.modify _ e rfl)

/-- **A handle fewer.** Its family ends with the last one, and that is when the engine is told. -/
theorem Sound.lose (sound : c.Sound) {h : Handle} (held : h ∈ c.live) :
    (c.after (c.world.dropHandle eng.logged h) (.lose h)).Sound := by
  have known := sound.known h held
  obtain ⟨counts, last⟩ := (sound.counts h.table).release (List.count_pos_iff.2 held)
  obtain ⟨environments, engine⟩ := World.dropHandle_cases eng.logged c.world h
  refine ⟨fun g live => ?_, fun e => ?_, ?_, fun g => ?_⟩
  · show g.table < (c.world.dropHandle eng.logged h).environments.length
    rw [environments, World.length_modify]
    exact sound.known g (List.mem_of_mem_erase live)
  · show ((c.world.dropHandle eng.logged h).environment e).handles.Counts
      fun raw => (c.live.erase h).count ⟨e, raw⟩
    rw [World.environment_eq environments, World.modify_get Environment.handles _ known]
    simp only [count_erase]
    by_cases he : h.table = e
    · subst he
      simp only [true_and, if_true]
      exact counts
    · simp only [he, false_and, if_false]
      exact sound.counts e
  · show (c.world.dropHandle eng.logged h).engine.2 =
      (if c.live.count h = 1 then c.ended ++ [h] else c.ended).map Handle.raw
    rw [engine, last]
    by_cases one : c.live.count h = 1
    · rw [if_pos one, if_pos (decide_eq_true one), List.map_append, ← sound.told]
      rfl
    · rw [if_neg one, if_neg fun h => one (of_decide_eq_true h), sound.told]
  · have before := sound.balanced g
    show c.begun.count g = (if c.live.count h = 1 then c.ended ++ [h] else c.ended).count g +
      if 0 < (c.live.erase h).count g then 1 else 0
    by_cases hg : h = g
    · subst hg
      have pos := List.count_pos_iff.2 held
      rw [if_pos pos] at before
      rw [List.count_erase_self, before]
      by_cases one : c.live.count h = 1
      · rw [if_pos one, one, List.count_append, List.count_singleton_self]
        rfl
      · rw [if_neg one, if_pos (Nat.sub_pos_of_lt (Nat.lt_of_le_of_ne pos (Ne.symm one)))]
    · rw [List.count_erase_of_ne (Ne.symm hg), count_append_of_ne hg, before]

/-- **Every step keeps the book in agreement.** -/
theorem Step.sound (step : Step eng c act w) (sound : c.Sound) : (c.after w act).Sound := by
  have respected := World.SameHandles.respected (α := α) eng
  cases step with
  | adopt e raw known => exact sound.gain (h := ⟨e, raw⟩) known
  | @get e raw h w' found =>
    obtain ⟨live, adopted⟩ := World.handle?_eq_some.1 found
    cases adopted
    exact sound.gain (h := ⟨e, raw⟩) (sound.known _ (sound.isLive_iff.1 live))
  | cloneHandle held => exact sound.gain (sound.known _ held)
  | dropHandle held => exact sound.lose held
  | attach e raw alive => exact sound.attach (World.lt_of_isAlive alive)
  | readTarget e message alive =>
    obtain ⟨err, read⟩ | ⟨raw, read⟩ := World.readTarget_cases c.world e message
    · rw [read]
      exact sound.same (.refl _)
    · rw [read]
      exact sound.attach (World.lt_of_isAlive alive)
  | create e kind encode alive =>
    obtain ⟨w₁, same, ⟨err, made⟩ | ⟨raw, made⟩⟩ :=
      World.create_cases eng c.world e kind encode
    · rw [made]
      exact sound.same same
    · rw [made]
      have known := Nat.lt_of_lt_of_le (World.lt_of_isAlive alive) same.length
      exact (sound.same same).attach known
  | @cloneTarget t held =>
    exact (sound.gain (sound.known _ held)).same (World.SameHandles.modify _ t.environment rfl)
  | @dropTarget t held => exact (sound.same (.dropOwner c.world t.environment)).lose held
  | openEnvironment config registry => exact sound.same (.addEnvironment _ config registry)
  | retain e => exact sound.same (.modify _ e rfl)
  | dropOwner e => exact sound.same (.dropOwner _ e)
  | allocate e => exact sound.same (respected.allocate _ e)
  | recycle e b => exact sound.same (respected.recycle _ e b)
  | stream t op input output => exact sound.same (respected.stream _ t op input output)
  | call t op encode decode => exact sound.same (respected.call _ t op encode decode)
  | callScalar t op value => exact sound.same (respected.callScalar _ t op value)
  | submit t op encode decode => exact sound.same (.submit eng _ t op encode decode)
  | submitObject t op argument payload result yields =>
    exact sound.same (.submitObject eng _ t op argument payload result yields)
  | deliver d => exact sound.same (.takeCall _ _ _ _)
  | engine s => exact sound.same (.outside rfl rfl)
  | join futures => exact sound.same (.outside rfl rfl)
  | poll f waker => exact sound.same (.outside rfl rfl)

theorem Run.sound (run : Run eng c c') (sound : c.Sound) : c'.Sound := by
  induction run with
  | refl => exact sound
  | snoc _ step ih => exact step.sound ih

/-! ## What the book says -/

/-- **A step adds to the log what the book says has ended in it.** -/
theorem Sound.log (sound : c.Sound) : ∀ act w, Step eng c act w →
    w.engine.2 = c.world.engine.2 ++
      match act with
      | .lose h => if c.live.count h = 1 then [h.raw] else []
      | _ => [] := by
  intro act w step
  have after := (step.sound sound).told
  rw [sound.told]
  cases act with
  | gain h => exact after.trans (List.append_nil _).symm
  | none => exact after.trans (List.append_nil _).symm
  | lose h =>
    have after : w.engine.2 =
        (if c.live.count h = 1 then c.ended ++ [h] else c.ended).map Handle.raw := after
    rw [after]
    dsimp only
    split
    · exact List.map_append
    · exact (List.append_nil _).symm

/-- There are as many families in a table as there are objects with a handle in the book. -/
theorem Sound.size (sound : c.Sound) (e : EnvironmentId) :
    (c.world.environment e).handles.size =
      ((c.live.filter (·.table = e)).map Handle.raw).dedup.length := by
  refine (sound.counts e).size fun raw => ?_
  rw [List.count_pos_iff, List.mem_map]
  constructor
  · rintro ⟨h, held, rfl⟩
    obtain ⟨held, here⟩ := List.mem_filter.1 held
    rw [← of_decide_eq_true here]
    exact held
  · exact fun held => ⟨_, List.mem_filter.2 ⟨held, decide_eq_true rfl⟩, rfl⟩

/-- **Handles are counted by family, and a family ends with the last of them.** Whatever has been
adopted, found, cloned and dropped, in environments that live and in environments that have gone:
the count of a raw handle is the number of handles to it; a raw handle is found if and only if there
is one, and then there is one more in its family; a table has as many families as there are
different raw handles; a step tells the engine to dispose of an object if and only if it drops the
last handle to it, and of no other object; and the engine has been told of the families that have
ended, in their order, of each as often as it has begun, but for the ones that still live. -/
theorem Run.families {s : σ} (run : Run eng (.start s) c) :
    (∀ e raw, (c.world.environment e).handles.refs raw = c.live.count ⟨e, raw⟩) ∧
    (∀ e raw, (c.world.handle? e raw).isSome ↔ ⟨e, raw⟩ ∈ c.live) ∧
    (∀ e raw h w', c.world.handle? e raw = some (h, w') →
      h = ⟨e, raw⟩ ∧ (w'.environment e).handles.refs raw = c.live.count ⟨e, raw⟩ + 1) ∧
    (∀ e, (c.world.environment e).handles.size =
      ((c.live.filter (·.table = e)).map Handle.raw).dedup.length) ∧
    (∀ act w', Step eng c act w' → w'.engine.2 = c.world.engine.2 ++
      match act with
      | .lose h => if c.live.count h = 1 then [h.raw] else []
      | _ => []) ∧
    c.world.engine.2 = c.ended.map Handle.raw ∧
    ∀ h, c.begun.count h = c.ended.count h + if h ∈ c.live then 1 else 0 := by
  have sound := run.sound (sound_start s)
  refine ⟨fun e raw => (sound.counts e).refs raw, fun e raw => ?_, fun e raw h w' found => ?_,
    sound.size, sound.log, sound.told, fun h => ?_⟩
  · rw [← sound.isLive_iff, Option.isSome_iff_exists]
    constructor
    · rintro ⟨⟨h, w'⟩, found⟩
      exact (World.handle?_eq_some.1 found).1
    · exact fun live => ⟨_, World.handle?_eq_some.2 ⟨live, rfl⟩⟩
  · obtain ⟨_, adopted⟩ := World.handle?_eq_some.1 found
    have step : Step eng c (.gain h) w' := .get found
    have joined := (step.sound sound).counts e
    cases adopted
    exact ⟨rfl, (joined.refs raw).trans List.count_cons_self⟩
  · rw [sound.balanced h]
    simp only [List.count_pos_iff]

end Custody

namespace Sample

/-- A handle to the seventh object, counted by the first environment. -/
def toSeventh : Handle := ⟨0, ⟨7⟩⟩

/-- An environment has attached the object. -/
def attachedOnce : Custody Scripted Int32 :=
  let w := ((World.ofEngine (Scripted.start, [])).addEnvironment .standard .empty).2
  ⟨(w.attach 0 ⟨7⟩).2, [toSeventh], [toSeventh], []⟩

/-- The environment has found the object again, and has gone together with the target. The handle
that was found is still there. -/
def outlived : Custody Scripted Int32 :=
  let w := (attachedOnce.world.cloneHandle toSeventh).dropOwner 0
  ⟨w.dropTarget Scripted.engine.logged ⟨0, toSeventh⟩, [toSeventh], [toSeventh], []⟩

/-- The handle still counts, and the engine is told when it is dropped. -/
theorem families_outlived :
    Custody.Run Scripted.engine (.start .start) outlived ∧
      (outlived.world.environment 0).isAlive = false ∧
      (outlived.world.environment 0).handles.refs ⟨7⟩ = 1 ∧
      (outlived.world.dropHandle Scripted.engine.logged toSeventh).engine.2 = [⟨7⟩] := by
  have attached : Custody.Run Scripted.engine (.start .start) attachedOnce :=
    (Custody.Run.refl.snoc (.openEnvironment .standard .empty)).snoc (.attach 0 ⟨7⟩ rfl)
  have found : attachedOnce.world.handle? 0 ⟨7⟩ =
      some (toSeventh, attachedOnce.world.cloneHandle toSeventh) := rfl
  have run : Custody.Run Scripted.engine (.start .start) outlived :=
    ((attached.snoc (.get found)).snoc (.dropOwner 0)).snoc
      (.dropTarget (t := ⟨0, toSeventh⟩) List.mem_cons_self)
  obtain ⟨refs, _, _, _, told, _⟩ := Custody.Run.families run
  exact ⟨run, rfl, refs 0 ⟨7⟩, told _ _ (.dropHandle List.mem_cons_self)⟩

end Sample

end RemoteDispatch
