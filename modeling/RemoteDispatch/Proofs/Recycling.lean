import Mathlib.Data.List.Nodup
import Mathlib.Logic.Function.Basic
import RemoteDispatch.Call.Pool

/-!
# Buffers put to rest

A pool hands a buffer to whoever asks and takes back whatever the holder gives
back. In between the buffer is out of its sight: the holder writes into it, lets
it grow, commits what he likes, or puts a buffer of his own in its place. He may
also keep it for good, or give it back when the pool is long gone.

`PoolUse` is a pool with the leases that are out, each under a number of its
own, and a record says what has been done, lease by lease. The two checks on the
way back and the reset are all that the pool relies on, and they are enough
(`PoolUse.Run.stays_sound`): what rests in the pool is never too large, never too
much, and shows nothing, and each resting buffer came back by a lease that was
released. A lease ends once, so a buffer that was kept for good is never among
them.
-/

namespace RemoteDispatch

namespace Pool

variable {p p' : Pool} {b : Buffer} {e : CodecError}

/-- A buffer made anew shows nothing. -/
theorem length_make {c : Config} (h : make c = .ok b) : b.length = 0 := by
  have fresh : ∀ {capacity limit}, Buffer.fresh capacity limit = .ok b → b.length = 0 :=
    fun h => congrArg Buffer.length (Buffer.eq_of_fresh h)
  unfold make at h
  split at h
  · next limit _ =>
    unfold Buffer.withLimit at h
    rw [if_pos (Nat.min_le_right _ limit)] at h
    exact fresh h
  · exact fresh h

/-- A pool with an idle buffer hands it out. -/
theorem acquire_of_cons {first : Buffer} {rest : List Buffer} (h : p.idle = first :: rest) :
    p.acquire = (.ok first, { p with idle := rest }) := by
  unfold acquire
  rw [h]

/-- A pool without one makes one. -/
theorem acquire_of_nil (h : p.idle = []) : p.acquire = (make p.config, p) := by
  unfold acquire
  rw [h]

theorem acquire_cases (p : Pool) :
    (∃ first rest, p.idle = first :: rest ∧ p.acquire = (.ok first, { p with idle := rest })) ∨
      p.idle = [] ∧ p.acquire = (make p.config, p) := by
  cases h : p.idle with
  | nil => exact .inr ⟨rfl, acquire_of_nil h⟩
  | cons first rest => exact .inl ⟨first, rest, rfl, acquire_of_cons h⟩

/-- **A pool keeps a buffer** if it is open, the buffer is not too large, and there is room. -/
theorem keeps_iff : p.keeps b ↔
    p.isOpen ∧ b.capacity ≤ p.config.retainCapacity ∧ p.idle.length < p.config.poolSize := by
  unfold keeps
  rw [Bool.and_eq_true, Bool.and_eq_true, decide_eq_true_iff, decide_eq_true_iff, and_assoc]

theorem recycle_of_keeps (h : p.keeps b) : p.recycle b = { p with idle := b.reset :: p.idle } :=
  if_pos h

theorem recycle_of_not_keeps (h : ¬p.keeps b) : p.recycle b = p := if_neg h

end Pool

/-- The number of a lease. -/
abbrev LeaseId := Nat

/-- **A pool and the leases that are out.** -/
structure PoolUse where
  /-- The pool. -/
  pool : Pool
  /-- The buffer of each lease that is out. -/
  held : LeaseId → Option Buffer
  /-- The number of the next lease. -/
  next : LeaseId

namespace PoolUse

/-! ## Events and runs -/

/-- **What is done with a pool and its leases.** -/
inductive Event where
  /-- A lease starts, with a buffer. -/
  | acquired (n : LeaseId) (b : Buffer)
  /-- None starts, because there is no buffer and none can be made. -/
  | refused (e : CodecError)
  /-- The buffer of a lease is another from now on. -/
  | filled (n : LeaseId) (b : Buffer)
  /-- A lease ends with some buffer in it, which is given back. -/
  | released (n : LeaseId) (b : Buffer)
  /-- A lease ends with some buffer in it, which the holder keeps for good. -/
  | taken (n : LeaseId) (b : Buffer)
  /-- The pool is dropped. -/
  | closed
  deriving DecidableEq

/-- The lease that an event ends. -/
def Event.ends? : Event → Option LeaseId
  | released n _ | taken n _ => some n
  | _ => none

/-- The leases that have ended, in order. -/
def ended (h : List Event) : List LeaseId := h.filterMap Event.ends?

/-- A pool that nobody has used. -/
def start (c : Config) : PoolUse := ⟨.ofConfig c, fun _ => none, 0⟩

/-- **One step.** Only an open pool is asked for buffers. A lease is filled with any buffer
whatever, and its holder ends it in one way or the other. -/
inductive Step (s : PoolUse) : Event → PoolUse → Prop where
  | acquire {b} (isOpen : s.pool.isOpen) (got : s.pool.acquire.1 = .ok b) :
      Step s (.acquired s.next b)
        ⟨s.pool.acquire.2, Function.update s.held s.next (some b), s.next + 1⟩
  | refuse {e} (isOpen : s.pool.isOpen) (got : s.pool.acquire.1 = .error e) :
      Step s (.refused e) { s with pool := s.pool.acquire.2 }
  | fill {n b} (held : s.held n = some b) (b' : Buffer) :
      Step s (.filled n b') { s with held := Function.update s.held n (some b') }
  | release {n b} (held : s.held n = some b) :
      Step s (.released n b)
        { s with pool := s.pool.recycle b, held := Function.update s.held n none }
  | take {n b} (held : s.held n = some b) :
      Step s (.taken n b) { s with held := Function.update s.held n none }
  | close (isOpen : s.pool.isOpen) : Step s .closed { s with pool := s.pool.close }

/-- **Any number of steps**, with their record. -/
inductive Run (c : Config) : List Event → PoolUse → Prop where
  | start : Run c [] (start c)
  | step {h s e s'} (run : Run c h s) (step : Step s e s') : Run c (h ++ [e]) s'

/-! ## What every step keeps -/

variable {c : Config} {h : List Event} {s s' : PoolUse} {e : Event} {n : LeaseId} {b : Buffer}

/-- **The resting buffers came back by leases**: each is what was in some lease when it was released,
reset. -/
def CameBack (h : List Event) (idle : List Buffer) : Prop :=
  ∃ leases : List (LeaseId × Buffer), idle = leases.map (fun l => l.2.reset) ∧
    (leases.map Prod.fst).Nodup ∧ ∀ l ∈ leases, .released l.1 l.2 ∈ h

/-- **What a pool keeps**, by the record of what has been done. -/
structure Rests (c : Config) (h : List Event) (p : Pool) : Prop where
  config : p.config = c
  /-- There are no more idle buffers than may be. -/
  few : p.idle.length ≤ c.poolSize
  /-- They show nothing and are not too large. -/
  resting : ∀ b ∈ p.idle, b.length = 0 ∧ b.capacity ≤ c.retainCapacity
  /-- They came back by leases. -/
  cameBack : CameBack h p.idle
  /-- The pool is open until it is dropped. -/
  open_iff : p.isOpen ↔ .closed ∉ h
  /-- After that it holds no buffers. -/
  closed : ¬p.isOpen → p.idle = []

/-- **What the leases keep.** -/
structure Out (h : List Event) (s : PoolUse) : Prop where
  /-- A lease that is out has not ended. -/
  live : ∀ {n b}, s.held n = some b → n ∉ ended h
  /-- The leases so far have the numbers up to the next one. -/
  numbered : ∀ n, s.held n ≠ none ∨ n ∈ ended h → n < s.next
  /-- A lease ends once. -/
  once : (ended h).Nodup

/-- **Pool and leases are in order.** -/
structure Sound (c : Config) (h : List Event) (s : PoolUse) : Prop extends
    Rests c h s.pool, Out h s

theorem ended_snoc (h : List Event) (e : Event) : ended (h ++ [e]) = ended h ++ e.ends?.toList := by
  unfold ended
  rw [List.filterMap_append]
  cases he : e.ends? with
  | none => rw [List.filterMap_cons_none he, List.filterMap_nil, Option.toList_none]
  | some n => rw [List.filterMap_cons_some he, List.filterMap_nil, Option.toList_some]

theorem sound_start (c : Config) : Sound c [] (start c) where
  config := rfl
  few := Nat.zero_le _
  resting _ hb := nomatch hb
  cameBack := ⟨[], rfl, List.nodup_nil, fun _ hl => nomatch hl⟩
  open_iff := ⟨fun _ => nofun, fun _ => rfl⟩
  closed _ := rfl
  live hn := nomatch hn
  numbered _ hn := hn.elim (absurd rfl) nofun
  once := List.nodup_nil

/-! ### The buffers at rest -/

theorem CameBack.mono {idle : List Buffer} (came : CameBack h idle) (e : Event) :
    CameBack (h ++ [e]) idle := by
  obtain ⟨leases, same, distinct, released⟩ := came
  exact ⟨leases, same, distinct, fun l hl => List.mem_append_left _ (released l hl)⟩

theorem CameBack.tail {first : Buffer} {rest : List Buffer} (came : CameBack h (first :: rest)) :
    CameBack h rest := by
  obtain ⟨leases, same, distinct, released⟩ := came
  cases leases with
  | nil => cases same
  | cons l leases =>
    exact ⟨leases, (List.cons.inj same).2, (List.nodup_cons.1 distinct).2,
      fun l' hl' => released l' (List.mem_cons_of_mem l hl')⟩

/-- A lease that has not ended before may bring one more buffer. -/
theorem CameBack.cons {idle : List Buffer} (came : CameBack h idle) (live : n ∉ ended h)
    (b : Buffer) : CameBack (h ++ [.released n b]) (b.reset :: idle) := by
  obtain ⟨leases, same, distinct, released⟩ := came
  have new : n ∉ leases.map Prod.fst := by
    intro hn
    obtain ⟨l, hl, rfl⟩ := List.mem_map.1 hn
    exact live (List.mem_filterMap.2 ⟨_, released l hl, rfl⟩)
  refine ⟨(n, b) :: leases, ?_, List.nodup_cons.2 ⟨new, distinct⟩, fun l hl => ?_⟩
  · rw [List.map_cons, same]
  · cases hl with
    | head => exact List.mem_append_right _ List.mem_cons_self
    | tail _ hl => exact List.mem_append_left _ (released l hl)

namespace Rests

variable {p : Pool}

/-- Nothing happens to the pool. -/
theorem same (rests : Rests c h p) (goesOn : e ≠ .closed) : Rests c (h ++ [e]) p where
  config := rests.config
  few := rests.few
  resting := rests.resting
  cameBack := rests.cameBack.mono e
  open_iff := by
    rw [rests.open_iff, List.mem_append, List.mem_singleton, or_iff_left (Ne.symm goesOn)]
  closed := rests.closed

/-- A buffer is asked for. -/
theorem acquire (rests : Rests c h p) (goesOn : e ≠ .closed) :
    Rests c (h ++ [e]) p.acquire.2 := by
  obtain ⟨first, rest, idle, acquired⟩ | ⟨idle, acquired⟩ := p.acquire_cases
  · have after := rests.same goesOn
    have few := after.few
    have resting := after.resting
    have came := after.cameBack
    rw [idle] at few resting came
    rw [acquired]
    refine ⟨after.config, Nat.le_of_succ_le few,
      fun b hb => resting b (List.mem_cons_of_mem first hb), came.tail, after.open_iff, ?_⟩
    intro shut
    have none := after.closed shut
    rw [idle] at none
    cases none
  · rw [acquired]
    exact rests.same goesOn

/-- A buffer is given back. -/
theorem release (rests : Rests c h p) (live : n ∉ ended h) (b : Buffer) :
    Rests c (h ++ [.released n b]) (p.recycle b) := by
  have after : Rests c (h ++ [.released n b]) p := rests.same nofun
  by_cases keeps : p.keeps b
  · obtain ⟨isOpen, small, room⟩ := Pool.keeps_iff.1 keeps
    rw [rests.config] at small room
    rw [Pool.recycle_of_keeps keeps]
    refine ⟨after.config, room, fun b' hb => ?_, rests.cameBack.cons live b, after.open_iff,
      fun shut => absurd isOpen shut⟩
    cases hb with
    | head => exact ⟨rfl, small⟩
    | tail _ hb => exact after.resting b' hb
  · rw [Pool.recycle_of_not_keeps keeps]
    exact after

/-- The pool is dropped. -/
theorem close (rests : Rests c h p) : Rests c (h ++ [.closed]) p.close where
  config := rests.config
  few := Nat.zero_le _
  resting _ hb := nomatch hb
  cameBack := ⟨[], rfl, List.nodup_nil, fun _ hl => nomatch hl⟩
  open_iff := ⟨nofun, fun goesOn => absurd (List.mem_append_right _ List.mem_cons_self) goesOn⟩
  closed _ := rfl

end Rests

/-! ### The leases -/

namespace Out

/-- Something is done that ends no lease. -/
theorem same (out : Out h s) (goesOn : e.ends? = none) {held : LeaseId → Option Buffer}
    {next : LeaseId} {pool : Pool} (more : s.next ≤ next)
    (known : ∀ n, held n ≠ none → n ∉ ended h ∧ n < next) : Out (h ++ [e]) ⟨pool, held, next⟩ where
  live hn := by
    rw [ended_snoc, goesOn, Option.toList_none, List.append_nil]
    exact (known _ (ne_of_eq_of_ne hn (Option.some_ne_none _))).1
  numbered n hn := by
    rw [ended_snoc, goesOn, Option.toList_none, List.append_nil] at hn
    exact hn.elim (fun out => (known n out).2)
      fun gone => Nat.lt_of_lt_of_le (out.numbered n (.inr gone)) more
  once := by
    rw [ended_snoc, goesOn, Option.toList_none, List.append_nil]
    exact out.once

theorem known (out : Out h s) (n : LeaseId) (held : s.held n ≠ none) :
    n ∉ ended h ∧ n < s.next := by
  obtain ⟨b, hb⟩ := Option.ne_none_iff_exists'.1 held
  exact ⟨out.live hb, out.numbered n (.inl held)⟩

/-- A lease starts. -/
theorem acquire (out : Out h s) (b : Buffer) (pool : Pool) :
    Out (h ++ [.acquired s.next b])
      ⟨pool, Function.update s.held s.next (some b), s.next + 1⟩ := by
  refine out.same rfl (Nat.le_succ _) fun n held => ?_
  by_cases new : n = s.next
  · subst new
    exact ⟨fun gone => Nat.lt_irrefl _ (out.numbered _ (.inr gone)), Nat.lt_succ_self _⟩
  · rw [Function.update_of_ne new] at held
    exact ⟨(out.known n held).1, Nat.lt_succ_of_lt (out.known n held).2⟩

/-- A lease is filled with another buffer. -/
theorem fill (out : Out h s) (held : s.held n = some b) (b' : Buffer) :
    Out (h ++ [.filled n b']) { s with held := Function.update s.held n (some b') } := by
  refine out.same rfl (Nat.le_refl _) fun m hm => ?_
  by_cases this : m = n
  · subst this
    exact out.known m (held ▸ Option.some_ne_none b)
  · rw [Function.update_of_ne this] at hm
    exact out.known m hm

/-- A lease ends. -/
theorem finish (out : Out h s) (ends : e.ends? = some n) (held : s.held n = some b) (pool : Pool) :
    Out (h ++ [e]) ⟨pool, Function.update s.held n none, s.next⟩ where
  live {m b'} hm := by
    dsimp only at hm
    have other : m ≠ n := by
      rintro rfl
      rw [Function.update_self] at hm
      cases hm
    rw [Function.update_of_ne other] at hm
    rw [ended_snoc, ends, List.mem_append]
    exact fun gone => gone.elim (out.live hm) fun last => other (List.mem_singleton.1 last)
  numbered m hm := by
    rw [ended_snoc, ends, List.mem_append] at hm
    rcases hm with held' | gone | last
    · dsimp only at held'
      by_cases this : m = n
      · subst this
        exact absurd (Function.update_self ..) held'
      · rw [Function.update_of_ne this] at held'
        exact out.numbered m (.inl held')
    · exact out.numbered m (.inr gone)
    · obtain rfl := List.mem_singleton.1 last
      exact out.numbered m (.inl (held ▸ Option.some_ne_none b))
  once := by
    rw [ended_snoc, ends, Option.toList_some, ← List.concat_eq_append]
    exact out.once.concat (out.live held)

end Out

/-- **Every step keeps pool and leases in order.** -/
theorem Step.sound (step : Step s e s') (sound : Sound c h s) : Sound c (h ++ [e]) s' := by
  obtain ⟨rests, out⟩ := sound
  cases step with
  | acquire _ _ => exact ⟨rests.acquire nofun, out.acquire _ _⟩
  | refuse _ _ => exact ⟨rests.acquire nofun, out.same rfl (Nat.le_refl _) out.known⟩
  | fill held b' => exact ⟨rests.same nofun, out.fill held b'⟩
  | release held => exact ⟨rests.release (out.live held) _, out.finish rfl held _⟩
  | take held => exact ⟨rests.same nofun, out.finish rfl held _⟩
  | close _ => exact ⟨rests.close, out.same rfl (Nat.le_refl _) out.known⟩

/-- So does a whole run. -/
theorem Run.sound (run : Run c h s) : Sound c h s := by
  induction run with
  | start => exact sound_start c
  | step _ step ih => exact step.sound ih

/-! ## What each step does -/

/-- **What an event must be**, by what the pool and the leases were before it. -/
def Event.Fits (c : Config) (s s' : PoolUse) : Event → Prop
  | acquired n b =>
    s.held n = none ∧ s'.held n = some b ∧ b.length = 0 ∧
      ((∃ rest, s.pool.idle = b :: rest ∧ s'.pool.idle = rest) ∨
        s.pool.idle = [] ∧ s'.pool.idle = [] ∧ Pool.make c = .ok b)
  | refused e => s.pool.idle = [] ∧ s'.pool = s.pool ∧ Pool.make c = .error e
  | filled n b => s'.pool = s.pool ∧ s'.held n = some b
  | released n b =>
    s.held n = some b ∧ s'.held n = none ∧
      (s.pool.isOpen ∧ b.capacity ≤ c.retainCapacity ∧ s.pool.idle.length < c.poolSize →
        s'.pool.idle = b.reset :: s.pool.idle) ∧
      (¬(s.pool.isOpen ∧ b.capacity ≤ c.retainCapacity ∧ s.pool.idle.length < c.poolSize) →
        s'.pool = s.pool)
  | taken n b => s'.pool = s.pool ∧ s.held n = some b ∧ s'.held n = none
  | closed => s'.pool.idle = [] ∧ s'.held = s.held

/-- The lease that an event is about. -/
def Event.lease? : Event → Option LeaseId
  | acquired n _ | filled n _ | released n _ | taken n _ => some n
  | refused _ | closed => none

/-- **Every step is what it must be**, and leaves all other leases alone. -/
theorem Step.fits (step : Step s e s') (sound : Sound c h s) :
    e.Fits c s s' ∧ ∀ n, e.lease? ≠ some n → s'.held n = s.held n := by
  have elsewhere : ∀ {n m : LeaseId} {b : Option Buffer}, (some n : Option LeaseId) ≠ some m →
      Function.update s.held n b m = s.held m := fun other =>
    Function.update_of_ne (fun same => other (congrArg some same.symm)) _ _
  cases step with
  | @acquire b isOpen got =>
    refine ⟨⟨?_, Function.update_self .., ?_⟩, fun n => elsewhere⟩
    · exact Classical.byContradiction fun held => Nat.lt_irrefl _ (sound.numbered _ (.inl held))
    · obtain ⟨first, rest, idle, acquired⟩ | ⟨idle, acquired⟩ := s.pool.acquire_cases
      · rw [acquired] at got ⊢
        cases got
        have shown := (sound.resting b (idle ▸ List.mem_cons_self)).1
        exact ⟨shown, .inl ⟨rest, idle, rfl⟩⟩
      · rw [acquired] at got ⊢
        rw [← sound.config]
        exact ⟨Pool.length_make got, .inr ⟨idle, idle, got⟩⟩
  | @refuse e isOpen got =>
    refine ⟨?_, fun _ _ => rfl⟩
    obtain ⟨first, rest, idle, acquired⟩ | ⟨idle, acquired⟩ := s.pool.acquire_cases
    · rw [acquired] at got
      cases got
    · rw [acquired] at got
      rw [acquired, ← sound.config]
      exact ⟨idle, rfl, got⟩
  | fill held b' => exact ⟨⟨rfl, Function.update_self ..⟩, fun n => elsewhere⟩
  | @release n b held =>
    rw [← sound.config]
    refine ⟨⟨held, Function.update_self .., fun keeps => ?_, fun keeps => ?_⟩, fun n => elsewhere⟩
    · exact congrArg Pool.idle (Pool.recycle_of_keeps (Pool.keeps_iff.2 keeps))
    · exact Pool.recycle_of_not_keeps (mt Pool.keeps_iff.1 keeps)
  | take held => exact ⟨⟨rfl, held, Function.update_self ..⟩, fun n => elsewhere⟩
  | close _ => exact ⟨⟨rfl, rfl⟩, fun _ _ => rfl⟩

/-- **A pool stays sound whatever is done with its leases.** There are never more idle buffers than
may be, and each shows nothing, is not too large, and came back by a lease that was released, one for
each. A lease ends once, so a buffer that was taken for good is not among them. A pool that has been
dropped has none. And each step from there is what it must be: whoever asks gets an idle buffer if
there is one, and otherwise a new one if it can be made, and it shows nothing. A buffer that is
released rests if it is not too large, there is room and the pool is there, and in all other cases
changes nothing. Neither filling a lease nor taking its buffer changes the pool. No step changes
what is in the other leases, and dropping the pool changes it in none. -/
theorem Run.stays_sound (run : Run c h s) :
    s.pool.idle.length ≤ c.poolSize ∧
    (∀ b ∈ s.pool.idle, b.length = 0 ∧ b.capacity ≤ c.retainCapacity) ∧
    CameBack h s.pool.idle ∧ (ended h).Nodup ∧ (∀ n b, s.held n = some b → n ∉ ended h) ∧
    (.closed ∈ h → s.pool.isOpen = false ∧ s.pool.idle = []) ∧
    ∀ e s', Step s e s' →
      e.Fits c s s' ∧ ∀ n, e.lease? ≠ some n → s'.held n = s.held n := by
  have sound := run.sound
  refine ⟨sound.few, sound.resting, sound.cameBack, sound.once, fun n b => sound.live,
    fun dropped => ?_, fun e s' step => step.fits sound⟩
  have shut : ¬s.pool.isOpen := fun isOpen => sound.open_iff.1 isOpen dropped
  exact ⟨Bool.eq_false_iff.2 shut, sound.closed shut⟩

end PoolUse

namespace Sample

open PoolUse

/-- A pool of one buffer, and none above sixteen bytes. -/
def single : Config := ⟨8, none, 1, 16⟩

/-- A buffer as the pool makes it. -/
def eight : Buffer := ⟨#[], 8, 0, none⟩

/-- A buffer of someone else's, in use. -/
def foreign : Buffer := .ofBytes [1, 2, 3]

/-- Four leases: one with a foreign buffer in it is released, one with too large a buffer too, one is
taken, and one outlives the pool. -/
def fourLeases : List Event :=
  [.acquired 0 eight, .acquired 1 eight, .acquired 2 eight, .filled 0 foreign, .released 0 foreign,
    .filled 1 ⟨#[], 17, 3, none⟩, .released 1 ⟨#[], 17, 3, none⟩, .taken 2 eight,
    .acquired 3 foreign.reset, .filled 3 foreign, .closed]

theorem run_fourLeases : ∃ s, Run single fourLeases s ∧ s.held 3 = some foreign := by
  have started : Run single [] (start single) := .start
  have three := ((started.step (.acquire rfl rfl)).step (.acquire rfl rfl)).step (.acquire rfl rfl)
  have swapped := (three.step (.fill (n := 0) rfl foreign)).step (.release (n := 0) rfl)
  have tooLarge := (swapped.step (.fill (n := 1) rfl ⟨#[], 17, 3, none⟩)).step
    (.release (n := 1) rfl)
  have again := (tooLarge.step (.take (n := 2) rfl)).step (.acquire rfl rfl)
  exact ⟨_, (again.step (.fill (n := 3) rfl foreign)).step (.close rfl), rfl⟩

/-- The lease that outlives the pool still has its buffer, and releasing it does nothing to the
pool. -/
theorem stays_sound_fourLeases :
    ∃ s, Run single fourLeases s ∧ s.pool.idle = [] ∧ 3 ∉ ended fourLeases ∧
      s.held 3 = some foreign ∧
      ∀ s', Step s (.released 3 foreign) s' → s'.pool = s.pool := by
  obtain ⟨s, run, held⟩ := run_fourLeases
  obtain ⟨_, _, _, _, live, dropped, fits⟩ := run.stays_sound
  obtain ⟨shut, idle⟩ := dropped (by decide)
  refine ⟨s, run, idle, live 3 foreign held, held, fun s' step => ?_⟩
  obtain ⟨⟨_, _, _, refused⟩, _⟩ := fits _ s' step
  exact refused fun keeps => Bool.eq_false_iff.1 shut keeps.1

end Sample

end RemoteDispatch
