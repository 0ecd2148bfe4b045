import RemoteDispatch.Engine.Scripted
import RemoteDispatch.Proofs.Agreement

/-!
# Buffers on lease

An environment may set a limit to its call buffers. The limit is given to a
buffer when the pool makes it, and nothing checks it again: a buffer goes out on
lease, to a caller who writes into it or to an engine that fills it with a
reply, and what comes back is put to rest and handed out to the next call.

A `Lending` is a world and the buffers that are out on lease from it. Whoever
holds a lease may fill it, have an engine reply into it, give it back or keep it
for good. As long as engines fill the buffers they are handed and put no others
in their place, every buffer of an environment is on the terms of its pool
(`Config.Lends`) for the whole life of the environment, at rest and on lease,
and so no argument longer than the limit ever gets to the engine
(`Lending.Run.limit_binds`).

The condition is needed. An engine that replies with a buffer of its own making
leaves it in the lease, the pool takes it back for one of its own, and from then
on the environment has a call buffer without a limit
(`Sample.limit_lost_replaced`).
-/

namespace RemoteDispatch

/-- **A buffer on the terms of a pool**: it has the limit that the pool gives to its buffers, and
its sizes are in order. -/
structure Config.Lends (c : Config) (b : Buffer) : Prop where
  limit : b.limit = c.bufferLimit
  bounded : b.Bounded

variable {σ α : Type}

theorem Config.kept_lends (c : Config) : Buffer.Kept c.Lends where
  filled hroom h :=
    ⟨(Buffer.kept_limit _).filled hroom h.limit, Buffer.kept_bounded.filled hroom h.bounded⟩
  committed hs h :=
    ⟨(Buffer.kept_limit _).committed hs h.limit, Buffer.kept_bounded.committed hs h.bounded⟩
  reset h := ⟨h.limit, Buffer.kept_bounded.reset h.bounded⟩

/-- On the terms of a pool with a limit a buffer neither holds nor shows more than that. -/
theorem Config.Lends.within {c : Config} {b : Buffer} (h : c.Lends b) {limit : Nat}
    (limited : c.bufferLimit = some limit) :
    b.limit = some limit ∧ b.capacity ≤ limit ∧ b.length ≤ limit := by
  have hlimit := h.limit.trans limited
  have within := (Buffer.withinLimit_iff hlimit b.capacity).1 h.bounded.capacity_within
  exact ⟨hlimit, within, Nat.le_trans h.bounded.length_le within⟩

theorem Pool.keeps_lends : Keeps Config.Lends :=
  .of_kept (fun h => ⟨Config.Grants.limit_eq ⟨_, h, rfl⟩, bounded_make h⟩) Config.kept_lends

/-- An engine that moves no limit, and leaves sizes in order, returns what it was lent. -/
theorem Engine.keeps_lends {eng : Engine σ} (limits : eng.KeepsLimits)
    (bounds : eng.Keeps fun _ b => b.Bounded) : eng.Keeps Config.Lends where
  call {c} _ target op input s h :=
    ⟨(limits.call target op input _ s).trans h.limit,
      bounds.call (c := c) target op input s h.bounded⟩
  callScalar {c} _ target op value s h :=
    ⟨(limits.callScalar target op value _ s).trans h.limit,
      bounds.callScalar (c := c) target op value s h.bounded⟩
  create {c} _ kind input s h :=
    ⟨(limits.create kind input _ s).trans h.limit,
      bounds.create (c := c) kind input s h.bounded⟩

namespace World

variable {P : Config → Buffer → Prop} {w : World σ α} {t : Target} {encode : Encoder}
  {input : Bytes}

/-- The bytes of written arguments are those of a buffer with whatever call buffers keep. -/
theorem Rests.of_written (kept : Pool.Keeps P) (rests : w.Rests P)
    (written : w.written t encode = .ok input) :
    ∃ filled, filled.committed = input ∧ P (w.environment t.environment).pool.config filled := by
  obtain ⟨leased, w₁, filled, hinput, hencode, shown⟩ := allocate_of_written written
  have filled' := kept.written encode (w.registry t.environment) (rests.leased kept hinput)
  rw [hencode] at filled'
  exact ⟨filled, shown, filled'⟩

/-- With the reply buffer it is the same. -/
theorem Rests.of_prepared (kept : Pool.Keeps P) (rests : w.Rests P) {output : Buffer}
    (prepared : w.prepared t encode = .ok (input, output)) :
    (∃ filled, filled.committed = input ∧ P (w.environment t.environment).pool.config filled) ∧
      P (w.environment t.environment).pool.config output := by
  obtain ⟨leased, w₁, w₂, filled, hinput, houtput, hencode, shown⟩ := allocate_of_prepared prepared
  have hw₁ : w₁ = (w.allocate t.environment).2 := congrArg Prod.snd hinput.symm
  have filled' := kept.written encode (w.registry t.environment) (rests.leased kept hinput)
  have rests₁ : w₁.Rests P := hw₁ ▸ rests.allocate t.environment
  have output' := rests₁.leased kept houtput
  rw [hencode] at filled'
  rw [hw₁, config_allocate] at output'
  exact ⟨⟨filled, shown, filled'⟩, output'⟩

/-- A new environment goes by the sizes it was made with. -/
theorem config_addEnvironment (w : World σ α) (config : Config) (registry : Registry) :
    ((w.addEnvironment config registry).2.environment
      (w.addEnvironment config registry).1).pool.config = config := by
  have new : (w.addEnvironment config registry).1 = w.environments.length := rfl
  rw [environment_addEnvironment, if_pos new]
  rfl

end World

/-- **A world and the buffers out on lease from it**, each with the environment whose pool it came
from. -/
structure Lending (σ α : Type) where
  /-- The world. -/
  world : World σ α
  /-- The buffers on lease. -/
  out : List (EnvironmentId × Buffer)

namespace Lending

/-! ## Steps and runs -/

/-- **One step of a lending.** Calls of every kind lease and return buffers of their own. The other
buffers are leased by a caller, who fills them, has an engine reply into them, and gives them back
or keeps them for good. -/
inductive Step (eng : Engine σ) : Lending σ α → Lending σ α → Prop where
  /-- Something happens outside the pools. -/
  | outside {l : Lending σ α} {h w'} (step : World.Step eng l.world h w')
      (same : ∀ e, (w'.environment e).pool = (l.world.environment e).pool) :
      Step eng l ⟨w', l.out⟩
  | openEnvironment {l : Lending σ α} (config registry) :
      Step eng l ⟨(l.world.addEnvironment config registry).2, l.out⟩
  | dropOwner {l : Lending σ α} (e) (alive : (l.world.environment e).isAlive) :
      Step eng l ⟨l.world.dropOwner e, l.out⟩
  | create {l : Lending σ α} (e kind encode) (alive : (l.world.environment e).isAlive) :
      Step eng l ⟨(l.world.create eng e kind encode).2, l.out⟩
  | call {l : Lending σ α} {β : Type} (t op encode) (decode : Decoder β)
      (alive : (l.world.environment t.environment).isAlive) :
      Step eng l ⟨(l.world.call eng t op encode decode).2, l.out⟩
  | callScalar {l : Lending σ α} (t op value)
      (alive : (l.world.environment t.environment).isAlive) :
      Step eng l ⟨(l.world.callScalar eng t op value).2, l.out⟩
  | submit {l : Lending σ α} (t op encode decode)
      (alive : (l.world.environment t.environment).isAlive) :
      Step eng l ⟨(l.world.submit eng t op encode decode).2, l.out⟩
  | submitObject {l : Lending σ α} (t op argument payload result yields)
      (alive : (l.world.environment t.environment).isAlive) :
      Step eng l ⟨(l.world.submitObject eng t op argument payload result yields).2, l.out⟩
  /-- A caller leases a buffer. -/
  | lease {l : Lending σ α} {e b w'} (alive : (l.world.environment e).isAlive)
      (leased : l.world.allocate e = (.ok b, w')) : Step eng l ⟨w', (e, b) :: l.out⟩
  /-- A caller fills a leased buffer, commits what is in it, or resets it. -/
  | fill {l : Lending σ α} {e b b'} (held : (e, b) ∈ l.out) (limit : b'.limit = b.limit)
      (bounded : b'.Bounded) : Step eng l ⟨l.world, (e, b') :: l.out.erase (e, b)⟩
  /-- A caller has an engine reply into a leased buffer. -/
  | stream {l : Lending σ α} {e output} (held : (e, output) ∈ l.out) (t op input)
      (alive : (l.world.environment t.environment).isAlive) :
      Step eng l ⟨(l.world.stream eng t op input output).2.2,
        (e, (l.world.stream eng t op input output).2.1) :: l.out.erase (e, output)⟩
  /-- A lease is given back. -/
  | giveBack {l : Lending σ α} {e b} (held : (e, b) ∈ l.out) :
      Step eng l ⟨l.world.recycle e b, l.out.erase (e, b)⟩
  /-- The buffer of a lease is kept for good. -/
  | keep {l : Lending σ α} {e b} (held : (e, b) ∈ l.out) :
      Step eng l ⟨l.world, l.out.erase (e, b)⟩

/-- **Any number of steps.** -/
inductive Run (eng : Engine σ) : Lending σ α → Lending σ α → Prop where
  | refl {l} : Run eng l l
  | snoc {l₁ l₂ l₃} (run : Run eng l₁ l₂) (step : Step eng l₂ l₃) : Run eng l₁ l₃

/-! ## What every step keeps -/

variable {eng : Engine σ} {l l' l₀ : Lending σ α}

/-- **Every buffer of a pool is on its terms**, at rest and on lease. -/
structure Sound (l : Lending σ α) : Prop where
  rests : l.world.Rests Config.Lends
  out : ∀ {e b}, (e, b) ∈ l.out →
    e < l.world.environments.length ∧ (l.world.environment e).pool.config.Lends b

/-- Leases stay on their terms while the sizes of the environments stay. -/
theorem Sound.move (sound : l.Sound) {w' : World σ α} (sizes : World.SameSizes l.world w')
    (rests : w'.Rests Config.Lends) : Sound ⟨w', l.out⟩ where
  rests := rests
  out held := by
    obtain ⟨known, terms⟩ := sound.out held
    refine ⟨Nat.lt_of_lt_of_le known sizes.length, ?_⟩
    rw [sizes.config _ known]
    exact terms

/-- What is not on lease any more is no matter. -/
theorem Sound.erase (sound : l.Sound) (lease : EnvironmentId × Buffer) :
    Sound ⟨l.world, l.out.erase lease⟩ where
  rests := sound.rests
  out held := sound.out (List.mem_of_mem_erase held)

/-- One more lease on the terms of its pool. -/
theorem Sound.cons (sound : l.Sound) {e : EnvironmentId} {b : Buffer}
    (known : e < l.world.environments.length)
    (terms : (l.world.environment e).pool.config.Lends b) :
    Sound ⟨l.world, (e, b) :: l.out⟩ where
  rests := sound.rests
  out held := by
    cases held with
    | head => exact ⟨known, terms⟩
    | tail _ held => exact sound.out held

theorem sound_start (s : σ) : Sound (⟨.ofEngine s, []⟩ : Lending σ α) where
  rests _ := Pool.rests_of_idle_nil rfl
  out held := nomatch held

open World in
theorem Step.sizes (step : Step eng l l') : SameSizes l.world l'.world := by
  cases step with
  | outside step _ => exact step.changes.sameSizes
  | openEnvironment config registry =>
    exact (SameCalls.addEnvironment l.world config registry).toSameSizes
  | dropOwner e _ => exact (Changes.dropOwner l.world e).sameSizes
  | create e kind encode _ => exact (SameCalls.create eng l.world e kind encode).toSameSizes
  | call t op encode decode _ =>
    exact ((SameCalls.respected eng).call l.world t op encode decode).toSameSizes
  | callScalar t op value _ =>
    exact ((SameCalls.respected eng).callScalar l.world t op value).toSameSizes
  | submit t op encode decode alive =>
    exact (Changes.submit eng l.world t op encode decode (lt_of_isAlive alive)).sameSizes
  | submitObject t op argument payload result yields alive =>
    exact (Changes.submitObject eng l.world t op argument payload result yields
      (lt_of_isAlive alive)).sameSizes
  | @lease e b w' _ leased =>
    have sizes := (SameCalls.allocate l.world e).toSameSizes
    rw [leased] at sizes
    exact sizes
  | fill held limit bounded => exact .refl _
  | stream held t op input _ =>
    exact ((SameCalls.respected eng).stream l.world t op input _).toSameSizes
  | giveBack held => exact (SameCalls.recycle l.world _ _).toSameSizes
  | keep held => exact .refl _

/-- **Every step leaves every buffer on the terms of its pool**, if the engine does. -/
theorem Step.sound (keeps : eng.Keeps Config.Lends) (step : Step eng l l') (sound : l.Sound) :
    l'.Sound := by
  have kept := Pool.keeps_lends
  have sizes := step.sizes
  have rests := sound.rests
  cases step with
  | outside step same => exact sound.move sizes (rests.same same)
  | openEnvironment config registry => exact sound.move sizes (rests.addEnvironment config registry)
  | dropOwner e _ => exact sound.move sizes (rests.dropOwner e)
  | create e kind encode _ => exact sound.move sizes (rests.create kept keeps e kind encode)
  | call t op encode decode _ =>
    exact sound.move sizes (rests.call kept keeps t op encode decode)
  | callScalar t op value _ => exact sound.move sizes (rests.callScalar kept keeps t op value)
  | submit t op encode decode _ =>
    exact sound.move sizes (rests.submit kept eng t op encode decode)
  | submitObject t op argument payload result yields _ =>
    exact sound.move sizes (rests.submitObject kept eng t op argument payload result yields)
  | @lease e b w' alive leased =>
    have known := World.lt_of_isAlive alive
    have hw' : w' = (l.world.allocate e).2 := congrArg Prod.snd leased.symm
    have moved := sound.move sizes (hw' ▸ rests.allocate e)
    refine moved.cons (Nat.lt_of_lt_of_le known sizes.length) ?_
    rw [sizes.config e known]
    exact rests.leased kept leased
  | @fill e b b' held limit bounded =>
    obtain ⟨known, terms⟩ := sound.out held
    exact (sound.erase (e, b)).cons known ⟨limit.trans terms.limit, bounded⟩
  | @stream e output held t op input _ =>
    obtain ⟨known, terms⟩ := sound.out held
    have moved := (sound.erase (e, output)).move sizes (rests.stream eng t op input output)
    refine moved.cons (Nat.lt_of_lt_of_le known sizes.length) ?_
    rw [sizes.config e known]
    exact World.stream_keeps keeps l.world t op input terms
  | @giveBack e b held =>
    obtain ⟨known, terms⟩ := sound.out held
    exact (sound.erase (e, b)).move sizes (rests.recycle kept terms)
  | keep held => exact sound.erase _

theorem Run.sizes (run : Run eng l l') : World.SameSizes l.world l'.world := by
  induction run with
  | refl => exact .refl _
  | snoc _ step ih => exact ih.trans step.sizes

theorem Run.sound (keeps : eng.Keeps Config.Lends) (run : Run eng l l') (sound : l.Sound) :
    l'.Sound := by
  induction run with
  | refl => exact sound
  | snoc _ step ih => exact step.sound keeps ih

/-! ## The limit -/

/-- **Arguments that can be written are within the limit.** -/
theorem Sound.within_of_written (sound : l.Sound) {t : Target} {encode : Encoder} {limit : Nat}
    (limited : (l.world.environment t.environment).pool.config.bufferLimit = some limit)
    {input : Bytes} (written : l.world.written t encode = .ok input) : input.length ≤ limit := by
  obtain ⟨filled, rfl, terms⟩ := sound.rests.of_written Pool.keeps_lends written
  rw [Buffer.length_committed]
  exact (terms.within limited).2.2

/-- **So are those that get to the engine with a reply buffer**, and the buffer has the limit. -/
theorem Sound.within_of_prepared (sound : l.Sound) {t : Target} {encode : Encoder} {limit : Nat}
    (limited : (l.world.environment t.environment).pool.config.bufferLimit = some limit)
    {input : Bytes} {output : Buffer} (prepared : l.world.prepared t encode = .ok (input, output)) :
    input.length ≤ limit ∧ output.limit = some limit := by
  obtain ⟨⟨filled, rfl, terms⟩, terms'⟩ := sound.rests.of_prepared Pool.keeps_lends prepared
  rw [Buffer.length_committed]
  exact ⟨(terms.within limited).2.2, (terms'.within limited).1⟩

section Calls

variable (eng) (sound : l.Sound) {limit : Nat}

include sound

/-- **A call gives the engine no more than the limit**, if it gets to the engine at all. -/
theorem Sound.call_within {β : Type} {t : Target}
    (limited : (l.world.environment t.environment).pool.config.bufferLimit = some limit)
    (op : Int32) (encode : Encoder) (decode : Decoder β) :
    (l.world.call eng t op encode decode).2.engine = l.world.engine ∨
      ∃ input output, input.length ≤ limit ∧ output.limit = some limit ∧
        (l.world.call eng t op encode decode).2.engine =
          (eng.call t.raw op input output l.world.engine).2.2 := by
  rw [(World.call_eq eng l.world t op encode decode).2]
  cases hprepared : l.world.prepared t encode with
  | error err => exact Or.inl rfl
  | ok buffers =>
    obtain ⟨input, output⟩ := buffers
    obtain ⟨length, hlimit⟩ := sound.within_of_prepared limited hprepared
    exact Or.inr ⟨input, output, length, hlimit, rfl⟩

theorem Sound.submit_within {t : Target}
    (limited : (l.world.environment t.environment).pool.config.bufferLimit = some limit)
    (op : Int32) (encode : Encoder) (decode : Decoder α) :
    (l.world.submit eng t op encode decode).2.engine = l.world.engine ∨
      ∃ id input, input.length ≤ limit ∧
        (l.world.submit eng t op encode decode).2.engine =
          (eng.submit t.raw op ⟨t.environment⟩ id input l.world.engine).2 := by
  rw [World.submit_engine]
  cases written : l.world.written t encode with
  | error err => exact Or.inl rfl
  | ok input => exact Or.inr ⟨_, input, sound.within_of_written limited written, rfl⟩

theorem Sound.create_within {e : EnvironmentId}
    (limited : (l.world.environment e).pool.config.bufferLimit = some limit)
    (kind : String) (encode : Encoder) :
    (l.world.create eng e kind encode).2.engine = l.world.engine ∨
      ∃ input output, input.length ≤ limit ∧ output.limit = some limit ∧
        (l.world.create eng e kind encode).2.engine =
          (eng.create kind input output l.world.engine).2.2 := by
  -- any target of the environment will do
  have engine := (World.create_of_prepared eng l.world ⟨e, ⟨e, ⟨0⟩⟩⟩ kind encode).2
  dsimp only at engine
  rw [engine]
  cases hprepared : l.world.prepared ⟨e, ⟨e, ⟨0⟩⟩⟩ encode with
  | error err => exact Or.inl rfl
  | ok buffers =>
    obtain ⟨input, output⟩ := buffers
    obtain ⟨length, hlimit⟩ := sound.within_of_prepared limited hprepared
    exact Or.inr ⟨input, output, length, hlimit, rfl⟩

end Calls

/-- **The limit of an environment binds its call buffers as long as the environment lives**, if the
engine moves no limit and leaves sizes in order. Whatever was called, created, submitted, leased,
filled and given back since the environment was made, each buffer that it leases and each that is
out on lease has the limit and holds no more. So with no call, submission or creation does the
engine get arguments longer than the limit. -/
theorem Run.limit_binds (limits : eng.KeepsLimits) (bounds : eng.Keeps fun _ b => b.Bounded) {s : σ}
    (before : Run eng ⟨.ofEngine s, []⟩ l₀) {config : Config} {limit : Nat}
    (limited : config.bufferLimit = some limit) (registry : Registry)
    (after : Run eng ⟨(l₀.world.addEnvironment config registry).2, l₀.out⟩ l) :
    let e := (l₀.world.addEnvironment config registry).1
    (∀ b w', l.world.allocate e = (.ok b, w') → b.limit = some limit ∧ b.capacity ≤ limit) ∧
    (∀ b, (e, b) ∈ l.out → b.limit = some limit ∧ b.capacity ≤ limit) ∧
    (∀ {β : Type} t op encode (decode : Decoder β), t.environment = e →
      (l.world.call eng t op encode decode).2.engine = l.world.engine ∨
      ∃ input output, input.length ≤ limit ∧ output.limit = some limit ∧
        (l.world.call eng t op encode decode).2.engine =
          (eng.call t.raw op input output l.world.engine).2.2) ∧
    (∀ t op encode decode, t.environment = e →
      (l.world.submit eng t op encode decode).2.engine = l.world.engine ∨
      ∃ id input, input.length ≤ limit ∧
        (l.world.submit eng t op encode decode).2.engine =
          (eng.submit t.raw op ⟨e⟩ id input l.world.engine).2) ∧
    ∀ kind encode,
      (l.world.create eng e kind encode).2.engine = l.world.engine ∨
      ∃ input output, input.length ≤ limit ∧ output.limit = some limit ∧
        (l.world.create eng e kind encode).2.engine =
          (eng.create kind input output l.world.engine).2.2 := by
  intro e
  have keeps := Engine.keeps_lends limits bounds
  have opened := before.snoc (.openEnvironment config registry)
  have sound := after.sound keeps (opened.sound keeps (sound_start s))
  have known : e < (l₀.world.addEnvironment config registry).2.environments.length := by
    show l₀.world.environments.length < (l₀.world.environments ++ [_]).length
    rw [List.length_append]
    exact Nat.lt_succ_self _
  -- the environment still goes by the sizes it was made with
  have terms : (l.world.environment e).pool.config.bufferLimit = some limit := by
    rw [after.sizes.config e known]
    dsimp only
    rw [World.config_addEnvironment]
    exact limited
  clear_value e
  refine ⟨fun b w' leased => ?_, fun b held => ?_, ?_, ?_, ?_⟩
  · obtain ⟨hlimit, capacity, _⟩ :=
      (sound.rests.leased Pool.keeps_lends leased).within terms
    exact ⟨hlimit, capacity⟩
  · obtain ⟨hlimit, capacity, _⟩ := (sound.out held).2.within terms
    exact ⟨hlimit, capacity⟩
  · rintro β t op encode decode rfl
    exact sound.call_within eng terms op encode decode
  · rintro t op encode decode rfl
    exact sound.submit_within eng terms op encode decode
  · exact sound.create_within eng terms

end Lending

namespace Scripted

theorem answer_bounded {β : Type} (s : Scripted) (call : SeenCall) {output : Buffer}
    (pick : ScriptedReply → β) (h : output.Bounded) : (s.answer call output pick).2.1.Bounded := by
  unfold answer
  split
  · exact h
  · exact Buffer.bounded_ofBytes _

/-- **An engine that replaces its output buffers leaves sizes in order as well.** It is only the
limits that it does not keep. -/
theorem keeps_bounded : engine.Keeps fun _ b => b.Bounded where
  call _ _ _ s h := s.answer_bounded _ _ h
  callScalar _ _ _ s h := s.answer_bounded _ _ h
  create _ _ s h := s.answer_bounded _ _ h

end Scripted

namespace Sample

/-- Room for the record of a short failure and for little more. -/
def cramped : Config := ⟨8, some 24, 2, 64⟩

/-- An environment with little room, after a first call to the object that writes and fails. -/
def crampedOnce : World Loopback Int32 :=
  let w := ((World.ofEngine faultyEngine).addEnvironment cramped .empty).2
  (w.call Loopback.engine (seventh 0) 1 .none number).2

/-- The buffer that the environment leases next. -/
def crampedLease : Buffer := ⟨#[], 8, 0, some 24⟩

/-- On the loopback engine the limit holds. -/
theorem limit_binds_crampedOnce :
    Loopback.engine.KeepsLimits ∧ Loopback.engine.Keeps (fun _ b => b.Bounded) ∧
      crampedLease.limit = some 24 ∧ crampedLease.capacity ≤ 24 := by
  have bounds : Loopback.engine.Keeps fun _ b => b.Bounded :=
    Loopback.keeps fun _ => Buffer.kept_bounded
  have after : Lending.Run Loopback.engine
      ⟨((World.ofEngine faultyEngine).addEnvironment cramped .empty).2, []⟩ ⟨crampedOnce, []⟩ :=
    Lending.Run.refl.snoc (.call (seventh 0) 1 .none number rfl)
  have limited : cramped.bufferLimit = some 24 := rfl
  obtain ⟨allocated, _⟩ := Lending.Run.limit_binds Loopback.keepsLimits bounds .refl limited
    .empty after
  exact ⟨Loopback.keepsLimits, bounds, allocated crampedLease (crampedOnce.allocate 0).2 rfl⟩

/-- Buffers of sixteen bytes at most. -/
def sixteen : Config := ⟨8, some 16, 16, 64⟩

/-- An environment with such buffers on an engine that replies with buffers of its own making,
after one call with a number. -/
def replaced : World Scripted Int32 :=
  let w := ((World.ofEngine Scripted.start).addEnvironment sixteen .empty).2
  (w.callScalar Scripted.engine (seventh 0) 1 5).2

/-- Arguments of more than sixteen bytes. -/
def tooLong : Bytes := List.replicate 24 1

/-- **The limit is lost** to an engine that replaces the output buffer: the environment leases a
buffer without a limit next, and arguments longer than the limit get to the engine. -/
theorem limit_lost_replaced :
    (Scripted.engine.Keeps fun _ b => b.Bounded) ∧
      Lending.Run Scripted.engine (⟨.ofEngine Scripted.start, []⟩ : Lending Scripted Int32)
        ⟨replaced, []⟩ ∧
      (replaced.environment 0).pool.config.bufferLimit = some 16 ∧
      (replaced.allocate 0).1 = .ok (.ofBytes []) ∧ (Buffer.ofBytes []).limit = none ∧
      (replaced.call Scripted.engine (seventh 0) 1 (.ofEmission fun _ => .run tooLong)
          number).2.engine.seen = [.scalar ⟨7⟩ 1 5, .call ⟨7⟩ 1 tooLong] ∧
      16 < tooLong.length := by
  have run : Lending.Run Scripted.engine
      (⟨.ofEngine Scripted.start, []⟩ : Lending Scripted Int32) ⟨replaced, []⟩ :=
    (Lending.Run.refl.snoc (.openEnvironment sixteen .empty)).snoc
      (.callScalar (seventh 0) 1 5 rfl)
  exact ⟨Scripted.keeps_bounded, run, rfl, rfl, rfl, by decide +kernel, by decide +kernel⟩

end Sample

end RemoteDispatch
