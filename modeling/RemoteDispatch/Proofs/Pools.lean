import RemoteDispatch.Proofs.Bounds
import RemoteDispatch.Proofs.Runs

/-!
# What rests in a pool

A pool hands out whatever was given back last, so what a call gets depends on
what earlier calls have left there. What it may depend on is little. Say that
call buffers keep a property (`Pool.Keeps`): a new buffer has it, and neither
writing arguments into a buffer nor resetting it takes it away. If the engine
too leaves the property alone in the output buffers it is handed
(`Engine.Keeps`), then every operation of a world has only buffers with the
property come to rest (`World.Rests`).

Only callers can break such a property, by giving back a buffer that does not
have it: a lease may be used for anything, and the leased buffer may be
exchanged for another. A run that has not kept the property contains a step at
which that happens (`World.Run.rests`).

That the pool could make a new buffer is a property that not even this breaks,
as a pool that could make none has never lent one (`World.Run.makes`). It
follows that a pool which hands out one buffer can hand out another. That a
buffer has the limit which the pool gives to its new buffers is one that
depends on the callers.
-/

namespace RemoteDispatch

variable {P : Config → Buffer → Prop}

namespace Pool

variable {p p' : Pool} {b b' : Buffer}

/-- **Every buffer at rest has a property**, which may depend on the sizes that govern the pool. -/
def Rests (P : Config → Buffer → Prop) (p : Pool) : Prop := ∀ b ∈ p.idle, P p.config b

/-- **A property that call buffers keep on this side.** -/
structure Keeps (P : Config → Buffer → Prop) : Prop where
  /-- New buffers have it. -/
  made : ∀ {c b}, make c = .ok b → P c b
  /-- Forgetting what was committed does not take it away. -/
  reset : ∀ {c b}, P c b → P c b.reset
  /-- Writing arguments does not take it away. -/
  written : ∀ {c b} (encode : Encoder) (r : Registry), P c b → P c (encode.into r b).2

/-- What new buffers have and nothing done to a buffer takes away, call buffers keep. -/
theorem Keeps.of_kept (made : ∀ {c b}, make c = .ok b → P c b) (kept : ∀ c, Buffer.Kept (P c)) :
    Keeps P where
  made := made
  reset := (kept _).reset
  written encode r := encode.keeps_into (kept _) r

/-- Call buffers are bounded. -/
theorem keeps_bounded : Keeps fun _ b => b.Bounded :=
  .of_kept bounded_make fun _ => Buffer.kept_bounded

theorem rests_of_idle_nil (h : p.idle = []) : p.Rests P := by
  intro b hb
  rw [h] at hb
  cases hb

theorem Rests.acquire (h : p.Rests P) : p.acquire.2.Rests P := by
  unfold Rests
  rw [config_acquire]
  intro b hb
  refine h b ?_
  unfold Pool.acquire at hb
  cases hidle : p.idle with
  | nil =>
    rw [hidle] at hb
    exact hidle ▸ hb
  | cons first idle =>
    rw [hidle] at hb
    exact List.mem_cons_of_mem first hb

/-- **What is handed out has the property.** -/
theorem Rests.acquired (h : p.Rests P) (keeps : Keeps P) (hb : p.acquire.1 = .ok b) :
    P p.config b := by
  unfold Pool.acquire at hb
  cases hidle : p.idle with
  | nil =>
    rw [hidle] at hb
    exact keeps.made hb
  | cons first idle =>
    rw [hidle] at hb
    cases hb
    exact h b (hidle ▸ List.mem_cons_self)

theorem Rests.recycle (h : p.Rests P) (keeps : Keeps P) (hb : P p.config b) :
    (p.recycle b).Rests P := by
  unfold Rests
  rw [config_recycle]
  intro b' hb'
  unfold Pool.recycle at hb'
  split at hb'
  · cases hb' with
    | head => exact keeps.reset hb
    | tail _ hb' => exact h b' hb'
  · exact h b' hb'

end Pool

/-- **An engine that leaves a property of its output buffers alone.** -/
structure Engine.Keeps {σ : Type} (P : Config → Buffer → Prop) (eng : Engine σ) : Prop where
  call : ∀ {c output} target op input s,
    P c output → P c (eng.call target op input output s).2.1
  callScalar : ∀ {c output} target op value s,
    P c output → P c (eng.callScalar target op value output s).2.1
  create : ∀ {c output} kind input s, P c output → P c (eng.create kind input output s).2.1

namespace World

variable {σ α β : Type} {w w' : World σ α}

/-- **All pools of the world have a property.** -/
def Pools (Q : Pool → Prop) (w : World σ α) : Prop := ∀ e, Q (w.environment e).pool

namespace Pools

variable {Q : Pool → Prop}

/-- A change outside the pools. -/
theorem same (h : w.Pools Q) (same : ∀ e, (w'.environment e).pool = (w.environment e).pool) :
    w'.Pools Q := by
  intro e
  rw [same e]
  exact h e

theorem modify (h : w.Pools Q) (e : EnvironmentId) (f : Environment α → Environment α)
    (hf : Q (f (w.environment e)).pool) : (w.modify e f).Pools Q := by
  intro e'
  rw [environment_modify]
  split
  · next here => exact here.1 ▸ hf
  · exact h e'

/-- A change of one environment outside its pool. -/
theorem modify_same (h : w.Pools Q) (e : EnvironmentId) {f : Environment α → Environment α}
    (hf : ∀ env, (f env).pool = env.pool) : (w.modify e f).Pools Q :=
  h.same (modify_keeps Environment.pool w e f (hf _))

theorem takeCall (h : w.Pools Q) (e : EnvironmentId) (id : CallId)
    (outcome : Awaited α → Outcome α) : (w.takeCall e id outcome).2.Pools Q := by
  unfold World.takeCall
  cases (w.environment e).calls.take id with
  | none => exact h
  | some taken => exact h.modify_same e fun _ => rfl

theorem deliverAll (h : w.Pools Q) (ds : List Delivery) : (w.deliverAll ds).Pools Q := by
  induction ds generalizing w with
  | nil => exact h
  | cons d ds ih => exact ih (h.takeCall _ _ _)

theorem dropHandle (h : w.Pools Q) (eng : Engine σ) (handle : Handle) :
    (w.dropHandle eng handle).Pools Q := by
  unfold World.dropHandle
  cases (w.environment handle.table).handles.release handle.raw with
  | mk handles last =>
    have counted := h.modify_same handle.table (f := fun env => { env with handles }) fun _ => rfl
    cases last with
    | true => exact counted
    | false => exact counted

variable (empty : ∀ p : Pool, p.idle = [] → Q p)
include empty

/-- A pool that is closed is empty. -/
theorem dropOwner (h : w.Pools Q) (e : EnvironmentId) : (w.dropOwner e).Pools Q := by
  have counted := h.modify_same e (f := fun env => { env with owners := env.owners - 1 })
    fun _ => rfl
  by_cases last : (w.environment e).owners = 1
  · rw [dropOwner_of_last w last]
    exact counted.modify e Environment.shutDown (empty _ rfl)
  · rw [dropOwner_of_more w last]
    exact counted

/-- So is a new one. -/
theorem addEnvironment (h : w.Pools Q) (config : Config) (registry : Registry) :
    (w.addEnvironment config registry).2.Pools Q := by
  intro e
  rw [environment_addEnvironment]
  split
  · exact empty _ rfl
  · exact h e

end Pools

/-- **Every buffer at rest in a pool of the world has a property.** -/
def Rests (P : Config → Buffer → Prop) (w : World σ α) : Prop :=
  ∀ e, (w.environment e).pool.Rests P

/-- A change outside the pools. -/
theorem Rests.same (h : w.Rests P)
    (same : ∀ e, (w'.environment e).pool = (w.environment e).pool) : w'.Rests P :=
  Pools.same h same

theorem Rests.modify (h : w.Rests P) (e : EnvironmentId)
    (f : Environment α → Environment α) (hf : (f (w.environment e)).pool.Rests P) :
    (w.modify e f).Rests P := Pools.modify h e f hf

/-- A change of one environment outside its pool. -/
theorem Rests.modify_same (h : w.Rests P) (e : EnvironmentId)
    {f : Environment α → Environment α} (hf : ∀ env, (f env).pool = env.pool) :
    (w.modify e f).Rests P := Pools.modify_same h e hf

theorem Rests.withEngine (h : w.Rests P) (s : σ) : (w.withEngine s).Rests P := h

theorem Rests.adopt (h : w.Rests P) (e : EnvironmentId) (raw : RawHandle) :
    (w.adopt e raw).2.Rests P := h.modify_same e fun _ => rfl

theorem Rests.retain (h : w.Rests P) (e : EnvironmentId) : (w.retain e).Rests P :=
  h.modify_same e fun _ => rfl

theorem Rests.allocate (h : w.Rests P) (e : EnvironmentId) : (w.allocate e).2.Rests P :=
  h.modify e _ (h e).acquire

theorem config_allocate (w : World σ α) (e e' : EnvironmentId) :
    ((w.allocate e).2.environment e').pool.config = (w.environment e').pool.config :=
  modify_keeps (fun env => env.pool.config) w e
    (fun env => { env with pool := (w.environment e).pool.acquire.2 })
    (Pool.config_acquire _) e'

theorem config_recycle (w : World σ α) (e : EnvironmentId) (b : Buffer) (e' : EnvironmentId) :
    ((w.recycle e b).environment e').pool.config = (w.environment e').pool.config :=
  modify_keeps (fun env => env.pool.config) w e
    (fun env => { env with pool := env.pool.recycle b }) (Pool.config_recycle _ b) e'

theorem acquire_of_allocate {e : EnvironmentId} {b : Buffer} (hb : w.allocate e = (.ok b, w')) :
    (w.environment e).pool.acquire.1 = .ok b := by
  have acquired : (w.environment e).pool.acquire.1.mapError CallError.ofCodec = .ok b :=
    congrArg Prod.fst hb
  cases hacquire : (w.environment e).pool.acquire.1 with
  | error err =>
    rw [hacquire] at acquired
    cases acquired
  | ok b' =>
    rw [hacquire] at acquired
    cases acquired
    rfl

theorem environment_eq (h : w'.environments = w.environments) (e : EnvironmentId) :
    w'.environment e = w.environment e :=
  congrArg (fun environments => (environments[e]?).getD Environment.gone) h

theorem stream_environments (eng : Engine σ) (w : World σ α) (t : Target) (op : Int32)
    (input : Bytes) (output : Buffer) :
    (w.stream eng t op input output).2.2.environments = w.environments := by
  unfold World.stream
  split
  · rfl
  · rfl

theorem Rests.stream (h : w.Rests P) (eng : Engine σ) (t : Target) (op : Int32) (input : Bytes)
    (output : Buffer) : (w.stream eng t op input output).2.2.Rests P :=
  h.same fun e => congrArg Environment.pool
    (environment_eq (stream_environments eng w t op input output) e)

theorem Rests.takeCall (h : w.Rests P) (e : EnvironmentId) (id : CallId)
    (outcome : Awaited α → Outcome α) : (w.takeCall e id outcome).2.Rests P :=
  Pools.takeCall h e id outcome

theorem Rests.deliverAll (h : w.Rests P) (ds : List Delivery) : (w.deliverAll ds).Rests P :=
  Pools.deliverAll h ds

theorem Rests.register (h : w.Rests P) (e : EnvironmentId) (held : Awaited α) :
    (w.register e held).2.Rests P := h.modify_same e fun _ => rfl

theorem Rests.dropOwner (h : w.Rests P) (e : EnvironmentId) : (w.dropOwner e).Rests P :=
  Pools.dropOwner (fun _ => Pool.rests_of_idle_nil) h e

theorem Rests.dropHandle (h : w.Rests P) (eng : Engine σ) (handle : Handle) :
    (w.dropHandle eng handle).Rests P := Pools.dropHandle h eng handle

theorem Rests.addEnvironment (h : w.Rests P) (config : Config) (registry : Registry) :
    (w.addEnvironment config registry).2.Rests P :=
  Pools.addEnvironment (fun _ => Pool.rests_of_idle_nil) h config registry

/-- An engine that keeps a property keeps it in a buffer of the caller's. -/
theorem stream_keeps {eng : Engine σ} (keeps : eng.Keeps P) (w : World σ α) (t : Target)
    (op : Int32) (input : Bytes) {c : Config} {output : Buffer} (h : P c output) :
    P c (w.stream eng t op input output).2.1 := by
  have kept := keeps.call t.raw op input w.engine h
  unfold World.stream
  cases hcall : eng.call t.raw op input output w.engine with
  | mk status after =>
    rw [hcall] at kept
    cases status with
    | error e => exact kept
    | ok status => exact kept

/-! ## Leasing

`(w.environment e).pool.config` says what the buffers leased from `e` have to
be like, and leasing never changes it. -/

section Leasing

variable (kept : Pool.Keeps P)

include kept

theorem Rests.recycle (h : w.Rests P) {e : EnvironmentId} {b : Buffer}
    (lent : P (w.environment e).pool.config b) : (w.recycle e b).Rests P :=
  h.modify e _ ((h e).recycle kept lent)

/-- **What is leased has the property.** -/
theorem Rests.leased (h : w.Rests P) {e : EnvironmentId} {b : Buffer}
    (hb : w.allocate e = (.ok b, w')) : P (w.environment e).pool.config b :=
  (h e).acquired kept (acquire_of_allocate hb)

/-- **A step on a leased buffer** that leaves the property alone, and all environments. -/
theorem Rests.withLease (h : w.Rests P) (e : EnvironmentId)
    {step : Buffer → World σ α → Except CallError β × Buffer × World σ α}
    (hstep : ∀ b w, (step b w).2.2.environments = w.environments ∧
      ∀ c, P c b → P c (step b w).2.1) : (w.withLease e step).2.Rests P := by
  unfold World.withLease
  have rests := h.allocate e
  have config := config_allocate w e e
  cases hb : w.allocate e with
  | mk buffer w₁ =>
    rw [hb] at rests config
    cases buffer with
    | error err => exact rests
    | ok b =>
      obtain ⟨hsame, hkept⟩ := hstep b w₁
      have same := environment_eq hsame
      refine Rests.recycle kept (rests.same fun e => congrArg Environment.pool (same e)) ?_
      rw [same, config]
      exact hkept _ (h.leased kept hb)

theorem Rests.withLeases (h : w.Rests P) (e : EnvironmentId)
    {step : Buffer → Buffer → World σ α → Except CallError β × (Buffer × Buffer) × World σ α}
    (hstep : ∀ input output w, (step input output w).2.2.environments = w.environments ∧
      (∀ c, P c input → P c (step input output w).2.1.1) ∧
      ∀ c, P c output → P c (step input output w).2.1.2) : (w.withLeases e step).2.Rests P := by
  unfold World.withLeases
  have rests := h.allocate e
  have config := config_allocate w e e
  cases hinput : w.allocate e with
  | mk input w₁ =>
    rw [hinput] at rests config
    cases input with
    | error err => exact rests
    | ok input =>
      have lent := h.leased kept hinput
      have rests' := rests.allocate e
      -- the first buffer stays leased while the second is taken and given back
      have config' := (config_allocate w₁ e e).trans config
      dsimp only at rests rests' config' ⊢
      cases houtput : w₁.allocate e with
      | mk output w₂ =>
        rw [houtput] at rests' config'
        cases output with
        | error err =>
          rw [← config'] at lent
          exact rests'.recycle kept lent
        | ok output =>
          have lent' := rests.leased kept houtput
          rw [config] at lent'
          obtain ⟨hsame, hinputKept, houtputKept⟩ := hstep input output w₂
          have same := environment_eq hsame
          have after := rests'.same fun e => congrArg Environment.pool (same e)
          have input' := hinputKept _ lent
          have output' := houtputKept _ lent'
          rw [← config', ← same e] at input' output'
          rw [← config_recycle _ e (step input output w₂).2.1.2 e] at input'
          exact (after.recycle kept output').recycle kept input'

theorem Rests.submit (h : w.Rests P) (eng : Engine σ) (t : Target) (op : Int32)
    (encode : Encoder) (decode : Decoder α) : (w.submit eng t op encode decode).2.Rests P := by
  unfold World.submit
  have rests := h.allocate t.environment
  have config := config_allocate w t.environment t.environment
  cases hb : w.allocate t.environment with
  | mk input w₁ =>
    rw [hb] at rests config
    cases input with
    | error e => exact rests
    | ok input =>
      have lent := kept.written encode (w₁.registry t.environment) (h.leased kept hb)
      rw [← config] at lent
      dsimp only
      split
      · next hencode =>
        rw [hencode] at lent
        exact rests.recycle kept lent
      · -- the buffer with the arguments is the engine's now and does not come back
        have entered : (w₁.promise.2.register t.environment
            ⟨w₁.promise.1, decode⟩).2.Rests P := Rests.register rests _ _
        split
        · exact (entered.withEngine _).takeCall _ _ _
        · exact (entered.withEngine _).deliverAll _

theorem Rests.submitObject (h : w.Rests P) (eng : Engine σ) (t : Target) (op : Int32)
    (argument : TypeRef) (payload : Datum) (result : TypeRef) (yields : Datum → α) :
    (w.submitObject eng t op argument payload result yields).2.Rests P := by
  unfold World.submitObject
  split
  · exact h
  · exact h.submit kept eng t op _ _

variable {eng : Engine σ} (engine : eng.Keeps P)

include engine

theorem Rests.call (h : w.Rests P) (t : Target) (op : Int32) (encode : Encoder)
    (decode : Decoder β) : (w.call eng t op encode decode).2.Rests P := by
  refine h.withLeases kept _ fun input output w₁ => ?_
  have hinput : ∀ c, P c input → P c (encode.into (w₁.registry t.environment) input).2 :=
    fun c => kept.written encode _
  dsimp only
  split
  · next hencode =>
    rw [hencode] at hinput
    exact ⟨rfl, hinput, fun c h => h⟩
  · next input' hencode =>
    rw [hencode] at hinput
    have same := stream_environments eng w₁ t op input'.committed output
    have houtput : ∀ c, P c output → P c (w₁.stream eng t op input'.committed output).2.1 :=
      fun c => stream_keeps engine w₁ t op _
    split
    · next hstream =>
      rw [hstream] at same houtput
      exact ⟨same, hinput, houtput⟩
    · next hstream =>
      rw [hstream] at same houtput
      exact ⟨same, hinput, houtput⟩

theorem Rests.callScalar (h : w.Rests P) (t : Target) (op : Int32) (value : Int64) :
    (w.callScalar eng t op value).2.Rests P := by
  refine h.withLease kept _ fun output w₁ => ?_
  have houtput : ∀ c, P c output → P c (eng.callScalar t.raw op value output w₁.engine).2.1 :=
    fun c => engine.callScalar _ _ _ _
  split
  · next hcall =>
    rw [hcall] at houtput
    exact ⟨rfl, houtput⟩
  · next hcall =>
    rw [hcall] at houtput
    exact ⟨rfl, houtput⟩

theorem Rests.made (h : w.Rests P) (e : EnvironmentId) (kind : String) (encode : Encoder) :
    (w.withLeases e (makeObject eng e kind encode)).2.Rests P := by
  refine h.withLeases kept e fun input output w₁ => ?_
  have hinput : ∀ c, P c input → P c (encode.into (w₁.registry e) input).2 :=
    fun c => kept.written encode _
  unfold makeObject
  split
  · next hencode =>
    rw [hencode] at hinput
    exact ⟨rfl, hinput, fun c h => h⟩
  · next input' hencode =>
    rw [hencode] at hinput
    have houtput : ∀ c, P c output → P c (eng.create kind input'.committed output w₁.engine).2.1 :=
      fun c => engine.create _ _ _
    split
    · next hcreate =>
      rw [hcreate] at houtput
      exact ⟨rfl, hinput, houtput⟩
    · next hcreate =>
      rw [hcreate] at houtput
      exact ⟨rfl, hinput, houtput⟩

theorem Rests.create (h : w.Rests P) (e : EnvironmentId) (kind : String)
    (encode : Encoder) : (w.create eng e kind encode).2.Rests P :=
  create_keeps (Rests P) (h.made kept engine e kind encode) fun _ raw h =>
    (h.adopt e raw).retain e

end Leasing

end World

/-! ## The limits of leased buffers -/

/-- A new buffer can be made, and a buffer has the limit of a new one. -/
def Config.Grants (c : Config) (b : Buffer) : Prop :=
  ∃ made, Pool.make c = .ok made ∧ b.limit = made.limit

theorem Config.Grants.of_limit {c : Config} {b b' : Buffer} (h : c.Grants b)
    (hl : b'.limit = b.limit) : c.Grants b' := by
  obtain ⟨made, hmade, hlimit⟩ := h
  exact ⟨made, hmade, hl.trans hlimit⟩

theorem Config.Grants.makes {c : Config} {b : Buffer} (h : c.Grants b) : c.Makes :=
  let ⟨made, hmade, _⟩ := h
  ⟨made, hmade⟩

/-- That a new buffer can be made is nothing that is done to a buffer. -/
theorem Pool.keeps_makes : Pool.Keeps fun c _ => c.Makes where
  made hb := ⟨_, hb⟩
  reset h := h
  written _ _ h := h

theorem Engine.keeps_makes {σ : Type} (eng : Engine σ) : eng.Keeps fun c _ => c.Makes where
  call _ _ _ _ h := h
  callScalar _ _ _ _ h := h
  create _ _ _ h := h

theorem Pool.keeps_grants : Pool.Keeps Config.Grants where
  made hb := ⟨_, hb, rfl⟩
  reset h := h.of_limit rfl
  written encode r h := h.of_limit (encode.keeps_into (Buffer.kept_limit _) r rfl)

/-- **The limit granted is the limit in force**, or none if there is none. -/
theorem Config.Grants.limit_eq {c : Config} {b : Buffer} (h : c.Grants b) :
    b.limit = c.bufferLimit := by
  obtain ⟨made, hmade, hlimit⟩ := h
  rw [hlimit]
  unfold Pool.make at hmade
  cases hl : c.bufferLimit with
  | none =>
    rw [hl] at hmade
    exact congrArg Buffer.limit (Buffer.eq_of_fresh hmade)
  | some limit =>
    rw [hl] at hmade
    dsimp only [Buffer.withLimit] at hmade
    rw [if_pos (Nat.min_le_right _ _)] at hmade
    exact congrArg Buffer.limit (Buffer.eq_of_fresh hmade)

/-- Where a new buffer can be made, every buffer with the limit in force is as it is granted. -/
theorem Config.Makes.grants {c : Config} {b : Buffer} (makes : c.Makes)
    (limit : b.limit = c.bufferLimit) : c.Grants b := by
  obtain ⟨made, hmade⟩ := makes
  have granted : c.Grants made := ⟨made, hmade, rfl⟩
  exact ⟨made, hmade, limit.trans granted.limit_eq.symm⟩

/-- **An engine that leaves the limits of its output buffers alone.** -/
structure Engine.KeepsLimits {σ : Type} (eng : Engine σ) : Prop where
  call : ∀ target op input output s,
    (eng.call target op input output s).2.1.limit = output.limit
  callScalar : ∀ target op value output s,
    (eng.callScalar target op value output s).2.1.limit = output.limit
  create : ∀ kind input output s, (eng.create kind input output s).2.1.limit = output.limit

theorem Engine.KeepsLimits.grants {σ : Type} {eng : Engine σ} (h : eng.KeepsLimits) :
    eng.Keeps Config.Grants where
  call target op input s granted := granted.of_limit (h.call target op input _ s)
  callScalar target op value s granted := granted.of_limit (h.callScalar target op value _ s)
  create kind input s granted := granted.of_limit (h.create kind input _ s)

namespace World

variable {σ α : Type} {w w' : World σ α} {eng : Engine σ}

/-- The pool of an environment from which a buffer has been leased. -/
theorem pool_allocate {e : EnvironmentId} (known : e < w.environments.length) :
    ((w.allocate e).2.environment e).pool = (w.environment e).pool.acquire.2 :=
  congrArg Environment.pool (environment_modify_self w known _)

/-- **Where one buffer was lent there is another**, if the pool can make one. -/
theorem allocate_again {e : EnvironmentId} (known : e < w.environments.length) {b : Buffer}
    (hb : w.allocate e = (.ok b, w')) (makes : (w.environment e).pool.config.Makes) :
    ∃ b' w'', w'.allocate e = (.ok b', w'') := by
  -- the pool hands out the next one that rests, or makes one as it made the first
  obtain ⟨made, hmade⟩ := makes
  have hw' : w' = (w.allocate e).2 := congrArg Prod.snd hb.symm
  have pool : (w'.environment e).pool = (w.environment e).pool.acquire.2 :=
    hw' ▸ pool_allocate known
  rw [← Pool.config_acquire, ← pool] at hmade
  have again : ∃ b', (w'.environment e).pool.acquire.1 = .ok b' := by
    unfold Pool.acquire
    cases (w'.environment e).pool.idle with
    | nil => exact ⟨made, hmade⟩
    | cons first idle => exact ⟨first, rfl⟩
  obtain ⟨b', hb'⟩ := again
  refine ⟨b', (w'.allocate e).2, Prod.ext ?_ rfl⟩
  show (w'.environment e).pool.acquire.1.mapError CallError.ofCodec = .ok b'
  rw [hb']
  rfl

/-! ## What runs leave in the pools -/

variable {P : Config → Buffer → Prop}

/-- A buffer without a property is given back. -/
def GivesBackBut (P : Config → Buffer → Prop) (w w' : World σ α) : Prop :=
  ∃ e b, (w.environment e).pool.config.Makes ∧ ¬P (w.environment e).pool.config b ∧
    w' = w.recycle e b

/-- **A step leaves a property of the buffers at rest alone**, unless a buffer without it is given
back. -/
theorem Step.rests {h : List (Happening α)} (kept : Pool.Keeps P) (keeps : eng.Keeps P)
    (step : Step eng w h w') (rests : w.Rests P) : w'.Rests P ∨ GivesBackBut P w w' := by
  cases step with
  | openEnvironment config registry => exact .inl (rests.addEnvironment config registry)
  | retain e _ => exact .inl (rests.retain e)
  | dropOwner e _ => exact .inl (rests.dropOwner e)
  | adopt e raw => exact .inl (rests.adopt e raw)
  | dropHandle h => exact .inl (rests.dropHandle eng h)
  | create e kind encode _ => exact .inl (rests.create kept keeps e kind encode)
  | allocate e _ => exact .inl (rests.allocate e)
  | recycle e b makes =>
    by_cases has : P (w.environment e).pool.config b
    · exact .inl (rests.recycle kept has)
    · exact .inr ⟨e, b, makes, has, rfl⟩
  | stream t op input output _ => exact .inl (rests.stream eng t op input output)
  | call t op encode decode _ => exact .inl (rests.call kept keeps t op encode decode)
  | callScalar t op value _ => exact .inl (rests.callScalar kept keeps t op value)
  | submit t op encode decode _ => exact .inl (rests.submit kept eng t op encode decode)
  | submitObject t op argument payload result yields _ =>
    exact .inl (rests.submitObject kept eng t op argument payload result yields)
  | deliver d => exact .inl (rests.takeCall _ _ _)
  | engine s => exact .inl rests
  | join futures => exact .inl rests
  | poll f waker => exact .inl rests

/-- **Every buffer at rest has a property**, in every world that a run reaches, unless a buffer
without it was given back in the run. -/
theorem Run.rests {s : σ} {h : List (Happening α)} (kept : Pool.Keeps P) (keeps : eng.Keeps P)
    (run : Run eng (ofEngine s) h w) :
    w.Rests P ∨ ∃ w₁ w₂ h₁ h₂, Run eng (ofEngine s) h₁ w₁ ∧ GivesBackBut P w₁ w₂ ∧
      Run eng w₂ h₂ w := by
  generalize hstart : (ofEngine s : World σ α) = start at run
  induction run with
  | refl =>
    subst hstart
    exact .inl fun _ => Pool.rests_of_idle_nil rfl
  | snoc run step ih =>
    subst hstart
    obtain rests | ⟨w₁, w₂, h₁, h₂, before, given, after⟩ := ih
    · refine (step.rests kept keeps rests).imp_right fun given => ?_
      exact ⟨_, _, _, [], run, given, .refl⟩
    · exact .inr ⟨w₁, w₂, h₁, _, before, given, after.snoc step⟩

/-- **A pool in which a buffer rests can make one**, in every world that a run reaches. -/
theorem Run.makes {s : σ} {h : List (Happening α)} (run : Run eng (ofEngine s) h w) :
    w.Rests fun c _ => c.Makes := by
  obtain rests | ⟨_, _, _, _, _, ⟨_, _, makes, none, _⟩, _⟩ :=
    run.rests Pool.keeps_makes eng.keeps_makes
  · exact rests
  · exact absurd makes none

end World

end RemoteDispatch
