import RemoteDispatch.Proofs.Pools
import RemoteDispatch.Proofs.Recycling
import RemoteDispatch.Proofs.Translation

/-!
# Calls that fail on this side

A call can fail before the engine hears of it: its arguments cannot be
written, or one of its types is not known. By then buffers may be on lease,
one of them half full. A waiting call gives back two, a submitted one gives
back one, and nothing else has been touched yet.

What comes of it for the pool depends on how full it was, on its limits and on
how far the arguments have made their buffer grow. The pool may end up with
more idle buffers than before, because a buffer that had to be made stays. It
ends up with fewer only if a buffer that rested there has grown too large to
rest again (`Pool.InOrder.returned`), and that can only be the one with the
arguments: the other comes back as it was lent (`Pool.InOrder.lent_back`).

Everything else in the world is as it was, down to the id of the next call
(`World.Reached.fails_without_trace`).
-/

namespace RemoteDispatch

/-! ## Pools in order -/

namespace Pool

variable {p q : Pool} {b input filled : Buffer}

/-- **A pool in order**: it has no more idle buffers than it may have, none of them is too large,
and a closed pool has none. -/
structure InOrder (p : Pool) : Prop where
  few : p.idle.length ≤ p.config.poolSize
  small : ∀ b ∈ p.idle, b.capacity ≤ p.config.retainCapacity
  closed : ¬p.isOpen → p.idle = []

/-- A pool without idle buffers is in order. -/
theorem inOrder_of_idle_nil (h : p.idle = []) : p.InOrder where
  few := by rw [h]; exact Nat.zero_le _
  small b hb := by rw [h] at hb; cases hb
  closed _ := h

/-- Leasing changes nothing of a pool but what is idle. -/
theorem acquire_eq (p : Pool) : p.acquire.2 = { p with idle := p.acquire.2.idle } := by
  obtain ⟨first, rest, _, acquired⟩ | ⟨_, acquired⟩ := p.acquire_cases
  · rw [acquired]
  · rw [acquired]

/-- Neither does giving back. -/
theorem recycle_eq (p : Pool) (b : Buffer) :
    p.recycle b = { p with idle := (p.recycle b).idle } := by
  unfold recycle
  split
  · rfl
  · rfl

theorem isOpen_acquire (p : Pool) : p.acquire.2.isOpen = p.isOpen := by rw [acquire_eq]

theorem isOpen_recycle (p : Pool) (b : Buffer) : (p.recycle b).isOpen = p.isOpen := by
  rw [recycle_eq]

theorem InOrder.acquire (order : p.InOrder) : p.acquire.2.InOrder := by
  obtain ⟨first, rest, idle, acquired⟩ | ⟨_, acquired⟩ := p.acquire_cases
  · obtain ⟨few, small, closed⟩ := order
    rw [idle] at few small closed
    rw [acquired]
    exact ⟨Nat.le_of_succ_le few, fun b hb => small b (List.mem_cons_of_mem first hb),
      fun shut => nomatch closed shut⟩
  · rw [acquired]
    exact order

theorem InOrder.recycle (order : p.InOrder) (b : Buffer) : (p.recycle b).InOrder := by
  by_cases keeps : p.keeps b
  · obtain ⟨isOpen, small, room⟩ := keeps_iff.1 keeps
    rw [recycle_of_keeps keeps]
    refine ⟨room, fun b' hb => ?_, fun shut => absurd isOpen shut⟩
    cases hb with
    | head => exact small
    | tail _ hb => exact order.small b' hb
  · rw [recycle_of_not_keeps keeps]
    exact order

/-! ## How many are idle -/

/-- A lease takes one idle buffer at most. -/
theorem length_le_acquire (p : Pool) : p.idle.length ≤ p.acquire.2.idle.length + 1 := by
  obtain ⟨first, rest, idle, acquired⟩ | ⟨_, acquired⟩ := p.acquire_cases
  · rw [acquired, idle]
    exact Nat.le_refl _
  · rw [acquired]
    exact Nat.le_succ _

/-- A pool that has idle buffers lends one that is not too large. -/
theorem InOrder.capacity_le (order : p.InOrder) (lent : p.acquire.1 = .ok b)
    (some : p.idle ≠ []) : b.capacity ≤ p.config.retainCapacity := by
  obtain ⟨first, rest, idle, acquired⟩ | ⟨none, _⟩ := p.acquire_cases
  · rw [acquired] at lent
    cases lent
    exact order.small b (idle ▸ List.mem_cons_self)
  · exact absurd none some

/-- Giving back leaves no fewer idle buffers. -/
theorem length_le_recycle (p : Pool) (b : Buffer) : p.idle.length ≤ (p.recycle b).idle.length := by
  by_cases keeps : p.keeps b
  · rw [recycle_of_keeps keeps]
    exact Nat.le_succ _
  · exact Nat.le_of_eq (congrArg (List.length ∘ idle) (recycle_of_not_keeps keeps)).symm

/-- **A buffer that is not too large makes up for one that is missing.** -/
theorem le_length_recycle {n : Nat} (isOpen : p.isOpen)
    (small : b.capacity ≤ p.config.retainCapacity) (le : n ≤ p.idle.length + 1)
    (room : n ≤ p.config.poolSize) : n ≤ (p.recycle b).idle.length := by
  by_cases full : p.idle.length < p.config.poolSize
  · rw [recycle_of_keeps (keeps_iff.2 ⟨isOpen, small, full⟩)]
    exact le
  · exact Nat.le_trans (by omega) (p.length_le_recycle b)

/-- **Only a buffer that has grown too large is missing in the end.** Here `q` is the pool from
which a buffer is missing at most, and `filled` is what has become of it. -/
theorem InOrder.returned (order : p.InOrder) (lent : p.acquire.1 = .ok input)
    (config : q.config = p.config) (isOpen : q.isOpen = p.isOpen)
    (le : p.idle.length ≤ q.idle.length + 1)
    (fewer : (q.recycle filled).idle.length < p.idle.length) :
    input.capacity ≤ p.config.retainCapacity ∧ p.config.retainCapacity < filled.capacity := by
  have some : p.idle ≠ [] := List.ne_nil_of_length_pos (Nat.lt_of_le_of_lt (Nat.zero_le _) fewer)
  refine ⟨order.capacity_le lent some, Nat.lt_of_not_le fun small => ?_⟩
  have isOpen : q.isOpen := by
    rw [isOpen]
    exact Classical.byContradiction fun shut => some (order.closed shut)
  rw [← config] at small
  exact absurd (le_length_recycle isOpen small le (config ▸ order.few)) (Nat.not_le_of_lt fewer)

/-- **A buffer that comes back as it was lent is not missed.** -/
theorem InOrder.lent_back (order : p.InOrder) (lent : p.acquire.1 = .ok b) :
    p.idle.length ≤ (p.acquire.2.recycle b).idle.length := by
  refine Nat.le_of_not_lt fun fewer => ?_
  obtain ⟨small, large⟩ :=
    order.returned lent p.config_acquire p.isOpen_acquire p.length_le_acquire fewer
  exact absurd small (Nat.not_le_of_lt large)

end Pool

namespace World

variable {σ α β : Type} {w w' w'' : World σ α} {eng : Engine σ} {e : EnvironmentId}

/-! ## Pools in order, step by step -/

/-- **All pools of the world are in order.** -/
abbrev InOrder (w : World σ α) : Prop := w.Pools Pool.InOrder

theorem InOrder.allocate (order : w.InOrder) (e : EnvironmentId) : (w.allocate e).2.InOrder :=
  order.modify e _ (order e).acquire

theorem InOrder.recycle (order : w.InOrder) (e : EnvironmentId) (b : Buffer) :
    (w.recycle e b).InOrder := order.modify e _ ((order e).recycle b)

/-- Leasing and giving back, and whatever the engine does, leave the pools in order. -/
theorem respected_inOrder :
    Respected eng fun (w w' : World σ α) => w.InOrder → w'.InOrder where
  refl _ := id
  trans h h' := h' ∘ h
  allocate _ e order := order.allocate e
  recycle _ e b order := order.recycle e b
  calls _ _ _ _ _ := id
  callsScalar _ _ _ _ _ := id
  creates _ _ _ _ := id

theorem InOrder.submit (order : w.InOrder) (t : Target) (op : Int32) (encode : Encoder)
    (decode : Decoder α) : (w.submit eng t op encode decode).2.InOrder := by
  have leased := order.allocate t.environment
  unfold World.submit
  cases hallocate : w.allocate t.environment with
  | mk input w₁ =>
    rw [hallocate] at leased
    cases input with
    | error err => exact leased
    | ok input =>
      dsimp only
      split
      · exact leased.recycle _ _
      · have entered : ∀ s, ((w₁.promise.2.register t.environment
            ⟨w₁.promise.1, decode⟩).2.withEngine s).InOrder := fun _ =>
          Pools.modify_same (w := w₁.promise.2) leased t.environment fun _ => rfl
        split
        · exact (entered _).takeCall _ _ _
        · exact (entered _).deliverAll _

/-- **Every step leaves the pools in order.** -/
theorem Step.inOrder {h : List (Happening α)} (step : Step eng w h w') (order : w.InOrder) :
    w'.InOrder := by
  have calls : Respected eng fun (w w' : World σ α) => w.InOrder → w'.InOrder := respected_inOrder
  cases step with
  | openEnvironment config registry =>
    exact order.addEnvironment (fun _ => Pool.inOrder_of_idle_nil) config registry
  | retain e _ => exact order.modify_same e fun _ => rfl
  | dropOwner e _ => exact order.dropOwner (fun _ => Pool.inOrder_of_idle_nil) e
  | adopt e raw => exact order.modify_same e fun _ => rfl
  | dropHandle h => exact order.dropHandle eng h
  | create e kind encode _ =>
    refine create_keeps InOrder (calls.made w e kind encode order) fun w raw order => ?_
    have adopted : (w.adopt e raw).2.InOrder := order.modify_same e fun _ => rfl
    exact adopted.modify_same e fun _ => rfl
  | allocate e _ => exact order.allocate e
  | recycle e b _ => exact order.recycle e b
  | stream t op input output _ => exact calls.stream w t op input output order
  | call t op encode decode _ => exact calls.call w t op encode decode order
  | callScalar t op value _ => exact calls.callScalar w t op value order
  | submit t op encode decode _ => exact order.submit t op encode decode
  | submitObject t op argument payload result yields _ =>
    unfold World.submitObject
    split
    · exact order
    · exact order.submit t op _ _
  | deliver d => exact order.takeCall _ _ _
  | engine s => exact order
  | join futures => exact order
  | poll f waker => exact order

/-- **A world that an engine and its callers can come to**, by any steps. A buffer on lease is the
caller's own, who may put another in its place: what is given back may be any buffer. -/
inductive Reached (eng : Engine σ) : World σ α → Prop where
  | start (s : σ) : Reached eng (ofEngine s)
  | step {w w' : World σ α} {h} (reached : Reached eng w) (step : Step eng w h w') : Reached eng w'
  | giveBack {w : World σ α} (reached : Reached eng w) (e : EnvironmentId) (b : Buffer) :
      Reached eng (w.recycle e b)

/-- **In every world there is the pools are in order.** -/
theorem Reached.inOrder (reached : Reached eng w) : w.InOrder := by
  induction reached with
  | start s => exact fun _ => Pool.inOrder_of_idle_nil rfl
  | step _ step order => exact step.inOrder order
  | giveBack _ e b order => exact order.recycle e b

/-! ## Worlds that differ in idle buffers -/

/-- **Nothing but the idle buffers of one environment tells the worlds apart.** The engine is in the
same state, so it has made, called and disposed of the same objects. The environment has the same
types, owners, handles and waiting calls, and the same id for its next call. -/
structure SameButIdle (e : EnvironmentId) (w w' : World σ α) : Prop where
  engine : w'.engine = w.engine
  futures : w'.futures = w.futures
  length : w'.environments.length = w.environments.length
  elsewhere : ∀ e', e' ≠ e → w'.environment e' = w.environment e'
  here : w'.environment e = { w.environment e with
    pool := { (w.environment e).pool with idle := (w'.environment e).pool.idle } }

theorem SameButIdle.trans (same : SameButIdle e w w') (same' : SameButIdle e w' w'') :
    SameButIdle e w w'' where
  engine := same'.engine.trans same.engine
  futures := same'.futures.trans same.futures
  length := same'.length.trans same.length
  elsewhere e' ne := (same'.elsewhere e' ne).trans (same.elsewhere e' ne)
  here := by
    have here := same'.here
    rw [same.here] at here
    exact here

/-- A change of a pool that changes what is idle. -/
theorem SameButIdle.modify (known : e < w.environments.length)
    {f : Environment α → Environment α}
    (hf : f (w.environment e) = { w.environment e with
      pool := { (w.environment e).pool with idle := (f (w.environment e)).pool.idle } }) :
    SameButIdle e w (w.modify e f) where
  engine := rfl
  futures := rfl
  length := length_modify w e f
  elsewhere e' ne := environment_modify_ne w (Ne.symm ne) f
  here := by
    rw [environment_modify_self w known]
    exact hf

theorem sameButIdle_allocate (known : e < w.environments.length) :
    SameButIdle e w (w.allocate e).2 :=
  .modify known (congrArg (fun pool => { w.environment e with pool })
    (w.environment e).pool.acquire_eq)

theorem sameButIdle_recycle (known : e < w.environments.length) (b : Buffer) :
    SameButIdle e w (w.recycle e b) :=
  .modify known (congrArg (fun pool => { w.environment e with pool })
    ((w.environment e).pool.recycle_eq b))

theorem pool_recycle (known : e < w.environments.length) (b : Buffer) :
    ((w.recycle e b).environment e).pool = (w.environment e).pool.recycle b :=
  congrArg Environment.pool (environment_modify_self w known _)

/-! ## Arguments that cannot be written -/

/-- **The arguments of a call cannot be written**: there is a buffer for them, and the encoder gives
up on it with an error, when the buffer may be filled and grown. -/
def GivesUp (w : World σ α) (e : EnvironmentId) (encode : Encoder) (err : CodecError)
    (input filled : Buffer) : Prop :=
  (w.allocate e).1 = .ok input ∧
    ∃ written, (encode (w.registry e)).run (.start input) = (.error err, written) ∧
      written.buffer = filled

/-- **What is left of a call whose arguments could not be written.** Only idle buffers tell the
worlds apart, and there are no fewer of them, unless the buffer of the arguments was one that may
rest and has grown too large to rest. -/
structure NoTrace (w : World σ α) (e : EnvironmentId) (input filled : Buffer) (w' : World σ α) :
    Prop extends SameButIdle e w w' where
  idle : (w'.environment e).pool.idle.length < (w.environment e).pool.idle.length →
    input.capacity ≤ (w.environment e).pool.config.retainCapacity ∧
      (w.environment e).pool.config.retainCapacity < filled.capacity

/-- **What comes of a call that waits**, by the environment and the encoder of its arguments. A call
with objects is one of them if their types are known. -/
inductive Waits (eng : Engine σ) (w : World σ α) :
    EnvironmentId → Encoder → {β : Type} → Except CallError β × World σ α → Prop where
  | call {β : Type} (t op encode) (decode : Decoder β) :
      Waits eng w t.environment encode (w.call eng t op encode decode)
  | callOut (t op encode) : Waits eng w t.environment encode (w.callOut eng t op encode)
  | callIn {β : Type} (t op) (decode : Decoder β) :
      Waits eng w t.environment .none (w.callIn eng t op decode)
  | callObject (t op argument payload result)
      (known : checkTypes (w.registry t.environment) argument result = .ok ()) :
      Waits eng w t.environment (.ofDatum (.object argument payload))
        (w.callObject eng t op argument payload result)
  | execute {ι β : Type} (t) (c : Command ι β) (input) :
      Waits eng w t.environment (c.encode input) (w.execute eng t c input)
  | create (e kind encode) : Waits eng w e encode (w.create eng e kind encode)

/-- **What comes of a call that is submitted**, with a decoder that reads nothing if it is made for
its effect and `Encoder.none` if it has no arguments. -/
inductive Submits (eng : Engine σ) (w : World σ α) :
    EnvironmentId → Encoder → FutureId × World σ α → Prop where
  | submit (t op encode decode) :
      Submits eng w t.environment encode (w.submit eng t op encode decode)
  | submitObject (t op argument payload result yields)
      (known : checkTypes (w.registry t.environment) argument result = .ok ()) :
      Submits eng w t.environment (.ofDatum (.object argument payload))
        (w.submitObject eng t op argument payload result yields)
  | submitCommand {ι : Type} (t) (c : Command ι α) (input) :
      Submits eng w t.environment (c.encode input) (w.submitCommand eng t c input)

variable {encode : Encoder} {err : CodecError} {input output filled : Buffer}

/-- What an encoder gives up on is not committed. -/
theorem GivesUp.into (givesUp : w.GivesUp e encode err input filled) :
    encode.into (w.registry e) input = (.error err, filled) := by
  obtain ⟨_, written, hrun, rfl⟩ := givesUp
  unfold Encoder.into
  rw [hrun]

/-- A submitted call gives its buffer back. -/
theorem GivesUp.submit (givesUp : w.GivesUp e encode err input filled) {t : Target}
    (here : t.environment = e) (op : Int32) (decode : Decoder α) :
    w.submit eng t op encode decode =
      ((w.allocate e).2.recycle e filled).failed (.ofCodec err) := by
  subst here
  have hencode := givesUp.into
  have hregistry := registry_allocate w t.environment t.environment
  have hinput := givesUp.1
  unfold World.submit
  cases hallocate : w.allocate t.environment with
  | mk buffer w₁ =>
    rw [hallocate] at hinput hregistry
    dsimp only at hinput hregistry ⊢
    rw [hinput]
    dsimp only
    rw [hregistry, hencode]

/-- A waiting call gives both of its buffers back, whatever it would have done with them. -/
theorem GivesUp.withLeases (givesUp : w.GivesUp e encode err input filled)
    (spare : ((w.allocate e).2.allocate e).1 = .ok output)
    (body : Buffer → Buffer → World σ α → Except CallError β × (Buffer × Buffer) × World σ α) :
    (w.withLeases e fun input output w =>
      match encode.into (w.registry e) input with
      | (.error err, input) => (.error (.ofCodec err), (input, output), w)
      | (.ok (), input) => body input output w) =
        (.error (.ofCodec err),
          (((w.allocate e).2.allocate e).2.recycle e output).recycle e filled) := by
  have hencode := givesUp.into
  have hregistry := registry_allocate w e e
  have hinput := givesUp.1
  unfold World.withLeases
  cases hallocate : w.allocate e with
  | mk first w₁ =>
    rw [hallocate] at hinput hregistry spare
    have hregistry' := registry_allocate w₁ e e
    dsimp only at hinput hregistry spare ⊢
    rw [hinput]
    dsimp only
    cases hagain : w₁.allocate e with
    | mk second w₂ =>
      rw [hagain] at spare hregistry'
      dsimp only at spare hregistry' ⊢
      rw [spare]
      dsimp only
      rw [hregistry', hregistry, hencode]

/-- **A submitted call that gives up ends as a failed future.** -/
theorem GivesUp.submits (givesUp : w.GivesUp e encode err input filled)
    {answer : FutureId × World σ α} (submits : Submits eng w e encode answer) :
    answer = ((w.allocate e).2.recycle e filled).failed (.ofCodec err) := by
  cases submits with
  | submit t op encode decode => exact givesUp.submit rfl op decode
  | submitObject t op argument payload result yields known =>
    unfold World.submitObject
    rw [known]
    exact givesUp.submit rfl op _
  | submitCommand t c input => exact givesUp.submit rfl c.opcode c.decode

/-- **A waiting call that gives up ends with the error.** -/
theorem GivesUp.waits (givesUp : w.GivesUp e encode err input filled)
    (spare : ((w.allocate e).2.allocate e).1 = .ok output) {answer : Except CallError β × World σ α}
    (waits : Waits eng w e encode answer) :
    answer = (.error (.ofCodec err),
      (((w.allocate e).2.allocate e).2.recycle e output).recycle e filled) := by
  cases waits with
  | call t op encode decode => exact givesUp.withLeases spare (exchange eng t op decode)
  | callOut t op encode => exact givesUp.withLeases spare (exchange eng t op fun _ => pure ())
  | callIn t op decode => exact givesUp.withLeases spare (exchange eng t op decode)
  | callObject t op argument payload result known =>
    unfold World.callObject
    rw [known]
    exact givesUp.withLeases spare (exchange eng t op fun r => r.read (.object result))
  | execute t c input => exact givesUp.withLeases spare (exchange eng t c.opcode c.decode)
  | create e kind encode =>
    have made : w.withLeases e (makeObject eng e kind encode) = _ := givesUp.withLeases spare _
    rw [create_of_error (congrArg Prod.fst made), made]

/-! ## What is left behind -/

/-- A submitted call that gives up leaves no trace. -/
theorem GivesUp.noTrace_submits (givesUp : w.GivesUp e encode err input filled)
    (order : w.InOrder) (known : e < w.environments.length) :
    w.NoTrace e input filled ((w.allocate e).2.recycle e filled) := by
  have leased := sameButIdle_allocate known
  have known₁ : e < (w.allocate e).2.environments.length := leased.length ▸ known
  refine ⟨leased.trans (sameButIdle_recycle known₁ filled), fun fewer => ?_⟩
  rw [pool_recycle known₁, pool_allocate known] at fewer
  exact (order e).returned (acquire_of_allocate (Prod.ext givesUp.1 rfl)) (Pool.config_acquire _)
    (Pool.isOpen_acquire _) (Pool.length_le_acquire _) fewer

/-- **A waiting call that gives up leaves no trace.** -/
theorem GivesUp.noTrace_waits (givesUp : w.GivesUp e encode err input filled)
    (spare : ((w.allocate e).2.allocate e).1 = .ok output) (order : w.InOrder)
    (known : e < w.environments.length) :
    w.NoTrace e input filled
      ((((w.allocate e).2.allocate e).2.recycle e output).recycle e filled) := by
  have leased := sameButIdle_allocate known
  have known₁ : e < (w.allocate e).2.environments.length := leased.length ▸ known
  have both := leased.trans (sameButIdle_allocate known₁)
  have known₂ : e < ((w.allocate e).2.allocate e).2.environments.length := both.length ▸ known
  have freed := both.trans (sameButIdle_recycle known₂ output)
  have known₃ : e < (((w.allocate e).2.allocate e).2.recycle e output).environments.length :=
    freed.length ▸ known
  refine ⟨freed.trans (sameButIdle_recycle known₃ filled), fun fewer => ?_⟩
  rw [pool_recycle known₃, pool_recycle known₂, pool_allocate known₁, pool_allocate known] at fewer
  -- of the two buffers the second comes back as it was lent, so that the first one alone is missing
  have lent := acquire_of_allocate (Prod.ext spare rfl)
  rw [pool_allocate known] at lent
  refine (order e).returned (acquire_of_allocate (Prod.ext givesUp.1 rfl)) ?_ ?_ ?_ fewer
  · rw [Pool.config_recycle, Pool.config_acquire, Pool.config_acquire]
  · rw [Pool.isOpen_recycle, Pool.isOpen_acquire, Pool.isOpen_acquire]
  · exact Nat.le_trans (Pool.length_le_acquire _)
      (Nat.succ_le_succ ((order e).acquire.lent_back lent))

/-! ## Types that are not known -/

theorem check_of_missing {r : Registry} {k : TypeKey} (missing : r.byKey k = none) :
    r.check (.composite k) = .error (.unregistered k.name) := by
  rw [Registry.check, missing]
  rfl

theorem check_cases (r : Registry) (t : TypeRef) :
    r.check t = .ok () ∨ ∃ k, t = .composite k ∧ r.byKey k = none := by
  cases t with
  | primitive p => exact .inl rfl
  | composite k =>
    cases found : r.byKey k with
    | none => exact .inr ⟨k, rfl, found⟩
    | some d =>
      rw [Registry.check, found]
      exact .inl rfl

/-- **A type that is not known is found**, that of the argument before that of the result. -/
theorem checkTypes_of_unknown {r : Registry} {argument result : TypeRef}
    (unknown : ∃ k, (argument = .composite k ∨ result = .composite k) ∧ r.byKey k = none) :
    ∃ k, (argument = .composite k ∨ result = .composite k) ∧ r.byKey k = none ∧
      checkTypes r argument result = .error (.ofCodec (.unregistered k.name)) := by
  unfold checkTypes
  rcases check_cases r argument with known | ⟨k, rfl, missing⟩
  · rw [known]
    rcases check_cases r result with known' | ⟨k, rfl, missing⟩
    · -- both types are known, so there is none that is not
      obtain ⟨k, rfl | rfl, missing⟩ := unknown
      · cases known.symm.trans (check_of_missing missing)
      · cases known'.symm.trans (check_of_missing missing)
    · refine ⟨k, .inr rfl, missing, ?_⟩
      rw [check_of_missing missing]
      rfl
  · refine ⟨k, .inl rfl, missing, ?_⟩
    rw [check_of_missing missing]
    rfl

/-- A future that has failed has ended already. -/
theorem outcome?_failed (w : World σ α) (e : CallError) :
    (w.failed e).2.futures.outcome? (w.failed e).1 = some (.error e) :=
  (Futures.single_ready w.futures (.error e)).outcome?

/-- **A call that fails on this side leaves no trace.** If its arguments cannot
be written, whatever has been written of them, only the idle buffers of its
environment change. A submitted call ends as a future that has failed already
and a waiting one, which has had a second buffer, with the error, and in both
there are no fewer idle buffers than before, unless the buffer of the arguments
has grown too large to rest. If one of its types is not known, nothing changes
at all. The engine has no part in any of this, so that it can be any engine. -/
theorem Reached.fails_without_trace (reached : Reached eng w) {e : EnvironmentId}
    (alive : (w.environment e).isAlive) :
    (∀ encode err input filled, w.GivesUp e encode err input filled →
      (∃ w', w.NoTrace e input filled w' ∧ ∀ eng' answer, Submits eng' w e encode answer →
        answer = w'.failed (.ofCodec err) ∧
          answer.2.futures.outcome? answer.1 = some (.error (.ofCodec err))) ∧
      ∀ output, ((w.allocate e).2.allocate e).1 = .ok output →
        ∃ w', w.NoTrace e input filled w' ∧
          ∀ eng' (β : Type) (answer : Except CallError β × World σ α),
            Waits eng' w e encode answer → answer = (.error (.ofCodec err), w')) ∧
    ∀ argument result,
      (∃ k, (argument = .composite k ∨ result = .composite k) ∧
        (w.registry e).byKey k = none) →
      ∃ k, (argument = .composite k ∨ result = .composite k) ∧ (w.registry e).byKey k = none ∧
        ∀ eng' t op payload, t.environment = e →
          w.callObject eng' t op argument payload result =
              (.error (.ofCodec (.unregistered k.name)), w) ∧
            ∀ yields, w.submitObject eng' t op argument payload result yields =
                w.failed (.ofCodec (.unregistered k.name)) ∧
              (w.failed (.ofCodec (.unregistered k.name))).2.futures.outcome?
                  (w.failed (.ofCodec (.unregistered k.name))).1 =
                some (.error (.ofCodec (.unregistered k.name))) := by
  have order := reached.inOrder
  have known := lt_of_isAlive alive
  refine ⟨fun encode err input filled givesUp => ⟨⟨_, givesUp.noTrace_submits order known, ?_⟩,
    fun output spare => ⟨_, givesUp.noTrace_waits spare order known, ?_⟩⟩, ?_⟩
  · intro eng' answer submits
    rw [givesUp.submits submits]
    exact ⟨rfl, outcome?_failed _ _⟩
  · intro eng' β answer waits
    exact givesUp.waits spare waits
  · intro argument result unknown
    obtain ⟨k, mentioned, missing, refused⟩ := checkTypes_of_unknown unknown
    refine ⟨k, mentioned, missing, ?_⟩
    rintro eng' t op payload rfl
    unfold callObject submitObject
    rw [refused]
    exact ⟨rfl, fun _ => ⟨rfl, outcome?_failed _ _⟩⟩

end World

namespace Sample

/-- An environment whose pool keeps one buffer of up to sixteen bytes, after a first call. -/
def rested : World Scripted Int32 :=
  let w := ((World.ofEngine Scripted.start).addEnvironment single .empty).2
  (w.callIn Scripted.engine (seventh 0) 1 number).2

theorem reached_rested : World.Reached Scripted.engine rested :=
  ((World.Reached.start Scripted.start).step (.openEnvironment single .empty)).step
    (.call (seventh 0) 1 .none number rfl)

/-- Arguments that are given up on after so many bytes. -/
def halfWritten (n : Nat) : Encoder :=
  .ofEmission fun _ => ⟨[List.replicate n 1], some (.tooLarge n)⟩

/-- What the buffer at rest is then. -/
def halfFilled (n : Nat) : Buffer := ⟨(List.replicate n 1).toArray, n, 0, none⟩

/-- The error that the callers are told. -/
def gaveUp (n : Nat) : CallError := .ofCodec (.tooLarge n)

/-- A call that gives up after three bytes and one with a type that is not known: neither comes to
the engine, and what rested in the pool rests there again. After twenty bytes it does not, because
the buffer has grown too large. -/
theorem fails_without_trace_rested :
    World.Reached Scripted.engine rested ∧ (rested.environment 0).isAlive ∧
      (rested.environment 0).pool.idle.length = 1 ∧
      (∃ w', rested.NoTrace 0 (.ofBytes []) (halfFilled 3) w' ∧
        rested.call Scripted.engine (seventh 0) 1 (halfWritten 3) number = (.error (gaveUp 3), w') ∧
        ¬(w'.environment 0).pool.idle.length < 1) ∧
      (∃ w', rested.NoTrace 0 (.ofBytes []) (halfFilled 20) w' ∧
        rested.submit Scripted.engine (seventh 0) 1 (halfWritten 20) number =
          w'.failed (gaveUp 20)) ∧
      ((rested.submit Scripted.engine (seventh 0) 1 (halfWritten 20) number).2.environment
        0).pool.idle.length = 0 ∧
      rested.callObject Scripted.engine (seventh 0) 1 (.composite ⟨"Wrap", 11⟩) .nil
          (.primitive .text) = (.error (.ofCodec (.unregistered "Wrap")), rested) := by
  obtain ⟨written, types⟩ := reached_rested.fails_without_trace (e := 0) rfl
  have three : rested.GivesUp 0 (halfWritten 3) (.tooLarge 3) (.ofBytes []) (halfFilled 3) :=
    ⟨rfl, _, rfl, rfl⟩
  have twenty : rested.GivesUp 0 (halfWritten 20) (.tooLarge 20) (.ofBytes []) (halfFilled 20) :=
    ⟨rfl, _, rfl, rfl⟩
  have one : (rested.environment 0).pool.idle.length = 1 := rfl
  obtain ⟨w₁, trace₁, waits⟩ := (written _ _ _ _ three).2 eight rfl
  obtain ⟨w₂, trace₂, submits⟩ := (written _ _ _ _ twenty).1
  obtain ⟨k, mentioned, _, refused⟩ := types (.composite ⟨"Wrap", 11⟩) (.primitive .text)
    ⟨_, .inl rfl, rfl⟩
  refine ⟨reached_rested, rfl, one, ⟨w₁, trace₁, ?_, fun fewer => ?_⟩, ⟨w₂, trace₂, ?_⟩, ?_, ?_⟩
  · exact waits Scripted.engine Int32 _ (.call (seventh 0) 1 _ number)
  · exact absurd (trace₁.idle (one ▸ fewer)).2 (by decide)
  · exact (submits Scripted.engine _ (.submit (seventh 0) 1 _ number)).1
  · decide +kernel
  · obtain rfl : k = ⟨"Wrap", 11⟩ := by
      rcases mentioned with h | h
      · cases h
        rfl
      · cases h
    exact (refused Scripted.engine (seventh 0) 1 .nil rfl).1

end Sample

end RemoteDispatch
