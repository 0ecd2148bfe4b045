import RemoteDispatch.Call.Dispatch
import RemoteDispatch.Proofs.Slots

/-!
# Runs of a world

Many things happen in a world in any order: environments come and go, calls
are made and waited for, calls are submitted, replies arrive when the engine
sees fit, and the engine changes by itself. `World.Step` lists them all, and a
`World.Run` is any number of steps.

A step leaves a record of what it means for asynchronous calls, its
*happenings*. A call is refused before it gets an id, or entered under one;
later the engine rejects it, or a reply comes to some sink, or an environment
closes. The record of a run is all that is needed to say how each call has to
end, and it is written down here without looking at a pending table or a slot.

To the pending calls and the slots only six kinds of change can happen, however
many kinds of step there are. `World.Changes` lists these six, and
`World.Run.changes` says that every run is made of them.
-/

namespace RemoteDispatch

variable {σ α : Type}

/-! ## What happens -/

/-- **An asynchronous call as it was entered**: where, under which id, and what its future and
decoder are. -/
structure AsyncCall (α : Type) where
  /-- The environment that made the call. -/
  environment : EnvironmentId
  /-- The id under which it was entered and handed to the engine. -/
  id : CallId
  /-- The future that the caller got. -/
  future : FutureId
  /-- How the result is read. -/
  decode : Decoder α
  /-- The types known when the call was made. -/
  registry : Registry

/-- What can happen to asynchronous calls. -/
inductive Happening (α : Type) where
  /-- A call failed on this side before it got an id. -/
  | refused (future : FutureId) (error : CallError)
  /-- A call was entered in the pending table. -/
  | entered (call : AsyncCall α)
  /-- The engine did not accept the call of an environment with an id. -/
  | rejected (environment : EnvironmentId) (id : CallId) (error : TransportError)
  /-- A reply was handed to a sink. -/
  | replied (delivery : Delivery)
  /-- The last owner of an environment went. -/
  | closed (environment : EnvironmentId)

/-- **How a happening ends a call**, if the call is still pending and the happening is for it. A
reply is for the call if it comes to the sink of its environment under its id. -/
def AsyncCall.decides (c : AsyncCall α) : Happening α → Option (Outcome α)
  | .rejected e id error =>
    if c.environment = e ∧ c.id = id then some (.error (.ofTransport error)) else none
  | .replied d =>
    if c.environment = d.sink.environment ∧ c.id = d.call then
      some ((d.reply.decode c.registry c.decode).map Yield.one)
    else none
  | .closed e => if c.environment = e then some (.error .abandoned) else none
  | .refused _ _ | .entered _ => none

/-- The calls that an environment has entered, in order. -/
def entered (e : EnvironmentId) : List (Happening α) → List (AsyncCall α)
  | [] => []
  | .entered c :: h => if c.environment = e then c :: entered e h else entered e h
  | _ :: h => entered e h

namespace World

/-- The call that an environment is about to enter. -/
def nextCall (w : World σ α) (e : EnvironmentId) (decode : Decoder α) : AsyncCall α :=
  ⟨e, (w.environment e).calls.next, w.promise.1, decode, w.registry e⟩

/-- **What happens when a call is submitted.** It is refused if there is no buffer for its arguments
or they cannot be written. Otherwise it is entered, and then the engine rejects it or gives the
replies that are ready. -/
def submitted (eng : Engine σ) (w : World σ α) (t : Target) (op : Int32) (encode : Encoder)
    (decode : Decoder α) : List (Happening α) :=
  let future := (w.submit eng t op encode decode).1
  match w.allocate t.environment with
  | (.error e, _) => [.refused future e]
  | (.ok input, _) =>
    match encode.into (w.registry t.environment) input with
    | (.error e, _) => [.refused future (.ofCodec e)]
    | (.ok (), input) =>
      let id := (w.environment t.environment).calls.next
      .entered ⟨t.environment, id, future, decode, w.registry t.environment⟩ ::
        match (eng.submit t.raw op ⟨t.environment⟩ id input.committed w.engine).1 with
        | .error e => [.rejected t.environment id e]
        | .ok replies => replies.map .replied

/-- What happens when a call with objects is submitted, whose types are checked first. -/
def submittedObject (eng : Engine σ) (w : World σ α) (t : Target) (op : Int32)
    (argument : TypeRef) (payload : Datum) (result : TypeRef) (yields : Datum → α) :
    List (Happening α) :=
  match checkTypes (w.registry t.environment) argument result with
  | .error e => [.refused (w.submitObject eng t op argument payload result yields).1 e]
  | .ok () =>
    w.submitted eng t op (.ofDatum (.object argument payload)) fun r =>
      yields <$> r.read (.object result)

/-- What happens when an owner of an environment goes. -/
def released (w : World σ α) (e : EnvironmentId) : List (Happening α) :=
  if (w.environment e).owners = 1 then [.closed e] else []

end World

/-! ## Steps and runs -/

/-- A new buffer of some sizes can be made. -/
def Config.Makes (c : Config) : Prop := ∃ made, Pool.make c = .ok made

namespace World

/-- **One step of a world on an engine**, and what happens in it. What is done through an
environment or a target needs the environment to be alive. Who holds a lease may do anything to the
buffer and may put another in its place, so any buffer can be given back, to a pool that could lend
one in the first place. Replies come in any order, to any sink and under any id. -/
inductive Step (eng : Engine σ) : World σ α → List (Happening α) → World σ α → Prop where
  | openEnvironment {w} (config registry) : Step eng w [] (w.addEnvironment config registry).2
  | retain {w} (e) (alive : (w.environment e).isAlive) : Step eng w [] (w.retain e)
  | dropOwner {w} (e) (alive : (w.environment e).isAlive) :
      Step eng w (w.released e) (w.dropOwner e)
  | adopt {w} (e raw) : Step eng w [] (w.adopt e raw).2
  | dropHandle {w} (h) : Step eng w [] (w.dropHandle eng h)
  | create {w} (e kind encode) (alive : (w.environment e).isAlive) :
      Step eng w [] (w.create eng e kind encode).2
  | allocate {w} (e) (alive : (w.environment e).isAlive) : Step eng w [] (w.allocate e).2
  | recycle {w} (e b) (makes : (w.environment e).pool.config.Makes) : Step eng w [] (w.recycle e b)
  | stream {w} (t op input output) (alive : (w.environment t.environment).isAlive) :
      Step eng w [] (w.stream eng t op input output).2.2
  | call {w} {β : Type} (t op encode) (decode : Decoder β)
      (alive : (w.environment t.environment).isAlive) :
      Step eng w [] (w.call eng t op encode decode).2
  | callScalar {w} (t op value) (alive : (w.environment t.environment).isAlive) :
      Step eng w [] (w.callScalar eng t op value).2
  | submit {w} (t op encode decode) (alive : (w.environment t.environment).isAlive) :
      Step eng w (w.submitted eng t op encode decode) (w.submit eng t op encode decode).2
  | submitObject {w} (t op argument payload result yields)
      (alive : (w.environment t.environment).isAlive) :
      Step eng w (w.submittedObject eng t op argument payload result yields)
        (w.submitObject eng t op argument payload result yields).2
  | deliver {w} (d) : Step eng w [.replied d] (w.deliver d).2
  | engine {w} (s) : Step eng w [] (w.withEngine s)
  | join {w} (futures) : Step eng w [] (w.join futures).2
  | poll {w} (f waker) : Step eng w [] { w with futures := (w.futures.poll f waker).2 }

/-- **Any number of steps**, with everything that happens in them, in order. -/
inductive Run (eng : Engine σ) : World σ α → List (Happening α) → World σ α → Prop where
  | refl {w} : Run eng w [] w
  | snoc {w₁ w₂ w₃ h h'} (run : Run eng w₁ h w₂) (step : Step eng w₂ h' w₃) :
      Run eng w₁ (h ++ h') w₃

/-! ## One environment at a time -/

variable {w w' w'' : World σ α} {β : Type}

theorem environment_modify (w : World σ α) (e e' : EnvironmentId)
    (f : Environment α → Environment α) :
    (w.modify e f).environment e' =
      if e = e' ∧ e < w.environments.length then f (w.environment e') else w.environment e' := by
  show ((w.environments.modify e f)[e']?).getD .gone = _
  rw [List.getElem?_modify]
  unfold environment
  by_cases he : e = e'
  · subst he
    by_cases hlt : e < w.environments.length
    · rw [if_pos ⟨rfl, hlt⟩, List.getElem?_eq_getElem hlt]
      show (if e = e then f _ else _) = _
      rw [if_pos rfl]
      rfl
    · rw [if_neg (fun h => hlt h.2), List.getElem?_eq_none (Nat.le_of_not_lt hlt)]
      rfl
  · rw [if_neg (fun h => he h.1)]
    cases w.environments[e']? with
    | none => rfl
    | some env =>
      show (if e = e' then f env else env) = env
      rw [if_neg he]

theorem environment_modify_self (w : World σ α) {e : EnvironmentId}
    (he : e < w.environments.length) (f : Environment α → Environment α) :
    (w.modify e f).environment e = f (w.environment e) := by
  rw [environment_modify, if_pos ⟨rfl, he⟩]

theorem environment_modify_ne (w : World σ α) {e e' : EnvironmentId} (he : e ≠ e')
    (f : Environment α → Environment α) : (w.modify e f).environment e' = w.environment e' := by
  rw [environment_modify, if_neg (fun h => he h.1)]

@[simp] theorem length_modify (w : World σ α) (e : EnvironmentId)
    (f : Environment α → Environment α) :
    (w.modify e f).environments.length = w.environments.length :=
  List.length_modify ..

/-- What a change of one environment leaves alone in that one, it leaves alone in all. -/
theorem modify_keeps {γ : Type} (get : Environment α → γ) (w : World σ α) (e : EnvironmentId)
    (f : Environment α → Environment α) (hf : get (f (w.environment e)) = get (w.environment e))
    (e' : EnvironmentId) : get ((w.modify e f).environment e') = get (w.environment e') := by
  rw [environment_modify]
  split
  · next h => exact h.1 ▸ hf
  · rfl

/-- What there is of each environment after one of them has been changed. -/
theorem modify_get {γ : Type} (get : Environment α → γ) (w : World σ α) {e : EnvironmentId}
    (known : e < w.environments.length) (f : Environment α → Environment α) (e' : EnvironmentId) :
    get ((w.modify e f).environment e') =
      if e = e' then get (f (w.environment e)) else get (w.environment e') := by
  by_cases here : e = e'
  · subst here
    rw [environment_modify_self w known, if_pos rfl]
  · rw [environment_modify_ne w here, if_neg here]

/-- Two changes of an environment that come to the same. -/
theorem modify_congr {e : EnvironmentId} {f g : Environment α → Environment α}
    (h : f (w.environment e) = g (w.environment e)) : w.modify e f = w.modify e g := by
  have environments : w.environments.modify e f = w.environments.modify e g := by
    refine List.ext_getElem? fun i => ?_
    rw [List.getElem?_modify, List.getElem?_modify]
    by_cases hi : e = i
    · subst hi
      unfold environment at h
      cases henv : w.environments[e]? with
      | none => rfl
      | some env =>
        rw [henv] at h
        dsimp only [Option.getD_some] at h
        simp only [if_true]
        exact congrArg some h
    · simp only [if_neg hi]
  unfold modify
  rw [environments]

/-- An environment that has not been made is one that nothing is left of. -/
theorem environment_of_length_le {e : EnvironmentId} (missing : w.environments.length ≤ e) :
    w.environment e = .gone := by
  unfold environment
  rw [List.getElem?_eq_none missing]
  rfl

theorem environment_addEnvironment (w : World σ α) (config : Config) (registry : Registry)
    (e : EnvironmentId) :
    (w.addEnvironment config registry).2.environment e =
      if e = w.environments.length then .make config registry else w.environment e := by
  show ((w.environments ++ [Environment.make config registry])[e]?).getD .gone = _
  by_cases known : e < w.environments.length
  · rw [List.getElem?_append_left known, if_neg (Nat.ne_of_lt known)]
    rfl
  · split
    · next new =>
      subst new
      rw [List.getElem?_concat_length]
      rfl
    · next later =>
      have beyond : w.environments.length < e :=
        Nat.lt_of_le_of_ne (Nat.le_of_not_lt known) (Ne.symm later)
      rw [environment_of_length_le (Nat.le_of_not_lt known), List.getElem?_eq_none]
      · rfl
      · rw [List.length_append]
        exact beyond

theorem lt_of_isAlive {e : EnvironmentId} (alive : (w.environment e).isAlive) :
    e < w.environments.length := by
  refine Nat.lt_of_not_le fun hle => ?_
  rw [environment_of_length_le hle] at alive
  exact Bool.false_ne_true alive

/-! ## Making an object -/

/-- What the making of an object does with its leased buffers. -/
def makeObject (eng : Engine σ) (e : EnvironmentId) (kind : String) (encode : Encoder)
    (input output : Buffer) (w : World σ α) : Except CallError Int64 × (Buffer × Buffer) × World σ α :=
  match encode.into (w.registry e) input with
  | (.error err, input) => (.error (.ofCodec err), (input, output), w)
  | (.ok (), input) =>
    match eng.create kind input.committed output w.engine with
    | (.error err, output, s) => (.error (.ofTransport err), (input, output), w.withEngine s)
    | (.ok status, output, s) =>
      (Reply.decode ⟨status, output⟩ (w.registry e) fun _ => Reader.int64, (input, output),
        w.withEngine s)

/-- What the making of an object does once its buffers have been given back. -/
def attachMade (e : EnvironmentId) (made : Except CallError Int64 × World σ α) :
    Except CallError Target × World σ α :=
  let (raw, w) := made
  match raw with
  | .error err => (.error err, w)
  | .ok word =>
    let (t, w) := w.attach e ⟨word.toUInt64⟩
    (.ok t, w)

theorem create_eq (eng : Engine σ) (w : World σ α) (e : EnvironmentId) (kind : String)
    (encode : Encoder) :
    w.create eng e kind encode = attachMade e (w.withLeases e (makeObject eng e kind encode)) := rfl

/-- If no raw handle comes back, making an object attaches nothing. -/
theorem create_of_error {eng : Engine σ} {w : World σ α} {e : EnvironmentId} {kind : String}
    {encode : Encoder} {err : CallError}
    (failed : (w.withLeases e (makeObject eng e kind encode)).1 = .error err) :
    w.create eng e kind encode =
      (.error err, (w.withLeases e (makeObject eng e kind encode)).2) := by
  rw [create_eq]
  unfold attachMade
  dsimp only
  rw [failed]

/-- **If one comes back, that is attached.** -/
theorem create_of_ok {eng : Engine σ} {w : World σ α} {e : EnvironmentId} {kind : String}
    {encode : Encoder} {word : Int64}
    (received : (w.withLeases e (makeObject eng e kind encode)).1 = .ok word) :
    let made := (w.withLeases e (makeObject eng e kind encode)).2
    w.create eng e kind encode =
      (.ok (made.attach e ⟨word.toUInt64⟩).1, (made.attach e ⟨word.toUInt64⟩).2) := by
  intro made
  rw [create_eq]
  unfold attachMade
  dsimp only
  rw [received]

/-- What the use of the buffers and attaching keep, making an object keeps. -/
theorem create_keeps {eng : Engine σ} {e : EnvironmentId} {kind : String} {encode : Encoder}
    (P : World σ α → Prop) (leased : P (w.withLeases e (makeObject eng e kind encode)).2)
    (hattach : ∀ w raw, P w → P (w.attach e raw).2) : P (w.create eng e kind encode).2 := by
  rw [create_eq]
  generalize w.withLeases e (makeObject eng e kind encode) = made at leased
  obtain ⟨raw, w₁⟩ := made
  cases raw with
  | error err => exact leased
  | ok word => exact hattach w₁ _ leased

/-! ## What calls are made of -/

/-- **A relation between worlds that calls respect**, because what they are made of does: leasing a
buffer, giving one back, and the engine's own transitions. -/
structure Respected (eng : Engine σ) (R : World σ α → World σ α → Prop) : Prop where
  refl : ∀ w, R w w
  trans : ∀ {w w' w''}, R w w' → R w' w'' → R w w''
  allocate : ∀ w e, R w (w.allocate e).2
  recycle : ∀ w e b, R w (w.recycle e b)
  calls : ∀ w t op input output, R w (w.withEngine (eng.call t op input output w.engine).2.2)
  callsScalar : ∀ w t op value output,
    R w (w.withEngine (eng.callScalar t op value output w.engine).2.2)
  creates : ∀ w kind input output, R w (w.withEngine (eng.create kind input output w.engine).2.2)

namespace Respected

variable {eng : Engine σ} {R : World σ α → World σ α → Prop} (respected : Respected eng R)

include respected

theorem withLease (w : World σ α) (e : EnvironmentId)
    {step : Buffer → World σ α → Except CallError β × Buffer × World σ α}
    (hstep : ∀ b w, R w (step b w).2.2) : R w (w.withLease e step).2 := by
  unfold World.withLease
  have leased := respected.allocate w e
  cases hallocate : w.allocate e with
  | mk buffer w₁ =>
    rw [hallocate] at leased
    cases buffer with
    | error err => exact leased
    | ok b => exact respected.trans (respected.trans leased (hstep b w₁)) (respected.recycle _ _ _)

theorem withLeases (w : World σ α) (e : EnvironmentId)
    {step : Buffer → Buffer → World σ α → Except CallError β × (Buffer × Buffer) × World σ α}
    (hstep : ∀ b b' w, R w (step b b' w).2.2) : R w (w.withLeases e step).2 := by
  unfold World.withLeases
  have leased := respected.allocate w e
  cases hinput : w.allocate e with
  | mk input w₁ =>
    rw [hinput] at leased
    cases input with
    | error err => exact leased
    | ok input =>
      have leased' := respected.trans leased (respected.allocate w₁ e)
      dsimp only
      cases houtput : w₁.allocate e with
      | mk output w₂ =>
        rw [houtput] at leased'
        cases output with
        | error err => exact respected.trans leased' (respected.recycle _ _ _)
        | ok output =>
          have stepped := respected.trans leased' (hstep input output w₂)
          exact respected.trans (respected.trans stepped (respected.recycle _ _ _))
            (respected.recycle _ _ _)

theorem stream (w : World σ α) (t : Target) (op : Int32) (input : Bytes) (output : Buffer) :
    R w (w.stream eng t op input output).2.2 := by
  have called := respected.calls w t.raw op input output
  unfold World.stream
  split
  · next h =>
    rw [h] at called
    exact called
  · next h =>
    rw [h] at called
    exact called

theorem call (w : World σ α) (t : Target) (op : Int32) (encode : Encoder)
    (decode : Decoder β) : R w (w.call eng t op encode decode).2 := by
  refine respected.withLeases w _ fun input output w₁ => ?_
  dsimp only
  split
  · exact respected.refl _
  · next input' _ =>
    have streamed := respected.stream w₁ t op input'.committed output
    split
    · next h =>
      rw [h] at streamed
      exact streamed
    · next h =>
      rw [h] at streamed
      exact streamed

theorem callScalar (w : World σ α) (t : Target) (op : Int32) (value : Int64) :
    R w (w.callScalar eng t op value).2 := by
  refine respected.withLease w _ fun output w₁ => ?_
  have called := respected.callsScalar w₁ t.raw op value output
  split
  · next h =>
    rw [h] at called
    exact called
  · next h =>
    rw [h] at called
    exact called

theorem made (w : World σ α) (e : EnvironmentId) (kind : String) (encode : Encoder) :
    R w (w.withLeases e (makeObject eng e kind encode)).2 := by
  refine respected.withLeases w e fun input output w₁ => ?_
  unfold makeObject
  split
  · exact respected.refl _
  · next input' _ =>
    have created := respected.creates w₁ kind input'.committed output
    split
    · next h =>
      rw [h] at created
      exact created
    · next h =>
      rw [h] at created
      exact created

end Respected

/-! ## Steps that no call notices -/

/-- The environments are still there and go by the same sizes. -/
structure SameSizes (w w' : World σ α) : Prop where
  length : w.environments.length ≤ w'.environments.length
  config : ∀ e, e < w.environments.length →
    (w'.environment e).pool.config = (w.environment e).pool.config

namespace SameSizes

/-- A change outside the environments. -/
theorem outside (h : w'.environments = w.environments) : SameSizes w w' := by
  refine ⟨Nat.le_of_eq (congrArg List.length h.symm), fun e _ => ?_⟩
  unfold environment
  rw [h]

theorem refl (w : World σ α) : SameSizes w w := outside rfl

theorem trans (h : SameSizes w w') (h' : SameSizes w' w'') : SameSizes w w'' :=
  ⟨Nat.le_trans h.length h'.length,
    fun e known => (h'.config e (Nat.lt_of_lt_of_le known h.length)).trans (h.config e known)⟩

theorem modify (w : World σ α) (e : EnvironmentId) {f : Environment α → Environment α}
    (hf : (f (w.environment e)).pool.config = (w.environment e).pool.config) :
    SameSizes w (w.modify e f) :=
  ⟨Nat.le_of_eq (length_modify w e f).symm,
    fun e' _ => modify_keeps (fun env => env.pool.config) w e f hf e'⟩

end SameSizes

/-- **The pending calls are the same in both worlds**, and the slots are the same but for new ones
and joined ones. -/
structure SameCalls (w w' : World σ α) : Prop extends SameSizes w w' where
  calm : w.futures.Calm w'.futures
  calls : ∀ e, (w'.environment e).calls = (w.environment e).calls
  registry : ∀ e, e < w.environments.length → w'.registry e = w.registry e

namespace SameCalls

theorem refl (w : World σ α) : SameCalls w w := ⟨.refl w, .refl, fun _ => rfl, fun _ _ => rfl⟩

theorem trans (h : SameCalls w w') (h' : SameCalls w' w'') : SameCalls w w'' where
  toSameSizes := h.toSameSizes.trans h'.toSameSizes
  calm := h.calm.trans h'.calm
  calls e := (h'.calls e).trans (h.calls e)
  registry e he := (h'.registry e (Nat.lt_of_lt_of_le he h.length)).trans (h.registry e he)

theorem withEngine (w : World σ α) (s : σ) : SameCalls w (w.withEngine s) :=
  ⟨.outside rfl, .refl, fun _ => rfl, fun _ _ => rfl⟩

/-- A slot that is not a joined one is what it was. -/
theorem single (h : SameCalls w w') {f : FutureId} {o : Option (Outcome α)}
    (hs : w.futures.Single f o) : w'.futures.Single f o :=
  h.calm.lasting (Futures.lasting_single f o)
    (Futures.kept_single (Nat.ne_of_gt hs.lt_length) o) hs

/-- An outcome, once there, stays. -/
theorem outcome (h : SameCalls w w') {f : FutureId} {o : Outcome α}
    (ho : w.futures.outcome? f = some o) : w'.futures.outcome? f = some o :=
  h.calm.lasting (Futures.lasting_outcome f o) (Futures.kept_outcome f f o) ho

theorem modify (w : World σ α) (e : EnvironmentId) {f : Environment α → Environment α}
    (hcalls : ∀ env, (f env).calls = env.calls) (hregistry : ∀ env, (f env).registry = env.registry)
    (hconfig : (f (w.environment e)).pool.config = (w.environment e).pool.config) :
    SameCalls w (w.modify e f) where
  toSameSizes := .modify w e hconfig
  calm := .refl
  calls := modify_keeps Environment.calls w e f (hcalls _)
  registry e' _ := modify_keeps Environment.registry w e f (hregistry _) e'

theorem ofFutures (w : World σ α) {fs : Futures α} (calm : w.futures.Calm fs) :
    SameCalls w { w with futures := fs } where
  toSameSizes := .outside rfl
  calm := calm
  calls _ := rfl
  registry _ _ := rfl

theorem addEnvironment (w : World σ α) (config : Config) (registry : Registry) :
    SameCalls w (w.addEnvironment config registry).2 where
  calm := .refl
  calls e := by
    rw [environment_addEnvironment]
    split
    · next new =>
      -- the new environment has made no call, and one that is missing counts as such
      rw [environment_of_length_le (Nat.le_of_eq new.symm)]
      rfl
    · rfl
  registry e known := by
    unfold World.registry
    rw [environment_addEnvironment, if_neg (Nat.ne_of_lt known)]
  config e known := by
    rw [environment_addEnvironment, if_neg (Nat.ne_of_lt known)]
  length := by
    show _ ≤ (w.environments ++ [_]).length
    rw [List.length_append]
    exact Nat.le_add_right _ _

theorem allocate (w : World σ α) (e : EnvironmentId) : SameCalls w (w.allocate e).2 :=
  modify w e (fun _ => rfl) (fun _ => rfl) (Pool.config_acquire _)

theorem recycle (w : World σ α) (e : EnvironmentId) (b : Buffer) : SameCalls w (w.recycle e b) :=
  modify w e (fun _ => rfl) (fun _ => rfl) (Pool.config_recycle _ b)

theorem adopt (w : World σ α) (e : EnvironmentId) (raw : RawHandle) :
    SameCalls w (w.adopt e raw).2 :=
  modify w e (fun _ => rfl) (fun _ => rfl) rfl

theorem retain (w : World σ α) (e : EnvironmentId) : SameCalls w (w.retain e) :=
  modify w e (fun _ => rfl) (fun _ => rfl) rfl

variable (eng : Engine σ)

theorem dropHandle (w : World σ α) (h : Handle) : SameCalls w (w.dropHandle eng h) := by
  unfold World.dropHandle
  cases (w.environment h.table).handles.release h.raw with
  | mk handles last =>
    have counted : SameCalls w (w.modify h.table fun env => { env with handles }) :=
      modify w _ (fun _ => rfl) (fun _ => rfl) rfl
    cases last with
    | true => exact counted.trans (withEngine _ _)
    | false => exact counted

theorem respected : Respected eng (SameCalls (σ := σ) (α := α)) where
  refl := refl
  trans := trans
  allocate := allocate
  recycle := recycle
  calls w _ _ _ _ := withEngine w _
  callsScalar w _ _ _ _ := withEngine w _
  creates w _ _ _ := withEngine w _

theorem create (w : World σ α) (e : EnvironmentId) (kind : String) (encode : Encoder) :
    SameCalls w (w.create eng e kind encode).2 :=
  create_keeps (SameCalls w) ((respected eng).made w e kind encode) fun w₁ raw h =>
    (h.trans (adopt w₁ e raw)).trans (retain _ e)

theorem join (w : World σ α) (futures : List FutureId) : SameCalls w (w.join futures).2 :=
  ofFutures w (.join futures)

theorem poll (w : World σ α) (f : FutureId) (waker : Waker) :
    SameCalls w { w with futures := (w.futures.poll f waker).2 } :=
  ofFutures w (.poll f waker)

/-- A settled slot of its own is noticed by no call. -/
theorem failed (w : World σ α) (e : CallError) : SameCalls w (w.failed e).2 :=
  ofFutures w (.add rfl rfl)

end SameCalls

/-! ## Submitting a call -/

/-- The bytes of the arguments with which a submitted call gets to the engine, if it gets there. -/
def written (w : World σ α) (t : Target) (encode : Encoder) : Except CallError Bytes :=
  match w.allocate t.environment with
  | (.error e, _) => .error e
  | (.ok input, w) =>
    match encode.into (w.registry t.environment) input with
    | (.error e, _) => .error (.ofCodec e)
    | (.ok (), input) => .ok input.committed

/-- What submitting does once the arguments are written: it enters the call and gives it to the
engine. -/
def handIn (eng : Engine σ) (w : World σ α) (t : Target) (op : Int32) (input : Bytes)
    (decode : Decoder α) : World σ α :=
  let entered := (w.promise.2.register t.environment ⟨w.promise.1, decode⟩).2
  let id := (w.environment t.environment).calls.next
  match eng.submit t.raw op ⟨t.environment⟩ id input w.engine with
  | (.error e, s) =>
    ((entered.withEngine s).takeCall t.environment id fun _ => .error (.ofTransport e)).2
  | (.ok replies, s) => (entered.withEngine s).deliverAll replies

/-- What happens when a call is handed in. -/
def handedIn (eng : Engine σ) (w : World σ α) (t : Target) (op : Int32) (input : Bytes)
    (decode : Decoder α) : List (Happening α) :=
  let id := (w.environment t.environment).calls.next
  .entered (w.nextCall t.environment decode) ::
    match (eng.submit t.raw op ⟨t.environment⟩ id input w.engine).1 with
    | .error e => [.rejected t.environment id e]
    | .ok replies => replies.map .replied

/-- **Only leased buffers tell the worlds apart.** -/
structure OnlyLeases (w w' : World σ α) : Prop extends SameCalls w w' where
  engine : w'.engine = w.engine
  futures : w'.futures = w.futures
  handles : ∀ e, (w'.environment e).handles = (w.environment e).handles

theorem onlyLeases_allocate (w : World σ α) (e : EnvironmentId) : OnlyLeases w (w.allocate e).2 :=
  ⟨.allocate w e, rfl, rfl, modify_keeps Environment.handles w e _ rfl⟩

theorem registry_allocate (w : World σ α) (e e' : EnvironmentId) :
    (w.allocate e).2.registry e' = w.registry e' :=
  modify_keeps Environment.registry w e
    (fun env => { env with pool := (w.environment e).pool.acquire.2 }) rfl e'

theorem OnlyLeases.recycle (leased : OnlyLeases w w') (e : EnvironmentId) (b : Buffer) :
    OnlyLeases w (w'.recycle e b) :=
  ⟨leased.toSameCalls.trans (.recycle w' e b), leased.engine, leased.futures,
    fun e' => (modify_keeps Environment.handles w' e _ rfl e').trans (leased.handles e')⟩

variable {t : Target} {encode : Encoder}

/-- **A call whose arguments cannot be written is refused.** -/
theorem submit_of_unwritten (eng : Engine σ) (op : Int32) (decode : Decoder α) {e : CallError}
    (unwritten : w.written t encode = .error e) :
    ∃ w₁, OnlyLeases w w₁ ∧ w.submit eng t op encode decode = w₁.failed e ∧
      w.submitted eng t op encode decode = [.refused (w₁.failed e).1 e] := by
  unfold World.written at unwritten
  unfold submitted World.submit
  have leased := onlyLeases_allocate w t.environment
  have hregistry := registry_allocate w t.environment t.environment
  cases hallocate : w.allocate t.environment with
  | mk buffer w₁ =>
    rw [hallocate] at unwritten leased hregistry
    cases buffer with
    | error err =>
      cases unwritten
      exact ⟨w₁, leased, rfl, rfl⟩
    | ok buffer =>
      dsimp only at unwritten hregistry ⊢
      rw [hregistry] at unwritten ⊢
      cases hencode : encode.into (w.registry t.environment) buffer with
      | mk result buffer =>
        rw [hencode] at unwritten
        cases result with
        | error err =>
          cases unwritten
          exact ⟨_, leased.recycle t.environment buffer, rfl, rfl⟩
        | ok _ => cases unwritten

theorem allocate_of_written {input : Bytes} (written : w.written t encode = .ok input) :
    ∃ leased w₁ filled, w.allocate t.environment = (.ok leased, w₁) ∧
      encode.into (w.registry t.environment) leased = (.ok (), filled) ∧
      filled.committed = input := by
  unfold World.written at written
  have hregistry := registry_allocate w t.environment t.environment
  cases hallocate : w.allocate t.environment with
  | mk buffer w₁ =>
    rw [hallocate] at written hregistry
    cases buffer with
    | error err => cases written
    | ok buffer =>
      dsimp only at written hregistry
      rw [hregistry] at written
      cases hencode : encode.into (w.registry t.environment) buffer with
      | mk result filled =>
        rw [hencode] at written
        cases result with
        | error err => cases written
        | ok _ =>
          cases written
          exact ⟨buffer, w₁, filled, rfl, hencode, rfl⟩

/-- **A call whose arguments can be written is handed in.** -/
theorem submit_of_written (eng : Engine σ) (op : Int32) (decode : Decoder α) {input : Bytes}
    (written : w.written t encode = .ok input) :
    ∃ w₁, OnlyLeases w w₁ ∧
      w.submit eng t op encode decode = (w₁.promise.1, w₁.handIn eng t op input decode) ∧
      w.submitted eng t op encode decode = w₁.handedIn eng t op input decode := by
  obtain ⟨buffer, w₁, filled, hallocate, hencode, rfl⟩ := allocate_of_written written
  have leased := onlyLeases_allocate w t.environment
  have hregistry := registry_allocate w t.environment t.environment
  rw [hallocate] at leased hregistry
  have hnext := congrArg PendingCalls.next (leased.calls t.environment)
  dsimp only at leased hregistry hnext
  -- the engine sees the call as soon as it is entered
  have next : (w₁.promise.2.register t.environment ⟨w₁.promise.1, decode⟩).1 =
      (w₁.environment t.environment).calls.next := rfl
  have engine : (w₁.promise.2.register t.environment ⟨w₁.promise.1, decode⟩).2.engine =
      w₁.engine := rfl
  have hsubmit : w.submit eng t op encode decode =
      (w₁.promise.1, w₁.handIn eng t op filled.committed decode) := by
    unfold World.submit handIn
    rw [hallocate]
    dsimp only
    rw [hregistry, hencode]
    dsimp only
    rw [next, engine]
    cases eng.submit t.raw op ⟨t.environment⟩
        (w₁.environment t.environment).calls.next filled.committed w₁.engine with
    | mk accepted s =>
      cases accepted with
      | error e => rfl
      | ok replies => rfl
  refine ⟨w₁, leased, hsubmit, ?_⟩
  unfold submitted handedIn nextCall
  rw [hsubmit, hallocate]
  dsimp only
  rw [hencode, hregistry, hnext, leased.engine]

/-! ## What the engine makes of it -/

theorem takeCall_engine (w : World σ α) (e : EnvironmentId) (id : CallId)
    (outcome : Awaited α → Outcome α) : (w.takeCall e id outcome).2.engine = w.engine := by
  unfold World.takeCall
  cases (w.environment e).calls.take id with
  | none => rfl
  | some taken => rfl

theorem deliverAll_engine (w : World σ α) (ds : List Delivery) :
    (w.deliverAll ds).engine = w.engine := by
  induction ds generalizing w with
  | nil => rfl
  | cons d ds ih => exact (ih (w.deliver d).2).trans (takeCall_engine ..)

/-- **Submitting does nothing to the engine but its own transition**, and none if the arguments
cannot be written. -/
theorem submit_engine (eng : Engine σ) (w : World σ α) (t : Target) (op : Int32)
    (encode : Encoder) (decode : Decoder α) :
    (w.submit eng t op encode decode).2.engine =
      match w.written t encode with
      | .error _ => w.engine
      | .ok input =>
        (eng.submit t.raw op ⟨t.environment⟩ (w.environment t.environment).calls.next input
          w.engine).2 := by
  cases written : w.written t encode with
  | error e =>
    obtain ⟨w₁, leased, hsubmit, _⟩ := submit_of_unwritten eng op decode written
    rw [hsubmit]
    exact leased.engine
  | ok input =>
    obtain ⟨w₁, leased, hsubmit, _⟩ := submit_of_written eng op decode written
    rw [hsubmit, ← leased.engine, ← congrArg PendingCalls.next (leased.calls t.environment)]
    unfold handIn
    dsimp only
    cases eng.submit t.raw op ⟨t.environment⟩ (w₁.environment t.environment).calls.next input
        w₁.engine with
    | mk accepted s =>
      cases accepted with
      | error e => exact takeCall_engine ..
      | ok replies => exact deliverAll_engine _ replies

/-! ## The last owner -/

theorem dropOwner_of_last (w : World σ α) {e : EnvironmentId}
    (last : (w.environment e).owners = 1) :
    w.dropOwner e =
      { (w.modify e fun env => { env with owners := env.owners - 1 }).modify e
          Environment.shutDown with
        futures := (w.environment e).calls.entries.foldl
          (fun fs entry => fs.abandon entry.2.future) w.futures } := by
  unfold World.dropOwner
  dsimp only
  rw [if_pos last]
  rfl

theorem dropOwner_of_more (w : World σ α) {e : EnvironmentId}
    (more : (w.environment e).owners ≠ 1) :
    w.dropOwner e = w.modify e fun env => { env with owners := env.owners - 1 } := by
  unfold World.dropOwner
  dsimp only
  rw [if_neg more]

/-! ## The changes that calls notice -/

/-- **What can happen to pending calls and slots**: nothing, or one of five changes, one after
another. -/
inductive Changes : World σ α → List (Happening α) → World σ α → Prop where
  | same {w w' : World σ α} (same : SameCalls w w') : Changes w [] w'
  | refuse {w : World σ α} (error) :
      Changes w [.refused (w.failed error).1 error] (w.failed error).2
  | enter {w : World σ α} (e decode) (known : e < w.environments.length) :
      Changes w [.entered (w.nextCall e decode)]
        (w.promise.2.register e ⟨w.promise.1, decode⟩).2
  | reject {w : World σ α} (e id error) :
      Changes w [.rejected e id error] (w.takeCall e id fun _ => .error (.ofTransport error)).2
  | reply {w : World σ α} (d) : Changes w [.replied d] (w.deliver d).2
  | close {w : World σ α} (e) (last : (w.environment e).owners = 1) :
      Changes w [.closed e] (w.dropOwner e)
  | andThen {w₁ w₂ w₃ : World σ α} {h h'} (first : Changes w₁ h w₂)
      (second : Changes w₂ h' w₃) : Changes w₁ (h ++ h') w₃

namespace Changes

variable (eng : Engine σ)

theorem deliverAll (w : World σ α) (ds : List Delivery) :
    Changes w (ds.map .replied) (w.deliverAll ds) := by
  induction ds generalizing w with
  | nil => exact same (.refl w)
  | cons d ds ih => exact (reply d).andThen (ih (w.deliver d).2)

theorem handIn (w : World σ α) (t : Target) (op : Int32) (input : Bytes) (decode : Decoder α)
    (known : t.environment < w.environments.length) :
    Changes w (w.handedIn eng t op input decode) (w.handIn eng t op input decode) := by
  unfold handedIn World.handIn
  have entered := enter t.environment decode known
  dsimp only
  cases eng.submit t.raw op ⟨t.environment⟩ (w.environment t.environment).calls.next input
      w.engine with
  | mk accepted s =>
    have moved := entered.andThen (same (.withEngine _ s))
    cases accepted with
    | error e => exact moved.andThen (reject t.environment _ e)
    | ok replies => exact moved.andThen (deliverAll _ replies)

theorem submit (w : World σ α) (t : Target) (op : Int32) (encode : Encoder) (decode : Decoder α)
    (known : t.environment < w.environments.length) :
    Changes w (w.submitted eng t op encode decode) (w.submit eng t op encode decode).2 := by
  cases written : w.written t encode with
  | error e =>
    obtain ⟨w₁, leased, hsubmit, hsubmitted⟩ := submit_of_unwritten eng op decode written
    rw [hsubmit, hsubmitted]
    exact (same leased.toSameCalls).andThen (refuse e)
  | ok input =>
    obtain ⟨w₁, leased, hsubmit, hsubmitted⟩ := submit_of_written eng op decode written
    rw [hsubmit, hsubmitted]
    exact (same leased.toSameCalls).andThen
      (handIn eng w₁ t op input decode (Nat.lt_of_lt_of_le known leased.length))

theorem submitObject (w : World σ α) (t : Target) (op : Int32) (argument : TypeRef)
    (payload : Datum) (result : TypeRef) (yields : Datum → α)
    (known : t.environment < w.environments.length) :
    Changes w (w.submittedObject eng t op argument payload result yields)
      (w.submitObject eng t op argument payload result yields).2 := by
  unfold submittedObject World.submitObject
  cases checkTypes (w.registry t.environment) argument result with
  | error e => exact refuse e
  | ok _ => exact submit eng w t op _ _ known

theorem dropOwner (w : World σ α) (e : EnvironmentId) :
    Changes w (w.released e) (w.dropOwner e) := by
  unfold released
  by_cases last : (w.environment e).owners = 1
  · rw [if_pos last]
    exact close e last
  · rw [if_neg last, dropOwner_of_more w last]
    exact same (.modify w e (fun _ => rfl) (fun _ => rfl) rfl)

end Changes

/-! ## An outcome stays -/

theorem takeCall_of_none {e : EnvironmentId} {id : CallId}
    (missing : (w.environment e).calls.find? id = none) (outcome : Awaited α → Outcome α) :
    (w.takeCall e id outcome).2 = w := by
  unfold World.takeCall PendingCalls.take
  rw [missing]
  rfl

/-- A call that waits is taken out, and its future settles. -/
theorem takeCall_of_some {e : EnvironmentId} {id : CallId} {held : Awaited α}
    (found : (w.environment e).calls.find? id = some held) (outcome : Awaited α → Outcome α) :
    (w.takeCall e id outcome).2 =
      (w.modify e fun env => { env with calls := (w.environment e).calls.erase id }).settle
        held.future (outcome held) := by
  unfold World.takeCall PendingCalls.take
  rw [found]
  rfl

theorem takeCall_outcome {f : FutureId} {o : Outcome α} (ho : w.futures.outcome? f = some o)
    (e : EnvironmentId) (id : CallId) (outcome : Awaited α → Outcome α) :
    (w.takeCall e id outcome).2.futures.outcome? f = some o := by
  unfold World.takeCall
  cases (w.environment e).calls.take id with
  | none => exact ho
  | some taken => exact Futures.outcome?_settle ho _ _

/-- **No change takes an outcome back.** -/
theorem Changes.outcome {h : List (Happening α)} (changes : Changes w h w') {f : FutureId}
    {o : Outcome α} (ho : w.futures.outcome? f = some o) : w'.futures.outcome? f = some o := by
  induction changes with
  | same same => exact same.outcome ho
  | refuse error => exact (SameCalls.failed _ error).outcome ho
  | enter e decode _ => exact (Futures.lasting_outcome f o).add _ ho
  | reject e id error => exact takeCall_outcome ho e id _
  | reply d => exact takeCall_outcome ho _ _ _
  | close e last =>
    rw [dropOwner_of_last _ last]
    exact Futures.outcome?_abandonAll _ _ ho
  | andThen _ _ ih ih' => exact ih' (ih ho)

/-! ## The sizes stay -/

theorem sameSizes_takeCall (w : World σ α) (e : EnvironmentId) (id : CallId)
    (outcome : Awaited α → Outcome α) : SameSizes w (w.takeCall e id outcome).2 := by
  unfold World.takeCall
  cases (w.environment e).calls.take id with
  | none => exact .refl w
  | some taken =>
    have kept : SameSizes w (w.modify e fun env => { env with calls := taken.2 }) :=
      .modify w e rfl
    exact kept.trans (.outside rfl)

/-- **No change resizes an environment.** -/
theorem Changes.sameSizes {h : List (Happening α)} (changes : Changes w h w') :
    SameSizes w w' := by
  induction changes with
  | same same => exact same.toSameSizes
  | refuse error => exact .outside rfl
  | @enter w e decode _ =>
    have kept : SameSizes w.promise.2 (w.promise.2.register e ⟨w.promise.1, decode⟩).2 :=
      .modify _ e rfl
    have promised : SameSizes w w.promise.2 := .outside rfl
    exact promised.trans kept
  | reject e id error => exact sameSizes_takeCall _ e id _
  | reply d => exact sameSizes_takeCall _ _ _ _
  | close e last =>
    rw [dropOwner_of_last _ last]
    exact (SameSizes.modify _ e rfl).trans ((SameSizes.modify _ e rfl).trans (.outside rfl))
  | andThen _ _ ih ih' => exact ih.trans ih'

/-! ## The types stay -/

theorem registry_takeCall (w : World σ α) (e : EnvironmentId) (id : CallId)
    (outcome : Awaited α → Outcome α) (e' : EnvironmentId) :
    (w.takeCall e id outcome).2.registry e' = w.registry e' := by
  unfold World.takeCall
  cases (w.environment e).calls.take id with
  | none => rfl
  | some taken =>
    exact modify_keeps Environment.registry w e (fun env => { env with calls := taken.2 }) rfl e'

/-- **No change touches the types that an environment knows.** -/
theorem Changes.registry {h : List (Happening α)} (changes : Changes w h w') {e : EnvironmentId}
    (known : e < w.environments.length) : w'.registry e = w.registry e := by
  induction changes with
  | same same => exact same.registry e known
  | refuse error => rfl
  | @enter w e' decode _ =>
    exact modify_keeps Environment.registry w.promise.2 e' (fun env => { env with
      calls := ((w.promise.2.environment e').calls.register ⟨w.promise.1, decode⟩).2 }) rfl e
  | reject e' id error => exact registry_takeCall _ e' id _ e
  | reply d => exact registry_takeCall _ _ _ _ e
  | @close w e' last =>
    rw [dropOwner_of_last w last]
    let count : Environment α → Environment α := fun env => { env with owners := env.owners - 1 }
    exact (modify_keeps Environment.registry (w.modify e' count) e' Environment.shutDown rfl e).trans
      (modify_keeps Environment.registry w e' count rfl e)
  | andThen first _ ih ih' =>
    exact (ih' (Nat.lt_of_lt_of_le known first.sameSizes.length)).trans (ih known)

/-! ## Runs -/

/-- **Every step is made of the changes that calls notice.** -/
theorem Step.changes {eng : Engine σ} {h : List (Happening α)} (step : Step eng w h w') :
    Changes w h w' := by
  cases step with
  | openEnvironment config registry => exact .same (.addEnvironment w config registry)
  | retain e _ => exact .same (.retain w e)
  | dropOwner e _ => exact .dropOwner w e
  | adopt e raw => exact .same (.adopt w e raw)
  | dropHandle h => exact .same (.dropHandle eng w h)
  | create e kind encode _ => exact .same (.create eng w e kind encode)
  | allocate e _ => exact .same (.allocate w e)
  | recycle e b _ => exact .same (.recycle w e b)
  | stream t op input output _ => exact .same ((SameCalls.respected eng).stream w t op input output)
  | call t op encode decode _ => exact .same ((SameCalls.respected eng).call w t op encode decode)
  | callScalar t op value _ => exact .same ((SameCalls.respected eng).callScalar w t op value)
  | submit t op encode decode alive => exact .submit eng w t op encode decode (lt_of_isAlive alive)
  | submitObject t op argument payload result yields alive =>
    exact .submitObject eng w t op argument payload result yields (lt_of_isAlive alive)
  | deliver d => exact .reply d
  | engine s => exact .same (.withEngine w s)
  | join futures => exact .same (.join w futures)
  | poll f waker => exact .same (.poll w f waker)

theorem Run.trans {eng : Engine σ} {h h' : List (Happening α)} (first : Run eng w h w')
    (second : Run eng w' h' w'') : Run eng w (h ++ h') w'' := by
  induction second with
  | refl =>
    rw [List.append_nil]
    exact first
  | snoc _ step ih =>
    rw [← List.append_assoc]
    exact ih.snoc step

/-- **Every run is.** -/
theorem Run.changes {eng : Engine σ} {h : List (Happening α)} (run : Run eng w h w') :
    Changes w h w' := by
  induction run with
  | refl => exact .same (.refl _)
  | snoc _ step ih => exact ih.andThen step.changes

end World

end RemoteDispatch
