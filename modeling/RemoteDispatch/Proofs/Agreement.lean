import RemoteDispatch.Engine.Handler
import RemoteDispatch.Proofs.Serving
import RemoteDispatch.Proofs.Translation

/-!
# Waiting or not makes no difference

On the loopback engine a call can be made in two ways. One leases two buffers,
has the handler write into the second, which earlier calls have used, and
reads the result there. The other leases one buffer, hands it over for good,
and gets a reply in a buffer of the engine's own, which it reads when it finds
its entry in the pending table. Both come to the same result, and both leave
the engine in the same state.

The arguments are written into the same buffer either way, so they are the
same bytes. What may differ is the second lease, which the pools of reachable
worlds never refuse where they granted the first, and the buffer that the
handler writes into, which does not show.

It would show if it had a limit. An environment whose sizes set none has none
as long as nobody gives back a buffer with a limit (`World.Run.unlimited`), and
where somebody does, the two ways can come to different results
(`Sample.outcomes_differ_exchanged`). `Environment.Unlimited` says that an
environment has no limit in either sense.
-/

namespace RemoteDispatch

variable {σ α β : Type}

/-! ## Answers that say the same -/

/-- Only the status and the bytes shown matter to a reply. -/
theorem Reply.decode_congr {reply reply' : Reply} (status : reply.status = reply'.status)
    (shown : reply.output.committed = reply'.output.committed) (r : Registry)
    (decode : Decoder β) : reply.decode r decode = reply'.decode r decode := by
  unfold Reply.decode checkStatus decodeOutput
  rw [status, shown]

/-- **The same refusal, or the same status and the same bytes.** -/
def Answer.Alike : Answer → Answer → Prop
  | .error e, .error e' => e = e'
  | .ok reply, .ok reply' =>
    reply.status = reply'.status ∧ reply.output.committed = reply'.output.committed
  | _, _ => False

/-- Answers that say the same are understood alike. -/
theorem Answer.Alike.translate {a a' : Answer} (alike : a.Alike a') (r : Registry)
    (decode : Decoder β) : a.translate r decode = a'.translate r decode := by
  cases a with
  | error e =>
    cases a' with
    | error e' =>
      obtain rfl : e = e' := alike
      rfl
    | ok reply' => exact alike.elim
  | ok reply =>
    cases a' with
    | error e' => exact alike.elim
    | ok reply' => exact Reply.decode_congr alike.1 alike.2 r decode

/-- A call just entered is found under its id. -/
theorem PendingCalls.find?_register (calls : PendingCalls β) (held : β) :
    (calls.register held).2.find? calls.next = some held := by
  unfold find?
  have missed : (calls.erase calls.next).entries.find? (·.1 == calls.next) = none := by
    refine List.find?_eq_none.2 fun entry hentry heq => ?_
    exact bne_iff_ne.1 (List.mem_filter.1 hentry).2 (beq_iff_eq.1 heq)
  have found : (calls.register held).2.entries.find? (·.1 == calls.next) =
      some (calls.next, held) := by
    show ((calls.erase calls.next).entries ++ [(calls.next, held)]).find? _ = _
    rw [List.find?_append, missed, List.find?_singleton, if_pos (beq_self_eq_true _)]
    rfl
  rw [found]
  rfl

/-! ## Environments without a limit -/

/-- **The environment has no buffer limit**: neither the buffers that its pool makes nor those at rest
there have one. -/
structure Environment.Unlimited (env : Environment α) : Prop where
  /-- New buffers are made without a limit. -/
  config : env.pool.config.bufferLimit = none
  /-- No buffer with a limit has been put in the place of a leased one and given back. -/
  idle : ∀ b ∈ env.pool.idle, b.limit = none

/-- If the sizes set no limit, the buffer has none. -/
def Config.Spares (c : Config) (b : Buffer) : Prop := c.bufferLimit = none → b.limit = none

theorem Pool.keeps_spares : Pool.Keeps Config.Spares where
  made hb none := (Config.Grants.limit_eq ⟨_, hb, rfl⟩).trans none
  reset h none := h none
  written encode r h none := encode.keeps_into (Buffer.kept_limit _) r (h none)

theorem Engine.KeepsLimits.spares {eng : Engine σ} (h : eng.KeepsLimits) :
    eng.Keeps Config.Spares where
  call target op input s spared none := (h.call target op input _ s).trans (spared none)
  callScalar target op value s spared none := (h.callScalar target op value _ s).trans (spared none)
  create kind input s spared none := (h.create kind input _ s).trans (spared none)

/-- **Where the sizes set no limit the environment has none**, in every world that a run reaches with
an engine that leaves limits alone, unless a buffer with a limit was given back in the run to a pool
whose sizes set none. -/
theorem World.Run.unlimited {eng : Engine σ} {s : σ} {w : World σ α} {h : List (Happening α)}
    (run : Run eng (ofEngine s) h w) (keepsLimits : eng.KeepsLimits) {e : EnvironmentId}
    (config : (w.environment e).pool.config.bufferLimit = none) :
    (w.environment e).Unlimited ∨
      ∃ w₁ w₂ h₁ h₂, Run eng (ofEngine s) h₁ w₁ ∧ GivesBackBut Config.Spares w₁ w₂ ∧
        Run eng w₂ h₂ w :=
  (run.rests Pool.keeps_spares keepsLimits.spares).imp_left fun rests =>
    ⟨config, fun b hb => rests e b hb config⟩

/-! ## Submitting to an engine that replies at once -/

namespace World

variable {eng : Engine σ} {w : World σ α} {t : Target} {op : Int32} {encode : Encoder}
  {decode : Decoder α}

/-- A call that has just been entered can be taken, and then its future ends. -/
theorem takeCall_entered (w : World σ α) {e : EnvironmentId} (known : e < w.environments.length)
    (decode : Decoder α) (s : σ) (outcome : Awaited α → Outcome α) :
    let entered := (w.promise.2.register e ⟨w.promise.1, decode⟩).2.withEngine s
    (entered.takeCall e (w.environment e).calls.next outcome).2.futures =
        w.futures.promise.2.settle w.promise.1 (outcome ⟨w.promise.1, decode⟩) ∧
      (entered.takeCall e (w.environment e).calls.next outcome).2.engine = s := by
  intro entered
  have calls : (entered.environment e).calls =
      ((w.environment e).calls.register ⟨w.promise.1, decode⟩).2 :=
    congrArg Environment.calls (environment_modify_self w.promise.2 known _)
  have found : (entered.environment e).calls.find? (w.environment e).calls.next =
      some ⟨w.promise.1, decode⟩ := by
    rw [calls]
    exact PendingCalls.find?_register ..
  rw [takeCall_of_some found]
  exact ⟨rfl, rfl⟩

/-- What cannot be written is not submitted. -/
theorem submit_of_error {e : CallError} (unwritten : w.written t encode = .error e) :
    (w.submit eng t op encode decode).2.futures.outcome? (w.submit eng t op encode decode).1 =
        some (.error e) ∧
      (w.submit eng t op encode decode).2.engine = w.engine := by
  obtain ⟨w₁, leased, hsubmit, _⟩ := submit_of_unwritten eng op decode unwritten
  rw [hsubmit]
  exact ⟨(Futures.single_ready w₁.futures (.error e)).outcome?, leased.engine⟩

/-- **Handing a call in to an engine that answers at once.** The future ends as the answer says, and
nothing but the engine's own transition happens to the engine. -/
theorem handIn_of_atOnce (known : t.environment < w.environments.length) {input : Bytes} {a : Answer}
    {s : σ}
    (hsubmit : eng.submit t.raw op ⟨t.environment⟩ (w.environment t.environment).calls.next input
      w.engine =
        (a.map fun reply =>
          [⟨⟨t.environment⟩, (w.environment t.environment).calls.next, reply⟩], s)) :
    (w.handIn eng t op input decode).futures.outcome? w.promise.1 =
        some ((a.translate (w.registry t.environment) decode).map Yield.one) ∧
      (w.handIn eng t op input decode).engine = s := by
  have entered := takeCall_entered w known decode s
  have ended : ∀ outcome : Awaited α → Outcome α,
      (w.futures.promise.2.settle w.promise.1 (outcome ⟨w.promise.1, decode⟩)).outcome?
        w.promise.1 = some (outcome ⟨w.promise.1, decode⟩) :=
    fun outcome => ((Futures.single_promise w.futures).settle _).outcome?
  unfold handIn
  dsimp only
  cases a with
  | error e =>
    have rejected : eng.submit t.raw op ⟨t.environment⟩ (w.environment t.environment).calls.next
        input w.engine = (.error e, s) := hsubmit
    obtain ⟨hfutures, hengine⟩ := entered fun _ => .error (.ofTransport e)
    rw [rejected]
    dsimp only
    rw [hfutures, hengine]
    exact ⟨ended fun _ => .error (.ofTransport e), rfl⟩
  | ok reply =>
    have accepted : eng.submit t.raw op ⟨t.environment⟩ (w.environment t.environment).calls.next
        input w.engine =
        (.ok [⟨⟨t.environment⟩, (w.environment t.environment).calls.next, reply⟩], s) := hsubmit
    have registered : ((w.promise.2.register t.environment
        ⟨w.promise.1, decode⟩).2.withEngine s).registry t.environment =
        w.registry t.environment :=
      modify_keeps Environment.registry w.promise.2 t.environment (fun env => { env with
        calls := ((w.promise.2.environment t.environment).calls.register
          ⟨w.promise.1, decode⟩).2 }) rfl t.environment
    obtain ⟨hfutures, hengine⟩ := entered fun held =>
      (reply.decode (w.registry t.environment) held.decode).map Yield.one
    rw [accepted]
    dsimp only [World.deliverAll, List.foldl, World.deliver]
    rw [registered, hfutures, hengine]
    exact ⟨ended fun held =>
      (reply.decode (w.registry t.environment) held.decode).map Yield.one, rfl⟩

/-- **Submitting to an engine that answers at once.** The future ends as the answer says, and
nothing but the engine's own transition happens to the engine. -/
theorem submit_of_atOnce (eng : Engine σ) (decode : Decoder α)
    (known : t.environment < w.environments.length) {input : Bytes}
    (written : w.written t encode = .ok input) {a : Answer} {s : σ}
    (hsubmit : eng.submit t.raw op ⟨t.environment⟩ (w.environment t.environment).calls.next input
      w.engine =
        (a.map fun reply =>
          [⟨⟨t.environment⟩, (w.environment t.environment).calls.next, reply⟩], s)) :
    (w.submit eng t op encode decode).2.futures.outcome? (w.submit eng t op encode decode).1 =
        some ((a.translate (w.registry t.environment) decode).map Yield.one) ∧
      (w.submit eng t op encode decode).2.engine = s := by
  obtain ⟨w₁, leased, handed, _⟩ := submit_of_written eng op decode written
  rw [← congrArg PendingCalls.next (leased.calls t.environment), ← leased.engine] at hsubmit
  rw [handed, ← leased.registry _ known]
  exact handIn_of_atOnce (Nat.lt_of_lt_of_le known leased.length) hsubmit

/-- **A call that is waited for gets to the engine with the same arguments**, and with an output
buffer as it is lent, where the pool has lent one only if it could make one. -/
theorem prepared_cases {P : Config → Buffer → Prop} (kept : Pool.Keeps P)
    (rests : (w.environment t.environment).pool.Rests P)
    (known : t.environment < w.environments.length)
    (makes : ∀ {b}, P (w.environment t.environment).pool.config b →
      (w.environment t.environment).pool.config.Makes) (encode : Encoder) :
    (∃ e, w.written t encode = .error e ∧ w.prepared t encode = .error e) ∨
      ∃ input output, w.written t encode = .ok input ∧
        w.prepared t encode = .ok (input, output) ∧
        P (w.environment t.environment).pool.config output := by
  unfold prepared written
  cases hinput : w.allocate t.environment with
  | mk input w₁ =>
    cases input with
    | error e => exact Or.inl ⟨e, rfl, rfl⟩
    | ok input =>
      have hw₁ : w₁ = (w.allocate t.environment).2 := congrArg Prod.snd hinput.symm
      obtain ⟨output, w₂, houtput⟩ := allocate_again known hinput
        (makes (rests.acquired kept (acquire_of_allocate hinput)))
      have hw₂ : w₂ = (w₁.allocate t.environment).2 := congrArg Prod.snd houtput.symm
      have pool₁ : (w₁.environment t.environment).pool =
          (w.environment t.environment).pool.acquire.2 := hw₁ ▸ pool_allocate known
      have rests₁ : (w₁.environment t.environment).pool.Rests P := pool₁ ▸ rests.acquire
      have lent := rests₁.acquired kept (acquire_of_allocate houtput)
      rw [hw₁, config_allocate] at lent
      have hregistry : w₂.registry t.environment = w₁.registry t.environment := by
        rw [hw₂, registry_allocate]
      dsimp only
      rw [houtput]
      dsimp only
      rw [hregistry]
      cases encode.into (w₁.registry t.environment) input with
      | mk result input =>
        cases result with
        | error e => exact Or.inl ⟨.ofCodec e, rfl, rfl⟩
        | ok _ => exact Or.inr ⟨input.committed, output, rfl, rfl, lent⟩

end World

/-! ## The loopback engine -/

/-- **A handler that is a function of the bytes of its arguments**: it does not ask which thread it
runs on, and it writes no more than a buffer without a limit is sure to hold. -/
structure Handler.OfArgument (h : Handler) (r : Registry) : Prop where
  same : ∀ argument, h ⟨r, argument, true⟩ = h ⟨r, argument, false⟩
  bounded : ∀ argument, ((h ⟨r, argument, false⟩).freely []).2.length ≤ 2 ^ 62

namespace Loopback

variable {s entered : Loopback} {target : RawHandle} {op : Int32}

/-- What arrives is counted, and finds everything else as before. -/
theorem enter_eq (h : s.enter = .ok entered) : entered = { s with calls := s.calls + 1 } := by
  unfold enter at h
  split at h
  · cases h
    rfl
  · cases h

theorem lookup_eq_ok {kind : ObjectKind} (h : s.lookup target = .ok kind) :
    s.object? target = some kind := by
  unfold lookup at h
  cases hobject : s.object? target with
  | none =>
    rw [hobject] at h
    cases h
  | some found =>
    rw [hobject] at h
    cases h
    rfl

/-- Handlers that are functions of their arguments serve both threads alike. -/
theorem served_eq (handlers : ∀ kind h, s.object? target = some kind → kind.op? op = some h →
      h.OfArgument s.registry) (input : Bytes) :
    served (s.lookup target) op ⟨s.registry, input, true⟩ =
      served (s.lookup target) op ⟨s.registry, input, false⟩ := by
  unfold served
  cases hobject : s.lookup target with
  | error f => rfl
  | ok kind =>
    dsimp only
    cases hop : kind.op? op with
    | none => rfl
    | some h =>
      dsimp only
      rw [(handlers kind h (lookup_eq_ok hobject) hop).same input]

/-- **The answer of an asynchronous call**, which is served into a buffer of the engine's own. -/
def answer (s : Loopback) (target : RawHandle) (op : Int32) (input : Bytes) : Answer :=
  match s.enter with
  | .error e => .error e
  | .ok s =>
    let (status, output) := serve (s.lookup target) op ⟨s.registry, input, true⟩ replyBuffer
    .ok ⟨status.toByte, output⟩

/-- It is given at once, and the engine is then as after a call that is waited for. -/
theorem submit_eq (s : Loopback) (target : RawHandle) (op : Int32) (sink : Sink) (id : CallId)
    (input : Bytes) (output : Buffer) :
    s.submit target op sink id input =
      ((s.answer target op input).map fun reply => [⟨sink, id, reply⟩],
        (s.call target op input output).2.2) := by
  unfold submit answer call
  cases s.enter with
  | error e => rfl
  | ok entered => rfl

/-- **The engine answers alike**, into a buffer of the caller's or into one of its own. -/
theorem answer_alike (handlers : ∀ kind h, s.object? target = some kind → kind.op? op = some h →
      h.OfArgument s.registry) (input : Bytes) {output : Buffer} (hl : output.limit = none) :
    (engine.answer target op input output s).Alike (s.answer target op input) := by
  have hcall : engine.call target op input output s = s.call target op input output := rfl
  unfold Engine.answer answer
  rw [hcall]
  unfold call
  cases hentered : s.enter with
  | error e => exact rfl
  | ok entered =>
    obtain rfl := enter_eq hentered
    show Answer.Alike
      (.ok ⟨(serve (s.lookup target) op ⟨s.registry, input, false⟩ output).1.toByte,
        (serve (s.lookup target) op ⟨s.registry, input, false⟩ output).2⟩)
      (.ok ⟨(serve (s.lookup target) op ⟨s.registry, input, true⟩ replyBuffer).1.toByte,
        (serve (s.lookup target) op ⟨s.registry, input, true⟩ replyBuffer).2⟩)
    have bounded : ∀ {kind h}, s.lookup target = .ok kind → kind.op? op = some h →
        ((h ⟨s.registry, input, false⟩).freely []).2.length ≤ 2 ^ 62 :=
      fun hobject hop => (handlers _ _ (lookup_eq_ok hobject) hop).bounded input
    have bounded' : ∀ {kind h}, s.lookup target = .ok kind → kind.op? op = some h →
        ((h ⟨s.registry, input, true⟩).freely []).2.length ≤ 2 ^ 62 := by
      intro kind h hobject hop
      rw [(handlers _ _ (lookup_eq_ok hobject) hop).same input]
      exact bounded hobject hop
    obtain ⟨status, shown⟩ := serve_of_unlimited hl bounded
    obtain ⟨status', shown'⟩ := serve_of_unlimited (rfl : replyBuffer.limit = none) bounded'
    rw [served_eq handlers input] at status' shown'
    exact ⟨congrArg Status.toByte (status.trans status'.symm), shown.trans shown'.symm⟩

end Loopback

namespace World

variable {w : World Loopback α} {h : List (Happening α)}

end World

namespace Sample

/-- Writes a byte and then fails. -/
def writeAndRefuse : Handler :=
  .ofStep ((Step.write fun _ => .byte 9).followedBy (.stop (.failed refusal)))

/-- The kind of the objects that do so. -/
def faulty : ObjectKind := ⟨"Faulty", [(1, writeAndRefuse)], []⟩

/-- An engine with one such object. -/
def faultyEngine : Loopback := { Loopback.start .empty with objects := [(⟨7⟩, faulty)] }

/-- Answers with a number. -/
def answerNine : Handler := .ofStep (.write fun _ => .int32 9)

/-- An engine with one object that does so. -/
def nineEngine : Loopback :=
  { Loopback.start .empty with objects := [(⟨7⟩, ⟨"Nine", [(1, answerNine)], []⟩)] }

/-- An environment on it whose sizes set no limit, after two buffers have been leased and given
back. One with a limit is in the place of one of them, and will be lent as the second. -/
def exchanged : World Loopback Int32 :=
  let w := ((World.ofEngine nineEngine).addEnvironment .standard .empty).2
  let w := ((w.allocate 0).2.allocate 0).2
  (w.recycle 0 ⟨#[], 0, 0, some 2⟩).recycle 0 ⟨#[], 0, 0, none⟩

theorem run_exchanged : World.Run Loopback.engine (.ofEngine nineEngine) [] exchanged :=
  ((((World.Run.refl.snoc (.openEnvironment .standard .empty)).snoc (.allocate 0 rfl)).snoc
    (.allocate 0 rfl)).snoc (.recycle 0 ⟨#[], 0, 0, some 2⟩ ⟨_, rfl⟩)).snoc
    (.recycle 0 ⟨#[], 0, 0, none⟩ ⟨_, rfl⟩)

/-- **The two ways differ where a buffer with a limit was put in the place of a leased one**: the
call that is waited for has no room for the answer nor for a record of that, and the one that is not
has. -/
theorem outcomes_differ_exchanged :
    World.Run Loopback.engine (.ofEngine nineEngine) [] exchanged ∧
    (exchanged.environment 0).pool.config.bufferLimit = none ∧
    ¬(exchanged.environment 0).Unlimited ∧
    (exchanged.call Loopback.engine (seventh 0) 1 .none number).1.mapError CallError.kind =
      .error .encoding ∧
    (exchanged.submit Loopback.engine (seventh 0) 1 .none number).2.futures.outcome? 0 =
      some (.ok (.one 9)) := by
  refine ⟨run_exchanged, rfl, fun unlimited => ?_, by decide +kernel, rfl⟩
  exact absurd (unlimited.idle ⟨#[], 0, 0, some 2⟩ (by decide +kernel)) (by decide)

end Sample

end RemoteDispatch
