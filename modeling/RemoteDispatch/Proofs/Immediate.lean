import RemoteDispatch.Proofs.Groups
import RemoteDispatch.Proofs.Leasing
import RemoteDispatch.Proofs.Recycling
import RemoteDispatch.Proofs.Reuse

/-!
# Engines that answer at once

An engine may answer every call at once, and by its target, its opcode and the
bytes of its arguments only. Then a call comes to what `World.answered` says,
which looks at nothing but the sizes and the types of the environment: it does
not matter what was called before, which buffers the pool hands out, or whether
the caller waits. So calling a group in turn and submitting to it at once come
to the same. In turn the first failure ends it, and at once all calls are made,
but the futures are joined when all of them have ended, and then the first that
has failed counts.

The loopback engine is one of these where buffers have no limit
(`World.Run.concordant`), and so is the scripted engine with one reply left.

All this is about buffers that are as their pool grants them. An engine that
puts buffers of its own in the place of those it is lent can change the limit of
a pool's buffers, and then two calls one after the other do not find the same
limit, and it does matter whether the buffer of the first is back by the time of
the second (`Sample.group_outcomes_differ`).
-/

namespace RemoteDispatch

variable {σ α β : Type}

/-! ## Engines -/

/-- **An engine that answers every call at once**, waited for or not, and by its target, its opcode
and its arguments only, in all states that its calls lead to from good ones and into all buffers that
it is lent. -/
structure Engine.AnswersAtOnce (eng : Engine σ) (answer : RawHandle → Int32 → Bytes → Answer)
    (good : σ → Prop) (lent : Buffer → Prop) : Prop where
  call : ∀ target op input output s, good s → lent output →
    (eng.answer target op input output s).Alike (answer target op input)
  submit : ∀ target op sink id input s, good s →
    (eng.submit target op sink id input s).1 =
      (answer target op input).map fun reply => [⟨sink, id, reply⟩]
  good_call : ∀ target op input output s, good s → good (eng.call target op input output s).2.2
  good_submit : ∀ target op sink id input s, good s →
    good (eng.submit target op sink id input s).2

/-! ## The bytes of the arguments -/

/-- **A buffer as a pool of some sizes grants it**, if these are among the given ones. -/
def Config.GrantsAmong (sizes : List Config) (c : Config) (b : Buffer) : Prop :=
  c ∈ sizes → c.Grants b ∧ b.Bounded

theorem Pool.keeps_grantsAmong (sizes : List Config) : Keeps (Config.GrantsAmong sizes) where
  made hb _ := ⟨keeps_grants.made hb, bounded_make hb⟩
  reset h hc := ⟨keeps_grants.reset (h hc).1, Buffer.kept_bounded.reset (h hc).2⟩
  written encode r h hc :=
    ⟨keeps_grants.written encode r (h hc).1, encode.keeps_into Buffer.kept_bounded r (h hc).2⟩

/-- The bytes of the arguments, if a new buffer of some sizes can be made and they can be written
into it. -/
def Config.layOut (c : Config) (r : Registry) (encode : Encoder) : Except CallError Bytes :=
  ((Pool.make c).bind (encode.layOut r)).mapError .ofCodec

/-- The arguments are not so long that an allocator could refuse the room for them. -/
def Config.Moderate (c : Config) (r : Registry) (encode : Encoder) : Prop :=
  ∀ b, Pool.make c = .ok b → (Routine.ofScript (encode r)).reach (.start b) ≤ 2 ^ 62

namespace World

variable {eng : Engine σ} {w₀ w w' : World σ α} {t : Target} {op : Int32} {encode : Encoder}
  {sizes : List Config} {answer : RawHandle → Int32 → Bytes → Answer} {good : σ → Prop}

/-- The arguments are written into what the pool hands out. -/
theorem written_eq (w : World σ α) (t : Target) (encode : Encoder) :
    w.written t encode = ((w.environment t.environment).pool.acquire.1.bind
      (encode.layOut (w.registry t.environment))).mapError .ofCodec := by
  have hregistry := registry_allocate w t.environment t.environment
  unfold written
  cases hallocate : w.allocate t.environment with
  | mk buffer w₁ =>
    have acquired : (w.environment t.environment).pool.acquire.1.mapError CallError.ofCodec =
        buffer := congrArg Prod.fst hallocate
    rw [hallocate] at hregistry
    dsimp only at hregistry
    rw [← acquired]
    cases (w.environment t.environment).pool.acquire.1 with
    | error e => rfl
    | ok b =>
      dsimp only [Except.mapError]
      rw [hregistry]
      show _ = (encode.layOut (w.registry t.environment) b).mapError CallError.ofCodec
      unfold Encoder.layOut
      cases encode.into (w.registry t.environment) b with
      | mk result b =>
        cases result with
        | error e => rfl
        | ok _ => rfl

/-- **Where buffers are granted, the arguments are those of a new buffer.** -/
theorem written_eq_layOut (rests : w.Rests (Config.GrantsAmong sizes))
    (among : (w.environment t.environment).pool.config ∈ sizes)
    (moderate : (w.environment t.environment).pool.config.Moderate (w.registry t.environment)
      encode) :
    w.written t encode = (w.environment t.environment).pool.config.layOut
      (w.registry t.environment) encode := by
  rw [written_eq]
  unfold Config.layOut
  obtain ⟨first, rest, idle, acquired⟩ | ⟨_, acquired⟩ :=
    (w.environment t.environment).pool.acquire_cases
  · -- the buffer at the front shows no more of its past than its limit, and a new one has that too
    have resting := rests t.environment first (idle ▸ List.mem_cons_self)
    obtain ⟨⟨made, hmade, limit⟩, bounded⟩ := resting among
    have alike := encode.layOut_alike (w.registry t.environment) (Pool.bounded_make hmade) bounded
      limit (moderate made hmade)
    rw [acquired, hmade]
    exact congrArg (Except.mapError CallError.ofCodec) alike.symm
  · rw [acquired]

/-! ## What a call comes to -/

/-- **What a call comes to** by the answers of an engine, in an environment of the sizes and types
that it has in a world. -/
def answered (w : World σ α) (answer : RawHandle → Int32 → Bytes → Answer) (op : Int32)
    (encode : Encoder) (decode : Decoder β) (t : Target) : Except CallError β :=
  ((w.environment t.environment).pool.config.layOut (w.registry t.environment) encode).bind
    fun input => (answer t.raw op input).translate (w.registry t.environment) decode

/-- **A world that still serves as another did**: the environments have the sizes and types that they
had, the buffers at rest are as they are granted, and the engine is in a good state. -/
structure Serves (sizes : List Config) (good : σ → Prop) (w₀ w : World σ α) : Prop extends
    SameSizes w₀ w where
  registry : ∀ e < w₀.environments.length, w.registry e = w₀.registry e
  rests : w.Rests (Config.GrantsAmong sizes)
  isGood : good w.engine

/-- An environment of one of the sizes in question, in which arguments of moderate length are
written. -/
structure InQuestion (sizes : List Config) (encode : Encoder) (w : World σ α) (t : Target) :
    Prop where
  known : t.environment < w.environments.length
  among : (w.environment t.environment).pool.config ∈ sizes
  moderate : (w.environment t.environment).pool.config.Moderate (w.registry t.environment) encode

namespace Serves

variable (serves : Serves sizes good w₀ w)

include serves

theorem answered_eq (known : t.environment < w₀.environments.length) (decode : Decoder β) :
    w₀.answered answer op encode decode t = w.answered answer op encode decode t := by
  unfold answered
  rw [serves.config _ known, serves.registry _ known]

theorem inQuestion (question : InQuestion sizes encode w₀ t) : InQuestion sizes encode w t where
  known := Nat.lt_of_lt_of_le question.known serves.length
  among := by
    rw [serves.config _ question.known]
    exact question.among
  moderate := by
    rw [serves.config _ question.known, serves.registry _ question.known]
    exact question.moderate

theorem written_eq (question : InQuestion sizes encode w₀ t) :
    w.written t encode = (w.environment t.environment).pool.config.layOut
      (w.registry t.environment) encode := by
  have here := serves.inQuestion question
  exact written_eq_layOut serves.rests here.among here.moderate

variable (question : InQuestion sizes encode w₀ t)
  (answers : ∀ c ∈ sizes, eng.AnswersAtOnce answer good c.Lends)

include question answers

/-- **Waiting for the call** comes to what is answered. -/
theorem call_fst (decode : Decoder β) :
    (w.call eng t op encode decode).1 = w₀.answered answer op encode decode t := by
  have here := serves.inQuestion question
  have written := serves.written_eq question
  rw [serves.answered_eq question.known, (call_eq eng w t op encode decode).1]
  unfold asked answered
  rw [← written]
  obtain ⟨e, written, prepared⟩ | ⟨input, output, written, prepared, granted⟩ :=
    prepared_cases (Pool.keeps_grantsAmong sizes) (serves.rests t.environment) here.known
      (fun granted => (granted here.among).1.makes) encode
  · rw [written, prepared]
    rfl
  · have lent : (w.environment t.environment).pool.config.Lends output :=
      ⟨(granted here.among).1.limit_eq, (granted here.among).2⟩
    rw [written, prepared]
    exact ((answers _ here.among).call t.raw op input output w.engine serves.isGood lent).translate
      _ decode

/-- **Not waiting for it** comes to the same, and at once. -/
theorem submit_outcome (decode : Decoder α) :
    (w.submit eng t op encode decode).2.futures.outcome? (w.submit eng t op encode decode).1 =
      some ((w₀.answered answer op encode decode t).map Yield.one) := by
  have here := serves.inQuestion question
  have layOut := serves.written_eq question
  rw [serves.answered_eq question.known]
  unfold answered
  rw [← layOut]
  cases written : w.written t encode with
  | error e => exact (submit_of_error written).1
  | ok input =>
    have answered := (answers _ here.among).submit t.raw op ⟨t.environment⟩
      (w.environment t.environment).calls.next input w.engine serves.isGood
    exact (submit_of_atOnce eng decode here.known written (Prod.ext answered rfl)).1

/-- The world serves after the call, if the engine leaves granted buffers so. -/
theorem call (keeps : eng.Keeps (Config.GrantsAmong sizes)) (decode : Decoder β) :
    Serves sizes good w₀ (w.call eng t op encode decode).2 where
  toSameSizes := serves.toSameSizes.trans
    ((SameCalls.respected eng).call w t op encode decode).toSameSizes
  registry e he := by
    have known := Nat.lt_of_lt_of_le he serves.length
    exact (((SameCalls.respected eng).call w t op encode decode).registry e known).trans
      (serves.registry e he)
  rests := serves.rests.call (Pool.keeps_grantsAmong sizes) keeps t op encode decode
  isGood := by
    rw [(call_eq eng w t op encode decode).2]
    cases w.prepared t encode with
    | error e => exact serves.isGood
    | ok buffers => exact (answers _ question.among).good_call t.raw op _ _ _ serves.isGood

theorem submit (decode : Decoder α) :
    Serves sizes good w₀ (w.submit eng t op encode decode).2 := by
  have here := serves.inQuestion question
  have changes := Changes.submit eng w t op encode decode here.known
  refine ⟨serves.toSameSizes.trans changes.sameSizes, fun e he => ?_,
    serves.rests.submit (Pool.keeps_grantsAmong sizes) eng t op encode decode, ?_⟩
  · exact (changes.registry (Nat.lt_of_lt_of_le he serves.length)).trans (serves.registry e he)
  · rw [submit_engine]
    cases w.written t encode with
    | error e => exact serves.isGood
    | ok input => exact (answers _ question.among).good_submit t.raw op _ _ _ _ serves.isGood

end Serves

/-! ## What a group call comes to -/

section Group

variable {members : List Target} (serves : Serves sizes good w₀ w)
  (question : ∀ t ∈ members, InQuestion sizes encode w₀ t)
  (answers : ∀ c ∈ sizes, eng.AnswersAtOnce answer good c.Lends)

include serves question answers

/-- In turn each call comes to what is answered. -/
theorem Serves.turns_result (keeps : eng.Keeps (Config.GrantsAmong sizes)) (decode : Decoder β) :
    (w.turns eng op encode decode members).map Turn.result =
      members.map (w₀.answered answer op encode decode) := by
  induction members generalizing w with
  | nil => rfl
  | cons t members ih =>
    obtain ⟨here, later⟩ := List.forall_mem_cons.1 question
    show (w.call eng t op encode decode).1 :: _ = w₀.answered answer op encode decode t :: _
    rw [serves.call_fst here answers]
    exact congrArg _ (ih (serves.call here answers keeps decode) later)

/-- **At once each future has ended with it** when the last call has been submitted. -/
theorem Serves.submitEach_outcomes (decode : Decoder α) :
    (w.submitEach eng op encode decode members).1.map
        (w.submitEach eng op encode decode members).2.futures.outcome? =
      members.map fun t => some ((w₀.answered answer op encode decode t).map Yield.one) := by
  induction members generalizing w with
  | nil => rfl
  | cons t members ih =>
    obtain ⟨here, later⟩ := List.forall_mem_cons.1 question
    let next := (w.submit eng t op encode decode).2
    have after : Serves sizes good w₀ next := serves.submit here answers decode
    have first : next.futures.outcome? (w.submit eng t op encode decode).1 = _ :=
      serves.submit_outcome here answers decode
    have changes : Changes next (next.submittedEach eng op encode decode members)
        (next.submitEach eng op encode decode members).2 :=
      .submitEach next members fun t' ht' => (after.inQuestion (later t' ht')).known
    refine congrArg₂ List.cons (changes.outcome first) (ih after later)

end Group

end World

/-- **Outcomes that are all there come to what they come to in turn**: all the values, or the first
error. -/
theorem combined_map_some (results : List (Except CallError α)) :
    combined (results.map fun r => some (r.map Yield.one)) =
      some ((collected results).map fun values => Yield.all (values.map Yield.one)) := by
  obtain ⟨values, rfl⟩ | ⟨before, e, after, rfl, succeeded⟩ := collected_cases results
  · rw [collected_of_values, List.map_map]
    refine Eq.trans ?_ (combined_of_values (values.map Yield.one))
    rw [List.map_map]
    rfl
  · rw [collected_of_error succeeded, List.map_append, List.map_cons]
    refine combined_eq_error_iff.2 (List.findSome?_eq_some_iff.2
      ⟨_, some (.error e), _, rfl, rfl, fun told htold => ?_⟩)
    obtain ⟨r, hr, rfl⟩ := List.mem_map.1 htold
    obtain ⟨b, rfl⟩ := succeeded r hr
    rfl

namespace World

variable {eng : Engine σ} {w : World σ α} {h : List (Happening α)} {members : List Target}
  {op : Int32} {encode : Encoder} {answer : RawHandle → Int32 → Bytes → Answer} {good : σ → Prop}

/-- The sizes that govern the buffers of a group. -/
def sizes (w : World σ α) (members : List Target) : List Config :=
  members.map fun t => (w.environment t.environment).pool.config

/-- **The conditions under which a group call comes to the same in both ways.** The engine answers
at once, by the target, the opcode and the arguments only, and it leaves the buffers of the members'
pools as they were granted. Those at rest are so to begin with, and the arguments are of moderate
length. -/
structure Concordant (eng : Engine σ) (w : World σ α) (members : List Target) (encode : Encoder)
    (answer : RawHandle → Int32 → Bytes → Answer) (good : σ → Prop) : Prop where
  answers : ∀ c ∈ w.sizes members, eng.AnswersAtOnce answer good c.Lends
  isGood : good w.engine
  keeps : eng.Keeps (Config.GrantsAmong (w.sizes members))
  rests : w.Rests (Config.GrantsAmong (w.sizes members))
  moderate : ∀ t ∈ members,
    (w.environment t.environment).pool.config.Moderate (w.registry t.environment) encode

/-- **The joined future has ended as the calls in turn end.** -/
theorem Run.submitAll_agrees {s : σ} (run : Run eng (ofEngine s) h w)
    (alive : ∀ t ∈ members, (w.environment t.environment).isAlive) (decode : Decoder α)
    (concordant : Concordant eng w members encode answer good)
    (few : ∀ e, (entered e (h ++ w.submittedEach eng op encode decode members)).length < 2 ^ 64) :
    (w.submitAll eng op encode decode members).2.futures.outcome?
        (w.submitAll eng op encode decode members).1 =
      some ((w.broadcast eng op encode decode members).1.map fun values =>
        Yield.all (values.map Yield.one)) := by
  have question : ∀ t ∈ members, InQuestion (w.sizes members) encode w t := fun t ht =>
    ⟨lt_of_isAlive (alive t ht), List.mem_map_of_mem ht, concordant.moderate t ht⟩
  have serves : Serves (w.sizes members) good w w :=
    ⟨.refl w, fun _ _ => rfl, concordant.rests, concordant.isGood⟩
  have outcomes : (w.submitEach eng op encode decode members).1.map _ = _ :=
    serves.submitEach_outcomes question concordant.answers decode
  obtain ⟨joins, tracked⟩ := run.tracked (few_of_append few)
  obtain ⟨joins', tracked'⟩ := tracked.after
    (.submitEach w members fun t ht => (question t ht).known) few
  unfold submitAll
  generalize w.submitEach eng op encode decode members = submitted at outcomes tracked'
  obtain ⟨futures, w₁⟩ := submitted
  dsimp only at outcomes tracked' ⊢
  obtain ⟨_, number, _, _, _, quiet, joined⟩ := tracked'.sound.joinAll futures
  have older : ∀ f ∈ futures, f < w₁.futures.slots.length := by
    intro f hf
    have told : w₁.futures.outcome? f ∈ futures.map w₁.futures.outcome? := List.mem_map_of_mem hf
    rw [outcomes] at told
    obtain ⟨_, _, ended⟩ := List.mem_map.1 told
    exact Futures.lt_of_outcome? ended.symm
  have same : futures.map (w₁.futures.join futures).2.outcome? =
      futures.map w₁.futures.outcome? :=
    List.map_congr_left fun f hf => quiet.same f (older f hf)
  show (w₁.futures.join futures).2.outcome? (w₁.futures.join futures).1 = _
  rw [number, (joined older).2, same, outcomes, broadcast_fst,
    serves.turns_result question concordant.answers concordant.keeps]
  have listed := combined_map_some (members.map (w.answered answer op encode decode))
  rw [List.map_map] at listed
  exact listed

/-- **Calls to a group**, whatever its members, in every world that a run reaches.

In turn: if every call succeeds there is one value for each member, in their order, and otherwise the
error of the first that fails. The engine sees the calls up to that one, and that one only if its
arguments could be written. At once: every member whose arguments can be written is submitted, once
and in order, whatever becomes of the others. The joined future has the values in the order of the
members when all have succeeded, or the error that was there first. Those that were there when the
futures were joined count in the order of the members, and after that it is the order of what
happens. Running a command on a group is no different.

If the engine answers at once, by the target, the opcode and the arguments only, and leaves the
buffers of the pools as they were granted, then both come to the same. -/
theorem Run.group_calls {s : σ} (run : Run eng (ofEngine s) h w)
    (alive : ∀ t ∈ members, (w.environment t.environment).isAlive) (op : Int32)
    (encode : Encoder) :
    (∀ {β : Type} (decode : Decoder β), InTurn eng op encode w decode members) ∧
    (∀ decode : Decoder α, AtOnce eng op encode w h decode members) ∧
    (∀ {ι β : Type} (c : Command ι β) input, c.opcode = op → c.encode input = encode →
      w.executeEach eng c input members = w.broadcast eng op encode c.decode members) ∧
    (∀ {ι : Type} (c : Command ι α) input, c.opcode = op → c.encode input = encode →
      w.submitCommandAll eng c input members = w.submitAll eng op encode c.decode members) ∧
    ∀ (decode : Decoder α) answer good, Concordant eng w members encode answer good →
      (∀ e, (entered e (h ++ w.submittedEach eng op encode decode members)).length < 2 ^ 64) →
      (w.submitAll eng op encode decode members).2.futures.outcome?
          (w.submitAll eng op encode decode members).1 =
        some ((w.broadcast eng op encode decode members).1.map fun values =>
          Yield.all (values.map Yield.one)) := by
  refine ⟨fun decode => inTurn eng op encode w decode members,
    fun decode => run.atOnce op encode decode alive, ?_, ?_,
    fun decode _ _ concordant few => run.submitAll_agrees alive decode concordant few⟩
  · rintro ι β c input rfl rfl
    rfl
  · rintro ι c input rfl rfl
    rfl

end World

/-! ## The loopback engine -/

namespace Loopback

variable {s₀ s : Loopback}

/-- An engine as another was, but for how many calls have arrived. -/
def Later (s₀ s : Loopback) : Prop := ∃ n, s = { s₀ with calls := n }

theorem Later.answer_eq (later : s₀.Later s) (target : RawHandle) (op : Int32) (input : Bytes) :
    s.answer target op input = s₀.answer target op input := by
  obtain ⟨n, rfl⟩ := later
  unfold answer enter
  cases s₀.connected with
  | false => rfl
  | true => rfl

/-- A call that arrives is counted. -/
theorem Later.call (later : s₀.Later s) (target : RawHandle) (op : Int32) (input : Bytes)
    (output : Buffer) : s₀.Later (s.call target op input output).2.2 := by
  obtain ⟨n, rfl⟩ := later
  unfold Loopback.call
  cases arrived : Loopback.enter { s₀ with calls := n } with
  | error e => exact ⟨n, rfl⟩
  | ok entered => exact ⟨n + 1, enter_eq arrived⟩

/-- **The loopback engine answers at once** into buffers without a limit, if its handlers are
functions of their arguments. -/
theorem answersAtOnce (handlers : ∀ target op kind h, s₀.object? target = some kind →
      kind.op? op = some h → h.OfArgument s₀.registry) {lent : Buffer → Prop}
    (unlimited : ∀ {output}, lent output → output.limit = none) :
    engine.AnswersAtOnce s₀.answer s₀.Later lent where
  call target op input output s later hlent := by
    rw [← later.answer_eq]
    refine answer_alike (fun kind h hkind hop => ?_) input (unlimited hlent)
    obtain ⟨n, rfl⟩ := later
    exact handlers target op kind h hkind hop
  submit target op sink id input s later := by
    rw [← later.answer_eq]
    exact congrArg Prod.fst (s.submit_eq target op sink id input replyBuffer)
  good_call target op input output s later := later.call target op input output
  good_submit target op sink id input s later := by
    have after := later.call target op input replyBuffer
    rw [← congrArg Prod.snd (s.submit_eq target op sink id input replyBuffer)] at after
    exact after

/-- It leaves granted buffers so. -/
theorem keeps_grantsAmong (sizes : List Config) : engine.Keeps (Config.GrantsAmong sizes) where
  call target op input s granted hc :=
    ⟨keepsLimits.grants.call target op input s (granted hc).1,
      keeps_call Buffer.kept_bounded s target op input (granted hc).2⟩
  callScalar target op value s granted hc :=
    ⟨keepsLimits.grants.callScalar target op value s (granted hc).1,
      keeps_callScalar Buffer.kept_bounded s target op value (granted hc).2⟩
  create kind input s granted hc :=
    ⟨keepsLimits.grants.create kind input s (granted hc).1,
      keeps_create Buffer.kept_bounded s kind (granted hc).2⟩

end Loopback

/-- **On the loopback engine both ways come to the same** for a group whose environments have no
limit, if the handlers are functions of their arguments. -/
theorem World.Run.concordant {w : World Loopback α} {h : List (Happening α)} {members : List Target}
    {encode : Encoder} {s : Loopback} (run : World.Run Loopback.engine (.ofEngine s) h w)
    (unlimited : ∀ c ∈ w.sizes members, c.bufferLimit = none)
    (spared : w.Rests Config.Spares)
    (handlers : ∀ target op kind h, w.engine.object? target = some kind → kind.op? op = some h →
      h.OfArgument w.engine.registry)
    (bounded : w.Rests fun _ b => b.Bounded)
    (moderate : ∀ t ∈ members,
      (w.environment t.environment).pool.config.Moderate (w.registry t.environment) encode) :
    w.Concordant Loopback.engine members encode w.engine.answer w.engine.Later where
  answers c hc := Loopback.answersAtOnce handlers fun lent => lent.limit.trans (unlimited c hc)
  isGood := ⟨w.engine.calls, rfl⟩
  keeps := Loopback.keeps_grantsAmong _
  rests e b hb among :=
    have none := unlimited _ among
    ⟨(run.makes e b hb).grants ((spared e b hb none).trans none.symm), bounded e b hb⟩
  moderate := moderate

/-! ## The scripted engine -/

/-- The answer that a reply of the scripted engine makes. -/
def ScriptedReply.answer (reply : ScriptedReply) : Answer :=
  match reply.reject with
  | some e => .error e
  | none => .ok ⟨reply.status, .ofBytes reply.payload⟩

namespace Scripted

variable {reply : ScriptedReply}

/-- The engine has one reply left, which stays. -/
def Steady (reply : ScriptedReply) (s : Scripted) : Prop :=
  nextReply s.replies = (reply, s.replies)

/-- Then it accepts or refuses every call alike. -/
theorem Steady.enter {s : Scripted} (steady : s.Steady reply) (call : SeenCall) :
    ∃ s', s'.Steady reply ∧
      s.enter call = (match reply.reject with | some e => .error e | none => .ok reply, s') := by
  unfold Scripted.enter
  rw [show nextReply s.replies = (reply, s.replies) from steady]
  dsimp only
  cases reply.reject with
  | some e =>
    refine ⟨_, ?_, rfl⟩
    exact steady
  | none =>
    refine ⟨_, ?_, rfl⟩
    exact steady

/-- **With one reply left the scripted engine answers at once**, into whatever buffer, unless it
holds calls back. -/
theorem answersAtOnce (prompt : reply.hold = false) (lent : Buffer → Prop) :
    engine.AnswersAtOnce (fun _ _ _ => reply.answer) (Steady reply) lent where
  call target op input output s steady _ := by
    obtain ⟨s', _, entered⟩ := Steady.enter steady (.call target op input)
    have called : engine.call target op input output s =
      s.answer (.call target op input) output (·.status) := rfl
    unfold Engine.answer
    rw [called]
    unfold Scripted.answer ScriptedReply.answer
    rw [entered]
    cases reply.reject with
    | some e => exact rfl
    | none => exact ⟨rfl, rfl⟩
  submit target op sink id input s steady := by
    obtain ⟨s', _, entered⟩ := Steady.enter steady (.submitted target op id input)
    show (s.submit (.submitted target op id input) sink id).1 = _
    unfold Scripted.submit ScriptedReply.answer
    rw [entered]
    cases reply.reject with
    | some e => rfl
    | none =>
      dsimp only
      rw [prompt]
      rfl
  good_call target op input output s steady := by
    obtain ⟨s', steady', entered⟩ := Steady.enter steady (.call target op input)
    show (s.answer (.call target op input) output (·.status)).2.2.Steady reply
    unfold Scripted.answer
    rw [entered]
    cases reply.reject with
    | some e => exact steady'
    | none => exact steady'
  good_submit target op sink id input s steady := by
    obtain ⟨s', steady', entered⟩ := Steady.enter steady (.submitted target op id input)
    show (s.submit (.submitted target op id input) sink id).2.Steady reply
    unfold Scripted.submit
    rw [entered]
    cases reply.reject with
    | some e => exact steady'
    | none =>
      dsimp only
      rw [prompt]
      exact steady'

/-- Where buffers have no limit, the buffers that the scripted engine puts in their place are as
good. -/
theorem keeps_grantsAmong {sizes : List Config} (unlimited : ∀ c ∈ sizes, c.bufferLimit = none) :
    engine.Keeps (Config.GrantsAmong sizes) := by
  have kept {β : Type} {c : Config} {output : Buffer} (s : Scripted) (call : SeenCall)
      (pick : ScriptedReply → β) (h : c.GrantsAmong sizes output) :
      c.GrantsAmong sizes (s.answer call output pick).2.1 := by
    intro hc
    obtain ⟨granted, bounded⟩ := h hc
    refine ⟨?_, s.answer_bounded call pick bounded⟩
    unfold Scripted.answer
    split
    · exact granted
    · exact granted.of_limit (granted.limit_eq.trans (unlimited c hc)).symm
  exact ⟨fun _ _ _ s h => kept s _ _ h, fun _ _ _ s h => kept s _ _ h, fun _ _ s h => kept s _ _ h⟩

end Scripted

namespace Sample

/-- A reply with a number in it. -/
def five : ScriptedReply := { ScriptedReply.blank with payload := [5, 0, 0, 0] }

/-- Two environments on an engine that always gives that reply. -/
def alwaysFive : World Scripted Int32 :=
  (((World.ofEngine { Scripted.start with replies := [five] }).addEnvironment .standard
    .empty).2.addEnvironment .standard .empty).2

/-- A group with a member twice. -/
def trio : List Target := [seventh 0, seventh 1, seventh 0]

/-- The same three numbers, in turn and at once. -/
theorem group_calls_trio :
    World.Run Scripted.engine (.ofEngine { Scripted.start with replies := [five] }) [] alwaysFive ∧
    (∀ t ∈ trio, (alwaysFive.environment t.environment).isAlive) ∧
    World.Concordant Scripted.engine alwaysFive trio .none (fun _ _ _ => five.answer)
      (Scripted.Steady five) ∧
    (alwaysFive.broadcast Scripted.engine 1 .none number trio).1 = .ok [5, 5, 5] ∧
    (alwaysFive.submitAll Scripted.engine 1 .none number trio).2.futures.outcome?
        (alwaysFive.submitAll Scripted.engine 1 .none number trio).1 =
      some (.ok (.all [.one 5, .one 5, .one 5])) := by
  have run : World.Run Scripted.engine (.ofEngine { Scripted.start with replies := [five] }) []
      alwaysFive :=
    (World.Run.refl.snoc (.openEnvironment .standard .empty)).snoc
      (.openEnvironment .standard .empty)
  have alive : ∀ t ∈ trio, (alwaysFive.environment t.environment).isAlive := by decide +kernel
  have standard : ∀ c ∈ alwaysFive.sizes trio, c = .standard := by decide +kernel
  have concordant : World.Concordant Scripted.engine alwaysFive trio .none
      (fun _ _ _ => five.answer) (Scripted.Steady five) := by
    refine ⟨fun c _ => Scripted.answersAtOnce rfl c.Lends, rfl, ?_, ?_, fun t _ b _ => ?_⟩
    · exact Scripted.keeps_grantsAmong fun c hc => congrArg Config.bufferLimit (standard c hc)
    · exact World.Rests.addEnvironment (World.Rests.addEnvironment
        (fun _ => Pool.rests_of_idle_nil rfl) .standard .empty) .standard .empty
    · exact Nat.zero_le _
  obtain ⟨_, _, _, _, agree⟩ := run.group_calls alive 1 .none
  have inTurn : (alwaysFive.broadcast Scripted.engine 1 .none number trio).1 = .ok [5, 5, 5] := by
    decide +kernel
  have atOnce := agree number _ _ concordant
    (fun e => Nat.lt_of_le_of_lt (length_entered_le e _) (by decide +kernel))
  rw [inTurn] at atOnce
  exact ⟨run, alive, concordant, inTurn, atOnce⟩

/-- A result that is of no interest. -/
def ignored : Decoder Int32 := fun _ => pure 0

/-- **Without granted buffers the two ways differ.** The environment has a limit of sixteen bytes,
and one buffer without a limit is at rest in it that the engine has put there. In turn both calls find
that buffer and succeed, with arguments over the limit. At once the first takes it for good, and
the second is refused for want of memory. -/
theorem group_outcomes_differ :
    World.Run Scripted.engine (.ofEngine Scripted.start) [] replaced ∧
    (∀ lent, Scripted.engine.AnswersAtOnce (fun _ _ _ => ScriptedReply.blank.answer)
      (Scripted.Steady .blank) lent) ∧
    replaced.engine.Steady .blank ∧
    (replaced.broadcast Scripted.engine 1 (.ofEmission fun _ => .run tooLong) ignored
      [seventh 0, seventh 0]).1 = .ok [0, 0] ∧
    ((replaced.submitAll Scripted.engine 1 (.ofEmission fun _ => .run tooLong) ignored
      [seventh 0, seventh 0]).2.futures.outcome?
        (replaced.submitAll Scripted.engine 1 (.ofEmission fun _ => .run tooLong) ignored
          [seventh 0, seventh 0]).1 = some (.error (.ofCodec (.outOfMemory 24)))) := by
  have run : World.Run Scripted.engine (.ofEngine Scripted.start) [] replaced :=
    (World.Run.refl.snoc (.openEnvironment sixteen .empty)).snoc (.callScalar (seventh 0) 1 5 rfl)
  exact ⟨run, Scripted.answersAtOnce rfl, rfl, by decide +kernel, rfl⟩

end Sample

end RemoteDispatch
