import RemoteDispatch.Proofs.Families
import RemoteDispatch.Proofs.Overflow

/-!
# Objects live as long as their handles

An object of the loopback engine is made when its maker is given a handle to
it, and disposed of when the last handle to it goes. The two happen on
different sides. The engine keeps the objects, the table of the environment
counts the handles, and between them lie the buffers of a call, which may have
no room for as much as a raw handle.

A `Tenancy` keeps book of the handles there are and of the raw handles that
were given out. `Tenancy.Sound` says that the table counts the handles in the
book (`Tenancy.Counted`) and that the objects of the engine are those with a
handle there (`Tenancy.Housed`). What could make an object without a handle to
it is a reply that cannot be delivered. A buffer with a limit of eight bytes has
room for every raw handle, and a smaller one for none. So where a reply cannot be
delivered none ever is, and the engine takes back each object it makes
(`Loopback.Creates`).

Raw handles are words of 64 bits. The first `2 ^ 64` of them are distinct, and
there are no more than that.
-/

namespace RemoteDispatch

/-! ## What the engine does to its objects -/

/-- An emission is written and committed by a buffer that can hold it. -/
theorem Encoder.into_of_canHold {e : Registry → Emission} {r : Registry} {b : Buffer}
    (whole : (e r).stop = .none) (room : b.CanHold (e r).bytes.length) :
    ∃ b', Encoder.into (.ofEmission e) r b = (.ok (), b') ∧ b'.committed = (e r).bytes := by
  obtain ⟨w, performed, held⟩ := (Writer.holds_start b).perform_of_canHold (e := e r) room
  obtain ⟨b', committed, shown, _⟩ := held.synchronize
  refine ⟨b', ?_, shown⟩
  unfold Encoder.into Encoder.ofEmission Script.emit Script.run
  rw [performed, Emission.outcome, whole]
  dsimp only [Script.run]
  rw [committed]

namespace Loopback

variable {s s' : Loopback} {raw : RawHandle} {output : Buffer}

/-- The raw handles of the live objects. -/
def live (s : Loopback) : List RawHandle := s.objects.map Prod.fst

theorem isSome_object? : (s.object? raw).isSome ↔ raw ∈ s.live := by
  unfold object? live
  rw [List.lookup_isSome_iff, List.mem_map]
  simp only [beq_iff_eq, @eq_comm _ raw]

theorem live_remove (s : Loopback) (raw : RawHandle) :
    (s.remove raw).live = s.live.filter (· != raw) := by
  unfold live remove
  rw [List.filter_map]
  rfl

/-- **The same objects live**, and none has been made or disposed of. -/
structure SameObjects (s s' : Loopback) : Prop where
  objects : s'.objects = s.objects
  next : s'.next = s.next
  disposed : s'.disposed = s.disposed

theorem SameObjects.refl (s : Loopback) : s.SameObjects s := ⟨rfl, rfl, rfl⟩

theorem SameObjects.trans {s'' : Loopback} (h : s.SameObjects s') (h' : s'.SameObjects s'') :
    s.SameObjects s'' :=
  ⟨h'.objects.trans h.objects, h'.next.trans h.next, h'.disposed.trans h.disposed⟩

/-- A call arrives or does not, and no object notices. -/
theorem sameObjects_enter (arrived : s.enter = .ok s') : s.SameObjects s' := by
  unfold enter at arrived
  split at arrived
  · cases arrived
    exact ⟨rfl, rfl, rfl⟩
  · cases arrived

theorem sameObjects_call (s : Loopback) (target : RawHandle) (op : Int32) (input : Bytes)
    (output : Buffer) : s.SameObjects (s.call target op input output).2.2 := by
  unfold call
  cases arrived : s.enter with
  | error e => exact .refl s
  | ok s₁ => exact sameObjects_enter arrived

theorem sameObjects_callScalar (s : Loopback) (target : RawHandle) (op : Int32) (value : Int64)
    (output : Buffer) : s.SameObjects (s.callScalar target op value output).2.2 := by
  unfold callScalar
  cases arrived : s.enter with
  | error e => exact .refl s
  | ok s₁ =>
    dsimp only
    cases s₁.scalarAnswer target op value with
    | ok result => exact sameObjects_enter arrived
    | error failed => exact sameObjects_enter arrived

/-- **The next object is made.** -/
structure Bears (s s' : Loopback) : Prop where
  live : s'.live = s.live.filter (· != s.next) ++ [s.next]
  next : s'.next = ⟨s.next.word + 1⟩
  disposed : s'.disposed = s.disposed

/-- The objects before the new one are still there, and so they are when it has gone. -/
theorem bears_of_spawn? {name : String} (spawned : s.spawn? name = some (raw, s')) :
    raw = s.next ∧ s.Bears s' ∧ (s'.remove raw).objects = (s.remove s.next).objects := by
  obtain ⟨kind, _, made⟩ := Option.map_eq_some_iff.1 spawned
  cases made
  refine ⟨rfl, ⟨?_, rfl, rfl⟩, ?_⟩
  · show ((s.remove s.next).objects ++ [(s.next, kind)]).map Prod.fst = _
    rw [List.map_append]
    exact congrArg (· ++ [s.next]) (s.live_remove s.next)
  · simp [remove, List.filter_append, List.filter_filter]

/-- The raw handle of a new object in the reply. -/
def rawReply (raw : RawHandle) : Emission := .int64 raw.word.toInt64

theorem length_rawReply (raw : RawHandle) : (rawReply raw).bytes.length = 8 := by
  rw [rawReply, Emission.int64, Emission.bytes_run, length_littleEndian]

/-- **A raw handle is returned where there is room for a word.** -/
theorem into_rawReply (r : Registry) (raw : RawHandle) (room : output.withinLimit 8) :
    ∃ output', Encoder.into (.ofEmission fun _ => rawReply raw) r output.reset = (.ok (), output') ∧
      output'.committed = (rawReply raw).bytes := by
  refine Encoder.into_of_canHold (e := fun _ => rawReply raw) rfl (.inr ?_)
  rw [length_rawReply]
  exact ⟨room, by decide⟩

/-- And only there. -/
theorem into_rawReply_of_full (r : Registry) (raw : RawHandle) (bounded : output.Bounded)
    (full : ¬output.withinLimit 8) :
    ∃ e output',
      Encoder.into (.ofEmission fun _ => rawReply raw) r output.reset = (.error e, output') := by
  obtain ⟨size, output', refused⟩ :=
    Encoder.into_of_overflow (b := output.reset)
      (Encoder.propagates_ofEmission (fun _ => rawReply raw) r) (Buffer.kept_bounded.reset bounded)
      (by show ¬output.withinLimit (rawReply raw).bytes.length; rwa [length_rawReply])
  exact ⟨_, output', refused⟩

/-- **What comes of asking the engine for an object.** -/
inductive Creates (s : Loopback) (output : Buffer) : Answer → Loopback → Prop where
  /-- The engine is disconnected, or it does not know the kind. -/
  | refused {answer s'} (refused : ∀ shown, answer ≠ .ok ⟨0, shown⟩) (same : s.SameObjects s') :
      Creates s output answer s'
  /-- There is room for the raw handle of the new object. -/
  | made {output' s'} (room : output.withinLimit 8)
      (shown : output'.committed = (rawReply s.next).bytes) (bears : s.Bears s') :
      Creates s output (.ok ⟨0, output'⟩) s'
  /-- There is none, and the new object goes again. -/
  | unmade {output' s'} (full : ¬output.withinLimit 8)
      (objects : s'.objects = (s.remove s.next).objects) (disposed : s'.disposed = s.disposed) :
      Creates s output (.ok ⟨1, output'⟩) s'

/-- The arrival of a call does not change what comes of it. -/
theorem Creates.of_same {answer : Answer} {s₁ : Loopback} (same : s.SameObjects s₁)
    (creates : s₁.Creates output answer s') : s.Creates output answer s' := by
  have live : s₁.live = s.live := congrArg (List.map Prod.fst) same.objects
  cases creates with
  | refused refused same' => exact .refused refused (same.trans same')
  | made room shown bears =>
    have ⟨lives, next, disposed⟩ := bears
    rw [same.next] at shown next lives
    exact .made room shown ⟨live ▸ lives, next, disposed.trans same.disposed⟩
  | unmade full objects disposed =>
    refine .unmade full (objects.trans ?_) (disposed.trans same.disposed)
    simp only [remove, same.objects, same.next]

theorem creates (s : Loopback) (name : String) (input : Bytes) (bounded : output.Bounded) :
    s.Creates output (engine.answerCreate name input output s)
      (engine.create name input output s).2.2 := by
  cases arrived : s.enter with
  | error e =>
    simp only [Engine.answerCreate, engine, create, arrived]
    exact .refused (fun _ h => nomatch h) (.refl s)
  | ok s₁ =>
    refine .of_same (sameObjects_enter arrived) ?_
    cases spawned : s₁.spawn? name with
    | none =>
      simp only [Engine.answerCreate, engine, create, arrived, spawned]
      exact .refused (fun _ h => nomatch h) (.refl s₁)
    | some new =>
      obtain ⟨raw, made⟩ := new
      obtain ⟨rfl, bears, removed⟩ := bears_of_spawn? spawned
      by_cases room : output.withinLimit 8
      · obtain ⟨output', written, shown⟩ := into_rawReply s₁.registry s₁.next room
        unfold rawReply at written
        simp only [Engine.answerCreate, engine, create, arrived, spawned, written]
        exact .made room shown bears
      · obtain ⟨e, output', refused⟩ := into_rawReply_of_full s₁.registry s₁.next bounded room
        unfold rawReply at refused
        simp only [Engine.answerCreate, engine, create, arrived, spawned, refused]
        exact .unmade room removed bears.disposed

end Loopback

/-! ## An object that is there is found -/

/-- An object that is there is not said to be missing. -/
theorem serve_ne_invalidTarget (kind : ObjectKind) (op : Int32) (request : Request)
    (output : Buffer) : (serve (.ok kind) op request output).1 ≠ .invalidTarget := by
  unfold serve
  dsimp only
  split
  · exact fun h => nomatch h
  · split
    · exact fun h => nomatch h
    · exact fun h => nomatch h

/-- How an engine ends a call with a number, but for the number. -/
def Engine.answerScalar {σ : Type} (eng : Engine σ) (target : RawHandle) (op : Int32)
    (value : Int64) (output : Buffer) (s : σ) : Answer :=
  match eng.callScalar target op value output s with
  | (.error e, _, _) => .error e
  | (.ok (status, _), output, _) => .ok ⟨status, output⟩

/-- The error of every call after the link has gone down. -/
def Loopback.linkDown : TransportError := .connectionLost "loopback engine disconnected"

/-- **An answer of an object that was found**: the link was down, or there is a reply that does not
say that the object is missing. -/
def Answer.Found (a : Answer) : Prop :=
  a = .error Loopback.linkDown ∨ ∃ reply, a = .ok reply ∧ reply.status ≠ Status.invalidTarget.toByte

theorem Answer.Found.of_status (status : Status) (h : status ≠ .invalidTarget) (output : Buffer) :
    Answer.Found (.ok ⟨status.toByte, output⟩) := by
  refine .inr ⟨_, rfl, ?_⟩
  show status.toByte ≠ Status.invalidTarget.toByte
  cases status with
  | ok => decide
  | failed => decide
  | invalidTarget => exact absurd rfl h

namespace Loopback

variable {s : Loopback} {raw : RawHandle}

theorem linkDown_of_enter {e : TransportError} (refused : s.enter = .error e) : e = linkDown := by
  unfold enter at refused
  split at refused
  · cases refused
  · exact (Except.error.inj refused).symm

/-- No arrival of a call makes an object missing. -/
theorem lookup_of_live {s' : Loopback} (live : raw ∈ s.live) (arrived : s.enter = .ok s') :
    ∃ kind, s'.lookup raw = .ok kind := by
  obtain ⟨kind, object⟩ := Option.isSome_iff_exists.1 (isSome_object?.2 live)
  unfold object? at object
  rw [← (sameObjects_enter arrived).objects] at object
  exact ⟨kind, lookup_of_some object⟩

theorem found_answer (live : raw ∈ s.live) (op : Int32) (input : Bytes) (output : Buffer) :
    (engine.answer raw op input output s).Found := by
  cases arrived : s.enter with
  | error e =>
    simp only [Engine.answer, engine, call, arrived]
    exact .inl (congrArg Except.error (linkDown_of_enter arrived))
  | ok s₁ =>
    obtain ⟨kind, object⟩ := lookup_of_live live arrived
    simp only [Engine.answer, engine, call, arrived, object]
    exact .of_status _ (serve_ne_invalidTarget kind op _ output) _

theorem found_answerScalar (live : raw ∈ s.live) (op : Int32) (value : Int64) (output : Buffer) :
    (engine.answerScalar raw op value output s).Found := by
  cases arrived : s.enter with
  | error e =>
    simp only [Engine.answerScalar, engine, callScalar, arrived]
    exact .inl (congrArg Except.error (linkDown_of_enter arrived))
  | ok s₁ =>
    obtain ⟨kind, object⟩ := lookup_of_live live arrived
    simp only [Engine.answerScalar, engine, callScalar, arrived, scalarAnswer, object]
    cases kind.scalarOp? op with
    | none => exact .of_status .failed (fun h => nomatch h) _
    | some h =>
      dsimp only
      cases h value with
      | done result => exact .of_status .ok (fun h => nomatch h) _
      | failed f => exact .of_status .failed (fun h => nomatch h) _
      | panicked message => exact .of_status .failed (fun h => nomatch h) _

end Loopback

/-! ## What a caller is told -/

/-- **An error that does not say that the object is missing**: if it is of the kind for objects that
were not reached, it says that the link was down. -/
def CallError.Present (err : CallError) : Prop :=
  err.isInvalidState → err = .ofTransport Loopback.linkDown

theorem CallError.present_ofCodec (e : CodecError) : (ofCodec e).Present := by
  intro state
  unfold ofCodec at state
  split at state
  · cases state
  · cases state

theorem CallError.NoMemory.present {err : CallError} (h : err.NoMemory) : err.Present := by
  obtain ⟨message, rfl⟩ := h
  exact fun state => (nomatch state)

theorem Answer.Found.present {a : Answer} (found : a.Found) (r : Registry) {β : Type}
    (decode : Decoder β) {err : CallError} (told : a.translate r decode = .error err) :
    err.Present := by
  obtain rfl | ⟨reply, rfl, status⟩ := found
  · cases told
    exact fun _ => rfl
  · have translated := Answer.translates (.ok reply) r decode
    rw [told] at translated
    intro state
    cases translated with
    | invalidTarget record => exact absurd rfl status
    | outOfMemory read memory => cases state
    | malformed read memory => cases state
    | remote record => cases state
    | noRecord failed noRecord => cases state
    | unknown unknown => cases state

/-- The buffers of a pool have room for a word of 64 bits. -/
def Config.roomForWord (c : Config) : Bool := c.bufferLimit.all (8 ≤ ·)

theorem Config.Lends.withinLimit_word {c : Config} {b : Buffer} (h : c.Lends b) :
    b.withinLimit 8 = c.roomForWord := by
  unfold Buffer.withinLimit roomForWord
  rw [h.limit]

namespace World

variable {α β : Type} {w w' w'' : World Loopback α} {t : Target}

/-- What goes wrong on this side is not for want of the object. -/
theorem present_of_prepared {encode : Encoder} {err : CallError}
    (refused : w.prepared t encode = .error err) : err.Present := by
  unfold World.prepared at refused
  cases hinput : w.allocate t.environment with
  | mk input w₁ =>
    rw [hinput] at refused
    cases input with
    | error e =>
      cases refused
      exact (noMemory_of_allocate hinput).present
    | ok input =>
      dsimp only at refused
      cases houtput : w₁.allocate t.environment with
      | mk output w₂ =>
        rw [houtput] at refused
        cases output with
        | error e =>
          cases refused
          exact (noMemory_of_allocate houtput).present
        | ok output =>
          dsimp only at refused
          split at refused
          · cases refused
            exact CallError.present_ofCodec _
          · cases refused

/-- **A call on a live object is not told that the object is missing.** -/
theorem present_of_call (live : t.raw ∈ w.engine.live) {op : Int32} {encode : Encoder}
    {decode : Decoder β} {err : CallError}
    (told : (w.call Loopback.engine t op encode decode).1 = .error err) : err.Present := by
  rw [(call_eq Loopback.engine w t op encode decode).1] at told
  unfold asked at told
  cases prepared : w.prepared t encode with
  | error refused =>
    rw [prepared] at told
    cases told
    exact present_of_prepared prepared
  | ok buffers =>
    obtain ⟨input, output⟩ := buffers
    rw [prepared] at told
    exact (Loopback.found_answer live op input output).present _ decode told

/-- **A call with a number neither.** -/
theorem present_of_callScalar (live : t.raw ∈ w.engine.live) {op : Int32} {value : Int64}
    {err : CallError} (told : (w.callScalar Loopback.engine t op value).1 = .error err) :
    err.Present := by
  rw [callScalar_fst] at told
  unfold askedScalar at told
  cases houtput : w.allocate t.environment with
  | mk output w₁ =>
    have engine : w₁.engine = w.engine := congrArg (fun leased => leased.2.engine) houtput.symm
    rw [houtput] at told
    cases output with
    | error refused =>
      cases told
      exact (noMemory_of_allocate houtput).present
    | ok output =>
      rw [← engine] at live
      have found := Loopback.found_answerScalar live op value output
      unfold Engine.answerScalar at found
      dsimp only at told
      cases hcall : Loopback.engine.callScalar t.raw op value output w₁.engine with
      | mk answer after =>
        rw [hcall] at told found
        cases answer with
        | error e => exact found.present (w.registry t.environment) (fun _ => pure 0) told
        | ok reply =>
          exact found.present (w.registry t.environment) (fun _ => pure reply.2) told

/-! ## Asking for an object -/

/-- **The same handles are counted**, and the environments go by the same sizes. -/
structure SameTables (w w' : World Loopback α) : Prop extends SameSizes w w' where
  handles : ∀ e, (w'.environment e).handles = (w.environment e).handles

namespace SameTables

/-- A change outside the environments. -/
theorem outside (h : w'.environments = w.environments) : SameTables w w' :=
  ⟨.outside h, fun e => congrArg Environment.handles (environment_eq h e)⟩

theorem refl (w : World Loopback α) : SameTables w w := outside rfl

theorem trans (h : SameTables w w') (h' : SameTables w' w'') : SameTables w w'' :=
  ⟨h.toSameSizes.trans h'.toSameSizes, fun e => (h'.handles e).trans (h.handles e)⟩

/-- A change of one environment outside its table. -/
theorem modify (w : World Loopback α) (e : EnvironmentId) {f : Environment α → Environment α}
    (config : (f (w.environment e)).pool.config = (w.environment e).pool.config)
    (handles : (f (w.environment e)).handles = (w.environment e).handles) :
    SameTables w (w.modify e f) :=
  ⟨.modify w e config, modify_keeps Environment.handles w e f handles⟩

theorem respected (eng : Engine Loopback) : Respected eng (SameTables (α := α)) where
  refl := refl
  trans := trans
  allocate w e := modify w e (Pool.config_acquire _) rfl
  recycle w e b := modify w e (Pool.config_recycle _ b) rfl
  calls _ _ _ _ _ := outside rfl
  callsScalar _ _ _ _ _ := outside rfl
  creates _ _ _ _ := outside rfl

theorem dropOwner (w : World Loopback α) (e : EnvironmentId) : SameTables w (w.dropOwner e) := by
  have counted : SameTables w (w.modify e fun env => { env with owners := env.owners - 1 }) :=
    modify w e rfl rfl
  by_cases last : (w.environment e).owners = 1
  · rw [dropOwner_of_last w last]
    exact counted.trans ((modify _ e rfl rfl).trans (outside rfl))
  · rw [dropOwner_of_more w last]
    exact counted

end SameTables

theorem engine_dropOwner (w : World Loopback α) (e : EnvironmentId) :
    (w.dropOwner e).engine = w.engine := by
  by_cases last : (w.environment e).owners = 1
  · rw [dropOwner_of_last w last]
    rfl
  · rw [dropOwner_of_more w last]
    rfl

/-- No object notices a call that is waited for. -/
theorem sameObjects_call (w : World Loopback α) (t : Target) (op : Int32) (encode : Encoder)
    (decode : Decoder β) :
    w.engine.SameObjects (w.call Loopback.engine t op encode decode).2.engine := by
  rw [(call_eq Loopback.engine w t op encode decode).2]
  cases w.prepared t encode with
  | error e => exact .refl w.engine
  | ok buffers => exact w.engine.sameObjects_call t.raw op _ _

theorem sameObjects_callScalar (w : World Loopback α) (t : Target) (op : Int32) (value : Int64) :
    w.engine.SameObjects (w.callScalar Loopback.engine t op value).2.engine := by
  rw [callScalar_engine]
  split
  · exact .refl w.engine
  · exact w.engine.sameObjects_callScalar t.raw op value _

/-- **What comes of asking an environment for an object.** The buffers are at rest again before a
raw handle is attached. -/
inductive Makes (w : World Loopback α) (e : EnvironmentId) :
    Except CallError Target × World Loopback α → Prop where
  /-- No object is made. -/
  | refused {err : CallError} {w' : World Loopback α} (tables : SameTables w w')
      (rests : w'.Rests Config.Lends) (same : w.engine.SameObjects w'.engine) :
      Makes w e (.error err, w')
  /-- An object is made, and goes again because its raw handle cannot be returned. -/
  | unmade {err : CallError} {w' : World Loopback α} (tables : SameTables w w')
      (rests : w'.Rests Config.Lends) (full : ¬(w.environment e).pool.config.roomForWord)
      (objects : w'.engine.objects = (w.engine.remove w.engine.next).objects)
      (disposed : w'.engine.disposed = w.engine.disposed) : Makes w e (.error err, w')
  /-- An object is made and attached. -/
  | made {w' : World Loopback α} (tables : SameTables w w')
      (rests : w'.Rests Config.Lends) (room : (w.environment e).pool.config.roomForWord)
      (bears : w.engine.Bears w'.engine) :
      Makes w e (.ok (w'.attach e w.engine.next).1, (w'.attach e w.engine.next).2)

theorem makes (rests : w.Rests Config.Lends) (e : EnvironmentId) (kind : String)
    (encode : Encoder) : w.Makes e (w.create Loopback.engine e kind encode) := by
  obtain ⟨result, engine⟩ := made_eq Loopback.engine w ⟨e, ⟨e, ⟨0⟩⟩⟩ kind encode
  have tables := (SameTables.respected Loopback.engine).made w e kind encode
  have after := rests.made Pool.keeps_lends (Loopback.keeps Config.kept_lends) e kind encode
  dsimp only at result engine
  cases prepared : w.prepared ⟨e, ⟨e, ⟨0⟩⟩⟩ encode with
  | error err =>
    rw [prepared] at result engine
    rw [create_of_error result]
    exact .refused tables after (engine ▸ .refl w.engine)
  | ok buffers =>
    obtain ⟨input, output⟩ := buffers
    rw [prepared] at result engine
    obtain ⟨_, terms⟩ := Rests.of_prepared Pool.keeps_lends rests prepared
    have created := w.engine.creates kind input terms.bounded
    have fits := terms.withinLimit_word
    dsimp only [Except.bind] at result engine
    rw [← engine] at created
    generalize Loopback.engine.answerCreate kind input output w.engine = answer at created result
    generalize hmade : w.withLeases e (makeObject Loopback.engine e kind encode) = made
      at created tables after
    cases created with
    | refused refused same =>
      obtain ⟨err, told⟩ := Answer.translate_of_failed refused
      rw [create_of_error (result.trans (told _ _)), hmade]
      exact .refused tables after same
    | unmade full objects disposed =>
      obtain ⟨err, told⟩ := Answer.translate_of_failed (a := .ok ⟨1, _⟩) fun _ h => nomatch h
      rw [create_of_error (result.trans (told _ _)), hmade]
      exact .unmade tables after (fits ▸ full) objects disposed
    | @made output' _ room shown bears =>
      have word : Reader.int64.eval output'.committed = .ok w.engine.next.word.toInt64 := by
        rw [shown, Loopback.rawReply, Emission.int64, Emission.bytes_run]
        exact (Reader.takes_int64 _).eval
      have received : Answer.translate (.ok ⟨0, output'⟩) (w.registry e) (fun _ => Reader.int64) =
          .ok w.engine.next.word.toInt64 := by
        show (Reader.int64.eval output'.committed).mapError CallError.ofCodec = _
        rw [word]
        rfl
      rw [create_of_ok (result.trans received), UInt64.toUInt64_toInt64, hmade]
      exact .made tables after (fits ▸ room) bears

end World

/-! ## One environment and its handles -/

/-- **A world with one environment on a loopback engine**, and the book of its handles. -/
structure Tenancy (α : Type) where
  /-- The world. -/
  world : World Loopback α
  /-- The objects that handles are held to, each as often as one is. -/
  held : List RawHandle
  /-- The raw handles that were given out, in order. -/
  given : List RawHandle

namespace Tenancy

variable {α : Type}

/-- A handle to an object, counted in the only table. -/
def handleTo (raw : RawHandle) : Handle := ⟨0, raw⟩

/-- A target with such a handle. -/
def targetTo (raw : RawHandle) : Target := ⟨0, handleTo raw⟩

/-- An engine without kinds and objects, and an environment on it. -/
def start (types : Registry) (config : Config) (registry : Registry) : Tenancy α :=
  ⟨((World.ofEngine (.start types)).addEnvironment config registry).2, [], []⟩

/-- The book after an object has been asked for. -/
def asked (c : Tenancy α) : Except CallError Target × World Loopback α → Tenancy α
  | (.error _, w) => { c with world := w }
  | (.ok t, w) => ⟨w, t.raw :: c.held, c.given ++ [t.raw]⟩

/-- **One step.** Kinds are registered and objects made, calls are waited for, the link goes down.
Handles are cloned and dropped, by themselves or with a target, and they are found or attached by
the raw handle of an object that has a handle already. Calls with objects and calls on a group are
made of the calls listed. -/
inductive Step (c : Tenancy α) : Tenancy α → Prop where
  | addKind (kind : ObjectKind) :
      Step c { c with world := c.world.withEngine (c.world.engine.addKind kind) }
  | create (kind : String) (encode : Encoder) :
      Step c (c.asked (c.world.create Loopback.engine 0 kind encode))
  | cloneHandle {raw} (held : raw ∈ c.held) :
      Step c { c with world := c.world.cloneHandle (handleTo raw), held := raw :: c.held }
  | cloneTarget {raw} (held : raw ∈ c.held) :
      Step c { c with world := c.world.cloneTarget (targetTo raw), held := raw :: c.held }
  | get {raw h w} (found : c.world.handle? 0 raw = some (h, w)) :
      Step c { c with world := w, held := raw :: c.held }
  | attach {raw} (held : raw ∈ c.held) :
      Step c { c with world := (c.world.attach 0 raw).2, held := raw :: c.held }
  | dropHandle {raw} (held : raw ∈ c.held) :
      Step c { c with
        world := c.world.dropHandle Loopback.engine (handleTo raw), held := c.held.erase raw }
  | dropTarget {raw} (held : raw ∈ c.held) :
      Step c { c with
        world := c.world.dropTarget Loopback.engine (targetTo raw), held := c.held.erase raw }
  | retain : Step c { c with world := c.world.retain 0 }
  | dropOwner : Step c { c with world := c.world.dropOwner 0 }
  | stream (t op input output) :
      Step c { c with world := (c.world.stream Loopback.engine t op input output).2.2 }
  | call {β : Type} (t op encode) (decode : Decoder β) :
      Step c { c with world := (c.world.call Loopback.engine t op encode decode).2 }
  | callScalar (t op value) :
      Step c { c with world := (c.world.callScalar Loopback.engine t op value).2 }
  | disconnect : Step c { c with world := c.world.withEngine c.world.engine.disconnect }

/-- **Any number of steps.** -/
inductive Run : Tenancy α → Tenancy α → Prop where
  | refl {c} : Run c c
  | snoc {c₁ c₂ c₃} (run : Run c₁ c₂) (step : Step c₂ c₃) : Run c₁ c₃

/-! ## What every step keeps -/

/-- The raw handle that is given out after so many others. -/
def nthRaw (n : Nat) : RawHandle := ⟨.ofNat (n + 1)⟩

/-- **The table agrees with the handles that are held**, and buffers are lent on certain terms. -/
structure Counted (terms : Config) (w : World Loopback α) (held : List RawHandle) : Prop where
  known : 0 < w.environments.length
  config : (w.environment 0).pool.config = terms
  rests : w.Rests Config.Lends
  counts : (w.environment 0).handles.Counts fun raw => held.count raw

/-- **The objects of the engine are those that are held**, and come from what was given out. -/
structure Housed (terms : Config) (s : Loopback) (held given : List RawHandle) : Prop where
  live : ∀ raw, raw ∈ s.live ↔ raw ∈ held
  nodup : s.live.Nodup
  inOrder : given = (List.range given.length).map nthRaw
  next : terms.roomForWord → s.next = nthRaw given.length
  /-- Where no raw handle can be returned, none has been given out. -/
  cramped : ¬terms.roomForWord → given = []
  /-- An object is disposed of no more often than it was given out, and one that is still held is
  disposed of less often than that. -/
  ledger : ∀ raw, s.disposed.count raw + (if raw ∈ held then 1 else 0) ≤ given.count raw

/-- **The world agrees with the book.** -/
structure Sound (terms : Config) (c : Tenancy α) : Prop where
  counted : Counted terms c.world c.held
  housed : Housed terms c.world.engine c.held c.given

variable {terms : Config} {w w' : World Loopback α} {s s' : Loopback} {held given : List RawHandle}
  {raw : RawHandle}

theorem sound_start (types : Registry) (config : Config) (registry : Registry) :
    (start types config registry : Tenancy α).Sound config where
  counted :=
    { known := Nat.one_pos
      config := rfl
      rests := World.Rests.addEnvironment (fun _ => Pool.rests_of_idle_nil rfl) config registry
      counts := HandleTable.counts_empty }
  housed :=
    { live := fun _ => Iff.rfl
      nodup := List.nodup_nil
      inOrder := rfl
      next := fun _ => rfl
      cramped := fun _ => rfl
      ledger := fun _ => Nat.le_refl 0 }

namespace Counted

theorem same (counted : Counted terms w held) (tables : World.SameTables w w')
    (rests : w'.Rests Config.Lends) : Counted terms w' held where
  known := Nat.lt_of_lt_of_le counted.known tables.length
  config := (tables.config 0 counted.known).trans counted.config
  rests := rests
  counts := by
    rw [tables.handles]
    exact counted.counts

/-- A handle more. -/
theorem adopt (counted : Counted terms w held) (raw : RawHandle) :
    Counted terms (w.adopt 0 raw).2 (raw :: held) where
  known := by
    show 0 < (w.modify 0 _).environments.length
    rw [World.length_modify]
    exact counted.known
  config := by
    show ((w.modify 0 _).environment 0).pool.config = terms
    rw [World.environment_modify_self w counted.known]
    exact counted.config
  rests := counted.rests.adopt 0 raw
  counts := by
    have book : (fun r => (raw :: held).count r) =
        fun r => if r = raw then held.count r + 1 else held.count r := by
      funext r
      by_cases here : r = raw
      · rw [here, List.count_cons_self, if_pos rfl]
      · rw [List.count_cons_of_ne (Ne.symm here), if_neg here]
    show ((w.modify 0 _).environment 0).handles.Counts _
    rw [World.environment_modify_self w counted.known, book]
    exact counted.counts.adopt raw

theorem retain (counted : Counted terms w held) : Counted terms (w.retain 0) held :=
  counted.same (.modify w 0 rfl rfl) (counted.rests.retain 0)

theorem dropOwner (counted : Counted terms w held) : Counted terms (w.dropOwner 0) held :=
  counted.same (.dropOwner w 0) (counted.rests.dropOwner 0)

/-- A handle fewer, and the object goes with the last one. -/
theorem release (counted : Counted terms w held) (mem : raw ∈ held) :
    Counted terms (w.dropHandle Loopback.engine (handleTo raw)) (held.erase raw) ∧
      (w.dropHandle Loopback.engine (handleTo raw)).engine =
        if held.count raw = 1 then w.engine.dispose raw else w.engine := by
  obtain ⟨counts, last⟩ := counted.counts.release (List.count_pos_iff.2 mem)
  obtain ⟨environments, engine⟩ := World.dropHandle_cases Loopback.engine w (handleTo raw)
  have book : (fun r => (held.erase raw).count r) =
      fun r => if r = raw then held.count r - 1 else held.count r := by
    funext r
    by_cases here : r = raw
    · rw [here, List.count_erase_self, if_pos rfl]
    · rw [List.count_erase_of_ne here, if_neg here]
  refine ⟨⟨?_, ?_, counted.rests.dropHandle Loopback.engine (handleTo raw), ?_⟩, ?_⟩
  · rw [environments, World.length_modify]
    exact counted.known
  · rw [World.environment_eq environments]
    show ((w.modify 0 _).environment 0).pool.config = terms
    rw [World.environment_modify_self w counted.known]
    exact counted.config
  · rw [World.environment_eq environments, book]
    show ((w.modify 0 _).environment 0).handles.Counts _
    rw [World.environment_modify_self w counted.known]
    exact counts
  · rw [engine]
    show (if ((w.environment 0).handles.release raw).2 then w.engine.dispose raw else w.engine) = _
    rw [last]
    simp only [decide_eq_true_eq]

end Counted

namespace Housed

theorem same (housed : Housed terms s held given) (same : s.SameObjects s') :
    Housed terms s' held given where
  live raw := by
    unfold Loopback.live
    rw [same.objects]
    exact housed.live raw
  nodup := by
    unfold Loopback.live
    rw [same.objects]
    exact housed.nodup
  inOrder := housed.inOrder
  next room := same.next.trans (housed.next room)
  cramped := housed.cramped
  ledger raw := by
    rw [same.disposed]
    exact housed.ledger raw

/-- Who holds how many handles is no matter as long as the same objects are held. -/
theorem congr {held' : List RawHandle} (housed : Housed terms s held given)
    (same : ∀ raw, raw ∈ held' ↔ raw ∈ held) : Housed terms s held' given where
  live raw := (housed.live raw).trans (same raw).symm
  nodup := housed.nodup
  inOrder := housed.inOrder
  next := housed.next
  cramped := housed.cramped
  ledger raw := by
    simp only [same]
    exact housed.ledger raw

/-- A handle more, to an object that has one. -/
theorem join (housed : Housed terms s held given) (mem : raw ∈ held) :
    Housed terms s (raw :: held) given :=
  housed.congr fun r => by
    rw [List.mem_cons]
    exact ⟨fun h => h.elim (fun h => h ▸ mem) id, .inr⟩

/-- The first handle to an object that has just been made. -/
theorem born (housed : Housed terms s held given) (room : terms.roomForWord) (bears : s.Bears s') :
    Housed terms s' (s.next :: held) (given ++ [s.next]) where
  live raw := by
    rw [bears.live, List.mem_append, List.mem_filter, housed.live, List.mem_singleton,
      List.mem_cons, bne_iff_ne]
    tauto
  nodup := by
    rw [bears.live, List.nodup_append]
    refine ⟨housed.nodup.filter _, List.nodup_singleton _, ?_⟩
    rintro r hr r' hr' rfl
    rw [List.mem_filter, bne_iff_ne] at hr
    exact hr.2 (List.mem_singleton.1 hr')
  inOrder := by
    rw [List.length_append, List.length_singleton, List.range_succ, List.map_append,
      ← housed.inOrder, housed.next room]
    rfl
  next _ := by
    rw [bears.next, housed.next room, List.length_append, List.length_singleton]
    show RawHandle.mk (.ofNat (given.length + 1) + 1) = ⟨.ofNat (given.length + 1 + 1)⟩
    rw [UInt64.ofNat_add (given.length + 1)]
    rfl
  cramped full := absurd room full
  ledger raw := by
    have before := housed.ledger raw
    rw [bears.disposed, List.count_append]
    by_cases new : raw = s.next
    · rw [new, List.count_singleton_self, if_pos List.mem_cons_self]
      rw [new] at before
      omega
    · rw [List.count_singleton, beq_false_of_ne (Ne.symm new)]
      simp only [List.mem_cons, new, false_or]
      exact before

/-- A handle fewer, and the object with the last one. -/
theorem release (housed : Housed terms s held given) (mem : raw ∈ held) :
    Housed terms (if held.count raw = 1 then s.dispose raw else s) (held.erase raw) given := by
  have count : (held.erase raw).count raw = held.count raw - 1 := List.count_erase_self
  by_cases last : held.count raw = 1
  · have gone : raw ∉ held.erase raw := by
      rw [← List.count_eq_zero, count, last]
    have erased : ∀ r, r ∈ held.erase raw ↔ r ∈ held ∧ r ≠ raw := by
      intro r
      by_cases here : r = raw
      · subst here
        exact ⟨fun h => absurd h gone, fun h => absurd rfl h.2⟩
      · rw [List.mem_erase_of_ne here]
        exact ⟨fun h => ⟨h, here⟩, And.left⟩
    have live : (s.dispose raw).live = s.live.filter (· != raw) := s.live_remove raw
    rw [if_pos last]
    refine ⟨fun r => ?_, ?_, housed.inOrder, housed.next, housed.cramped, fun r => ?_⟩
    · rw [live, List.mem_filter, housed.live, bne_iff_ne, erased]
    · rw [live]
      exact housed.nodup.filter _
    · have before := housed.ledger r
      show (s.disposed ++ [raw]).count r + _ ≤ _
      rw [List.count_append]
      by_cases here : r = raw
      · subst here
        rw [if_pos mem] at before
        rw [List.count_singleton_self, if_neg gone]
        exact before
      · rw [List.count_singleton, beq_false_of_ne (Ne.symm here)]
        simp only [erased, here, ne_eq, not_false_eq_true, and_true]
        exact before
  · rw [if_neg last]
    have more : raw ∈ held.erase raw := by
      have pos := List.count_pos_iff.2 mem
      rw [← List.count_pos_iff, count]
      omega
    refine housed.congr fun r => ?_
    by_cases here : r = raw
    · subst here
      exact ⟨fun _ => mem, fun _ => more⟩
    · exact List.mem_erase_of_ne here

/-- Where no raw handle can be returned, there are no objects. -/
theorem objects_of_cramped (housed : Housed terms s held given) (full : ¬terms.roomForWord) :
    s.objects = [] := by
  refine List.eq_nil_iff_forall_not_mem.2 fun object mem => ?_
  have live : object.1 ∈ s.live := List.mem_map.2 ⟨object, mem, rfl⟩
  have known := housed.ledger object.1
  rw [if_pos ((housed.live _).1 live), housed.cramped full] at known
  exact absurd known (Nat.not_succ_le_zero _)

/-- An object whose raw handle could not be returned leaves nothing behind. -/
theorem objects_unmade (housed : Housed terms s held given) (full : ¬terms.roomForWord)
    (objects : s'.objects = (s.remove s.next).objects) : s'.objects = s.objects := by
  rw [objects]
  show s.objects.filter _ = s.objects
  rw [housed.objects_of_cramped full]
  rfl

theorem unmade (housed : Housed terms s held given) (full : ¬terms.roomForWord)
    (objects : s'.objects = s.objects) (disposed : s'.disposed = s.disposed) :
    Housed terms s' held given where
  live raw := by
    unfold Loopback.live
    rw [objects]
    exact housed.live raw
  nodup := by
    unfold Loopback.live
    rw [objects]
    exact housed.nodup
  inOrder := housed.inOrder
  next room := absurd room full
  cramped := housed.cramped
  ledger raw := by
    rw [disposed]
    exact housed.ledger raw

end Housed

/-! ## Every step keeps it -/

variable {config : Config} {c c' : Tenancy α}

/-- Nothing happens to handles and objects. -/
theorem Sound.quiet (sound : c.Sound terms) (tables : World.SameTables c.world w)
    (rests : w.Rests Config.Lends) (same : c.world.engine.SameObjects w.engine) :
    Sound terms { c with world := w } :=
  ⟨sound.counted.same tables rests, sound.housed.same same⟩

theorem Step.sound (step : Step c c') (sound : c.Sound terms) : c'.Sound terms := by
  have ⟨counted, housed⟩ := sound
  have respected := World.SameTables.respected (α := α) Loopback.engine
  have keeps : Loopback.engine.Keeps Config.Lends := Loopback.keeps Config.kept_lends
  cases step with
  | addKind kind => exact sound.quiet (.outside rfl) counted.rests ⟨rfl, rfl, rfl⟩
  | create kind encode =>
    have makes := World.makes counted.rests 0 kind encode
    generalize c.world.create Loopback.engine 0 kind encode = made at makes
    cases makes with
    | refused tables rests same => exact sound.quiet tables rests same
    | unmade tables rests full objects disposed =>
      rw [counted.config] at full
      exact ⟨counted.same tables rests,
        housed.unmade full (housed.objects_unmade full objects) disposed⟩
    | made tables rests room bears =>
      rw [counted.config] at room
      exact ⟨((counted.same tables rests).adopt _).retain, housed.born room bears⟩
  | cloneHandle held => exact ⟨counted.adopt _, housed.join held⟩
  | cloneTarget held => exact ⟨(counted.adopt _).retain, housed.join held⟩
  | @get raw h w found =>
    obtain ⟨live, adopted⟩ := World.handle?_eq_some.1 found
    cases adopted
    have held : raw ∈ c.held := List.count_pos_iff.1 ((counted.counts.isLive raw).1 live)
    exact ⟨counted.adopt raw, housed.join held⟩
  | attach held => exact ⟨(counted.adopt _).retain, housed.join held⟩
  | dropHandle held =>
    obtain ⟨counted, engine⟩ := counted.release held
    exact ⟨counted, engine ▸ housed.release held⟩
  | dropTarget held =>
    have engine := c.world.engine_dropOwner 0
    obtain ⟨counted, disposes⟩ := counted.dropOwner.release held
    rw [engine] at disposes
    exact ⟨counted, disposes ▸ housed.release held⟩
  | retain => exact ⟨counted.retain, housed⟩
  | dropOwner => exact ⟨counted.dropOwner, c.world.engine_dropOwner 0 ▸ housed⟩
  | stream t op input output =>
    refine sound.quiet (respected.stream _ t op input output) (counted.rests.stream _ t op _ _) ?_
    rw [World.stream_engine]
    exact c.world.engine.sameObjects_call t.raw op input output
  | call t op encode decode =>
    exact sound.quiet (respected.call _ t op encode decode)
      (counted.rests.call Pool.keeps_lends keeps t op encode decode)
      (c.world.sameObjects_call t op encode decode)
  | callScalar t op value =>
    exact sound.quiet (respected.callScalar _ t op value)
      (counted.rests.callScalar Pool.keeps_lends keeps t op value)
      (c.world.sameObjects_callScalar t op value)
  | disconnect => exact sound.quiet (.outside rfl) counted.rests ⟨rfl, rfl, rfl⟩

theorem Run.sound (run : Run c c') (sound : c.Sound terms) : c'.Sound terms := by
  induction run with
  | refl => exact sound
  | snoc _ step ih => exact step.sound ih

/-! ## What it comes to -/

theorem nthRaw_inj {m n : Nat} : nthRaw m = nthRaw n ↔ (m + 1) % 2 ^ 64 = (n + 1) % 2 ^ 64 := by
  unfold nthRaw
  rw [RawHandle.mk.injEq, ← UInt64.toNat_inj, UInt64.toNat_ofNat', UInt64.toNat_ofNat']

/-- **The raw handles given out differ**, unless there are more of them than words. -/
theorem Housed.nodup_given_iff (housed : Housed terms s held given) :
    given.Nodup ↔ given.length ≤ 2 ^ 64 := by
  rw [housed.inOrder, List.length_map, List.length_range,
    List.nodup_map_iff_inj_on List.nodup_range]
  simp only [List.mem_range, nthRaw_inj]
  constructor
  · intro differ
    by_contra more
    -- one more than there are words is the first again
    exact absurd (differ 0 (by omega) (2 ^ 64) (by omega) (by decide)) (by decide)
  · intro few m hm n hn same
    omega

/-- **No object is disposed of twice**, if none has been given out twice. -/
theorem Housed.nodup_disposed (housed : Housed terms s held given) (distinct : given.Nodup) :
    s.disposed.Nodup := by
  refine List.nodup_iff_count_le_one.2 fun raw => ?_
  exact Nat.le_trans (Nat.le_of_add_right_le (housed.ledger raw))
    (List.nodup_iff_count_le_one.1 distinct raw)

/-- **The objects are the families.** -/
theorem Sound.perm (sound : c.Sound terms) :
    c.world.engine.live.Perm ((c.world.environment 0).handles.families.map Prod.fst) := by
  refine (List.perm_ext_iff_of_nodup sound.housed.nodup sound.counted.counts.nodup).2 fun raw => ?_
  rw [sound.housed.live, sound.counted.counts.mem_keys, List.count_pos_iff]

/-- **Asking for an object in vain leaves everything as it was.** -/
theorem Sound.create_of_error (sound : c.Sound terms) {kind : String} {encode : Encoder}
    {err : CallError} (failed : c.world.create Loopback.engine 0 kind encode = (.error err, w)) :
    w.engine.objects = c.world.engine.objects ∧ w.engine.disposed = c.world.engine.disposed ∧
      (w.environment 0).handles = (c.world.environment 0).handles := by
  have makes := World.makes sound.counted.rests 0 kind encode
  rw [failed] at makes
  cases makes with
  | refused tables rests same => exact ⟨same.objects, same.disposed, tables.handles 0⟩
  | unmade tables rests full objects disposed =>
    rw [sound.counted.config] at full
    exact ⟨sound.housed.objects_unmade full objects, disposed, tables.handles 0⟩

/-- **No leak, and no use after disposal.** Whatever is made, cloned, found, attached, dropped and
called, on a link that may go down, and however little room the buffers have: the live objects are
those with a live handle, and the table counts the handles to each; no raw handle is given out
twice, as long as there are no more objects than words, and then no object is disposed of twice
either; a call on an object that is held finds it, so that its caller is never told that it is
missing; and asking for an object in vain leaves the objects, the handles and the log of disposals
as they were. -/
theorem Run.lifetimes {types registry : Registry} (run : Run (start types config registry) c) :
    let w := c.world
    let table := (w.environment 0).handles
    w.engine.live.Perm (table.families.map Prod.fst) ∧
    (∀ raw, table.refs raw = c.held.count raw) ∧
    (c.given.Nodup ↔ c.given.length ≤ 2 ^ 64) ∧
    (c.given.length ≤ 2 ^ 64 → w.engine.disposed.Nodup) ∧
    (∀ raw ∈ c.held, ∀ op,
      (∀ input output, (Loopback.engine.answer raw op input output w.engine).Found) ∧
      (∀ value output, (Loopback.engine.answerScalar raw op value output w.engine).Found) ∧
      (∀ {β : Type} encode (decode : Decoder β) err,
        (w.call Loopback.engine (targetTo raw) op encode decode).1 = .error err → err.Present) ∧
      ∀ value err,
        (w.callScalar Loopback.engine (targetTo raw) op value).1 = .error err → err.Present) ∧
    ∀ kind encode err w', w.create Loopback.engine 0 kind encode = (.error err, w') →
      w'.engine.objects = w.engine.objects ∧ w'.engine.disposed = w.engine.disposed ∧
        (w'.environment 0).handles = table := by
  intro w table
  have sound := run.sound (sound_start types config registry)
  refine ⟨sound.perm, sound.counted.counts.refs, sound.housed.nodup_given_iff, fun few => ?_,
    fun raw held op => ?_, fun kind encode err w' failed => sound.create_of_error failed⟩
  · exact sound.housed.nodup_disposed (sound.housed.nodup_given_iff.2 few)
  · have live : raw ∈ w.engine.live := (sound.housed.live raw).2 held
    refine ⟨fun input output => Loopback.found_answer live op input output,
      fun value output => Loopback.found_answerScalar live op value output,
      fun encode decode err told => ?_, fun value err told => ?_⟩
    · exact World.present_of_call (t := targetTo raw) live told
    · exact World.present_of_callScalar (t := targetTo raw) live told

end Tenancy

namespace Sample

/-- An environment on an engine that knows one kind. -/
def furnished (config : Config) : Tenancy Int32 :=
  let c : Tenancy Int32 := .start .empty config .empty
  { c with world := c.world.withEngine (c.world.engine.addKind lavish) }

/-- An object has been made. -/
def inhabited : Tenancy Int32 :=
  let c := furnished .standard
  c.asked (c.world.create Loopback.engine 0 "Lavish" .none)

/-- Its target has been cloned. -/
def inhabitedTwice : Tenancy Int32 where
  world := inhabited.world.cloneTarget (Tenancy.targetTo ⟨1⟩)
  held := [⟨1⟩, ⟨1⟩]
  given := [⟨1⟩]

/-- An object with two handles, one of a kind that there is not, and one whose raw handle cannot be
returned. -/
theorem lifetimes_inhabitedTwice :
    Tenancy.Run (.start .empty .standard .empty) inhabitedTwice ∧
      inhabitedTwice.world.engine.live = [⟨1⟩] ∧
      (inhabitedTwice.world.environment 0).handles.refs ⟨1⟩ = 2 ∧
      inhabitedTwice.given.Nodup ∧
      (inhabitedTwice.world.create Loopback.engine 0 "Frugal" .none).2.engine.disposed = [] ∧
      ((furnished ⟨4, some 4, 16, 256⟩).world.create Loopback.engine 0 "Lavish" .none
        ).2.engine.objects = [] := by
  have furnish : ∀ config, Tenancy.Run (.start .empty config .empty) (furnished config) :=
    fun config => Tenancy.Run.refl.snoc (.addKind lavish)
  have held : (⟨1⟩ : RawHandle) ∈ inhabited.held := List.mem_cons_self
  have run : Tenancy.Run (.start .empty .standard .empty) inhabitedTwice :=
    ((furnish .standard).snoc (.create "Lavish" .none)).snoc (.cloneTarget held)
  obtain ⟨objects, refs, distinct, _, _, vain⟩ := run.lifetimes
  obtain ⟨_, disposed, _⟩ := vain "Frugal" .none _ _ rfl
  obtain ⟨_, _, _, _, _, cramped⟩ := (furnish ⟨4, some 4, 16, 256⟩).lifetimes
  obtain ⟨gone, _, _⟩ := cramped "Lavish" .none _ _ rfl
  exact ⟨run, List.perm_singleton.1 objects, refs ⟨1⟩, distinct.2 (by decide), disposed, gone⟩

end Sample

end RemoteDispatch
