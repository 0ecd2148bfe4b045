import RemoteDispatch.Engine.Loopback
import RemoteDispatch.Proofs.Pools
import RemoteDispatch.Proofs.Taking

/-!
# What serving a call shows

The loopback engine serves a call into whatever buffer it is handed: the
caller's, which may hold the bytes of earlier calls, or a fresh one. A handler
may write a good part of a result before it fails, and a failure record then
goes over what it wrote.

None of that is seen. `served` says with which status a call is answered and
which bytes are shown, from the object and the request alone, and
`serve_of_unlimited` says that serving into any buffer without a limit comes to
the same. Only where a handler writes more than half of what can be allocated
may the buffer matter.
-/

namespace RemoteDispatch

/-! ## Failure records always fit -/

namespace Emission

theorem length_bytes_andThen_le (a b : Emission) :
    (a.andThen b).bytes.length ≤ a.bytes.length + b.bytes.length := by
  cases hstop : a.stop with
  | none =>
    refine Nat.le_of_eq ?_
    rw [bytes_andThen hstop, List.length_append]
  | some e =>
    unfold andThen
    rw [hstop]
    exact Nat.le_add_right _ _

theorem length_bytes_int32 (v : Int32) : (int32 v).bytes.length = 4 := by
  rw [int32, bytes_run, length_littleEndian]

theorem length_bytes_text_le (s : String) : (text s).bytes.length ≤ 4 + maxLength := by
  unfold text
  by_cases h : (utf8 s).length ≤ maxLength
  · rw [bytes_andThen (stop_length.2 h), bytes_length h, bytes_run, List.length_append,
      length_littleEndian]
    exact Nat.add_le_add_left h 4
  · unfold length
    rw [if_neg h]
    exact Nat.zero_le _

theorem length_bytes_text?_le (s : Option String) : (text? s).bytes.length ≤ 4 + maxLength := by
  cases s with
  | none => exact Nat.le_trans (Nat.le_of_eq (length_bytes_int32 (-1))) (Nat.le_add_right _ _)
  | some s => exact length_bytes_text_le s

end Emission

namespace Failure

/-- A failure record is small against what can be allocated, whatever its texts are. -/
theorem length_bytes_emission_le (f : Failure) : f.emission.bytes.length ≤ 2 ^ 62 := by
  have code := Emission.length_bytes_int32 f.code
  have message := Emission.length_bytes_text_le f.message
  have remoteKind := Emission.length_bytes_text?_le f.remoteKind
  have first := Emission.length_bytes_andThen_le (.int32 f.code)
    ((Emission.text f.message).andThen ((Emission.text? f.remoteKind).andThen .empty))
  have second := Emission.length_bytes_andThen_le (.text f.message)
    ((Emission.text? f.remoteKind).andThen .empty)
  have max : Emission.maxLength = 2 ^ 31 - 1 := rfl
  rw [Emission.andThen_empty] at first second
  show ((Emission.int32 f.code).andThen ((Emission.text f.message).andThen
    ((Emission.text? f.remoteKind).andThen .empty))).bytes.length ≤ 2 ^ 62
  rw [Emission.andThen_empty]
  omega

/-- **What is shown of a failure record**: the record, or nothing if one of its texts is too long
for its length. -/
def shown (f : Failure) : Bytes :=
  match f.emission.stop with
  | none => f.emission.bytes
  | some _ => []

end Failure

variable {b output : Buffer}

theorem committed_of_length_eq_zero (h : b.length = 0) : b.committed = [] := by
  unfold Buffer.committed
  rw [h]
  rfl

/-- The writer over a buffer that has been cleared for a record. -/
theorem Failure.encodeInto_eq (f : Failure) (r : Registry) (b : Buffer) :
    f.encodeInto r b =
      match (Writer.start b.reset).perform f.emission with
      | (.error e, w) => (.error e, w.buffer)
      | (.ok (), w) =>
        match w.synchronize with
        | .ok b => (.ok (), b)
        | .error e => (.error e, w.buffer) := rfl

/-- **A record that was refused shows nothing**, and neither does what it was to replace. -/
theorem Failure.length_of_refused {r : Registry} {f : Failure} {e : CodecError}
    (refused : (f.encodeInto r b).1 = .error e) : (f.encodeInto r b).2.length = 0 := by
  rw [Failure.encodeInto_eq] at refused ⊢
  have frame := (Writer.sameFrame_perform (.start b.reset) f.emission).2
  cases hperform : (Writer.start b.reset).perform f.emission with
  | mk answer w =>
    rw [hperform] at refused frame
    cases answer with
    | error e => exact frame
    | ok _ =>
      dsimp only at refused ⊢
      cases hsync : w.synchronize with
      | error e => exact frame
      | ok b' =>
        rw [hsync] at refused
        cases refused

/-- **A failure whose record is within the limit shows the same in every buffer.** -/
theorem committed_replyFailure (r : Registry) (f : Failure)
    (within : output.withinLimit f.emission.bytes.length) :
    (replyFailure r f output).committed = f.shown := by
  obtain ⟨w, hperform, held⟩ := (Writer.holds_start output.reset).perform_of_canHold
    (e := f.emission) (.inr ⟨within, f.length_bytes_emission_le⟩)
  have frame := (Writer.sameFrame_perform (.start output.reset) f.emission).2
  rw [hperform] at frame
  unfold replyFailure
  rw [Failure.encodeInto_eq, hperform]
  unfold Failure.shown Emission.outcome
  cases f.emission.stop with
  | none =>
    obtain ⟨b, hsync, shown, _⟩ := held.synchronize
    dsimp only
    rw [hsync]
    exact shown
  | some e =>
    -- nothing is committed, so the buffer shows what it showed when it was reset
    exact committed_of_length_eq_zero frame

/-! ## Serving -/

/-- **The status and the bytes of an answer**, as the object and the request determine them. -/
def served (object : Except Failure ObjectKind) (op : Int32) (request : Request) :
    Status × Bytes :=
  match object with
  | .error f => (.invalidTarget, f.shown)
  | .ok kind =>
    match kind.op? op with
    | none => (.failed, (Failure.unsupported kind op).shown)
    | some h =>
      match (h request).freely [] with
      | (.done, bytes) => (.ok, bytes)
      | (.failed f, _) => (.failed, f.shown)
      | (.panicked message, _) => (.failed, (Failure.ofPanic message).shown)

/-- **Serving shows the same in every buffer without a limit**, as long as the handler stays in
bounds. -/
theorem serve_of_unlimited {object : Except Failure ObjectKind} {op : Int32} {request : Request}
    (hl : output.limit = none)
    (bounded : ∀ {kind h}, object = .ok kind → kind.op? op = some h →
      ((h request).freely []).2.length ≤ 2 ^ 62) :
    (serve object op request output).1 = (served object op request).1 ∧
      (serve object op request output).2.committed = (served object op request).2 := by
  unfold serve served
  cases object with
  | error f => exact ⟨rfl, committed_replyFailure _ f (Buffer.withinLimit_of_unlimited hl _)⟩
  | ok kind =>
    dsimp only
    cases hop : kind.op? op with
    | none => exact ⟨rfl, committed_replyFailure _ _ (Buffer.withinLimit_of_unlimited hl _)⟩
    | some h =>
      obtain ⟨w, hrun, held⟩ := (h request).run_of_canHold (Writer.holds_start output.reset)
        (.inr ⟨Buffer.withinLimit_of_unlimited (b := output.reset) hl _, bounded rfl hop⟩)
      have limit := (Writer.sameFrame_run (h request) (.start output.reset)).1
      rw [hrun] at limit
      have unlimited : w.buffer.limit = none := limit.trans hl
      unfold runHandler
      dsimp only
      rw [hrun]
      cases hend : (h request).freely [] with
      | mk ending bytes =>
        rw [hend] at held
        cases ending with
        | done =>
          obtain ⟨b, hsync, shown, _⟩ := held.synchronize
          dsimp only
          rw [hsync]
          exact ⟨rfl, shown⟩
        -- the record is written over what the handler has left in the buffer
        | failed f =>
          exact ⟨rfl, committed_replyFailure _ f (Buffer.withinLimit_of_unlimited unlimited _)⟩
        | panicked message =>
          exact ⟨rfl, committed_replyFailure _ _ (Buffer.withinLimit_of_unlimited unlimited _)⟩

/-! ## The loopback engine keeps to its buffers

It fills the output buffers it is handed, commits and resets them, and never
puts another buffer in their place. -/

section Keeps

variable {P : Buffer → Prop} (kept : Buffer.Kept P)

include kept

theorem keeps_replyFailure (r : Registry) (f : Failure) (h : P output) :
    P (replyFailure r f output) :=
  Encoder.keeps_into kept _ r (kept.reset h)

theorem keeps_runHandler (handler : Handler) (request : Request) (h : P output) :
    P (runHandler handler request output).2 := by
  have written := Writer.keeps_run kept.filled (w := .start output.reset) (kept.reset h)
    (handler request)
  unfold runHandler
  cases hrun : (handler request).run (.start output.reset) with
  | mk ending w =>
    rw [hrun] at written
    cases ending with
    | failed f => exact written
    | panicked message => exact written
    | done =>
      dsimp only
      cases hsync : w.synchronize with
      | error e => exact written
      | ok b => exact kept.committed hsync written

theorem keeps_serve (object : Except Failure ObjectKind) (op : Int32) (request : Request)
    (h : P output) : P (serve object op request output).2 := by
  unfold serve
  cases object with
  | error f => exact keeps_replyFailure kept _ f h
  | ok kind =>
    dsimp only
    cases kind.op? op with
    | none => exact keeps_replyFailure kept _ _ h
    | some handler =>
      have after := keeps_runHandler kept handler request h
      dsimp only
      cases hrun : runHandler handler request output with
      | mk result output' =>
        rw [hrun] at after
        cases result with
        | ok _ => exact after
        | error f => exact keeps_replyFailure kept _ f after

namespace Loopback

theorem keeps_call (s : Loopback) (target : RawHandle) (op : Int32) (input : Bytes)
    (h : P output) : P (s.call target op input output).2.1 := by
  unfold call
  cases s.enter with
  | error e => exact h
  | ok s => exact keeps_serve kept _ _ _ h

theorem keeps_callScalar (s : Loopback) (target : RawHandle) (op : Int32) (value : Int64)
    (h : P output) : P (s.callScalar target op value output).2.1 := by
  unfold callScalar
  cases s.enter with
  | error e => exact h
  | ok s =>
    dsimp only
    cases s.scalarAnswer target op value with
    | ok result => exact h
    | error failed => exact keeps_replyFailure kept _ failed.2 h

theorem keeps_create (s : Loopback) (name : String) (h : P output) :
    P (s.create name output).2.1 := by
  unfold create
  cases s.enter with
  | error e => exact h
  | ok s =>
    dsimp only
    cases s.spawn? name with
    | none => exact keeps_replyFailure kept _ _ h
    | some spawned =>
      obtain ⟨raw, made⟩ := spawned
      have written := Encoder.keeps_into kept (.ofEmission fun _ => .int64 raw.word.toInt64)
        s.registry (kept.reset h)
      dsimp only
      cases hinto : Encoder.into (.ofEmission fun _ => .int64 raw.word.toInt64) s.registry
        output.reset with
      | mk result after =>
        rw [hinto] at written
        cases result with
        | ok _ => exact written
        | error e => exact keeps_replyFailure kept _ _ written

end Loopback

end Keeps

namespace Loopback

/-- **The engine keeps whatever writing into a buffer keeps.** -/
theorem keeps {P : Config → Buffer → Prop} (kept : ∀ c, Buffer.Kept (P c)) :
    engine.Keeps P where
  call target op input s h := keeps_call (kept _) s target op input h
  callScalar target op value s h := keeps_callScalar (kept _) s target op value h
  create kind _ s h := keeps_create (kept _) s kind h

theorem keepsLimits : Engine.KeepsLimits engine where
  call target op input _ s := keeps_call (Buffer.kept_limit _) s target op input rfl
  callScalar target op value _ s :=
    keeps_callScalar (Buffer.kept_limit _) s target op value rfl
  create kind _ _ s := keeps_create (Buffer.kept_limit _) s kind rfl

end Loopback

end RemoteDispatch
