import RemoteDispatch.Proofs.Fates
import RemoteDispatch.Proofs.Translation

/-!
# Calls to a group

A group is called in one of two ways. Either its members are called one after
another and the first that fails ends it (`World.broadcast`), or the call is
submitted to all of them at once and their futures are joined
(`World.submitAll`). A member may occur several times.

In both, every member is called from the world that the calls before it have
left, so what a member's call comes to is described from there: by its `Turn`
in the first way, and by its `Submission` and by the record in the other. What
the engine sees is in both cases one transition for each call that gets to it,
in the order of the members.
-/

namespace RemoteDispatch

variable {σ α β : Type}

/-! ## In turn -/

/-- **The turn of a member**: the bytes of the arguments and the output buffer that get to the
engine, if the arguments can be written, and what the call comes to. -/
structure Turn (β : Type) where
  /-- The member. -/
  target : Target
  /-- What gets to the engine. -/
  arrival : Option (Bytes × Buffer)
  /-- What comes of it. -/
  result : Except CallError β

/-- All the values, or the first error. -/
def collected : List (Except CallError β) → Except CallError (List β)
  | [] => .ok []
  | .error e :: _ => .error e
  | .ok b :: results => (collected results).map (b :: ·)

theorem collected_of_values (values : List β) : collected (values.map .ok) = .ok values := by
  induction values with
  | nil => rfl
  | cons b values ih => exact congrArg (Except.map (b :: ·)) ih

theorem collected_of_error {before : List (Except CallError β)}
    (succeeded : ∀ r ∈ before, ∃ b, r = .ok b) (e : CallError) (after : List (Except CallError β)) :
    collected (before ++ .error e :: after) = .error e := by
  induction before with
  | nil => rfl
  | cons r before ih =>
    obtain ⟨b, rfl⟩ := succeeded r List.mem_cons_self
    exact congrArg (Except.map (b :: ·)) (ih fun r hr => succeeded r (List.mem_cons_of_mem _ hr))

/-- **They are all values, or one of them is the first error.** -/
theorem collected_cases (results : List (Except CallError β)) :
    (∃ values : List β, results = values.map .ok) ∨
      ∃ before e after, results = before ++ .error e :: after ∧ ∀ r ∈ before, ∃ b, r = .ok b := by
  induction results with
  | nil => exact Or.inl ⟨[], rfl⟩
  | cons r results ih =>
    cases r with
    | error e => exact Or.inr ⟨[], e, results, rfl, fun _ h => nomatch h⟩
    | ok b =>
      obtain ⟨values, rfl⟩ | ⟨before, e, after, rfl, succeeded⟩ := ih
      · exact Or.inl ⟨b :: values, rfl⟩
      · exact Or.inr ⟨.ok b :: before, e, after, rfl,
          List.forall_mem_cons.2 ⟨⟨b, rfl⟩, succeeded⟩⟩

/-- The engine once it has seen the call of a turn, if that gets to it. -/
def Engine.see (eng : Engine σ) (op : Int32) (s : σ) (turn : Turn β) : σ :=
  match turn.arrival with
  | none => s
  | some (input, output) => (eng.call turn.target.raw op input output s).2.2

namespace World

variable (eng : Engine σ) (op : Int32) (encode : Encoder)

/-- The turn of a member in a world. -/
def turn (w : World σ α) (decode : Decoder β) (t : Target) : Turn β :=
  ⟨t, (w.prepared t encode).toOption, (w.call eng t op encode decode).1⟩

/-- **The turns of all members**, each from where the calls before have left the world. -/
def turns (decode : Decoder β) : World σ α → List Target → List (Turn β)
  | _, [] => []
  | w, t :: members =>
    w.turn eng op encode decode t :: turns decode (w.call eng t op encode decode).2 members

/-- **What calling the members in turn comes to.** -/
structure InTurn (w : World σ α) (decode : Decoder β) (members : List Target) : Prop where
  /-- There is a turn for each member. -/
  each : (w.turns eng op encode decode members).map Turn.target = members
  /-- A call that does not get to the engine fails. -/
  arrives : ∀ turn ∈ w.turns eng op encode decode members, turn.arrival = none →
    ∃ e, turn.result = .error e
  /-- If all succeed, there is one value for each, and the engine has seen all the calls. -/
  succeeds : ∀ values,
    (w.turns eng op encode decode members).map Turn.result = values.map .ok →
    (w.broadcast eng op encode decode members).1 = .ok values ∧
      (w.broadcast eng op encode decode members).2.engine =
        (w.turns eng op encode decode members).foldl (eng.see op) w.engine
  /-- The first that fails ends it, and the engine has seen the calls up to that one. -/
  fails : ∀ before turn after e,
    w.turns eng op encode decode members = before ++ turn :: after →
    (∀ earlier ∈ before, ∃ b, earlier.result = .ok b) → turn.result = .error e →
    (w.broadcast eng op encode decode members).1 = .error e ∧
      (w.broadcast eng op encode decode members).2.engine =
        (before ++ [turn]).foldl (eng.see op) w.engine

variable {eng op encode} {w : World σ α} {decode : Decoder β}

/-- The engine sees the call of a turn as it sees the call. -/
theorem see_turn (w : World σ α) (t : Target) :
    eng.see op w.engine (w.turn eng op encode decode t) =
      (w.call eng t op encode decode).2.engine := by
  rw [(call_eq eng w t op encode decode).2]
  unfold turn Engine.see
  cases w.prepared t encode with
  | error e => rfl
  | ok buffers => rfl

theorem broadcast_of_ok {t : Target} {b : β} (members : List Target)
    (succeeded : (w.call eng t op encode decode).1 = .ok b) :
    w.broadcast eng op encode decode (t :: members) =
      let others := (w.call eng t op encode decode).2.broadcast eng op encode decode members
      (others.1.map (b :: ·), others.2) := by
  rw [World.broadcast]
  cases hcall : w.call eng t op encode decode with
  | mk result w₁ =>
    rw [hcall] at succeeded
    cases succeeded
    rfl

theorem broadcast_of_error {t : Target} {e : CallError} (members : List Target)
    (failed : (w.call eng t op encode decode).1 = .error e) :
    w.broadcast eng op encode decode (t :: members) =
      (.error e, (w.call eng t op encode decode).2) := by
  rw [World.broadcast]
  cases hcall : w.call eng t op encode decode with
  | mk result w₁ =>
    rw [hcall] at failed
    cases failed
    rfl

/-- What comes back is what the turns come to together. -/
theorem broadcast_fst (w : World σ α) (members : List Target) :
    (w.broadcast eng op encode decode members).1 =
      collected ((w.turns eng op encode decode members).map Turn.result) := by
  induction members generalizing w with
  | nil => rfl
  | cons t members ih =>
    show _ = collected ((w.call eng t op encode decode).1 :: _)
    cases result : (w.call eng t op encode decode).1 with
    | error e =>
      rw [broadcast_of_error members result]
      rfl
    | ok b =>
      rw [broadcast_of_ok members result]
      exact congrArg (Except.map (b :: ·)) (ih _)

theorem turns_target (w : World σ α) (members : List Target) :
    (w.turns eng op encode decode members).map Turn.target = members := by
  induction members generalizing w with
  | nil => rfl
  | cons t members ih => exact congrArg (t :: ·) (ih _)

/-- What cannot be written fails. -/
theorem result_of_unarrived (w : World σ α) (t : Target)
    (unarrived : (w.turn eng op encode decode t).arrival = none) :
    ∃ e, (w.turn eng op encode decode t).result = .error e := by
  have result := (call_eq eng w t op encode decode).1
  unfold asked at result
  unfold turn at unarrived ⊢
  cases prepared : w.prepared t encode with
  | error e =>
    rw [prepared] at result
    exact ⟨e, result⟩
  | ok buffers =>
    rw [prepared] at unarrived
    cases unarrived

theorem turns_arrive (w : World σ α) (members : List Target) :
    ∀ turn ∈ w.turns eng op encode decode members, turn.arrival = none →
      ∃ e, turn.result = .error e := by
  induction members generalizing w with
  | nil => exact fun _ h => nomatch h
  | cons t members ih =>
    exact List.forall_mem_cons.2 ⟨w.result_of_unarrived t, ih _⟩

/-- **The engine sees the turns**: all of them if all succeed. -/
theorem broadcast_engine_of_values (w : World σ α) (members : List Target) {values : List β}
    (succeeded : (w.turns eng op encode decode members).map Turn.result = values.map .ok) :
    (w.broadcast eng op encode decode members).2.engine =
      (w.turns eng op encode decode members).foldl (eng.see op) w.engine := by
  induction members generalizing w values with
  | nil => rfl
  | cons t members ih =>
    cases values with
    | nil => cases succeeded
    | cons b values =>
      obtain ⟨first, others⟩ := List.cons.inj succeeded
      rw [broadcast_of_ok members first]
      show ((w.call eng t op encode decode).2.broadcast eng op encode decode members).2.engine =
        List.foldl (eng.see op) (eng.see op w.engine (w.turn eng op encode decode t)) _
      rw [see_turn]
      exact ih _ others

/-- And otherwise all up to the first that fails. -/
theorem broadcast_engine_of_error (w : World σ α) (members : List Target)
    {before after : List (Turn β)} {turn : Turn β} {e : CallError}
    (split : w.turns eng op encode decode members = before ++ turn :: after)
    (succeeded : ∀ earlier ∈ before, ∃ b, earlier.result = .ok b) (failed : turn.result = .error e) :
    (w.broadcast eng op encode decode members).2.engine =
      (before ++ [turn]).foldl (eng.see op) w.engine := by
  induction members generalizing w before with
  | nil => exact absurd split.symm (List.append_ne_nil_of_right_ne_nil _ (List.cons_ne_nil _ _))
  | cons t members ih =>
    cases before with
    | nil =>
      obtain ⟨rfl, _⟩ := List.cons.inj split
      rw [broadcast_of_error members failed]
      exact (w.see_turn t).symm
    | cons first before =>
      obtain ⟨rfl, rest⟩ := List.cons.inj split
      obtain ⟨b, result⟩ := succeeded _ List.mem_cons_self
      rw [broadcast_of_ok members result]
      show ((w.call eng t op encode decode).2.broadcast eng op encode decode members).2.engine =
        List.foldl (eng.see op) (eng.see op w.engine (w.turn eng op encode decode t)) _
      rw [see_turn]
      exact ih _ rest fun earlier h => succeeded earlier (List.mem_cons_of_mem _ h)

/-- **Calling in turn comes to what it has to**, in every world and on every engine. -/
theorem inTurn (eng : Engine σ) (op : Int32) (encode : Encoder) (w : World σ α)
    (decode : Decoder β) (members : List Target) : InTurn eng op encode w decode members where
  each := w.turns_target members
  arrives := w.turns_arrive members
  succeeds values succeeded := by
    refine ⟨?_, w.broadcast_engine_of_values members succeeded⟩
    rw [broadcast_fst, succeeded, collected_of_values]
  fails before turn after e split succeeded failed := by
    refine ⟨?_, w.broadcast_engine_of_error members split succeeded failed⟩
    rw [broadcast_fst, split, List.map_append, List.map_cons, failed]
    refine collected_of_error (fun r hr => ?_) e _
    obtain ⟨earlier, hearlier, rfl⟩ := List.mem_map.1 hr
    exact succeeded earlier hearlier

end World

/-! ## At once -/

/-- **The submission of a member**: the id and the bytes of the arguments that get to the engine, if
the arguments can be written. -/
structure Submission where
  /-- The member. -/
  target : Target
  /-- What gets to the engine. -/
  arrival : Option (CallId × Bytes)

/-- The engine once it has accepted or rejected a submission, if that gets to it. -/
def Engine.accept (eng : Engine σ) (op : Int32) (s : σ) (submission : Submission) : σ :=
  match submission.arrival with
  | none => s
  | some (id, input) =>
    (eng.submit submission.target.raw op ⟨submission.target.environment⟩ id input s).2

namespace World

variable (eng : Engine σ) (op : Int32) (encode : Encoder)

/-- The submission of a member in a world. -/
def submission (w : World σ α) (t : Target) : Submission :=
  ⟨t, (w.written t encode).toOption.map ((w.environment t.environment).calls.next, ·)⟩

/-- **The submissions of all members**, each from where those before have left the world. -/
def submissions (decode : Decoder α) : World σ α → List Target → List Submission
  | _, [] => []
  | w, t :: members =>
    w.submission encode t :: submissions decode (w.submit eng t op encode decode).2 members

/-- What happens when a call is submitted to every member. -/
def submittedEach (decode : Decoder α) : World σ α → List Target → List (Happening α)
  | _, [] => []
  | w, t :: members =>
    w.submitted eng t op encode decode ++
      submittedEach decode (w.submit eng t op encode decode).2 members

/-- **What submitting to the members at once comes to**, in a world with a record. -/
structure AtOnce (w : World σ α) (h : List (Happening α)) (decode : Decoder α)
    (members : List Target) : Prop where
  /-- There is a submission for each member and a future for each. -/
  each : (w.submissions eng op encode decode members).map Submission.target = members ∧
    (w.submitEach eng op encode decode members).1.length = members.length
  /-- The engine has seen them all, whatever came of those before. -/
  seen : (w.submitAll eng op encode decode members).2.engine =
    (w.submissions eng op encode decode members).foldl (eng.accept op) w.engine
  /-- However a run goes on, each future is as the record says, and the joined one has ended with
  what they came to first. -/
  ends : ∀ {later w'}, Run eng (w.submitAll eng op encode decode members).2 later w' →
    let past := h ++ w.submittedEach eng op encode decode members
    let futures := (w.submitEach eng op encode decode members).1
    (∀ e, (entered e (past ++ later)).length < 2 ^ 64) →
    (∀ f ∈ futures, w'.futures.outcome? f = fate f (past ++ later)) ∧
      w'.futures.outcome? (w.submitAll eng op encode decode members).1 =
        decision futures past later

variable {eng op encode} {w w' : World σ α} {decode : Decoder α} {h : List (Happening α)}

/-- The engine sees a submission as it sees the submitted call. -/
theorem accept_submission (w : World σ α) (t : Target) :
    eng.accept op w.engine (w.submission encode t) =
      (w.submit eng t op encode decode).2.engine := by
  rw [submit_engine]
  unfold submission Engine.accept
  cases w.written t encode with
  | error e => rfl
  | ok input => rfl

theorem submissions_target (w : World σ α) (members : List Target) :
    (w.submissions eng op encode decode members).map Submission.target = members := by
  induction members generalizing w with
  | nil => rfl
  | cons t members ih => exact congrArg (t :: ·) (ih _)

theorem length_submitEach (w : World σ α) (members : List Target) :
    (w.submitEach eng op encode decode members).1.length = members.length := by
  induction members generalizing w with
  | nil => rfl
  | cons t members ih => exact congrArg Nat.succ (ih _)

/-- **The engine sees every submission.** -/
theorem submitEach_engine (w : World σ α) (members : List Target) :
    (w.submitEach eng op encode decode members).2.engine =
      (w.submissions eng op encode decode members).foldl (eng.accept op) w.engine := by
  induction members generalizing w with
  | nil => rfl
  | cons t members ih =>
    show ((w.submit eng t op encode decode).2.submitEach eng op encode decode members).2.engine =
      List.foldl (eng.accept op) (eng.accept op w.engine (w.submission encode t)) _
    rw [accept_submission]
    exact ih _

/-- A submitted call hands out its future. -/
theorem handedOut_submit (eng : Engine σ) (op : Int32) (encode : Encoder) (w : World σ α)
    (decode : Decoder α) (t : Target) :
    HandedOut (w.submit eng t op encode decode).1 (w.submitted eng t op encode decode) := by
  cases written : w.written t encode with
  | error e =>
    obtain ⟨w₁, _, hsubmit, hsubmitted⟩ := submit_of_unwritten eng op decode written
    rw [hsubmit, hsubmitted]
    exact Or.inl rfl
  | ok input =>
    obtain ⟨w₁, _, hsubmit, hsubmitted⟩ := submit_of_written eng op decode written
    rw [hsubmit, hsubmitted]
    exact Or.inl rfl

theorem handedOut_submitEach (w : World σ α) (members : List Target) :
    ∀ f ∈ (w.submitEach eng op encode decode members).1,
      HandedOut f (w.submittedEach eng op encode decode members) := by
  induction members generalizing w with
  | nil => exact fun _ h => nomatch h
  | cons t members ih =>
    exact List.forall_mem_cons.2 ⟨(handedOut_submit eng op encode w decode t).append _,
      fun f hf => (ih _ f hf).prepend _⟩

/-- Submitting to every member is made of the changes that calls notice. -/
theorem Changes.submitEach (w : World σ α) (members : List Target)
    (known : ∀ t ∈ members, t.environment < w.environments.length) :
    Changes w (w.submittedEach eng op encode decode members)
      (w.submitEach eng op encode decode members).2 := by
  induction members generalizing w with
  | nil => exact .same (.refl w)
  | cons t members ih =>
    have first := Changes.submit eng w t op encode decode (known t List.mem_cons_self)
    exact first.andThen (ih _ fun t' ht' =>
      Nat.lt_of_lt_of_le (known t' (List.mem_cons_of_mem t ht')) first.sameSizes.length)

/-- **Submitting at once comes to what it has to**, in every world that a run reaches. -/
theorem Run.atOnce {s : σ} (run : Run eng (ofEngine s) h w) (op : Int32) (encode : Encoder)
    (decode : Decoder α) {members : List Target}
    (alive : ∀ t ∈ members, (w.environment t.environment).isAlive) :
    AtOnce eng op encode w h decode members where
  each := ⟨w.submissions_target members, w.length_submitEach members⟩
  seen := w.submitEach_engine members
  ends := by
    intro later w' further past futures few
    have submitted : Changes w (w.submittedEach eng op encode decode members)
        (w.submitEach eng op encode decode members).2 :=
      .submitEach w members fun t ht => lt_of_isAlive (alive t ht)
    have few' := few_of_append few
    obtain ⟨joins, tracked⟩ := run.tracked (few_of_append few')
    obtain ⟨joins', tracked'⟩ := tracked.after submitted few'
    have handed : ∀ f ∈ futures, HandedOut f past := fun f hf =>
      (w.handedOut_submitEach members f hf).prepend h
    have tracks := further.changes.tracks (tracked'.tracks.same (.join _ futures)) few
    exact ⟨fun f hf => (tracks.handedOut ((handed f hf).append later)).2,
      tracked'.joined_decided handed further.changes few⟩

end World

end RemoteDispatch
