import RemoteDispatch.Proofs.Committing
import RemoteDispatch.Proofs.Lookups
import RemoteDispatch.Proofs.Taking
import RemoteDispatch.Sample.Types
import Mathlib.Data.List.Forall2

/-!
# Reading what was written

A side that writes and a side that reads share no code and no registry, only
the format. This module says that the format is enough: whatever a program of
writing leaves in a buffer, the mirrored program of reading takes back, value
by value, and stops where the writer stopped, whatever comes behind.

Three notions carry the statement. `Registry.Fits` says that a value has the
form that a shape lays out, composites being looked up on the reading side.
`Plan` is a program of reading; unlike a shape it may treat each item of a
sequence in its own way, as a program can that counts what it has read.
`Registry.Mirrors` says that a plan reads, step for step, what a value writes.

The writing registry does not occur in any of the three. It matters only in
that the writing succeeds under it, and that the two sides frame a composite
alike is `Registry.id_of_byKey`: an id depends on the name alone.
-/

namespace RemoteDispatch

/-! ## Values of a shape -/

/-- The layout of what follows the frame of an object. -/
def Registry.payloadShape? (r : Registry) : TypeRef → Option Shape
  | .primitive p => some (.scalar p)
  | .composite k => (r.byKey k).map Descriptor.shape

/-- **A value has the form that a shape lays out.** The payload of an object has the form that the
registry says its type has. -/
inductive Registry.Fits (r : Registry) : Shape → Datum → Prop where
  | unit : r.Fits .unit .nil
  | pair {s s' : Shape} {d d' : Datum} (first : r.Fits s d) (second : r.Fits s' d') :
      r.Fits (.pair s s') (.cons d d')
  | byte (b : UInt8) : r.Fits .byte (.byte b)
  | scalar (v : Scalar) : r.Fits (.scalar v.kind) (.scalar v)
  | text (s : String) : r.Fits .text (.scalar (.text s))
  | noText : r.Fits .text .noText
  | textOrEmpty (s : String) : r.Fits .textOrEmpty (.scalar (.text s))
  | seq {s : Shape} {ds : List Datum} (items : ∀ d ∈ ds, r.Fits s d) :
      r.Fits (.seq s) (.seq (.ofList ds))
  | nullableSeq {s : Shape} {ds : List Datum} (items : ∀ d ∈ ds, r.Fits s d) :
      r.Fits (.nullableSeq s) (.seq (.ofList ds))
  | noSeq {s : Shape} : r.Fits (.nullableSeq s) .noSeq
  | object {t : TypeRef} {s : Shape} {d : Datum} (known : r.payloadShape? t = some s)
      (payload : r.Fits s d) : r.Fits (.object t) (.object t d)
  | nullable {t : TypeRef} {s : Shape} {d : Datum} (known : r.payloadShape? t = some s)
      (payload : r.Fits s d) : r.Fits (.nullable t) (.object t d)
  | absent {t : TypeRef} {s : Shape} (known : r.payloadShape? t = some s) :
      r.Fits (.nullable t) (.absent t)
  | dynamic {t : TypeRef} {s : Shape} {d : Datum} (known : r.payloadShape? t = some s)
      (payload : r.Fits s d) : r.Fits .any (.dynamic t d)
  | null : r.Fits .any .null
  | flagged {s : Shape} {d : Datum} (part : r.Fits s d) :
      r.Fits (.flagged s) (.cons (.scalar (.bool true)) d)
  | unflagged {s : Shape} : r.Fits (.flagged s) (.cons (.scalar (.bool false)) .nil)
  | bounded (bound b : UInt8) : r.Fits (.bounded bound) (.bounded bound b)

/-! ## Programs of reading -/

namespace Reader

variable {α : Type}

/-- Takes items, each in the way its place asks for, from a place on. -/
def timesFrom (item : Nat → Reader α) : Nat → Nat → Reader (List α)
  | _, 0 => return []
  | place, n + 1 => do
    let first ← item place
    let others ← timesFrom item (place + 1) n
    return first :: others

/-- Takes a sequence that may be absent, each item in the way its place asks for. -/
def seqWith? (item : Nat → Reader α) : Reader (Option (List α)) := do
  match ← length? with
  | none => return none
  | some n => some <$> timesFrom item 0 n

/-- Takes a sequence that has to be there, each item in the way its place asks for. -/
def seqWith (item : Nat → Reader α) : Reader (List α) := do
  match ← seqWith? item with
  | some items => return items
  | none => throw (.unexpectedNull "sequence")

/-- Items that are all taken in the same way. -/
theorem timesFrom_const (item : Reader α) (place n : Nat) :
    timesFrom (fun _ => item) place n = times item n := by
  induction n generalizing place with
  | zero => rfl
  | succ n ih =>
    unfold timesFrom times
    rw [ih]

theorem seqWith?_const (item : Reader α) : seqWith? (fun _ => item) = seq? item := by
  unfold seqWith? seq?
  refine congrArg (length? >>= ·) (funext fun n => ?_)
  rcases n with _ | n
  · rfl
  · exact congrArg (some <$> ·) (timesFrom_const item 0 n)

theorem seqWith_const (item : Reader α) : seqWith (fun _ => item) = seq item := by
  unfold seqWith seq
  exact congrArg (· >>= _) (seqWith?_const item)

end Reader

/-- **A program of reading.** -/
inductive Plan where
  /-- Reads what a shape lays out: a primitive, a text, an object, a payload. -/
  | part (s : Shape)
  /-- Reads one thing and then another. -/
  | both (first second : Plan)
  /-- Reads a sequence, each item by the plan for its place. -/
  | seq (item : Nat → Plan)
  /-- Reads a sequence that may be absent, each item by the plan for its place. -/
  | nullableSeq (item : Nat → Plan)

namespace Registry

/-- The reader of a plan. -/
def follow (r : Registry) : Plan → Reader Datum
  | .part s => r.read s
  | .both first second => do
    let a ← r.follow first
    let b ← r.follow second
    return .cons a b
  | .seq item => (fun ds => .seq (.ofList ds)) <$> Reader.seqWith fun i => r.follow (item i)
  | .nullableSeq item => do
    match ← Reader.seqWith? fun i => r.follow (item i) with
    | some ds => return .seq (.ofList ds)
    | none => return .noSeq

/-- The reader that follows plans one after another. -/
def followAll (r : Registry) : List Plan → Reader (List Datum)
  | [] => return []
  | p :: ps => do
    let a ← r.follow p
    let as ← r.followAll ps
    return a :: as

/-- **A plan reads, step for step, what a value writes.** -/
inductive Mirrors (r : Registry) : Plan → Datum → Prop where
  | part {s : Shape} {d : Datum} (fits : r.Fits s d) : r.Mirrors (.part s) d
  | both {p q : Plan} {a b : Datum} (first : r.Mirrors p a) (second : r.Mirrors q b) :
      r.Mirrors (.both p q) (.cons a b)
  | seq {item : Nat → Plan} {ds : List Datum}
      (items : ∀ i d, ds[i]? = some d → r.Mirrors (item i) d) :
      r.Mirrors (.seq item) (.seq (.ofList ds))
  | nullableSeq {item : Nat → Plan} {ds : List Datum}
      (items : ∀ i d, ds[i]? = some d → r.Mirrors (item i) d) :
      r.Mirrors (.nullableSeq item) (.seq (.ofList ds))
  | noSeq {item : Nat → Plan} : r.Mirrors (.nullableSeq item) .noSeq

end Registry

/-- **The program that writes values in order** and stops at the first that fails. -/
def Script.inOrder (r : Registry) : List Datum → Script (Except CodecError Unit)
  | [] => .finish (.ok ())
  | d :: ds => .write (r.emit d) fun
    | .ok (), _ => inOrder r ds
    | .error e, _ => .finish (.error e)

namespace Registry

variable {rw rr : Registry}

/-! ## Objects -/

/-- The frame of an object comes to its end if its type is known. -/
theorem bytes_framing {called : TypeKey → String} {k : TypeKey}
    (h : (rw.framing called (.composite k)).stop = none) :
    (rw.framing called (.composite k)).bytes
      = [compositeTag] ++ littleEndian 4 (typeId k.name).toUInt32.toNat := by
  rw [framing] at h ⊢
  rcases hk : rw.byKey k with _ | d
  · rw [hk] at h
    cases h
  · show ((Emission.byte compositeTag).andThen (.int32 d.id)).bytes = _
    rw [Emission.bytes_andThen rfl, id_of_byKey hk]
    exact congrArg₂ (· ++ ·) (Emission.bytes_run _) (Emission.bytes_run _)

/-- The tag of a primitive is neither of the two reserved tags. -/
theorem tag_ne_reserved (p : Primitive) : p.tag ≠ nullTag ∧ p.tag ≠ compositeTag := by
  cases p <;> decide

/-- No primitive has the tag of a composite. -/
theorem ofTag?_compositeTag : Primitive.ofTag? compositeTag = none := rfl

/-- A type whose payload is known may be read. -/
theorem check_of_payloadShape? {t : TypeRef} {s : Shape} (known : rr.payloadShape? t = some s) :
    rr.check t = .ok () := by
  cases t with
  | primitive p => rfl
  | composite k =>
    obtain ⟨d, hd, _⟩ := Option.map_eq_some_iff.1 known
    rw [check, hd]
    rfl

/-- A frame starts with a tag that is not the tag of an absent object. -/
theorem framing_starts {called : TypeKey → String} {t : TypeRef}
    (framed : (rw.framing called t).stop = none) :
    ∃ tag others, (rw.framing called t).bytes = tag :: others ∧ tag ≠ nullTag := by
  cases t with
  | primitive p => exact ⟨p.tag, [], Emission.bytes_run _, (tag_ne_reserved p).1⟩
  | composite k => exact ⟨compositeTag, _, bytes_framing framed, by decide⟩

/-- **An object is taken behind its frame**, if the reading side knows its type. -/
theorem takes_readObject {called : TypeKey → String} {t : TypeRef} {s : Shape} {bytes : Bytes}
    {d : Datum} (known : rr.payloadShape? t = some s)
    (framed : (rw.framing called t).stop = none) (payload : (rr.read s).Takes bytes d) :
    (rr.readObject rr.payload t).Takes ((rw.framing called t).bytes ++ bytes) d := by
  cases t with
  | primitive p =>
    cases known
    refine (Reader.takes_byte p.tag).bind ?_
    rw [if_neg (tag_ne_reserved p).1, if_pos rfl]
    exact payload
  | composite k =>
    obtain ⟨found, hfound, rfl⟩ := Option.map_eq_some_iff.1 known
    rw [bytes_framing framed, List.append_assoc, readObject, hfound]
    refine (Reader.takes_byte compositeTag).bind ?_
    rw [if_neg (by decide), if_pos rfl]
    refine (Reader.takes_int32 (typeId k.name)).bind ?_
    rw [if_pos (id_of_byKey hfound).symm, payload_eq]
    exact payload

/-- An object of any type is taken behind its frame, and its type with it. -/
theorem takes_readAny {called : TypeKey → String} {t : TypeRef} {s : Shape} {bytes : Bytes}
    {d : Datum} (known : rr.payloadShape? t = some s)
    (framed : (rw.framing called t).stop = none) (payload : (rr.read s).Takes bytes d) :
    (rr.readAny rr.payload).Takes ((rw.framing called t).bytes ++ bytes) (.dynamic t d) := by
  cases t with
  | primitive p =>
    cases known
    refine (Reader.takes_byte p.tag).bind ?_
    rw [if_neg (tag_ne_reserved p).1, Primitive.ofTag?_tag]
    have tagged := payload.map (Datum.dynamic (.primitive p))
    rwa [show rr.read (.scalar p) = Datum.scalar <$> Reader.scalar p from rfl, Functor.map_map]
      at tagged
  | composite k =>
    obtain ⟨found, hfound, rfl⟩ := Option.map_eq_some_iff.1 known
    rw [bytes_framing framed, List.append_assoc]
    refine (Reader.takes_byte compositeTag).bind ?_
    rw [if_neg (by decide), ofTag?_compositeTag]
    show Reader.Takes (if compositeTag = compositeTag then _ else _) _ _
    rw [if_pos rfl]
    refine (Reader.takes_int32 (typeId k.name)).bind ?_
    rw [← id_of_byKey hfound, byId_of_byKey hfound]
    show Reader.Takes (Datum.dynamic (.composite found.key) <$> rr.payload found) _ _
    rw [key_of_byKey hfound, payload_eq]
    exact payload.map (Datum.dynamic (.composite k))

/-- An absent object is taken without its tag being mistaken for another. -/
theorem takes_absent {t : TypeRef} {s : Shape} (known : rr.payloadShape? t = some s)
    (framed : (rw.absentFrame t).stop = none) :
    (rr.readNullable rr.payload t).Takes (rw.absentFrame t).bytes none := by
  have checked : rr.check t = .ok () := check_of_payloadShape? known
  unfold absentFrame at framed ⊢
  unfold readNullable
  rw [checked]
  rcases hc : rw.check t with e | ⟨⟩
  · rw [hc] at framed
    cases framed
  · exact fun position rest => rfl

/-- An object that may be absent is taken as one that is there. -/
theorem takes_readNullable {called : TypeKey → String} {t : TypeRef} {s : Shape} {bytes : Bytes}
    {d : Datum} (known : rr.payloadShape? t = some s)
    (framed : (rw.framing called t).stop = none) (payload : (rr.read s).Takes bytes d) :
    (rr.readNullable rr.payload t).Takes ((rw.framing called t).bytes ++ bytes) (some d) := by
  have taken := (takes_readObject known framed payload).map some
  have checked : rr.check t = .ok () := check_of_payloadShape? known
  obtain ⟨tag, others, hbytes, hne⟩ := framing_starts framed
  unfold readNullable
  rw [checked]
  rw [hbytes] at taken ⊢
  intro position rest
  show (if tag = nullTag then _ else _ : Reader (Option Datum)).runFrom _ = _
  rw [if_neg hne]
  exact taken position rest

/-! ## Sequences -/

/-- A value is taken for itself by a reader, if the writing side can write it at all. -/
def TakenBy (rw : Registry) (read : Reader Datum) (d : Datum) : Prop :=
  (rw.emit d).stop = none → read.Takes (rw.emit d).bytes d

/-- Items are taken one after another, each by the reader for its place. -/
theorem takes_timesFrom {item : Nat → Reader Datum} {ds : List Datum} {place : Nat}
    (items : ∀ i d, ds[i]? = some d → rw.TakenBy (item (place + i)) d)
    (whole : (rw.emit (.ofList ds)).stop = none) :
    (Reader.timesFrom item place ds.length).Takes (rw.emit (.ofList ds)).bytes ds := by
  induction ds generalizing place with
  | nil => exact Reader.takes_pure []
  | cons d ds ih =>
    obtain ⟨hd, hds⟩ := Emission.stop_andThen.1 whole
    show (Reader.timesFrom item place (ds.length + 1)).Takes
      ((rw.emit d).andThen (rw.emit (.ofList ds))).bytes (d :: ds)
    rw [Emission.bytes_andThen hd]
    refine (items 0 d rfl hd).bind ((ih (fun i e he => ?_) hds).bind_pure rfl)
    have later := items (i + 1) e he
    rwa [← Nat.add_assoc, Nat.add_right_comm] at later

/-- **A sequence is taken behind its count**, each item by the reader for its place. -/
theorem takes_seqWith? {item : Nat → Reader Datum} {ds : List Datum}
    (items : ∀ i d, ds[i]? = some d → rw.TakenBy (item i) d)
    (whole : (rw.emit (.seq (.ofList ds))).stop = none) :
    (Reader.seqWith? item).Takes (rw.emit (.seq (.ofList ds))).bytes (some ds) := by
  obtain ⟨hlen, hds⟩ := Emission.stop_andThen.1 whole
  show (Reader.seqWith? item).Takes
    ((Emission.length (Datum.ofList ds).cells).andThen (rw.emit (.ofList ds))).bytes (some ds)
  rw [Emission.bytes_andThen hlen]
  rw [Datum.cells_ofList] at hlen ⊢
  refine (Reader.takes_length? (Emission.stop_length.1 hlen)).bind ?_
  refine (takes_timesFrom (fun i d hd => ?_) hds).map some
  rw [Nat.zero_add]
  exact items i d hd

theorem takes_seqWith {item : Nat → Reader Datum} {ds : List Datum}
    (items : ∀ i d, ds[i]? = some d → rw.TakenBy (item i) d)
    (whole : (rw.emit (.seq (.ofList ds))).stop = none) :
    (Reader.seqWith item).Takes (rw.emit (.seq (.ofList ds))).bytes ds :=
  (takes_seqWith? items whole).bind_pure rfl

theorem takes_noSeq (item : Nat → Reader Datum) :
    (Reader.seqWith? item).Takes Emission.noLength.bytes none :=
  Reader.takes_noLength.bind_pure rfl

/-! ## Values and programs -/

/-- **A value that fits a shape is taken by the reader of that shape.** The induction follows the
value; a payload stands behind its frame and is read by the shape its type has. -/
theorem takes_of_fits {s : Shape} {d : Datum} (fits : rr.Fits s d) : rw.TakenBy (rr.read s) d := by
  induction fits with
  | unit => exact fun _ => Reader.takes_pure _
  | pair _ _ ih₁ ih₂ =>
    intro whole
    obtain ⟨h₁, h₂⟩ := Emission.stop_andThen.1 whole
    rw [emit, Emission.bytes_andThen h₁]
    exact (ih₁ h₁).bind ((ih₂ h₂).bind_pure rfl)
  | byte b => exact fun _ => (Reader.takes_byte b).map _
  | scalar v => exact fun whole => (Reader.takes_scalar whole).map _
  | text s => exact fun whole => (Reader.takes_text? whole).map _
  | noText => exact fun _ => Reader.takes_noText.map _
  | textOrEmpty s => exact fun whole => (Reader.takes_text? whole).map _
  | seq items ih =>
    intro whole
    have taken := takes_seqWith (fun i d hd => ih d (List.mem_of_getElem? hd)) whole
    rw [Reader.seqWith_const] at taken
    exact taken.map _
  | nullableSeq items ih =>
    intro whole
    have taken := takes_seqWith? (fun i d hd => ih d (List.mem_of_getElem? hd)) whole
    rw [Reader.seqWith?_const] at taken
    exact taken.bind_pure rfl
  | @noSeq s =>
    intro _
    have taken := takes_noSeq fun _ => rr.readAs rr.payload s
    rw [Reader.seqWith?_const] at taken
    exact taken.bind_pure rfl
  | object known _ ih =>
    intro whole
    rw [emit_object_eq] at whole ⊢
    obtain ⟨framed, hp⟩ := Emission.stop_andThen.1 whole
    rw [Emission.bytes_andThen framed]
    exact (takes_readObject known framed (ih hp)).map _
  | nullable known _ ih =>
    intro whole
    rw [emit_object_eq] at whole ⊢
    obtain ⟨framed, hp⟩ := Emission.stop_andThen.1 whole
    rw [Emission.bytes_andThen framed]
    exact (takes_readNullable known framed (ih hp)).bind_pure rfl
  | absent known => exact fun whole => (takes_absent known whole).bind_pure rfl
  | dynamic known _ ih =>
    intro whole
    rw [emit_dynamic_eq] at whole ⊢
    obtain ⟨framed, hp⟩ := Emission.stop_andThen.1 whole
    rw [Emission.bytes_andThen framed]
    exact takes_readAny known framed (ih hp)
  | null => exact fun _ position rest => rfl
  | flagged _ ih =>
    intro whole
    obtain ⟨h₁, h₂⟩ := Emission.stop_andThen.1 whole
    rw [emit, Emission.bytes_andThen h₁]
    exact (Reader.takes_byte 1).bind ((ih h₂).map _)
  | unflagged => exact fun _ => (Reader.takes_byte 0).bind_pure rfl
  | bounded bound b =>
    intro whole
    unfold emit boundedByte at whole ⊢
    obtain ⟨_, hb⟩ := Emission.stop_andThen.1 whole
    rw [Emission.bytes_andThen rfl]
    split at hb
    · cases hb
    · next within =>
      rw [if_neg within]
      exact (Reader.takes_byte b).bind_pure (if_neg within)

/-- A value is taken by the reader of a plan that mirrors it. -/
theorem takes_of_mirrors {p : Plan} {d : Datum} (mirrors : rr.Mirrors p d) :
    rw.TakenBy (rr.follow p) d := by
  induction mirrors with
  | part fits => exact takes_of_fits fits
  | both _ _ ih₁ ih₂ =>
    intro whole
    obtain ⟨h₁, h₂⟩ := Emission.stop_andThen.1 whole
    rw [emit, Emission.bytes_andThen h₁]
    exact (ih₁ h₁).bind ((ih₂ h₂).bind_pure rfl)
  | seq _ ih => exact fun whole => (takes_seqWith ih whole).map _
  | nullableSeq _ ih => exact fun whole => (takes_seqWith? ih whole).bind_pure rfl
  | noSeq => exact fun _ => (takes_noSeq _).bind_pure rfl

/-- **A program of writing that succeeds leaves bytes that the mirrored program takes.** -/
theorem holds_inOrder {plans : List Plan} {values : List Datum} {w w' : Writer} {bytes : Bytes}
    (mirrored : List.Forall₂ rr.Mirrors plans values) (h : w.Holds bytes)
    (written : (Script.inOrder rw values).run w = (.ok (), w')) :
    ∃ more, w'.Holds (bytes ++ more) ∧ (rr.followAll plans).Takes more values := by
  induction mirrored generalizing w bytes with
  | nil =>
    cases written
    exact ⟨[], by rwa [List.append_nil], Reader.takes_pure []⟩
  | @cons p d ps ds first _ ih =>
    unfold Script.inOrder Script.run at written
    rcases hp : w.perform (rw.emit d) with ⟨e | ⟨⟩, w₁⟩
    · rw [hp] at written
      cases written
    · rw [hp] at written
      obtain ⟨whole, h₁⟩ := h.perform hp
      obtain ⟨more, h', taken⟩ := ih h₁ written
      refine ⟨(rw.emit d).bytes ++ more, ?_, ?_⟩
      · rwa [← List.append_assoc]
      · exact (takes_of_mirrors first whole).bind (taken.bind_pure rfl)

end Registry

/-- **What was written is read back.** A program of writing that succeeds on any buffer and under any
registry can be committed; and on the committed bytes, with anything behind them, the mirrored
program under the reading side's registry yields exactly the values written and stops exactly where
the writer stopped. -/
theorem read_of_written {rw rr : Registry} {plans : List Plan} {values : List Datum} {b : Buffer}
    {w : Writer} (mirrored : List.Forall₂ rr.Mirrors plans values)
    (written : (Script.inOrder rw values).run (.start b) = (.ok (), w)) :
    ∃ b', w.synchronize = .ok b' ∧ ∀ trailer,
      (rr.followAll plans).runFrom (.start (b'.committed ++ trailer))
        = (.ok values, ⟨w.position, trailer⟩) := by
  obtain ⟨bytes, held, taken⟩ := Registry.holds_inOrder mirrored (Writer.holds_start b) written
  obtain ⟨b', committed, shown, _⟩ := held.synchronize
  refine ⟨b', committed, fun trailer => ?_⟩
  show (rr.followAll plans).runFrom ⟨0, b'.committed ++ trailer⟩ = _
  rw [shown, List.nil_append, taken, Nat.zero_add, held.position, List.nil_append]

namespace Sample

/-- The registry of a side that writes. -/
def writingSide : Registry := ⟨[other, pair, function], by decide +kernel⟩

/-- The registry of a side that reads: other types besides, and another order. -/
def readingSide : Registry := ⟨[function, chain, pair], by decide +kernel⟩

/-- A function's arguments with an error to end with. -/
def failingCall : Datum :=
  .cons (.scalar (.int32 7)) (.cons (.scalar (.int32 (-1))) (.cons (.scalar (.int64 0))
    (.cons (.scalar (.bool true)) (.cons (.scalar (.int32 5)) (.scalar (.text "no"))))))

/-- A record whose label is absent. -/
def unlabelled : Datum := .cons (.scalar (.int32 1)) (.cons (.scalar (.int32 2)) .noText)

/-- A number that is not one, an object, an absent object, an absent sequence, and a sequence whose
items differ: an object of any type, nothing, and an empty sequence. -/
def messageValues : List Datum :=
  [.scalar (.float32 0x7fc00001), .object (.composite function.key) failingCall,
    .absent (.composite pair.key), .noSeq,
    .seq (.ofList [.dynamic (.composite pair.key) unlabelled, .null, .seq (.ofList [])])]

/-- The reading of `messageValues`. -/
def messagePlans : List Plan :=
  [.part (.scalar .float32), .part (.object (.composite function.key)),
    .part (.nullable (.composite pair.key)), .nullableSeq fun _ => .part .byte,
    .seq fun | 0 => .part .any | 1 => .part .any | _ => .part (.seq .text)]

theorem messagePlans_mirror : List.Forall₂ readingSide.Mirrors messagePlans messageValues := by
  have call : readingSide.Fits function.shape failingCall :=
    .pair (.scalar (.int32 7)) (.pair (.scalar (.int32 (-1))) (.pair (.scalar (.int64 0))
      (.flagged (.pair (.scalar (.int32 5)) (.textOrEmpty "no")))))
  have record : readingSide.Fits pair.shape unlabelled :=
    .pair (.scalar (.int32 1)) (.pair (.scalar (.int32 2)) .noText)
  refine .cons (.part (.scalar (.float32 0x7fc00001))) (.cons (.part (.object rfl call))
    (.cons (.part (.absent (s := pair.shape) rfl)) (.cons .noSeq (.cons (.seq ?_) .nil))))
  intro i d hd
  match i, hd with
  | 0, hd => cases hd; exact .part (.dynamic rfl record)
  | 1, hd => cases hd; exact .part .null
  | 2, hd => cases hd; exact .part (.seq fun d hd => absurd hd List.not_mem_nil)
  | i + 3, hd => cases hd

/-- The message of `messageValues`, written over the leftovers of another and read back with a byte
behind it. -/
theorem read_of_written_sample :
    List.Forall₂ readingSide.Mirrors messagePlans messageValues ∧
    (Script.inOrder writingSide messageValues).run (.start (.ofBytes [9, 9, 9])) =
      (.ok (), ((Script.inOrder writingSide messageValues).run (.start (.ofBytes [9, 9, 9]))).2) ∧
    ∃ b', ((Script.inOrder writingSide messageValues).run
        (.start (.ofBytes [9, 9, 9]))).2.synchronize = .ok b' ∧
      (readingSide.followAll messagePlans).runFrom (.start (b'.committed ++ [42]))
        = (.ok messageValues, ⟨((Script.inOrder writingSide messageValues).run
            (.start (.ofBytes [9, 9, 9]))).2.position, [42]⟩) := by
  have written : (Script.inOrder writingSide messageValues).run (.start (.ofBytes [9, 9, 9])) =
      (.ok (), ((Script.inOrder writingSide messageValues).run
        (.start (.ofBytes [9, 9, 9]))).2) := by
    refine Prod.ext ?_ rfl
    decide +kernel
  obtain ⟨b', committed, read⟩ := read_of_written messagePlans_mirror written
  exact ⟨messagePlans_mirror, written, b', committed, read [42]⟩

end Sample

end RemoteDispatch
