import RemoteDispatch.Proofs.Extension
import RemoteDispatch.Proofs.Frames

/-!
# Reading by index

A `Cursor` holds the bytes that are still ahead, so a reader cannot ask for
bytes that the message does not have. Whoever reads in place has less to hold
on to: the message, and an index into it. What is left is then a difference,
which makes no sense behind the end of the message. Bytes are cut out between
two indices, which have to lie in the message. And a byte that was looked at
is stepped past by counting on, with nothing to say that it was there.

`IndexReader` is reading in this form, and it is at fault, with no outcome at
all, where a difference would be negative or a cut would leave the message.
`Reader.IndexedBy` spells readers out in this form, block by block, and
`Reader.IndexedBy.agree` says that a reader and what it is spelt as do the same
from every index in the message. In particular the index stays in the message
and never goes back, and nothing is at fault.

Several readers may be at work on one message, each a clone of another one or
the first. `Reading.Run` is what can be done with them: any operation with any
of them, whether the ones before it failed or not. An operation may be as small
as taking one byte, so readers may also take turns in the midst of a larger one.
-/

namespace RemoteDispatch

/-! ## Places by index -/

/-- The place in a message that an index stands for. -/
def Cursor.ofIndex (message : Bytes) (i : Nat) : Cursor := ⟨i, message.drop i⟩

/-- The bytes between two indices lie between their places. -/
theorem Cursor.over_ofIndex {message : Bytes} {i j : Nat} (le : i ≤ j)
    (within : j ≤ message.length) :
    (ofIndex message i).Over (message.extract i j) (ofIndex message j) where
  rest := by
    show message.drop i = (message.drop i).take (j - i) ++ message.drop j
    conv_lhs => rw [← List.take_append_drop (j - i) (message.drop i)]
    rw [List.drop_drop, Nat.add_sub_cancel' le]
  position := by
    show j = i + ((message.drop i).take (j - i)).length
    rw [List.length_take, List.length_drop]
    omega

/-- A byte of the message lies behind its index. -/
theorem Cursor.over_of_getElem? {message : Bytes} {i : Nat} {b : UInt8}
    (found : message[i]? = some b) : (ofIndex message i).Over [b] (ofIndex message (i + 1)) := by
  obtain ⟨within, rfl⟩ := List.getElem?_eq_some_iff.1 found
  exact ⟨List.drop_eq_getElem_cons within, rfl⟩

/-- **A place inside a message**: not behind its end, and with its bytes from there on ahead. -/
structure Cursor.Inside (message : Bytes) (c : Cursor) : Prop where
  position_le : c.position ≤ message.length
  rest : c.rest = message.drop c.position

namespace Cursor.Inside

variable {message : Bytes} {c : Cursor}

theorem start (message : Bytes) : (Cursor.start message).Inside message := ⟨Nat.zero_le _, rfl⟩

theorem ofIndex {i : Nat} (within : i ≤ message.length) : (ofIndex message i).Inside message :=
  ⟨within, rfl⟩

theorem eq_ofIndex (inside : c.Inside message) : c = .ofIndex message c.position := by
  rw [Cursor.ofIndex, ← inside.rest]

/-- What is left is the rest of the message. -/
theorem remaining (inside : c.Inside message) :
    Reader.remaining.runFrom c = (.ok (message.length - c.position), c) := by
  show (Except.ok c.rest.length, c) = _
  rw [inside.rest, List.length_drop]

end Cursor.Inside

/-! ## Readers by index -/

/-- **A step from one index into a message to another**, with a value or a failure, or else with a
fault and nothing. -/
abbrev IndexReader := ReaderT Bytes (ExceptT CodecError (StateT Nat Option))

namespace IndexReader

variable {α β : Type} {message : Bytes} {i : Nat}

/-- Runs a reader on a message from an index. -/
def runAt (read : IndexReader α) (message : Bytes) (i : Nat) : Option (Except CodecError α × Nat) :=
  (read.run message).run.run i

/-- What must not happen. -/
def fault : IndexReader α := fun _ => ExceptT.mk fun _ => none

/-- The index. -/
def position : IndexReader Nat := get

/-- The number of bytes behind the index. It is a fault to be past the end of the message. -/
def remaining : IndexReader Nat := do
  let length := (← read).length
  let i ← position
  if i ≤ length then return length - i else fault

/-- The bytes between two indices. It is a fault if they are not in order or leave the message. -/
def cut (start stop : Nat) : IndexReader Bytes := do
  let message ← read
  if start ≤ stop ∧ stop ≤ message.length then return message.extract start stop else fault

/-- Takes `n` bytes. -/
def take (n : Nat) : IndexReader Bytes := do
  let i ← position
  if (← remaining) < n then throw .unexpectedEnd
  else
    let bytes ← cut i (i + n)
    set (i + n)
    return bytes

/-- The byte at the index, which stays unread. -/
def peek : IndexReader UInt8 := do
  let message ← read
  let i ← position
  match message[i]? with
  | some b => return b
  | none => throw .unexpectedEnd

/-- Steps past a byte, whether there is one or not. -/
def advance : IndexReader Unit := modify (· + 1)

/-- Runs a reader on a clone. -/
def fork (read : IndexReader α) : IndexReader (Except CodecError α × Nat) := do
  let message ← MonadReader.read
  let i ← position
  match read.runAt message i with
  | some answer => return answer
  | none => fault

/-- Reads an object that may be absent: looks at the tag, and steps past the null tag. -/
def readNullable (r : Registry) (object : IndexReader Datum) (t : TypeRef) :
    IndexReader (Option Datum) :=
  match r.check t with
  | .error e => throw e
  | .ok () => do
    if (← peek) = nullTag then
      advance
      return none
    else some <$> object

@[simp] theorem runAt_pure (a : α) : (pure a : IndexReader α).runAt message i = some (.ok a, i) :=
  rfl

@[simp] theorem runAt_throw (e : CodecError) :
    (throw e : IndexReader α).runAt message i = some (.error e, i) := rfl

/-- A failure ends a sequence of steps, and so does a fault. -/
theorem runAt_bind (read : IndexReader α) (next : α → IndexReader β) :
    (read >>= next).runAt message i =
      match read.runAt message i with
      | some (.ok a, j) => (next a).runAt message j
      | some (.error e, j) => some (.error e, j)
      | none => none := by
  simp only [runAt, ReaderT.run_bind, ExceptT.run_bind, StateT.run_bind]
  rcases (read.run message).run.run i with _ | ⟨e | a, j⟩ <;> rfl

/-- Going on after a failure starts at the index that the failed reader has left. -/
theorem runAt_tryCatch (read : IndexReader α) (handler : CodecError → IndexReader α) :
    (tryCatch read handler).runAt message i =
      match read.runAt message i with
      | some (.ok a, j) => some (.ok a, j)
      | some (.error e, j) => (handler e).runAt message j
      | none => none := by
  have unfolded : (tryCatch read handler).run message =
      ExceptT.tryCatch (read.run message) fun e => (handler e).run message := rfl
  simp only [runAt, unfolded, ExceptT.tryCatch, ExceptT.run_mk, StateT.run_bind]
  rw [show StateT.run (read.run message) i = (read.run message).run.run i from rfl]
  rcases (read.run message).run.run i with _ | ⟨e | a, j⟩ <;> rfl

@[simp] theorem runAt_position : position.runAt message i = some (.ok i, i) := rfl

/-- In the message what is left is a difference. -/
theorem runAt_remaining (within : i ≤ message.length) :
    remaining.runAt message i = some (.ok (message.length - i), i) := by
  have unfolded : remaining.runAt message i =
      (if i ≤ message.length then pure (message.length - i)
        else fault : IndexReader Nat).runAt message i := rfl
  rw [unfolded, if_pos within, runAt_pure]

theorem runAt_cut {start stop : Nat} (le : start ≤ stop) (within : stop ≤ message.length) :
    (cut start stop).runAt message i = some (.ok (message.extract start stop), i) := by
  have unfolded : (cut start stop).runAt message i =
      (if start ≤ stop ∧ stop ≤ message.length then pure (message.extract start stop)
        else fault : IndexReader Bytes).runAt message i := rfl
  rw [unfolded, if_pos ⟨le, within⟩, runAt_pure]

/-- **Where enough bytes are left the cut lies in the message.** -/
theorem runAt_take {n : Nat} (within : i ≤ message.length) :
    (take n).runAt message i =
      if message.length - i < n then some (.error .unexpectedEnd, i)
      else some (.ok (message.extract i (i + n)), i + n) := by
  unfold take
  rw [runAt_bind, runAt_position]
  dsimp only
  rw [runAt_bind, runAt_remaining within]
  dsimp only
  split
  · rw [runAt_throw]
  · rw [runAt_bind, runAt_cut (Nat.le_add_right i n) (by omega)]
    rfl

theorem runAt_peek :
    peek.runAt message i = some (message[i]?.elim (.error .unexpectedEnd) .ok, i) := by
  have unfolded : peek.runAt message i =
      (match message[i]? with
        | some b => pure b
        | none => throw .unexpectedEnd : IndexReader UInt8).runAt message i := rfl
  rw [unfolded]
  cases message[i]? with
  | none => rfl
  | some b => rfl

/-- A clone that is not at fault leaves the reader where it is. -/
theorem runAt_fork {read : IndexReader α} {answer : Except CodecError α × Nat}
    (h : read.runAt message i = some answer) :
    read.fork.runAt message i = some (.ok answer, i) := by
  have unfolded : read.fork.runAt message i =
      (match read.runAt message i with
        | some answer => pure answer
        | none => fault : IndexReader (Except CodecError α × Nat)).runAt message i := rfl
  rw [unfolded, h, runAt_pure]

end IndexReader

/-! ## Readers spelt out by index -/

namespace Reader

variable {α β : Type}

/-- **A reader, and what it is spelt as by index.** What is taken, looked at or counted is taken,
looked at or counted by index, on clones too, and whatever is put together from readers, by
sequencing and by going on after a failure, is put together in the same way. An object that may be
absent may also be looked for without taking the null tag, by stepping past it. -/
inductive IndexedBy : {α : Type} → Reader α → IndexReader α → Prop where
  | pure {α : Type} (a : α) : IndexedBy (pure a) (pure a)
  | throw {α : Type} (e : CodecError) : IndexedBy (throw e : Reader α) (throw e)
  | take (n : Nat) : IndexedBy (take n) (.take n)
  | peek : IndexedBy peek .peek
  | position : IndexedBy position .position
  | remaining : IndexedBy remaining .remaining
  | fork {α : Type} {read : Reader α} {byIndex : IndexReader α} (tried : IndexedBy read byIndex) :
      IndexedBy ((fun (answer, clone) => (answer, clone.position)) <$> fork read) byIndex.fork
  | bind {α β : Type} {read : Reader α} {byIndex : IndexReader α} {next : α → Reader β}
      {nextByIndex : α → IndexReader β} (first : IndexedBy read byIndex)
      (others : ∀ a, IndexedBy (next a) (nextByIndex a)) :
      IndexedBy (read >>= next) (byIndex >>= nextByIndex)
  | recover {α : Type} {read : Reader α} {byIndex : IndexReader α}
      {handler : CodecError → Reader α} {handlerByIndex : CodecError → IndexReader α}
      (tried : IndexedBy read byIndex) (handled : ∀ e, IndexedBy (handler e) (handlerByIndex e)) :
      IndexedBy (tryCatch read handler) (tryCatch byIndex handlerByIndex)
  | nullable {r : Registry} {payload : Descriptor → Reader Datum} {object : IndexReader Datum}
      {t : TypeRef} (spelt : IndexedBy (r.readObject payload t) object) :
      IndexedBy (r.readNullable payload t) (.readNullable r object t)

/-- **An operation**: a reader that can be spelt out by index. -/
def Indexed (read : Reader α) : Prop := ∃ byIndex, read.IndexedBy byIndex

namespace Indexed

/-- **Every reader of the library is an operation**, and so is what is put together from operations:
sequences of what they read, and objects whose payloads they read. -/
theorem closed : Closed fun _ read => read.Indexed where
  pure a := ⟨_, .pure a⟩
  throw e := ⟨_, .throw e⟩
  take n := ⟨_, .take n⟩
  peek := ⟨_, .peek⟩
  bind := by
    rintro α β read next ⟨byIndex, first⟩ others
    choose nextByIndex others using others
    exact ⟨_, first.bind others⟩

/-- The payload of any type is read by an operation, whatever the registry. -/
theorem payload (r : Registry) (d : Descriptor) : (r.payload d).Indexed :=
  closed.bind ⟨_, .remaining⟩ fun n => closed.readPayload (n + 1) d

end Indexed

/-! ## Agreement -/

/-- **A reader and a reader by index do the same** from an index in a message: they have the same
outcome and stop in the same place, which is in the message and not further back. -/
def AgreeAt (message : Bytes) (i : Nat) (read : Reader α) (byIndex : IndexReader α) : Prop :=
  ∃ answer j, i ≤ j ∧ j ≤ message.length ∧ byIndex.runAt message i = some (answer, j) ∧
    read.runFrom (.ofIndex message i) = (answer, .ofIndex message j)

/-- They do the same from every index in every message. -/
def Agree (read : Reader α) (byIndex : IndexReader α) : Prop :=
  ∀ message i, i ≤ message.length → AgreeAt message i read byIndex

section Agree

variable {read : Reader α} {byIndex : IndexReader α} {message : Bytes} {i : Nat}

/-- Readers that stay where they are agree if they have the same outcome. -/
theorem AgreeAt.of_stay {answer : Except CodecError α} (within : i ≤ message.length)
    (index : byIndex.runAt message i = some (answer, i))
    (place : read.runFrom (.ofIndex message i) = (answer, .ofIndex message i)) :
    AgreeAt message i read byIndex := ⟨answer, i, Nat.le_refl i, within, index, place⟩

theorem agree_pure (a : α) : Agree (pure a) (pure a) := fun _ _ within => .of_stay within rfl rfl

theorem agree_throw (e : CodecError) : Agree (throw e : Reader α) (throw e) :=
  fun _ _ within => .of_stay within rfl rfl

theorem AgreeAt.bind {next : α → Reader β} {nextByIndex : α → IndexReader β}
    (h : AgreeAt message i read byIndex) (h' : ∀ a, Agree (next a) (nextByIndex a)) :
    AgreeAt message i (read >>= next) (byIndex >>= nextByIndex) := by
  obtain ⟨answer, j, onward, within, index, place⟩ := h
  unfold AgreeAt
  rw [IndexReader.runAt_bind, index, runFrom_bind, place]
  cases answer with
  | error e => exact ⟨.error e, j, onward, within, rfl, rfl⟩
  | ok a =>
    obtain ⟨answer, k, onward', within, index, place⟩ := h' a message j within
    exact ⟨answer, k, Nat.le_trans onward onward', within, index, place⟩

theorem AgreeAt.map (f : α → β) (h : AgreeAt message i read byIndex) :
    AgreeAt message i (f <$> read) (f <$> byIndex) := by
  rw [← bind_pure_comp, ← bind_pure_comp]
  exact h.bind fun a => agree_pure (f a)

theorem AgreeAt.recover {handler : CodecError → Reader α}
    {handlerByIndex : CodecError → IndexReader α} (h : AgreeAt message i read byIndex)
    (h' : ∀ e, Agree (handler e) (handlerByIndex e)) :
    AgreeAt message i (tryCatch read handler) (tryCatch byIndex handlerByIndex) := by
  obtain ⟨answer, j, onward, within, index, place⟩ := h
  unfold AgreeAt
  rw [IndexReader.runAt_tryCatch, index, runFrom_tryCatch, place]
  cases answer with
  | ok a => exact ⟨.ok a, j, onward, within, rfl, rfl⟩
  | error e =>
    obtain ⟨answer, k, onward', within, index, place⟩ := h' e message j within
    exact ⟨answer, k, Nat.le_trans onward onward', within, index, place⟩

theorem AgreeAt.fork (within : i ≤ message.length) (h : AgreeAt message i read byIndex) :
    AgreeAt message i ((fun (answer, clone) => (answer, clone.position)) <$> Reader.fork read)
      byIndex.fork := by
  obtain ⟨answer, j, _, _, index, place⟩ := h
  refine .of_stay within (IndexReader.runAt_fork index) ?_
  have forked : (Reader.fork read).runFrom (.ofIndex message i) =
      (.ok (read.runFrom (.ofIndex message i)), .ofIndex message i) := rfl
  rw [runFrom_map, forked, place]
  rfl

theorem agree_remaining : Agree remaining .remaining := fun _ _ within =>
  .of_stay within (IndexReader.runAt_remaining within) (Cursor.Inside.ofIndex within).remaining

/-- Where not enough bytes are ahead none is taken. -/
theorem runFrom_take_of_short {n : Nat} {c : Cursor} (short : c.rest.length < n) :
    (take n).runFrom c = (.error .unexpectedEnd, c) := by
  rw [runFrom_take]
  rcases cut : splitExact? n c.rest with _ | ⟨front, rest⟩
  · rfl
  · obtain ⟨whole, length⟩ := splitExact?_eq_some_iff.1 cut
    rw [whole, List.length_append, length] at short
    exact absurd (Nat.le_add_right _ _) (Nat.not_le_of_lt short)

theorem agree_take (n : Nat) : Agree (take n) (.take n) := by
  intro message i within
  unfold AgreeAt
  rw [IndexReader.runAt_take within]
  split
  · next short =>
    have left : (Cursor.ofIndex message i).rest.length = message.length - i := List.length_drop
    exact ⟨.error .unexpectedEnd, i, Nat.le_refl i, within, rfl,
      runFrom_take_of_short (left ▸ short)⟩
  · next enough =>
    have within' : i + n ≤ message.length := by omega
    have passed := Cursor.over_ofIndex (Nat.le_add_right i n) within'
    have length : (message.extract i (i + n)).length = n := Nat.add_left_cancel passed.position.symm
    exact ⟨.ok (message.extract i (i + n)), i + n, Nat.le_add_right i n, within', rfl,
      runFrom_take_ok.2 ⟨length, passed⟩⟩

/-- The byte at an index is the next one ahead. -/
theorem runFrom_peek_ofIndex (message : Bytes) (i : Nat) :
    peek.runFrom (.ofIndex message i) =
      (message[i]?.elim (.error .unexpectedEnd) .ok, .ofIndex message i) := by
  cases found : message[i]? with
  | none =>
    have ended : message.drop i = [] := List.drop_eq_nil_iff.2 (List.getElem?_eq_none_iff.1 found)
    rw [Cursor.ofIndex, ended]
    rfl
  | some b => exact runFrom_peek.2 ⟨rfl, List.head?_drop.trans found⟩

theorem agree_peek : Agree peek .peek := fun message i within =>
  .of_stay within IndexReader.runAt_peek (runFrom_peek_ofIndex message i)

/-- **Whoever goes on after a look at the next byte knows that it is there.** -/
theorem agree_look {next : UInt8 → Reader α} {nextByIndex : UInt8 → IndexReader α}
    (h : ∀ message i b, message[i]? = some b → AgreeAt message i (next b) (nextByIndex b)) :
    Agree (peek >>= next) (.peek >>= nextByIndex) := by
  intro message i within
  unfold AgreeAt
  rw [IndexReader.runAt_bind, IndexReader.runAt_peek, runFrom_bind, runFrom_peek_ofIndex]
  cases found : message[i]? with
  | none => exact ⟨.error .unexpectedEnd, i, Nat.le_refl i, within, rfl, rfl⟩
  | some b => exact h message i b found

/-- A byte that is there is stepped past. -/
theorem agreeAt_advance {b : UInt8} (found : message[i]? = some b) (a : α) :
    AgreeAt message i (byte >>= fun _ => pure a) (.advance >>= fun _ => pure a) := by
  have past : i + 1 ≤ message.length := (List.getElem?_eq_some_iff.1 found).1
  refine ⟨.ok a, i + 1, Nat.le_succ i, past, rfl, ?_⟩
  exact runFrom_bind_ok.2 ⟨b, _, runFrom_byte.2 (Cursor.over_of_getElem? found), rfl⟩

theorem Agree.nullable {r : Registry} {payload : Descriptor → Reader Datum}
    {object : IndexReader Datum} {t : TypeRef} (h : Agree (r.readObject payload t) object) :
    Agree (r.readNullable payload t) (.readNullable r object t) := by
  unfold Registry.readNullable IndexReader.readNullable
  cases r.check t with
  | error e => exact agree_throw e
  | ok _ =>
    refine agree_look fun message i b found => ?_
    split
    · exact agreeAt_advance found none
    · exact (h message i (Nat.le_of_lt (List.getElem?_eq_some_iff.1 found).1)).map some

end Agree

/-- **What is spelt out by index agrees with its spelling.** -/
theorem IndexedBy.agree {read : Reader α} {byIndex : IndexReader α}
    (spelt : read.IndexedBy byIndex) : Agree read byIndex := by
  induction spelt with
  | pure a => exact agree_pure a
  | throw e => exact agree_throw e
  | take n => exact agree_take n
  | peek => exact agree_peek
  | position => exact fun _ _ within => .of_stay within rfl rfl
  | remaining => exact agree_remaining
  | fork _ ih => exact fun message i within => (ih message i within).fork within
  | bind _ _ ih₁ ih₂ => exact fun message i within => (ih₁ message i within).bind ih₂
  | recover _ _ ih₁ ih₂ => exact fun message i within => (ih₁ message i within).recover ih₂
  | nullable _ ih => exact ih.nullable

section Inside

variable {read : Reader α} {byIndex : IndexReader α} {message : Bytes} {c : Cursor}

/-- By index an operation is not at fault anywhere in the message, and comes to the same. -/
theorem IndexedBy.runAt_eq (spelt : read.IndexedBy byIndex) (inside : c.Inside message) :
    byIndex.runAt message c.position = some ((read.runFrom c).1, (read.runFrom c).2.position) := by
  obtain ⟨answer, j, _, _, index, place⟩ := spelt.agree message c.position inside.position_le
  rw [← inside.eq_ofIndex] at place
  rw [index, place]
  rfl

/-- **An operation stays in the message and does not go back**, whether it succeeds or fails. -/
theorem Indexed.onward (operation : read.Indexed) (inside : c.Inside message) :
    (read.runFrom c).2.Inside message ∧ c.position ≤ (read.runFrom c).2.position := by
  obtain ⟨byIndex, spelt⟩ := operation
  obtain ⟨answer, j, onward, within, _, place⟩ :=
    spelt.agree message c.position inside.position_le
  rw [← inside.eq_ofIndex] at place
  rw [place]
  exact ⟨.ofIndex within, onward⟩

end Inside

/-! ## All or nothing -/

/-- **A reader that takes all it asks for or nothing**: where it fails, the cursor has not moved. -/
def Whole (read : Reader α) : Prop := ∀ c e c', read.runFrom c = (.error e, c') → c' = c

theorem whole_take (n : Nat) : (take n).Whole := by
  intro c e c' failed
  rw [runFrom_take] at failed
  split at failed
  · cases failed
  · cases failed
    rfl

theorem Whole.map {read : Reader α} (h : read.Whole) (f : α → β) : (f <$> read).Whole := by
  intro c e c' failed
  rw [runFrom_map] at failed
  rcases hr : read.runFrom c with ⟨_ | a, d⟩
  · rw [hr] at failed
    cases failed
    exact h c _ _ hr
  · rw [hr] at failed
    cases failed

theorem whole_word (n : Nat) : (word n).Whole := (whole_take n).map _

theorem whole_byte : byte.Whole := (whole_word 1).map _

/-- **Primitives of a fixed width are taken whole.** A guid is two words and a text is a length and
what follows it, so these may fail half-way. -/
theorem whole_scalar {p : Primitive} (text : p ≠ .text) (guid : p ≠ .guid) : (scalar p).Whole := by
  cases p with
  | int8 => exact (whole_word 1).map _
  | int16 | uint16 => exact (whole_word 2).map _
  | int32 => exact ((whole_word 4).map _).map _
  | float32 => exact (whole_word 4).map _
  | int64 => exact ((whole_word 8).map _).map _
  | float64 => exact (whole_word 8).map _
  | bool => exact whole_byte.map _
  | text => exact absurd rfl text
  | guid => exact absurd rfl guid

example : (scalar .guid).runFrom (.start [1, 2, 3, 4, 5, 6, 7, 8, 9]) =
    (.error .unexpectedEnd, ⟨8, [9]⟩) := by decide

end Reader

namespace Registry

variable {r : Registry} {payload : Descriptor → Reader Datum} {c : Cursor}

/-- The registration is checked before anything is taken. -/
theorem runFrom_readNullable_of_unregistered {k : TypeKey} (unknown : r.byKey k = none) :
    (r.readNullable payload (.composite k)).runFrom c = (.error (.unregistered k.name), c) := by
  rw [readNullable, check, unknown]
  rfl

/-- At the end of a message there is no tag to look at. -/
theorem runFrom_readNullable_of_end {t : TypeRef} (known : r.check t = .ok ())
    (ended : c.rest = []) :
    (r.readNullable payload t).runFrom c = (.error .unexpectedEnd, c) := by
  obtain ⟨position, rest⟩ := c
  subst ended
  rw [readNullable, known]
  rfl

end Registry

/-! ## Several readers of one message -/

namespace Reading

/-- **What is done** with the readers of a message. They are numbered in the order in which they are
made. -/
inductive Act where
  /-- A reader is cloned. -/
  | clone (i : Nat)
  /-- A reader is used for an operation, which may fail. -/
  | use (i : Nat)
  deriving DecidableEq

/-- **One step.** A clone stands where the reader it is made of stands, and an operation leaves its
reader where it stops. -/
inductive Step (readers : List Cursor) : Act → List Cursor → Prop where
  | clone {i : Nat} {c : Cursor} (there : readers[i]? = some c) :
      Step readers (.clone i) (readers ++ [c])
  | use {i : Nat} {c : Cursor} {α : Type} {read : Reader α} (operation : read.Indexed)
      (there : readers[i]? = some c) :
      Step readers (.use i) (readers.set i (read.runFrom c).2)

/-- **Any number of steps**, whatever comes of each. -/
inductive Run (before : List Cursor) : List Act → List Cursor → Prop where
  | start : Run before [] before
  | step {acts : List Act} {readers after : List Cursor} {act : Act}
      (run : Run before acts readers) (step : Step readers act after) :
      Run before (acts ++ [act]) after

variable {message : Bytes} {readers after : List Cursor} {acts : List Act} {act : Act}

/-- An operation leaves its reader where it stops. -/
theorem Step.stopped {i : Nat} {c c' : Cursor} {α : Type} {read : Reader α}
    (operation : read.Indexed) (there : readers[i]? = some c) (stops : (read.runFrom c).2 = c') :
    Step readers (.use i) (readers.set i c') := stops ▸ .use operation there

/-- Every reader stands in the message. -/
def Inside (message : Bytes) (readers : List Cursor) : Prop := ∀ c ∈ readers, c.Inside message

theorem Step.inside (step : Step readers act after) (inside : Inside message readers) :
    Inside message after := by
  cases step with
  | @clone i c there =>
    intro d hd
    rcases List.mem_append.1 hd with old | new
    · exact inside d old
    · obtain rfl := List.mem_singleton.1 new
      exact inside d (List.mem_of_getElem? there)
  | @use i c α read operation there =>
    intro d hd
    rcases List.mem_or_eq_of_mem_set hd with old | rfl
    · exact inside d old
    · exact (operation.onward (inside c (List.mem_of_getElem? there))).1

/-- **No step takes a reader back**, and only its own operations move it. -/
theorem Step.onward (step : Step readers act after) (inside : Inside message readers) {i : Nat}
    {c : Cursor} (there : readers[i]? = some c) :
    ∃ c', after[i]? = some c' ∧ c.position ≤ c'.position ∧ (act ≠ .use i → c' = c) := by
  cases step with
  | @clone j d _ =>
    exact ⟨c, List.getElem?_append_left (List.getElem?_eq_some_iff.1 there).1 ▸ there,
      Nat.le_refl _, fun _ => rfl⟩
  | @use j d α read operation used =>
    by_cases same : j = i
    · subst same
      obtain rfl : d = c := Option.some.inj (used.symm.trans there)
      refine ⟨(read.runFrom d).2, List.getElem?_set_self (List.getElem?_eq_some_iff.1 there).1,
        (operation.onward (inside d (List.mem_of_getElem? there))).2, fun other => ?_⟩
      exact absurd rfl other
    · exact ⟨c, (List.getElem?_set_ne same).trans there, Nat.le_refl _, fun _ => rfl⟩

theorem Run.inside {before : List Cursor} (run : Run before acts readers)
    (inside : Inside message before) : Inside message readers := by
  induction run with
  | start => exact inside
  | step _ step ih => exact step.inside ih

/-- A run can be gone on with. -/
theorem Run.trans {before : List Cursor} {more : List Act} (run : Run before acts readers)
    (further : Run readers more after) : Run before (acts ++ more) after := by
  induction further with
  | start =>
    rw [List.append_nil]
    exact run
  | step _ step ih =>
    rw [← List.append_assoc]
    exact ih.step step

/-- No run takes a reader back, and one that it does not use stays where it is. -/
theorem Run.onward {before : List Cursor} (run : Run before acts readers)
    (inside : Inside message before) {i : Nat} {c : Cursor} (there : before[i]? = some c) :
    ∃ c', readers[i]? = some c' ∧ c.position ≤ c'.position ∧ (.use i ∉ acts → c' = c) := by
  induction run with
  | start => exact ⟨c, there, Nat.le_refl _, fun _ => rfl⟩
  | @step acts readers after act run step ih =>
    obtain ⟨d, there', le, stays⟩ := ih
    obtain ⟨e, there'', le', stays'⟩ := step.onward (run.inside inside) there'
    refine ⟨e, there'', Nat.le_trans le le', fun unused => ?_⟩
    rw [List.mem_append, List.mem_singleton, not_or] at unused
    rw [stays' (Ne.symm unused.2), stays unused.1]

/-- **Readers stay in the message.** Whatever is done with the readers of a message, clones at any
moment and operations after failed ones included, each of them stands in the message, with what is
left of it ahead, and no reader ever goes back. A reader moves by its own operations only, so a
clone leaves the one it was made of alone. Spelt out by index, no operation is at fault from where a
reader stands: no difference is negative, no cut leaves the message, and the outcome is the same.
All readers of the library are operations under any registry. Words are taken whole or not at all,
and looking for an object that may be absent takes nothing where the message has ended or the type
is not registered. -/
theorem Run.stays_inside (r : Registry) (run : Run [.start message] acts readers) :
    (Reader.Closed (fun _ read => read.Indexed) ∧ ∀ d, (r.payload d).Indexed) ∧
    (∀ c ∈ readers, c.Inside message ∧
      Reader.remaining.runFrom c = (.ok (message.length - c.position), c)) ∧
    (∀ more later, Run readers more later → ∀ i c, readers[i]? = some c →
      ∃ c', later[i]? = some c' ∧ c.position ≤ c'.position ∧ (.use i ∉ more → c' = c)) ∧
    (∀ c ∈ readers, ∀ {α : Type} {read : Reader α} {byIndex : IndexReader α},
      read.IndexedBy byIndex →
        byIndex.runAt message c.position =
          some ((read.runFrom c).1, (read.runFrom c).2.position)) ∧
    (∀ c ∈ readers, ∀ e c', (Reader.byte.runFrom c = (.error e, c') → c' = c) ∧
      ∀ p, p ≠ .text → p ≠ .guid → (Reader.scalar p).runFrom c = (.error e, c') → c' = c) ∧
    ∀ c ∈ readers, ∀ payload,
      (∀ k, r.byKey k = none →
        (r.readNullable payload (.composite k)).runFrom c = (.error (.unregistered k.name), c)) ∧
      ∀ t, r.check t = .ok () → c.position = message.length →
        (r.readNullable payload t).runFrom c = (.error .unexpectedEnd, c) := by
  have inside : Inside message readers :=
    run.inside (List.forall_mem_singleton.2 (.start message))
  refine ⟨⟨Reader.Indexed.closed, Reader.Indexed.payload r⟩,
    fun c hc => ⟨inside c hc, (inside c hc).remaining⟩,
    fun more later further i c there => further.onward inside there,
    fun c hc {α read byIndex} spelt => spelt.runAt_eq (inside c hc),
    fun c _ e c' => ⟨Reader.whole_byte c e c',
      fun p text guid => Reader.whole_scalar text guid c e c'⟩,
    fun c hc payload => ⟨fun k unknown => Registry.runFrom_readNullable_of_unregistered unknown,
      fun t known ended => Registry.runFrom_readNullable_of_end known ?_⟩⟩
  rw [(inside c hc).rest, ended, List.drop_length]

end Reading

namespace Sample

/-- The head of an object, with an id that no type has, and one more byte. -/
def headOnly : Bytes := [103, 0, 0, 0, 0, 9]

/-- A reader looks for an object of a type that is not registered, and is cloned. -/
theorem run_cloned :
    Reading.Run [.start headOnly] [.use 0, .clone 0] [.start headOnly, .start headOnly] := by
  have looks : (readingSide.readNullable readingSide.payload (.composite other.key)).Indexed :=
    Reader.Indexed.closed.readNullable (Reader.Indexed.payload readingSide) _
  have looked : Reading.Step [.start headOnly] (.use 0) [.start headOnly] :=
    .stopped looks rfl (by decide +kernel)
  exact (Reading.Run.start.step looked).step (.clone (i := 0) rfl)

/-- It goes on, and its clone does not: it finds an object of another type than it has asked for,
finds less than a wide word in what is left, takes the last byte, and looks for an object behind
it. -/
theorem run_strayed :
    Reading.Run [.start headOnly, .start headOnly] [.use 0, .use 0, .use 0, .use 0]
      [⟨6, []⟩, .start headOnly] := by
  have payloads := Reader.Indexed.payload readingSide
  have asks : (readingSide.readObject readingSide.payload (.composite pair.key)).Indexed :=
    Reader.Indexed.closed.readObject payloads _
  have looks : (readingSide.readNullable readingSide.payload (.composite pair.key)).Indexed :=
    Reader.Indexed.closed.readNullable payloads _
  have mistaken : Reading.Step [.start headOnly, .start headOnly] (.use 0)
      [⟨5, [9]⟩, .start headOnly] := .stopped asks rfl (by decide +kernel)
  have stuck : Reading.Step [⟨5, [9]⟩, .start headOnly] (.use 0) [⟨5, [9]⟩, .start headOnly] :=
    .stopped Reader.Indexed.closed.int64 rfl (by decide +kernel)
  have ended : Reading.Step [⟨5, [9]⟩, .start headOnly] (.use 0) [⟨6, []⟩, .start headOnly] :=
    .stopped Reader.Indexed.closed.byte rfl (by decide +kernel)
  have looked : Reading.Step [⟨6, []⟩, .start headOnly] (.use 0) [⟨6, []⟩, .start headOnly] :=
    .stopped looks rfl (by decide +kernel)
  exact (((Reading.Run.start.step mistaken).step stuck).step ended).step looked

/-- The reader is at the end of the message and its clone at the start, where the reader was when it
was cloned. Neither finds a wide word by index, and neither search for an object that may be absent
takes anything. -/
theorem stays_inside_strayed :
    Reading.Run [.start headOnly] [.use 0, .clone 0, .use 0, .use 0, .use 0, .use 0]
      [⟨6, []⟩, .start headOnly] ∧
    Reader.remaining.runFrom ⟨6, []⟩ = (.ok 0, ⟨6, []⟩) ∧
    (IndexReader.take 8).runAt headOnly 6 = some (.error .unexpectedEnd, 6) ∧
    (IndexReader.take 8).runAt headOnly 0 = some (.error .unexpectedEnd, 0) ∧
    (readingSide.readNullable readingSide.payload (.composite pair.key)).runFrom ⟨6, []⟩ =
      (.error .unexpectedEnd, ⟨6, []⟩) ∧
    (readingSide.readNullable readingSide.payload (.composite other.key)).runFrom
      (.start headOnly) = (.error (.unregistered "Other"), .start headOnly) ∧
    ∃ c, [⟨6, []⟩, Cursor.start headOnly][1]? = some c ∧ c = .start headOnly := by
  have run := run_cloned.trans run_strayed
  obtain ⟨_, left, _, byIndex, _, nullable⟩ := run.stays_inside readingSide
  obtain ⟨_, _, further, _⟩ := run_cloned.stays_inside readingSide
  obtain ⟨c, there, _, unmoved⟩ := further _ _ run_strayed 1 _ rfl
  have reader : (⟨6, []⟩ : Cursor) ∈ [⟨6, []⟩, Cursor.start headOnly] := by decide
  have clone : Cursor.start headOnly ∈ [⟨6, []⟩, Cursor.start headOnly] := by decide
  exact ⟨run, (left _ reader).2, byIndex _ reader (.take 8), byIndex _ clone (.take 8),
    (nullable _ reader readingSide.payload).2 _ (by decide +kernel) rfl,
    (nullable _ clone readingSide.payload).1 _ (by decide +kernel), c, there,
    unmoved (by decide)⟩

end Sample

end RemoteDispatch
