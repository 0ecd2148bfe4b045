import RemoteDispatch.Wire.Decoding

/-!
# Where reading leaves the cursor

Two facts about every reader of the library, and one that follows from them.
`Reader.Closed` says what it takes for a property to hold of every reader.

A reader only moves on (`Reader.Forward`): what it leaves is the end of what
was there, whether it succeeds or fails. And an object takes its tag before it
looks at its payload, so a payload always starts with fewer bytes ahead than
the object had.

Together they say that the depth of nesting is never what ends a reader. The
definition of `Registry.payload` starts from a depth that it takes from the
bytes ahead; `Registry.payload_eq` forgets the depth. From there on a payload
is what its shape says, and everything about messages is an induction over
shapes or values, with no depth to carry.
-/

namespace RemoteDispatch

namespace Reader

variable {α β : Type}

/-- Readers that do the same from every place are the same. -/
theorem ext_runFrom {read other : Reader α} (h : ∀ c, read.runFrom c = other.runFrom c) :
    read = other := funext h

/-- A sequence of steps yields a value if both steps do. -/
theorem runFrom_bind_ok {read : Reader α} {next : α → Reader β} {c c' : Cursor} {b : β} :
    (read >>= next).runFrom c = (.ok b, c')
      ↔ ∃ a d, read.runFrom c = (.ok a, d) ∧ (next a).runFrom d = (.ok b, c') := by
  rw [runFrom_bind]
  rcases read.runFrom c with ⟨e | a, d⟩
  · constructor
    · intro h
      cases h
    · rintro ⟨a, d', h, _⟩
      cases h
  · constructor
    · intro h
      exact ⟨a, d, rfl, h⟩
    · rintro ⟨a', d', h, h'⟩
      cases h
      exact h'

/-- A mapped reader yields what it maps. -/
theorem runFrom_map_ok {f : α → β} {read : Reader α} {c c' : Cursor} {b : β} :
    (f <$> read).runFrom c = (.ok b, c') ↔ ∃ a, read.runFrom c = (.ok a, c') ∧ b = f a := by
  rw [← bind_pure_comp, runFrom_bind_ok]
  constructor
  · rintro ⟨a, d, ha, hb⟩
    cases hb
    exact ⟨a, ha, rfl⟩
  · rintro ⟨a, ha, rfl⟩
    exact ⟨a, c', ha, rfl⟩

/-- Two sequences of steps that start alike agree if they agree after the first step. -/
theorem runFrom_bind_congr {read : Reader α} {next other : α → Reader β} {c : Cursor}
    (h : ∀ a d, read.runFrom c = (.ok a, d) → (next a).runFrom d = (other a).runFrom d) :
    (read >>= next).runFrom c = (read >>= other).runFrom c := by
  rw [runFrom_bind, runFrom_bind]
  rcases hr : read.runFrom c with ⟨e | a, d⟩
  · rfl
  · exact h a d hr

/-- Mapping the value does not change when two readers agree. -/
theorem runFrom_map_congr {read other : Reader α} {c : Cursor} (f : α → β)
    (h : read.runFrom c = other.runFrom c) :
    (f <$> read).runFrom c = (f <$> other).runFrom c := by
  rw [runFrom_map, runFrom_map, h]

/-! ## What the blocks have, all readers have

Every reader of the library is put together from a few blocks. A property that
the blocks have and that sequences of steps keep holds of all of them, and is
proved of all of them here, once. -/

/-- **A property of readers that the blocks have** and that sequences of steps keep. -/
structure Closed (P : (α : Type) → Reader α → Prop) : Prop where
  pure {α : Type} (a : α) : P α (pure a)
  throw {α : Type} (e : CodecError) : P α (throw e)
  take (n : Nat) : P Bytes (take n)
  peek : P UInt8 peek
  bind {α β : Type} {read : Reader α} {next : α → Reader β} (first : P α read)
    (others : ∀ a, P β (next a)) : P β (read >>= next)

namespace Closed

variable {P : (α : Type) → Reader α → Prop} (closed : Closed P)
include closed

theorem map {read : Reader α} (f : α → β) (h : P α read) : P β (f <$> read) := by
  rw [← bind_pure_comp]
  exact closed.bind h fun a => closed.pure (f a)

theorem word (n : Nat) : P Nat (word n) := closed.map _ (closed.take n)

theorem byte : P UInt8 byte := closed.map _ (closed.word 1)

theorem int32 : P Int32 int32 := closed.map _ (closed.word 4)

theorem int64 : P Int64 int64 := closed.map _ (closed.word 8)

theorem length? : P (Option Nat) length? := by
  refine closed.bind closed.int32 fun n => ?_
  split
  · exact closed.pure _
  · split
    · exact closed.throw _
    · exact closed.pure _

theorem text? : P (Option String) text? := by
  refine closed.bind closed.length? fun n => ?_
  rcases n with _ | n
  · exact closed.pure _
  · refine closed.bind (closed.take n) fun bytes => ?_
    split
    · exact closed.pure _
    · exact closed.throw _

theorem text : P String text := by
  refine closed.bind closed.text? fun s => ?_
  rcases s with _ | s
  · exact closed.throw _
  · exact closed.pure _

theorem guid : P Guid guid :=
  closed.bind closed.int64 fun _ => closed.bind closed.int64 fun _ => closed.pure _

theorem times {item : Reader α} (h : P α item) (n : Nat) : P (List α) (times item n) := by
  induction n with
  | zero => exact closed.pure _
  | succ n ih => exact closed.bind h fun _ => closed.bind ih fun _ => closed.pure _

theorem seq? {item : Reader α} (h : P α item) : P (Option (List α)) (seq? item) := by
  refine closed.bind closed.length? fun n => ?_
  rcases n with _ | n
  · exact closed.pure _
  · exact closed.map _ (closed.times h n)

theorem seq {item : Reader α} (h : P α item) : P (List α) (seq item) := by
  refine closed.bind (closed.seq? h) fun items => ?_
  rcases items with _ | items
  · exact closed.throw _
  · exact closed.pure _

theorem scalar (p : Primitive) : P Scalar (scalar p) := by
  cases p with
  | int8 => exact closed.map _ (closed.word 1)
  | int16 => exact closed.map _ (closed.word 2)
  | int32 => exact closed.map _ closed.int32
  | int64 => exact closed.map _ closed.int64
  | float32 => exact closed.map _ (closed.word 4)
  | float64 => exact closed.map _ (closed.word 8)
  | uint16 => exact closed.map _ (closed.word 2)
  | bool => exact closed.map _ closed.byte
  | text => exact closed.map _ closed.text
  | guid => exact closed.map _ closed.guid

/-! The readers of objects and shapes have the property if the readers of payloads do. -/

variable {r : Registry} {payload : Descriptor → Reader Datum} (h : ∀ d, P Datum (payload d))
include h

theorem readObject (t : TypeRef) : P Datum (r.readObject payload t) := by
  cases t with
  | primitive p =>
    refine closed.bind closed.byte fun tag => ?_
    split
    · exact closed.throw _
    · split
      · exact closed.map _ (closed.scalar p)
      · exact closed.throw _
  | composite k =>
    rw [Registry.readObject]
    split
    · exact closed.throw _
    · refine closed.bind closed.byte fun tag => ?_
      split
      · exact closed.throw _
      · split
        · refine closed.bind closed.int32 fun id => ?_
          split
          · exact h _
          · split
            · exact closed.throw _
            · exact closed.throw _
        · exact closed.throw _

theorem readNullable (t : TypeRef) : P (Option Datum) (r.readNullable payload t) := by
  unfold Registry.readNullable
  split
  · exact closed.throw _
  · refine closed.bind closed.peek fun b => ?_
    split
    · exact closed.bind closed.byte fun _ => closed.pure _
    · exact closed.map _ (closed.readObject h t)

theorem readAny : P Datum (r.readAny payload) := by
  refine closed.bind closed.byte fun tag => ?_
  split
  · exact closed.pure _
  · split
    · exact closed.map _ (closed.scalar _)
    · split
      · refine closed.bind closed.int32 fun id => ?_
        split
        · exact closed.map _ (h _)
        · exact closed.throw _
      · exact closed.throw _

/-- **The reader of any shape has the property.** -/
theorem readAs (s : Shape) : P Datum (r.readAs payload s) := by
  induction s with
  | unit => exact closed.pure _
  | pair _ _ ih₁ ih₂ => exact closed.bind ih₁ fun _ => closed.bind ih₂ fun _ => closed.pure _
  | byte => exact closed.map _ closed.byte
  | scalar p => exact closed.map _ (closed.scalar p)
  | text => exact closed.map _ closed.text?
  | textOrEmpty => exact closed.map _ closed.text?
  | seq _ ih => exact closed.map _ (closed.seq ih)
  | nullableSeq _ ih =>
    refine closed.bind (closed.seq? ih) fun ds => ?_
    rcases ds with _ | ds
    · exact closed.pure _
    · exact closed.pure _
  | object t => exact closed.map _ (closed.readObject h t)
  | nullable t =>
    refine closed.bind (closed.readNullable h t) fun d => ?_
    rcases d with _ | d
    · exact closed.pure _
    · exact closed.pure _
  | any => exact closed.readAny h
  | flagged _ ih =>
    refine closed.bind closed.byte fun b => ?_
    split
    · exact closed.map _ ih
    · exact closed.pure _
  | bounded bound =>
    refine closed.bind closed.byte fun b => ?_
    split
    · exact closed.throw _
    · exact closed.pure _

omit h in
theorem readPayload (n : Nat) (d : Descriptor) : P Datum (r.readPayload n d) := by
  induction n generalizing d with
  | zero => exact closed.throw _
  | succ n ih => exact closed.readAs ih d.shape

end Closed

/-! ## Moving on -/

/-- **A reader that only moves on**: it leaves the end of what was ahead, and counts what it took. -/
def Forward (read : Reader α) : Prop :=
  ∀ c, ∃ taken, c.rest = taken ++ (read.runFrom c).2.rest ∧
    (read.runFrom c).2.position = c.position + taken.length

/-- Staying where one is counts as moving on. -/
theorem Forward.of_stay {read : Reader α} (h : ∀ c, (read.runFrom c).2 = c) : Forward read := by
  intro c
  refine ⟨[], ?_, ?_⟩
  · rw [h c]
    rfl
  · rw [h c]
    rfl

theorem Forward.bind {read : Reader α} {next : α → Reader β} (h : Forward read)
    (h' : ∀ a, Forward (next a)) : Forward (read >>= next) := by
  intro c
  obtain ⟨taken, hrest, hpos⟩ := h c
  rw [runFrom_bind]
  rcases hr : read.runFrom c with ⟨e | a, d⟩
  · rw [hr] at hrest hpos
    exact ⟨taken, hrest, hpos⟩
  · rw [hr] at hrest hpos
    obtain ⟨more, hrest', hpos'⟩ := h' a d
    refine ⟨taken ++ more, ?_, ?_⟩
    · rw [List.append_assoc, ← hrest']
      exact hrest
    · rw [List.length_append, ← Nat.add_assoc, ← hpos]
      exact hpos'

/-- A reader that moves on never has more ahead than before. -/
theorem Forward.length_le {read : Reader α} (h : Forward read) {c d : Cursor}
    {answer : Except CodecError α} (hr : read.runFrom c = (answer, d)) :
    d.rest.length ≤ c.rest.length := by
  obtain ⟨taken, hrest, _⟩ := h c
  rw [hr] at hrest
  rw [hrest, List.length_append]
  exact Nat.le_add_left _ _

theorem forward_take (n : Nat) : Forward (take n) := by
  intro c
  rw [runFrom_take]
  rcases h : splitExact? n c.rest with _ | ⟨front, rest⟩
  · exact ⟨[], rfl, rfl⟩
  · obtain ⟨hrest, hlen⟩ := splitExact?_eq_some_iff.1 h
    exact ⟨front, hrest, by rw [hlen]⟩

theorem runFrom_peek_stays (c : Cursor) : (peek.runFrom c).2 = c := by
  obtain ⟨position, _ | ⟨b, bs⟩⟩ := c
  · rfl
  · rfl

/-- **Readers only move on.** -/
theorem forward_closed : Closed fun _ read => read.Forward where
  pure _ := Forward.of_stay fun _ => rfl
  throw _ := Forward.of_stay fun _ => rfl
  take := forward_take
  peek := Forward.of_stay runFrom_peek_stays
  bind := Forward.bind

end Reader

namespace Registry

variable {r : Registry}

/-- Payload readers that only move on. -/
def PayloadForward (payload : Descriptor → Reader Datum) : Prop :=
  ∀ d, (payload d).Forward

theorem forward_readPayload (n : Nat) : PayloadForward (r.readPayload n) :=
  Reader.forward_closed.readPayload n

theorem forward_payload : PayloadForward r.payload := fun d =>
  Reader.Forward.bind (Reader.Forward.of_stay fun _ => rfl) fun n => forward_readPayload (n + 1) d

/-! ## The depth of nesting is no limit

Two payload readers that agree wherever fewer than `n` bytes are ahead make
readers of objects and shapes that agree wherever at most `n` are: the tag of
an object is one byte, and the payload starts behind it. -/

/-- The payload readers agree wherever fewer than `n` bytes are ahead. -/
def AgreeBelow (n : Nat) (payload other : Descriptor → Reader Datum) : Prop :=
  ∀ d c, c.rest.length < n → (payload d).runFrom c = (other d).runFrom c

/-- A byte that was taken is no longer ahead. -/
theorem length_lt_of_byte {c d : Cursor} {b : UInt8} (h : Reader.byte.runFrom c = (.ok b, d)) :
    d.rest.length < c.rest.length := by
  rcases c with ⟨position, _ | ⟨b', bs⟩⟩
  · cases h
  · cases h
    exact Nat.lt_succ_self _

variable {n : Nat} {payload other : Descriptor → Reader Datum} {c : Cursor}

theorem readObject_congr (h : AgreeBelow n payload other) (hc : c.rest.length ≤ n) (t : TypeRef) :
    (r.readObject payload t).runFrom c = (r.readObject other t).runFrom c := by
  cases t with
  | primitive p => rfl
  | composite k =>
    rw [readObject, readObject]
    split
    · rfl
    · refine Reader.runFrom_bind_congr fun tag d hd => ?_
      have hlt := length_lt_of_byte hd
      split
      · rfl
      · split
        · refine Reader.runFrom_bind_congr fun id e he => ?_
          have hle := Reader.forward_closed.int32.length_le he
          split
          · exact h _ e (by omega)
          · rfl
        · rfl

theorem readNullable_congr (h : AgreeBelow n payload other) (hc : c.rest.length ≤ n)
    (t : TypeRef) :
    (r.readNullable payload t).runFrom c = (r.readNullable other t).runFrom c := by
  unfold readNullable
  split
  · rfl
  · refine Reader.runFrom_bind_congr fun b d hd => ?_
    have hle := Reader.forward_closed.peek.length_le hd
    split
    · rfl
    · exact Reader.runFrom_map_congr _ (readObject_congr h (Nat.le_trans hle hc) t)

theorem readAny_congr (h : AgreeBelow n payload other) (hc : c.rest.length ≤ n) :
    (r.readAny payload).runFrom c = (r.readAny other).runFrom c := by
  unfold readAny
  refine Reader.runFrom_bind_congr fun tag d hd => ?_
  have hlt := length_lt_of_byte hd
  split
  · rfl
  · split
    · rfl
    · split
      · refine Reader.runFrom_bind_congr fun id e he => ?_
        have hle := Reader.forward_closed.int32.length_le he
        split
        · exact Reader.runFrom_map_congr _ (h _ e (by omega))
        · rfl
      · rfl

/-- Items that agree wherever at most `n` bytes are ahead agree when taken many times. -/
theorem times_congr {item item' : Reader Datum} (forward : item.Forward)
    (h : ∀ c, c.rest.length ≤ n → item.runFrom c = item'.runFrom c) (count : Nat)
    (hc : c.rest.length ≤ n) :
    (Reader.times item count).runFrom c = (Reader.times item' count).runFrom c := by
  induction count generalizing c with
  | zero => rfl
  | succ count ih =>
    unfold Reader.times
    rw [Reader.runFrom_bind, Reader.runFrom_bind, ← h c hc]
    rcases hr : item.runFrom c with ⟨e | a, d⟩
    · rfl
    · have hle := forward.length_le hr
      show (Reader.times item count >>= _).runFrom d = (Reader.times item' count >>= _).runFrom d
      rw [Reader.runFrom_bind, Reader.runFrom_bind, ih (Nat.le_trans hle hc)]

theorem seq?_congr {item item' : Reader Datum} (forward : item.Forward)
    (h : ∀ c, c.rest.length ≤ n → item.runFrom c = item'.runFrom c) (hc : c.rest.length ≤ n) :
    (Reader.seq? item).runFrom c = (Reader.seq? item').runFrom c := by
  unfold Reader.seq?
  refine Reader.runFrom_bind_congr fun count d hd => ?_
  have hle := Reader.forward_closed.length?.length_le hd
  rcases count with _ | count
  · rfl
  · exact Reader.runFrom_map_congr _ (times_congr forward h count (Nat.le_trans hle hc))

theorem readAs_congr (forward : PayloadForward payload) (h : AgreeBelow n payload other)
    (s : Shape) (hc : c.rest.length ≤ n) :
    (r.readAs payload s).runFrom c = (r.readAs other s).runFrom c := by
  induction s generalizing c with
  | pair first second ih₁ ih₂ =>
    -- the second part starts where the first has left the cursor, with no more bytes ahead
    unfold readAs
    rw [Reader.runFrom_bind, Reader.runFrom_bind, ← ih₁ hc]
    rcases hr : (r.readAs payload first).runFrom c with ⟨e | a, d⟩
    · rfl
    · have hle := (Reader.forward_closed.readAs forward first).length_le hr
      show (r.readAs payload second >>= _).runFrom d = (r.readAs other second >>= _).runFrom d
      rw [Reader.runFrom_bind, Reader.runFrom_bind, ih₂ (Nat.le_trans hle hc)]
  | seq item ih =>
    refine Reader.runFrom_map_congr _ ?_
    unfold Reader.seq
    rw [Reader.runFrom_bind, Reader.runFrom_bind,
      seq?_congr (Reader.forward_closed.readAs forward item) (fun c hc => ih hc) hc]
  | nullableSeq item ih =>
    unfold readAs
    rw [Reader.runFrom_bind, Reader.runFrom_bind,
      seq?_congr (Reader.forward_closed.readAs forward item) (fun c hc => ih hc) hc]
  | object t => exact Reader.runFrom_map_congr _ (readObject_congr h hc t)
  | nullable t =>
    unfold readAs
    rw [Reader.runFrom_bind, Reader.runFrom_bind, readNullable_congr h hc t]
  | any => exact readAny_congr h hc
  | flagged part ih =>
    unfold readAs
    refine Reader.runFrom_bind_congr fun b d hd => ?_
    have hlt := length_lt_of_byte hd
    split
    · exact Reader.runFrom_map_congr _ (ih (by omega))
    · rfl
  | unit | byte | scalar | text | textOrEmpty | bounded => rfl

/-- A depth past the number of bytes ahead is as good as any other. -/
theorem readPayload_stable {m n : Nat} (d : Descriptor) {c : Cursor} (hm : c.rest.length < m)
    (hn : c.rest.length < n) :
    (r.readPayload m d).runFrom c = (r.readPayload n d).runFrom c := by
  induction m generalizing n d c with
  | zero => exact absurd hm (Nat.not_lt_zero _)
  | succ m ih =>
    -- one level of both depths reads a shape, and the levels below start with fewer bytes ahead
    obtain ⟨n, rfl⟩ : ∃ k, n = k + 1 := ⟨n - 1, by omega⟩
    exact readAs_congr (n := c.rest.length) (forward_readPayload m)
      (fun d' c' hc' => ih d' (by omega) (by omega)) d.shape (Nat.le_refl _)

/-- The payload read where `c` stands is read at the depth that the bytes ahead allow. -/
theorem runFrom_payload (d : Descriptor) (c : Cursor) :
    (r.payload d).runFrom c = (r.readPayload (c.rest.length + 1) d).runFrom c := rfl

/-- **A payload is what its shape says**, with payloads of the same kind inside it. -/
theorem payload_eq (r : Registry) (d : Descriptor) : r.payload d = r.read d.shape := by
  refine Reader.ext_runFrom fun c => ?_
  rw [runFrom_payload]
  refine readAs_congr (n := c.rest.length) (forward_readPayload _) (fun d' c' hc' => ?_) d.shape
    (Nat.le_refl _)
  rw [runFrom_payload]
  exact readPayload_stable d' hc' (Nat.lt_succ_self _)

end Registry

end RemoteDispatch
