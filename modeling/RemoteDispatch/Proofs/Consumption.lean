import Mathlib.Algebra.GroupWithZero.Nat
import RemoteDispatch.Proofs.Frames

/-!
# What reading costs

A message is not to be trusted: a count may promise more items than there are
bytes, and an object may hold objects that hold objects. What keeps reading in
bounds is that it is paid for in bytes. `Reader.Pays` says that whatever a
reader yields has a price, and that at least so many bytes lie between where
the reader started and where it stopped.

If every item costs a byte, a sequence costs as many bytes as it has items and
four for the count, so a count past the bytes that are left fails, and no more
items are read on the way than bytes were there (`Reader.itemsRead`). Every
object costs a byte too, its tag, wherever it stands in a value
(`Registry.pays_readAs`).

The same bytes end the recursion. Payloads hold objects and objects hold
payloads, through whatever the registry says, and `Registry.unrolled` is that
recursion cut off at a depth, with anything in the place of what is cut off.
At the depth of the bytes that are left the place is never reached.
-/

namespace RemoteDispatch

namespace Cursor.Over

variable {c c' : Cursor} {bytes : Bytes}

/-- What was passed is no longer left. -/
theorem length (h : c.Over bytes c') : c.rest.length = bytes.length + c'.rest.length := by
  rw [h.rest, List.length_append]

end Cursor.Over

namespace Reader

variable {α β : Type}

/-! ## Paying for values -/

/-- **A reader that pays**: what it yields costs no more bytes than it takes. -/
def Pays (read : Reader α) (cost : α → Nat) : Prop :=
  ∀ c c' a, read.runFrom c = (.ok a, c') → ∃ taken, c.Over taken c' ∧ cost a ≤ taken.length

/-- A reader that takes a byte at least whenever it yields a value. -/
def Consumes (read : Reader α) : Prop := read.Pays fun _ => 1

section Pays

variable {read : Reader α} {next : α → Reader β} {cost cheaper : α → Nat} {price : β → Nat}

theorem Pays.mono (h : read.Pays cost) (le : ∀ a, cheaper a ≤ cost a) : read.Pays cheaper := by
  intro c c' a hr
  obtain ⟨taken, passed, paid⟩ := h c c' a hr
  exact ⟨taken, passed, Nat.le_trans (le a) paid⟩

/-- What only moves on can pay for what costs nothing. -/
theorem Forward.pays (h : read.Forward) : read.Pays fun _ => 0 := by
  intro c c' a hr
  obtain ⟨taken, rest, position⟩ := h c
  rw [hr] at rest position
  exact ⟨taken, ⟨rest, position⟩, Nat.zero_le _⟩

theorem pays_pure {a : α} (free : cost a = 0) : (pure a : Reader α).Pays cost := by
  intro c c' b hr
  cases hr
  exact ⟨[], .refl c, Nat.le_of_eq free⟩

theorem pays_throw (e : CodecError) : (throw e : Reader α).Pays cost := by
  intro c c' a hr
  cases hr

/-- Two steps pay together. What the first has paid for the second need not pay again. -/
theorem Pays.bind (h : read.Pays cost) (h' : ∀ a, (next a).Pays fun b => price b - cost a) :
    (read >>= next).Pays price := by
  intro c c' b hr
  obtain ⟨a, d, ha, hb⟩ := runFrom_bind_ok.1 hr
  obtain ⟨front, passed, paid⟩ := h c d a ha
  obtain ⟨behind, passed', paid'⟩ := h' a d c' b hb
  refine ⟨front ++ behind, passed.trans passed', ?_⟩
  rw [List.length_append, Nat.add_comm]
  exact Nat.le_trans (Nat.sub_le_iff_le_add.1 paid') (Nat.add_le_add_left paid _)

/-- A step that pays a fixed price may stand in front. -/
theorem Pays.bind_const {k : Nat} (h : read.Pays fun _ => k) (h' : ∀ a, (next a).Pays price) :
    (read >>= next).Pays fun b => k + price b :=
  h.bind fun a => (h' a).mono fun b => Nat.le_of_eq (Nat.add_sub_cancel_left k (price b))

/-- A step that only moves on may stand in front. -/
theorem Forward.bind_pays (h : read.Forward) (h' : ∀ a, (next a).Pays price) :
    (read >>= next).Pays price :=
  (h.pays.bind_const h').mono fun b => Nat.le_of_eq (Nat.zero_add (price b)).symm

theorem Pays.map {f : α → β} (h : read.Pays cost) (le : ∀ a, price (f a) ≤ cost a) :
    (f <$> read).Pays price := by
  intro c c' b hr
  obtain ⟨a, ha, rfl⟩ := runFrom_map_ok.1 hr
  exact h.mono le c c' a ha

/-- A reader that only moves on pays for anything it yields that is free. -/
theorem Forward.map_pays {f : α → β} (h : read.Forward) (free : ∀ a, price (f a) = 0) :
    (f <$> read).Pays price :=
  h.pays.map fun a => Nat.le_of_eq (free a)

end Pays

theorem pays_take (n : Nat) : (take n).Pays fun _ => n := by
  intro c c' bytes hr
  obtain ⟨length, passed⟩ := runFrom_take_ok.1 hr
  exact ⟨bytes, passed, Nat.le_of_eq length.symm⟩

theorem pays_word (n : Nat) : (word n).Pays fun _ => n := by
  refine (pays_take n).map ?_
  exact fun _ => Nat.le_refl n

theorem pays_byte : byte.Pays fun _ => 1 := by
  refine (pays_word 1).map ?_
  exact fun _ => Nat.le_refl 1

theorem pays_int32 : int32.Pays fun _ => 4 := by
  refine (pays_word 4).map ?_
  exact fun _ => Nat.le_refl 4

/-- A length costs four bytes, that of something absent as well. -/
theorem pays_length? : length?.Pays fun _ => 4 := by
  refine Pays.bind pays_int32 fun n => ?_
  split
  · exact pays_pure rfl
  · split
    · exact pays_throw _
    · exact pays_pure rfl

/-! ## Sequences -/

/-- **Items are paid for one by one.** -/
theorem pays_timesFrom {item : Nat → Reader α} {cost : α → Nat}
    (items : ∀ place, (item place).Pays cost) (place n : Nat) :
    (timesFrom item place n).Pays fun as => (as.map cost).sum := by
  induction n generalizing place with
  | zero => exact pays_pure rfl
  | succ n ih =>
    refine (items place).bind fun first => (ih (place + 1)).bind fun others => pays_pure ?_
    rw [List.map_cons, List.sum_cons]
    omega

/-- **A sequence costs what its items cost** and four bytes for their number. -/
theorem pays_seqWith? {item : Nat → Reader α} {cost : α → Nat}
    (items : ∀ place, (item place).Pays cost) :
    (seqWith? item).Pays fun answer => 4 + answer.elim 0 fun as => (as.map cost).sum := by
  refine pays_length?.bind_const fun count => ?_
  cases count with
  | none => exact pays_pure rfl
  | some n => exact (pays_timesFrom items 0 n).map fun as => Nat.le_refl _

theorem pays_seqWith {item : Nat → Reader α} {cost : α → Nat}
    (items : ∀ place, (item place).Pays cost) :
    (seqWith item).Pays fun as => 4 + (as.map cost).sum := by
  refine (pays_seqWith? items).bind fun answer => ?_
  cases answer with
  | none => exact pays_throw _
  | some as => exact pays_pure (Nat.sub_self _)

/-- **The items that are read** before the first one that fails, or all of them. -/
def itemsRead (item : Nat → Reader α) : Nat → Nat → Cursor → List α
  | _, 0, _ => []
  | place, n + 1, c =>
    match (item place).runFrom c with
    | (.ok a, c) => a :: itemsRead item (place + 1) n c
    | (.error _, _) => []

variable {item : Nat → Reader α} {place n : Nat} {c c' counted : Cursor}

/-- No more items are read than there are bytes, if every item takes one. -/
theorem length_itemsRead_le (consumes : ∀ place, (item place).Consumes) :
    (itemsRead item place n c).length ≤ c.rest.length := by
  induction n generalizing place c with
  | zero => exact Nat.zero_le _
  | succ n ih =>
    unfold itemsRead
    split
    · next a d hr =>
      obtain ⟨taken, passed, paid⟩ := consumes place c d a hr
      have paid : 1 ≤ taken.length := paid
      have others : (itemsRead item (place + 1) n d).length ≤ d.rest.length := ih
      rw [List.length_cons, passed.length]
      omega
    · exact Nat.zero_le _

/-- **Items are yielded if all that were asked for are read**, and they are the ones that were. -/
theorem timesFrom_ok_iff {as : List α} :
    (∃ c', (timesFrom item place n).runFrom c = (.ok as, c')) ↔
      as = itemsRead item place n c ∧ as.length = n := by
  induction n generalizing place c as with
  | zero =>
    constructor
    · rintro ⟨c', taken⟩
      cases taken
      exact ⟨rfl, rfl⟩
    · rintro ⟨rfl, _⟩
      exact ⟨c, rfl⟩
  | succ n ih =>
    unfold itemsRead
    constructor
    · rintro ⟨c', taken⟩
      obtain ⟨first, d, hfirst, hnext⟩ := runFrom_bind_ok.1 taken
      obtain ⟨others, e, hothers, hend⟩ := runFrom_bind_ok.1 hnext
      cases hend
      obtain ⟨same, length⟩ := ih.1 ⟨_, hothers⟩
      rw [hfirst]
      exact ⟨congrArg (first :: ·) same, congrArg (· + 1) length⟩
    · rintro ⟨rfl, length⟩
      split at length
      · next first d hfirst =>
        obtain ⟨e, hothers⟩ := ih.2 ⟨rfl, Nat.succ.inj length⟩
        exact ⟨e, runFrom_bind_ok.2 ⟨first, d, hfirst, runFrom_bind_ok.2 ⟨_, e, hothers, rfl⟩⟩⟩
      · cases length

/-- **A sequence has as many items as its count says**, or is absent if its count is. -/
theorem length?_of_seqWith? {answer : Option (List α)}
    (taken : (seqWith? item).runFrom c = (.ok answer, c')) :
    ∃ counted, length?.runFrom c = (.ok (answer.map List.length), counted) := by
  obtain ⟨count, counted, hcount, hitems⟩ := runFrom_bind_ok.1 taken
  refine ⟨counted, ?_⟩
  cases count with
  | none =>
    cases hitems
    exact hcount
  | some n =>
    obtain ⟨as, has, rfl⟩ := runFrom_map_ok.1 hitems
    rw [Option.map_some, (timesFrom_ok_iff.1 ⟨c', has⟩).2]
    exact hcount

/-- What is read of a sequence that has to be there is read of one that may be absent. -/
theorem seqWith?_of_seqWith {as : List α} (taken : (seqWith item).runFrom c = (.ok as, c')) :
    (seqWith? item).runFrom c = (.ok (some as), c') := by
  obtain ⟨answer, d, hanswer, hend⟩ := runFrom_bind_ok.1 taken
  cases answer with
  | none => cases hend
  | some items =>
    cases hend
    exact hanswer

/-- A reader that yields nothing fails. -/
theorem error_of_not_ok {read : Reader α} (never : ∀ a c', read.runFrom c ≠ (.ok a, c')) :
    ∃ e c', read.runFrom c = (.error e, c') := by
  rcases hr : read.runFrom c with ⟨e | a, c'⟩
  · exact ⟨e, c', rfl⟩
  · exact absurd hr (never a c')

/-- **A count past the bytes that are left yields nothing.** -/
theorem seqWith?_ne_ok_of_lt (consumes : ∀ place, (item place).Consumes)
    (hcount : length?.runFrom c = (.ok (some n), counted)) (lt : counted.rest.length < n)
    (answer : Option (List α)) : (seqWith? item).runFrom c ≠ (.ok answer, c') := by
  intro taken
  obtain ⟨count, d, hcount', hitems⟩ := runFrom_bind_ok.1 taken
  cases hcount.symm.trans hcount'
  obtain ⟨as, has, _⟩ := runFrom_map_ok.1 hitems
  obtain ⟨rfl, length⟩ := timesFrom_ok_iff.1 ⟨c', has⟩
  have le : (itemsRead item 0 n counted).length ≤ counted.rest.length :=
    length_itemsRead_le consumes
  omega

end Reader

/-! ## Objects -/

/-- **The number of objects in a value**, absent ones included. -/
def Datum.objects : Datum → Nat
  | cons head tail => head.objects + tail.objects
  | seq cells => cells.objects
  | object _ payload => payload.objects + 1
  | dynamic _ payload => payload.objects + 1
  | absent _ => 1
  | null => 1
  | nil | byte _ | scalar _ | noText | noSeq | bounded _ _ => 0

theorem Datum.objects_ofList (ds : List Datum) :
    (ofList ds).objects = (ds.map objects).sum := by
  induction ds with
  | nil => rfl
  | cons d ds ih => rw [ofList, objects, ih, List.map_cons, List.sum_cons]

namespace Registry

open Reader

variable {r : Registry} {payload : Descriptor → Reader Datum}

section Objects

variable (paid : ∀ d, (payload d).Pays Datum.objects)
include paid

/-- **A typed object pays for itself** with its tag, and for what it holds. -/
theorem pays_readObject (t : TypeRef) :
    (r.readObject payload t).Pays fun v => 1 + v.objects := by
  cases t with
  | primitive p =>
    refine pays_byte.bind_const fun tag => ?_
    split
    · exact pays_throw _
    · split
      · exact (forward_closed.scalar p).map_pays fun _ => rfl
      · exact pays_throw _
  | composite k =>
    rw [readObject]
    split
    · exact pays_throw _
    · refine pays_byte.bind_const fun tag => ?_
      split
      · exact pays_throw _
      · split
        · refine forward_closed.int32.bind_pays fun id => ?_
          split
          · exact paid _
          · split
            · exact pays_throw _
            · exact pays_throw _
        · exact pays_throw _

/-- An object that may be absent pays for itself, and its absence pays too. -/
theorem pays_readNullable (t : TypeRef) :
    (r.readNullable payload t).Pays fun answer => 1 + answer.elim 0 Datum.objects := by
  unfold readNullable
  split
  · exact pays_throw _
  · refine forward_closed.peek.bind_pays fun b => ?_
    split
    · exact pays_byte.bind fun _ => pays_pure rfl
    · exact (pays_readObject paid t).map fun v => Nat.le_refl _

/-- **An untyped object pays for itself**, and its absence pays too. -/
theorem pays_readAny : (r.readAny payload).Pays Datum.objects := by
  refine pays_byte.bind fun tag => ?_
  split
  · exact pays_pure rfl
  · split
    · exact (forward_closed.scalar _).map_pays fun _ => rfl
    · split
      · refine forward_closed.int32.bind_pays fun id => ?_
        split
        · exact (paid _).map fun v => Nat.le_refl _
        · exact pays_throw _
      · exact pays_throw _

/-- **Whatever a shape lays out, its objects are paid for.** -/
theorem pays_readAs (s : Shape) : (r.readAs payload s).Pays Datum.objects := by
  induction s with
  | unit => exact pays_pure rfl
  | pair _ _ ih₁ ih₂ =>
    refine ih₁.bind fun a => ih₂.bind fun b => pays_pure ?_
    rw [Datum.objects]
    omega
  | byte => exact forward_closed.byte.map_pays fun _ => rfl
  | scalar p => exact (forward_closed.scalar p).map_pays fun _ => rfl
  | text => exact forward_closed.text?.map_pays fun s => by cases s <;> rfl
  | textOrEmpty => exact forward_closed.text?.map_pays fun _ => rfl
  | seq item ih =>
    have items := pays_seqWith fun _ => ih
    rw [seqWith_const] at items
    refine items.map fun ds => ?_
    rw [Datum.objects, Datum.objects_ofList]
    exact Nat.le_add_left _ _
  | nullableSeq item ih =>
    have items := pays_seqWith? fun _ => ih
    rw [seqWith?_const] at items
    refine items.bind fun answer => ?_
    cases answer with
    | none => exact pays_pure rfl
    | some ds =>
      refine pays_pure ?_
      rw [Datum.objects, Datum.objects_ofList, Option.elim_some]
      omega
  | object t =>
    exact (pays_readObject paid t).map fun v => Nat.le_of_eq (Nat.add_comm _ _)
  | nullable t =>
    refine (pays_readNullable paid t).bind fun answer => ?_
    cases answer with
    | none => exact pays_pure rfl
    | some v =>
      refine pays_pure ?_
      rw [Datum.objects, Option.elim_some]
      omega
  | any => exact pays_readAny paid
  | flagged part ih =>
    refine forward_closed.byte.bind_pays fun b => ?_
    split
    · exact ih.map fun v => Nat.le_of_eq (Nat.zero_add _)
    · exact pays_pure rfl
  | bounded bound =>
    refine forward_closed.byte.bind_pays fun b => ?_
    split
    · exact pays_throw _
    · exact pays_pure rfl

end Objects

theorem pays_readPayload (n : Nat) (d : Descriptor) : (r.readPayload n d).Pays Datum.objects := by
  induction n generalizing d with
  | zero => exact pays_throw _
  | succ n ih => exact pays_readAs ih d.shape

theorem pays_payload (d : Descriptor) : (r.payload d).Pays Datum.objects :=
  Forward.bind_pays (Forward.of_stay fun _ => rfl) fun n => pays_readPayload (n + 1) d

theorem pays_read (s : Shape) : (r.read s).Pays Datum.objects := pays_readAs pays_payload s

/-! ## The end of the recursion -/

/-- **The recursion through the registry, cut off at a depth**: payloads inside one another, and
below the last of them anything at all. -/
def unrolled (r : Registry) (below : Descriptor → Reader Datum) : Nat → Descriptor → Reader Datum
  | 0 => below
  | depth + 1 => fun d => r.readAs (r.unrolled below depth) d.shape

/-- **What is cut off below the bytes that are left is never reached.** -/
theorem agreeBelow_unrolled (below : Descriptor → Reader Datum) (n : Nat) :
    AgreeBelow n r.payload (r.unrolled below n) := by
  induction n with
  | zero => exact fun d c lt => absurd lt (Nat.not_lt_zero _)
  | succ n ih =>
    -- the payloads inside start behind a tag, so the depth that is left suffices for them
    intro d c lt
    rw [payload_eq]
    exact readAs_congr forward_payload ih d.shape (Nat.le_of_lt_succ lt)

theorem runFrom_unrolled (below : Descriptor → Reader Datum) {n : Nat} {c : Cursor}
    (le : c.rest.length ≤ n) (s : Shape) :
    (r.readAs (r.unrolled below n) s).runFrom c = (r.read s).runFrom c :=
  (readAs_congr forward_payload (agreeBelow_unrolled below n) s le).symm

/-- **Counts that are not to be trusted do no harm, and reading ends.** Where
every item takes a byte at least, a sequence has as many items as its count
says and takes a byte for each and four for the count. So a count past the
bytes that are left fails, and no more items are read on the way than bytes
were left. A reader that remembers what it has read before may differ from one
place to the next; one that does not is the same at every place.

Whatever is registered, payloads inside one another never go deeper than the
bytes that are left, so what stands below that depth does not matter, and a
value has no more objects than its bytes. -/
theorem reading_is_paid {α : Type} {item : Nat → Reader α}
    (consumes : ∀ place, (item place).Consumes) (r : Registry) (c : Cursor) :
    (∀ answer c', (seqWith? item).runFrom c = (.ok answer, c') →
      ∃ counted taken, length?.runFrom c = (.ok (answer.map List.length), counted) ∧
        c.Over taken c' ∧ 4 + answer.elim 0 List.length ≤ taken.length) ∧
    (∀ items c', (seqWith item).runFrom c = (.ok items, c') →
      ∃ counted taken, length?.runFrom c = (.ok (some items.length), counted) ∧
        c.Over taken c' ∧ 4 + items.length ≤ taken.length) ∧
    (∀ n counted, length?.runFrom c = (.ok (some n), counted) →
      (itemsRead item 0 n counted).length ≤ counted.rest.length ∧
        (counted.rest.length < n →
          (∃ e c', (seqWith? item).runFrom c = (.error e, c')) ∧
            ∃ e c', (seqWith item).runFrom c = (.error e, c'))) ∧
    (∀ same : Reader α, seqWith? (fun _ => same) = seq? same ∧
      seqWith (fun _ => same) = seq same) ∧
    ∀ s, (∀ below n, c.rest.length ≤ n →
        (r.readAs (r.unrolled below n) s).runFrom c = (r.read s).runFrom c) ∧
      ∀ v c', (r.read s).runFrom c = (.ok v, c') →
        ∃ taken, c.Over taken c' ∧ v.objects ≤ taken.length := by
  have optional : ∀ answer c', (seqWith? item).runFrom c = (.ok answer, c') →
      ∃ counted taken, length?.runFrom c = (.ok (answer.map List.length), counted) ∧
        c.Over taken c' ∧ 4 + answer.elim 0 List.length ≤ taken.length := by
    intro answer c' taken
    obtain ⟨counted, hcount⟩ := length?_of_seqWith? taken
    obtain ⟨bytes, passed, paid⟩ := pays_seqWith? consumes c c' answer taken
    exact ⟨counted, bytes, hcount, passed, by simpa using paid⟩
  refine ⟨optional, fun items c' taken => optional _ c' (seqWith?_of_seqWith taken),
    fun n counted hcount => ⟨length_itemsRead_le consumes, fun lt => ⟨?_, ?_⟩⟩,
    fun same => ⟨seqWith?_const same, seqWith_const same⟩,
    fun s => ⟨fun below n le => runFrom_unrolled below le s, fun v c' => pays_read s c c' v⟩⟩
  · exact error_of_not_ok fun answer c' => seqWith?_ne_ok_of_lt consumes hcount lt answer
  · refine error_of_not_ok fun items c' taken => ?_
    exact seqWith?_ne_ok_of_lt consumes hcount lt _ (seqWith?_of_seqWith taken)

end Registry

namespace Sample

/-- A registry of containers. -/
def containers : Registry := ⟨[bag, chain], by decide +kernel⟩

/-- A container that holds nothing at all and an empty container. -/
def nestedBags : Datum :=
  .dynamic (.composite bag.key)
    (.seq (.ofList [.null, .dynamic (.composite bag.key) (.seq .nil)]))

/-- The largest count there is, and one number behind it. -/
def overstated : Bytes := [0xff, 0xff, 0xff, 0x7f, 7, 0, 0, 0]

/-- The number is read and the sequence fails. The container is read, no deeper than it is long, and
has no more objects than it has bytes. -/
theorem reading_is_paid_nested :
    (∀ _ : Nat, Reader.int32.Consumes) ∧
      (Reader.itemsRead (fun _ => Reader.int32) 0 0x7fffffff ⟨4, [7, 0, 0, 0]⟩).length ≤ 4 ∧
      (∃ e c', (Reader.seq Reader.int32).runFrom (.start overstated) = (.error e, c')) ∧
      (∀ below, (containers.readAny (containers.unrolled below 19)).runFrom
          (.start (containers.emit nestedBags).bytes) = (.ok nestedBags, ⟨19, []⟩)) ∧
      ∃ taken, (Cursor.start (containers.emit nestedBags).bytes).Over taken ⟨19, []⟩ ∧
        nestedBags.objects = 3 ∧ 3 ≤ taken.length := by
  have consumes : ∀ _ : Nat, Reader.int32.Consumes := fun _ =>
    Reader.pays_int32.mono fun _ => by decide
  have counted : Reader.length?.runFrom (.start overstated) =
      (.ok (some 0x7fffffff), ⟨4, [7, 0, 0, 0]⟩) := by decide +kernel
  have read : (containers.read .any).runFrom (.start (containers.emit nestedBags).bytes) =
      (.ok nestedBags, ⟨19, []⟩) := by decide +kernel
  obtain ⟨_, _, counts, same, _⟩ :=
    Registry.reading_is_paid consumes containers (.start overstated)
  obtain ⟨_, _, _, _, values⟩ :=
    Registry.reading_is_paid consumes containers (.start (containers.emit nestedBags).bytes)
  obtain ⟨deep, paid⟩ := values .any
  obtain ⟨few, fails⟩ := counts _ _ counted
  obtain ⟨taken, passed, objects⟩ := paid _ _ read
  refine ⟨consumes, few, ?_, fun below => ?_, taken, passed, rfl, objects⟩
  · rw [← (same Reader.int32).2]
    exact (fails (by decide)).2
  · exact (deep below 19 (by decide +kernel)).trans read

end Sample

end RemoteDispatch
