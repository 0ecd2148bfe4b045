import RemoteDispatch.Call.Future
import RemoteDispatch.Call.Tables

/-!
# Futures and calls under names

A user who works step by step refers to things by name. `Named` holds values
under names, and a `Book` holds a store of slots together with the names of
the futures and promises that point into it.

A promise under a name is held by the book alone. It is spent when it is
completed, and given up when it is dropped or when its name is taken for a new
one; either way its slot settles.

A `Ledger` enters calls in a table of pending calls by hand, each under a
name, and notes every reply that finds its call. The reply settles the future
of the call's name. When the ledger is closed the calls that still wait are
given up, without a note.
-/

namespace RemoteDispatch

/-- Values under names, the latest first. -/
abbrev Named (α : Type) := List (String × α)

namespace Named

variable {α : Type}

/-- The value under a name. -/
def find? (l : Named α) (name : String) : Option α := l.lookup name

/-- The values without the one under a name. -/
def drop (l : Named α) (name : String) : Named α := l.filter (·.1 != name)

/-- The values with a new one under a name. -/
def put (l : Named α) (name : String) (a : α) : Named α := (name, a) :: l.drop name

end Named

/-- **A store of slots and the names in use for them.** -/
structure Book (α : Type) where
  /-- The slots. -/
  store : Futures α
  /-- The promises that are neither spent nor given up. -/
  promises : Named FutureId
  /-- The futures. -/
  futures : Named FutureId

namespace Book

variable {α : Type}

/-- The book without entries. -/
def empty : Book α := ⟨.empty, [], []⟩

/-- Puts a future that has just been made under a name. -/
def keep (b : Book α) (name : String) (made : FutureId × Futures α) : Book α :=
  { b with store := made.2, futures := b.futures.put name made.1 }

/-- **A promise and its future under one name.** A promise that had the name is given up. -/
def pair (b : Book α) (name : String) : Book α :=
  let (id, store) := b.store.promise
  let store := match b.promises.find? name with
    | some old => store.abandon old
    | none => store
  ⟨store, b.promises.put name id, b.futures.put name id⟩

/-- Spends a promise, if the name has one. -/
def complete (b : Book α) (name : String) (outcome : Outcome α) : Book α :=
  match b.promises.find? name with
  | some id => { b with store := b.store.settle id outcome, promises := b.promises.drop name }
  | none => b

/-- Forgets a future. Its slot stays as it is. -/
def forget (b : Book α) (name : String) : Book α := { b with futures := b.futures.drop name }

end Book

/-! ## Calls -/

/-- **A table of pending calls under names**, the futures of the calls and the replies noted. -/
structure Ledger (α : Type) where
  /-- The futures. -/
  book : Book α
  /-- The calls that wait, each with its name and its future; none once the ledger is closed. -/
  table : Option (PendingCalls (String × FutureId))
  /-- The names and outcomes of the replies that found their calls, in order. -/
  notes : List (String × Outcome α)

namespace Ledger

variable {α : Type}

/-- The ledger without entries. -/
def empty : Ledger α := ⟨.empty, some .empty, []⟩

/-- Enters a call under a name and says its id. A closed ledger enters nothing. -/
def register (l : Ledger α) (name : String) : Option CallId × Ledger α :=
  match l.table with
  | none => (none, l)
  | some table =>
    let (future, store) := l.book.store.promise
    let (id, table) := table.register (name, future)
    (some id, { l with book := l.book.keep name (future, store), table := some table })

/-- **Brings the outcome of a call.** The answer says whether the call was waiting. -/
def arrive (l : Ledger α) (id : CallId) (outcome : Outcome α) : Bool × Ledger α :=
  match l.table.bind (·.take id) with
  | none => (false, l)
  | some ((name, future), table) =>
    let book := { l.book with store := l.book.store.settle future outcome }
    (true, ⟨book, some table, l.notes ++ [(name, outcome)]⟩)

/-- Gives up the calls that still wait, and enters none any more. -/
def close (l : Ledger α) : Ledger α :=
  let waiting := (l.table.map (·.entries)).getD []
  let store := waiting.foldl (fun fs entry => fs.abandon entry.2.2) l.book.store
  { l with book := { l.book with store }, table := none }

end Ledger

end RemoteDispatch
