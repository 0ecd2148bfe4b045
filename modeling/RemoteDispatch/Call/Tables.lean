/-!
# Handles and pending calls

The far side names its objects by numbers, and this side names its calls by
numbers. Both are words of 64 bits that mean nothing by themselves. An
environment keeps a table for each.

A far-side object lives as long as this side holds a handle to it. All handles
to one object form a family with one count. When the last of a family goes,
the far side is told to dispose of the object, once. A raw handle that arrives
from the far side is adopted: it joins the family of its object if there is
one, and starts a family otherwise. Every operation on the table of handles is
one act that no other comes between: when a count falls to zero, the object is
disposed of and its entry goes before anything else is seen. So the table never
holds the entry of a family that is dying. A table whose acts overlap has to
tell such a family from a live one, where a handle is adopted, and the entry of
a new family from that of the one it has replaced, where the last handle goes;
no state of this table gives occasion for either.

An asynchronous call is entered in the other table under a fresh id before it
is handed to the engine, and whoever brings the reply takes the entry out
again. An id can be taken once: a second reply, or a reply to a call that never
was, finds nothing. What an entry holds is up to the owner of the table.
-/

namespace RemoteDispatch

/-! ## Names that cross the boundary -/

/-- The far side's name for an object. -/
structure RawHandle where
  /-- The number. -/
  word : UInt64
  deriving DecidableEq

/-- The text that names an object. -/
def RawHandle.text (h : RawHandle) : String := s!"obj-{h.word}"

/-- The name of an asynchronous call, unique within its environment. -/
structure CallId where
  /-- The number. -/
  word : UInt64
  deriving DecidableEq

/-- The text that names a call. -/
def CallId.text (c : CallId) : String := s!"call-{c.word}"

/-! ## Handles -/

/-- **The families of live handles**, each with its count. -/
structure HandleTable where
  /-- The raw handles that have a family, and how many handles are in it. -/
  families : List (RawHandle × Nat)
  deriving DecidableEq

namespace HandleTable

/-- The table without handles. -/
def empty : HandleTable := ⟨[]⟩

/-- The number of families. -/
def size (t : HandleTable) : Nat := t.families.length

/-- The number of live handles to an object. -/
def refs (t : HandleTable) (raw : RawHandle) : Nat :=
  ((t.families.find? (·.1 == raw)).map Prod.snd).getD 0

/-- The object has a live handle. -/
def isLive (t : HandleTable) (raw : RawHandle) : Bool := 0 < t.refs raw

/-- **One more handle** to an object, the first of a family if there is none. -/
def adopt (t : HandleTable) (raw : RawHandle) : HandleTable :=
  if t.isLive raw then
    ⟨t.families.map fun (h, n) => if h = raw then (h, n + 1) else (h, n)⟩
  else ⟨t.families ++ [(raw, 1)]⟩

/-- One more handle to an object that has a live one. -/
def get? (t : HandleTable) (raw : RawHandle) : Option HandleTable :=
  if t.isLive raw then some (t.adopt raw) else none

/-- **One handle fewer.** The answer says whether it was the last of its family, so that the object
has to be disposed of. -/
def release (t : HandleTable) (raw : RawHandle) : HandleTable × Bool :=
  match t.refs raw with
  | 0 => (t, false)
  | 1 => (⟨t.families.filter (·.1 != raw)⟩, true)
  | _ => (⟨t.families.map fun (h, n) => if h = raw then (h, n - 1) else (h, n)⟩, false)

/-- A handle with the size of its family. -/
def handleDescription (t : HandleTable) (raw : RawHandle) : String :=
  s!"RemoteHandle \x7b raw: RawHandle({raw.word}), refs: {t.refs raw} \x7d"

/-- A target with its handle. -/
def targetDescription (t : HandleTable) (raw : RawHandle) : String :=
  s!"Target \x7b handle: {t.handleDescription raw} \x7d"

end HandleTable

/-! ## Pending calls -/

/-- **The calls that wait for a reply.** -/
structure PendingCalls (β : Type) where
  /-- The waiting calls, oldest first. -/
  entries : List (CallId × β)
  /-- The id of the next call. -/
  next : CallId

namespace PendingCalls

variable {β : Type}

/-- The table of an environment that has made no call. -/
def empty : PendingCalls β := ⟨[], ⟨1⟩⟩

/-- The number of calls that wait. -/
def size (t : PendingCalls β) : Nat := t.entries.length

/-- What is held for a call. -/
def find? (t : PendingCalls β) (id : CallId) : Option β :=
  (t.entries.find? (·.1 == id)).map Prod.snd

/-- The table without a call. -/
def erase (t : PendingCalls β) (id : CallId) : PendingCalls β :=
  { t with entries := t.entries.filter (·.1 != id) }

/-- **Enters a call** under the next id. -/
def register (t : PendingCalls β) (held : β) : CallId × PendingCalls β :=
  (t.next, { entries := (t.erase t.next).entries ++ [(t.next, held)], next := ⟨t.next.word + 1⟩ })

/-- **Takes a call out**, if it is still there. -/
def take (t : PendingCalls β) (id : CallId) : Option (β × PendingCalls β) :=
  (t.find? id).map fun held => (held, t.erase id)

end PendingCalls

end RemoteDispatch
