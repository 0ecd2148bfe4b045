import RemoteDispatch.Call.Error

/-!
# Futures

The result of an asynchronous call arrives later, once, or never. A *slot*
stands for it: pending at first, then settled for good with a value or an
error. Whoever settles it holds its promise; everyone else looks, or leaves a
waker to be woken when it settles.

Several slots can be *joined* into one that settles with all their values, in
the order they were given, or with the first error among them. A joined slot
is a slot like any other and can be joined again. It is always younger than
its inputs, so settling one slot reaches a joined slot along a path of
increasing numbers, no longer than the store of slots.
-/

namespace RemoteDispatch

/-- What a call yields: a value, or what each of several joined calls yields. -/
inductive Yield (α : Type) where
  | one (value : α)
  | all (values : List (Yield α))

/-- How a call ends. -/
abbrev Outcome (α : Type) := Except CallError (Yield α)

/-- The number of a slot. -/
abbrev FutureId := Nat

/-- Someone to be woken when a slot settles. -/
abbrev Waker := String

/-- The place of an input in a joined slot. -/
structure Listener where
  /-- The joined slot. -/
  joined : FutureId
  /-- The place of the input among the joined slot's inputs. -/
  place : Nat
  deriving DecidableEq

/-- What a joined slot has gathered from its inputs. -/
structure Gathering (α : Type) where
  /-- The values so far, one place per input. -/
  values : List (Option (Yield α))
  /-- How many inputs have not yielded a value. -/
  remaining : Nat
  /-- The joined slot is yet to be settled. -/
  isOpen : Bool

namespace Gathering

variable {α : Type}

/-- The gathering of `n` inputs before any has settled. -/
def start (n : Nat) : Gathering α := ⟨List.replicate n none, n, true⟩

/-- The gathering with one more input counted in. -/
def record (g : Gathering α) (place : Nat) (value : Yield α) : Gathering α :=
  { g with values := g.values.set place (some value), remaining := g.remaining - 1 }

/-- **Counts in the outcome of one input**, and says how the joined slot ends if that decides it.
The first error decides, and so does the last value. -/
def observe (g : Gathering α) (place : Nat) : Outcome α → Gathering α × Option (Outcome α)
  | .ok value =>
    let g := g.record place value
    if g.remaining = 0 ∧ g.isOpen then
      ({ g with isOpen := false }, some (.ok (.all (g.values.filterMap id))))
    else (g, none)
  | .error e => if g.isOpen then ({ g with isOpen := false }, some (.error e)) else (g, none)

end Gathering

/-- The place where one result arrives. -/
structure Slot (α : Type) where
  /-- How the call ended, once it has. -/
  outcome : Option (Outcome α)
  /-- Who is to be woken, each once. -/
  wakers : List Waker
  /-- The joined slots that wait for this one. -/
  listeners : List Listener
  /-- What this slot has gathered, if it is a joined one. -/
  gathering : Option (Gathering α)

/-- A slot that nothing has happened to. -/
def Slot.pending {α : Type} : Slot α := ⟨none, [], [], none⟩

/-- **A store of slots**, and who has been woken so far. -/
structure Futures (α : Type) where
  /-- The slots in the order they were made. -/
  slots : List (Slot α)
  /-- Who has been woken, in order. -/
  woken : List Waker

namespace Futures

variable {α : Type}

/-- The store without slots. -/
def empty : Futures α := ⟨[], []⟩

/-- The outcome of a slot, once it has settled. -/
def outcome? (fs : Futures α) (id : FutureId) : Option (Outcome α) :=
  fs.slots[id]?.bind Slot.outcome

/-- The slot has settled. -/
def isReady (fs : Futures α) (id : FutureId) : Bool := (fs.outcome? id).isSome

/-- How often a waker has been woken. -/
def wakes (fs : Futures α) (waker : Waker) : Nat := fs.woken.count waker

/-- The store with one slot changed. -/
def modify (fs : Futures α) (id : FutureId) (f : Slot α → Slot α) : Futures α :=
  { fs with slots := fs.slots.modify id f }

/-- Adds a slot. -/
def add (fs : Futures α) (slot : Slot α) : FutureId × Futures α :=
  (fs.slots.length, { fs with slots := fs.slots ++ [slot] })

/-- Adds a pending slot. -/
def promise (fs : Futures α) : FutureId × Futures α := fs.add .pending

/-- Adds a slot that has settled. -/
def ready (fs : Futures α) (outcome : Outcome α) : FutureId × Futures α :=
  fs.add { Slot.pending with outcome := some outcome }

/-! ## Settling -/

/-- Tells a joined slot how one of its inputs ended. `settle` settles the joined slot if that
decides it. -/
def tell (settle : FutureId → Outcome α → Futures α → Futures α) (outcome : Outcome α)
    (fs : Futures α) (l : Listener) : Futures α :=
  match fs.slots[l.joined]?.bind Slot.gathering with
  | none => fs
  | some g =>
    let (g, decided) := g.observe l.place outcome
    let fs := fs.modify l.joined fun slot => { slot with gathering := some g }
    match decided with
    | some end_ => settle l.joined end_ fs
    | none => fs

/-- The store after wakers have been woken, in order. -/
def wake (fs : Futures α) (wakers : List Waker) : Futures α :=
  { fs with woken := fs.woken ++ wakers }

/-- Settles a slot, tells the joined slots and then wakes who waits for it, through at most `depth`
joined slots in a row. -/
def settleWithin : Nat → FutureId → Outcome α → Futures α → Futures α
  | 0, _, _, fs => fs
  | depth + 1, id, outcome, fs =>
    match fs.slots[id]? with
    | none => fs
    | some slot =>
      if slot.outcome.isSome then fs
      else
        let settled := { slot with outcome := some outcome, wakers := [], listeners := [] }
        let fs := { fs with slots := fs.slots.set id settled }
        (slot.listeners.foldl (tell (settleWithin depth) outcome) fs).wake slot.wakers

/-- **Settles a slot.** A slot that has settled stays as it is. -/
def settle (fs : Futures α) (id : FutureId) (outcome : Outcome α) : Futures α :=
  settleWithin fs.slots.length id outcome fs

/-- Settles a slot whose promise is given up. -/
def abandon (fs : Futures α) (id : FutureId) : Futures α := fs.settle id (.error .abandoned)

/-! ## Waiting -/

/-- **Looks at a slot** and leaves a waker if it is pending. The same waker is left once only. -/
def poll (fs : Futures α) (id : FutureId) (waker : Waker) : Option (Outcome α) × Futures α :=
  match fs.outcome? id with
  | some outcome => (some outcome, fs)
  | none =>
    (none, fs.modify id fun slot =>
      if waker ∈ slot.wakers then slot else { slot with wakers := slot.wakers ++ [waker] })

/-! ## Joining -/

/-- Has a joined slot learn of an input: at once if the input has settled, later otherwise. -/
def attend (fs : Futures α) (input : FutureId) (l : Listener) : Futures α :=
  match fs.outcome? input with
  | some outcome => tell (fun id outcome fs => fs.settle id outcome) outcome fs l
  | none => fs.modify input fun slot => { slot with listeners := slot.listeners ++ [l] }

/-- **Joins slots into one.** It settles with the values of all of them, in the order given, or with
the first error. -/
def join (fs : Futures α) (inputs : List FutureId) : FutureId × Futures α :=
  match inputs with
  | [] => fs.ready (.ok (.all []))
  | _ =>
    let (joined, fs) := fs.add { Slot.pending with gathering := some (.start inputs.length) }
    (joined, inputs.zipIdx.foldl (fun fs (input, place) => fs.attend input ⟨joined, place⟩) fs)

end Futures

end RemoteDispatch
