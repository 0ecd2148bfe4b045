import RemoteDispatch.Wire.Cursor
import RemoteDispatch.Wire.Registry

/-!
# Reading values back

Reading follows a `Shape` and yields the `Datum` that was written. Objects are
read in two ways: with a type in hand, which the frame has to match, or with
the type taken from the frame.

A shape refers to other composites by type, and those to yet others, so the
depth of a message is not bounded by any shape. It is bounded by its bytes:
every composite object spends five of them on its frame before its payload
begins. `Registry.payload` allows one level of nesting per byte ahead and one
more, so no message is cut short.
-/

namespace RemoteDispatch

namespace Registry

/-! ## Objects

The payload of a composite is read by `payload`, a parameter here. -/

/-- **Reads the payload of an object of a given type.** The registration is checked before anything
is taken, then the tag, then the id. -/
def readObject (r : Registry) (payload : Descriptor → Reader Datum) : TypeRef → Reader Datum
  | .primitive p => do
    let tag ← Reader.byte
    if tag = nullTag then throw (.unexpectedNull p.name)
    else if tag = p.tag then .scalar <$> Reader.scalar p
    else throw (.invalidTag tag)
  | .composite k =>
    match r.byKey k with
    | none => throw (.unregistered k.name)
    | some d => do
      let tag ← Reader.byte
      if tag = nullTag then throw (.unexpectedNull k.name)
      else if tag = compositeTag then
        let id ← Reader.int32
        if id = d.id then payload d
        else
          match r.byId id with
          | some found => throw (.typeMismatch k.name found.name)
          | none => throw (.typeMismatch k.name s!"type id {id}")
      else throw (.invalidTag tag)

/-- Reads the payload of an object of a given type that may be absent. -/
def readNullable (r : Registry) (payload : Descriptor → Reader Datum) (t : TypeRef) :
    Reader (Option Datum) :=
  match r.check t with
  | .error e => throw e
  | .ok () => do
    if (← Reader.peek) = nullTag then
      let _ ← Reader.byte
      return none
    else some <$> r.readObject payload t

/-- **Reads an object of any type**, or the absent one. -/
def readAny (r : Registry) (payload : Descriptor → Reader Datum) : Reader Datum := do
  let tag ← Reader.byte
  if tag = nullTag then return .null
  else
    match Primitive.ofTag? tag with
    | some p => (fun s => .dynamic (.primitive p) (.scalar s)) <$> Reader.scalar p
    | none =>
      if tag = compositeTag then
        let id ← Reader.int32
        match r.byId id with
        | some d => .dynamic d.type <$> payload d
        | none => throw (.unknownTypeId id)
      else throw (.invalidTag tag)

/-! ## Shapes -/

/-- The text that is there, or the mark of its absence. -/
def textDatum : Option String → Datum
  | some s => .scalar (.text s)
  | none => .noText

/-- **Reads what a shape lays out.** -/
def readAs (r : Registry) (payload : Descriptor → Reader Datum) : Shape → Reader Datum
  | .unit => return .nil
  | .pair first second => do
    let a ← r.readAs payload first
    let b ← r.readAs payload second
    return .cons a b
  | .byte => .byte <$> Reader.byte
  | .scalar p => .scalar <$> Reader.scalar p
  | .text => textDatum <$> Reader.text?
  | .textOrEmpty => (fun s => .scalar (.text (s.getD ""))) <$> Reader.text?
  | .seq item => (fun ds => .seq (.ofList ds)) <$> Reader.seq (r.readAs payload item)
  | .nullableSeq item => do
    match ← Reader.seq? (r.readAs payload item) with
    | some ds => return .seq (.ofList ds)
    | none => return .noSeq
  | .object t => .object t <$> r.readObject payload t
  | .nullable t => do
    match ← r.readNullable payload t with
    | some d => return .object t d
    | none => return .absent t
  | .any => r.readAny payload
  | .flagged part => do
    if (← Reader.byte) != 0 then .cons (.scalar (.bool true)) <$> r.readAs payload part
    else return .cons (.scalar (.bool false)) .nil
  | .bounded bound => do
    let b ← Reader.byte
    if bound < b then throw (.invalidLength (Int32.ofNat b.toNat))
    else return .bounded bound b

/-- Reads the payload of a registered type, with at most `depth` payloads inside one another. -/
def readPayload (r : Registry) : Nat → Descriptor → Reader Datum
  | 0, _ => throw .unexpectedEnd
  | depth + 1, d => r.readAs (r.readPayload depth) d.shape

/-- Reads the payload of a registered type, with payloads nested as deep as the bytes ahead
allow. -/
def payload (r : Registry) (d : Descriptor) : Reader Datum := do
  r.readPayload ((← Reader.remaining) + 1) d

/-- **Reads a value of a shape.** -/
def read (r : Registry) (s : Shape) : Reader Datum := r.readAs r.payload s

end Registry

/-- **How the result of a call is read**, given the registry in force. -/
abbrev Decoder (α : Type) := Registry → Reader α

end RemoteDispatch
