import RemoteDispatch.Engine.Loopback

/-!
# Handlers made of steps

A handler often reads a part, decides, writes a part, and reads on. A `Step`
is one such part: it takes the place in the arguments at which it starts, and
either says where the next step starts or ends the handler. Whatever goes
wrong with the codec ends the handler with the failure that stands for it.
-/

namespace RemoteDispatch

/-- **A part of a handler**, from one place in the arguments to another. -/
abbrev Step := Request → Cursor → Script (Except Ending Cursor)

namespace Step

variable {α : Type}

/-- Does nothing. -/
def skip : Step := fun _ c => .finish (.ok c)

/-- Ends the handler. -/
def stop (e : Ending) : Step := fun _ _ => .finish (.error e)

/-- One step and then another. -/
def followedBy (first second : Step) : Step := fun q c =>
  (first q c).bind fun
    | .ok c => second q c
    | .error e => .finish (.error e)

/-- Reads a part of the arguments and goes on as it suggests. -/
def reading (decode : Decoder α) (next : α → Step) : Step := fun q c =>
  match (decode q.registry).runFrom c with
  | (.ok a, c) => next a q c
  | (.error e, _) => .finish (.error (.failed (.ofCodec e)))

/-- Reads a part of the arguments and forgets it. -/
def read (decode : Decoder α) : Step := reading decode fun _ => skip

/-- Writes a part of the result. -/
def write (e : Registry → Emission) : Step := fun q c =>
  .write (e q.registry) fun
    | .ok (), _ => .finish (.ok c)
    | .error e, _ => .finish (.error (.failed (.ofCodec e)))

/-- Steps one after another. -/
def sequence : List Step → Step
  | [] => skip
  | s :: ss => s.followedBy (sequence ss)

/-- Goes on as the thread suggests that the handler runs on. -/
def onThread (next : Bool → Step) : Step := fun q c => next q.onEngineThread q c

end Step

/-- **The handler of a step** that starts at the front of the arguments. -/
def Handler.ofStep (s : Step) : Handler := fun q =>
  (s q (.start q.argument)).bind fun
    | .ok _ => .finish .done
    | .error e => .finish e

end RemoteDispatch
