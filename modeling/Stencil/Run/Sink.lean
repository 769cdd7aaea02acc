import Stencil.Error

/-!
# Sinks

A sink is the record of what was written: the lines accepted and the flushes. It may refuse
lines beyond a number, and it may refuse to be flushed.
-/

namespace Stencil

/-- What a run has written, and how much more is accepted. -/
structure Sink where
  lines : Array String := #[]
  flushes : Nat := 0
  /-- The number of lines from which on every further one is refused, and the cause given. -/
  limit : Option (Nat × IoError) := none
  /-- The cause given when a flush is refused. -/
  flushFailure : Option IoError := none
deriving DecidableEq, Repr

namespace Sink

/-- The sink with a further line. -/
def write (s : Sink) (line : String) : Except IoError Sink :=
  match s.limit with
  | some (n, cause) =>
    if n ≤ s.lines.size then .error cause else .ok { s with lines := s.lines.push line }
  | none => .ok { s with lines := s.lines.push line }

/-- The sink after a flush. -/
def flush (s : Sink) : Except IoError Sink :=
  match s.flushFailure with
  | some cause => .error cause
  | none => .ok { s with flushes := s.flushes + 1 }

end Sink

end Stencil
