/-!
The reaper: at every tick of its timer it sweeps the tasks that became too old and then forgets the
executions that need not be known any more. It can be shut down at any time; a sweep in progress is
finished. The timer and the shutdown are waited for together, and which of the two is taken up when both
have come is left open.
-/

namespace SchemaQuery.Tracker

namespace Reaper

/-- What a reaper is doing. -/
inductive Phase where
  /-- It waits for a tick or a shutdown. -/
  | waiting
  /-- It sweeps. -/
  | sweeping
  /-- It has stopped. -/
  | stopped
deriving DecidableEq, Repr

/-- A reaper. -/
structure State where
  phase : Phase
  /-- How many ticks have come that were not taken up yet. A tick that comes during a sweep is not lost. -/
  pending : Nat
  /-- Whether it was shut down. -/
  cancelled : Bool
deriving DecidableEq, Repr

/-- A reaper that has just been started. -/
def State.fresh : State := ⟨.waiting, 0, false⟩

/-- What can happen to a reaper. -/
inductive Event where
  /-- The timer ticks. -/
  | tick
  /-- The reaper is shut down, or nobody holds it any more. -/
  | shutdown
  /-- A tick is taken up, and a sweep begins. -/
  | beginSweep
  /-- The sweep ends. -/
  | endSweep
  /-- The shutdown is taken up. -/
  | stop
deriving DecidableEq, Repr

/-- The reaper after an event, if it can happen. -/
def State.step? (s : State) : Event → Option State
  | .tick => some { s with pending := s.pending + 1 }
  | .shutdown => some { s with cancelled := true }
  | .beginSweep =>
    if s.phase = .waiting ∧ 0 < s.pending then
      some { s with phase := .sweeping, pending := s.pending - 1 }
    else none
  | .endSweep => if s.phase = .sweeping then some { s with phase := .waiting } else none
  | .stop => if s.phase = .waiting ∧ s.cancelled then some { s with phase := .stopped } else none

/-- The reaper after some events, if they can happen one after the other. -/
def State.run? (s : State) (events : List Event) : Option State := events.foldlM State.step? s

end Reaper

end SchemaQuery.Tracker
