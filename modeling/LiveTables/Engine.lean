import LiveTables.Call

namespace LiveTables

/-- A world and the calls that wait in it, the latest first. A call that outside code makes stands
above the one that waits for that code, so nesting to any depth needs nothing more. -/
structure Engine where
  world : World := {}
  waits : List Wait := []
deriving Inhabited

/-- One step of a run: a call, or the end of the outside work on top of the stack. -/
inductive Move where
  | call (c : Call)
  | loaded (outcome : Outcome (List Record))
  | heard (outcome : Outcome Unit)
  | found (bindings : List Binding)

namespace Engine

/-- Enters the progress of a call above the waits below it. -/
def advance (waits : List Wait) (next : World × Progress) : Engine × Option Reply :=
  match next.2 with
  | .done reply => (⟨next.1, waits⟩, some reply)
  | .waiting wait => (⟨next.1, wait :: waits⟩, none)

/-- Makes a move. The reply is that of the call which the move completes, if it completes one. A
move that the top of the stack does not wait for changes nothing. -/
def step (e : Engine) (move : Move) : Engine × Option Reply :=
  match move, e.waits with
  | .call c, waits => advance waits (e.world.begin c)
  | .loaded outcome, .load wait :: waits => advance waits (e.world.loaded wait outcome)
  | .heard outcome, .listener wait :: waits => advance waits (e.world.heard wait outcome)
  | .found bindings, .discovery wait :: waits =>
    advance waits (e.world.found wait.coordinator bindings)
  | _, _ => (e, none)

/-- Makes moves one after another. -/
def run (e : Engine) (moves : List Move) : Engine := moves.foldl (fun e m => (e.step m).1) e

/-- A run can be cut at any move. -/
theorem run_append (e : Engine) (moves later : List Move) :
    e.run (moves ++ later) = (e.run moves).run later := List.foldl_append

end Engine

end LiveTables
