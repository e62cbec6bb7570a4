import LiveTables.Engine

namespace LiveTables.Scenario

/-- The whole content of a generation, its keys in increasing order. -/
structure Dump where
  generation : Nat
  ids : List RecordId
  index : List (String × List RecordId)

structure CoordinatorState where
  cycles : Nat
  initialized : Bool
  listeners : List String
  config : Config
  stats : List StoreStats

/-- What a step of a scenario answers. -/
inductive Answer where
  | unit
  | flag (b : Bool)
  | number (n : Nat)
  | text (s : String)
  | texts (list : List String)
  | sizeAndEmpty (size : Nat) (isEmpty : Bool)
  | ids (list : List RecordId)
  | record (r : Option Record)
  | records (list : List Record)
  | type (t : RecordType)
  | stats (s : StoreStats)
  | statsList (list : List StoreStats)
  | report (r : Report)
  | skipped
  | initialized (r : Report)
  | failures (list : List ListenerFailure)
  | dump (d : Dump)
  | binding (b : Binding)
  | bindings (list : List Binding)
  | config (c : Config)
  | state (s : CoordinatorState)
  /-- The names of the objects that are the same instance. -/
  | sameAs (names : List String)
  | failed (e : Error)
  | faulted (f : Fault)
  /-- The step could not be played. -/
  | refused (reason : String)
deriving Inhabited

mutual

/-- What happens while a step is played. -/
inductive Event where
  | load (typeName tag : String) (call : Nat) (location : String) (during : List Entry)
  | listener (label : String) (call : Nat) (during : List Entry)
  | discover (scope : String) (call : Nat)
  | notice (n : Notice)

/-- The answer of a step with the events it caused, in their order. -/
inductive Entry where
  | mk (answer : Answer) (events : List Event)

end

end LiveTables.Scenario
