import LiveTables.World

namespace LiveTables

/-- What a pass reloads. Its store is looked up when its turn comes. -/
inductive PassItem where
  | installed (type : RecordType)
  /-- A binding whose store is ensured first. -/
  | bound (b : Binding)

/-- What follows the last reload of a pass. -/
inductive PassEnd where
  /-- The pass covered a registry, and its report is the answer. -/
  | registry
  /-- A coordinator's listeners are told. -/
  | refresh (c : CoordinatorId)
  /-- A coordinator's listeners are told, and the initial load is complete. -/
  | initialization (c : CoordinatorId) (types : Nat)

structure Pass where
  registry : RegistryId
  todo : List PassItem
  report : Report := {}
  ending : PassEnd

/-- What a reload is for. -/
inductive ReloadPurpose where
  | answer
  | pass (type : RecordType) (rest : Pass)

inductive RoundPurpose where
  | answer
  | refresh (c : CoordinatorId) (report : Report)
  | initialization (c : CoordinatorId) (types : Nat) (report : Report)

structure LoadWait where
  store : StoreId
  plan : Plan
  purpose : ReloadPurpose

structure ListenerWait where
  listener : Listener
  todo : List Listener
  failures : List ListenerFailure
  purpose : RoundPurpose

structure DiscoveryWait where
  coordinator : CoordinatorId
  discovery : Nat
  scope : String

/-- What is left of a call that waits for outside code. Loaders, listeners and discovery are such
code, and while one of them works it can make any call itself, so a call does not run to its end: it
goes on until it needs outside code, and what is left of it is held as data. -/
inductive Wait where
  | load (w : LoadWait)
  | listener (w : ListenerWait)
  | discovery (w : DiscoveryWait)

inductive Reply where
  | unit
  | made (number : Nat)
  | flag (b : Bool)
  | failed (e : Error)
  | faulted (f : Fault)
  | reloaded (outcome : Outcome Nat)
  | passed (report : Report)
  | skipped
  | initialized (report : Report)
  | notified (failures : List ListenerFailure)

/-- How far a call has come: to its answer, or to a wait. -/
inductive Progress where
  | done (reply : Reply)
  | waiting (wait : Wait)

end LiveTables
