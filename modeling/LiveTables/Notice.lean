namespace LiveTables

inductive Severity where
  | debug
  | info
  | error
deriving DecidableEq, Repr

/-- What a run of the tables reports about itself as it goes. -/
inductive Notice where
  | indexRegistered (typeName index : String)
  | storeReloaded (typeName : String) (generation records : Nat)
  | reloadRefused (typeName location error : String)
  | storeCreated (typeName location : String)
  | reloadBroken (typeName reason : String)
  | passComplete (loaded failed records : Nat)
  | listenerKnown (name : String)
  | listenerFailed (listener reason : String)
  | alreadyInitialized
  | nothingDiscovered (scope location : String)
  | initializationComplete (types loaded failed listenerFailures : Nat)
deriving DecidableEq, Repr

namespace Notice

def severity : Notice → Severity
  | indexRegistered .. | listenerKnown .. => .debug
  | storeReloaded .. | storeCreated .. | passComplete .. | alreadyInitialized
  | initializationComplete .. => .info
  | reloadRefused .. | reloadBroken .. | listenerFailed .. | nothingDiscovered .. => .error

/-- The channel that a notice is written to. -/
def channel : Notice → String
  | indexRegistered .. | storeReloaded .. | reloadRefused .. => "basedb::store"
  | storeCreated .. | reloadBroken .. | passComplete .. => "basedb::registry"
  | listenerKnown .. | listenerFailed .. | alreadyInitialized | nothingDiscovered ..
  | initializationComplete .. => "basedb::reload"

def message : Notice → String
  | indexRegistered .. => "Index registered"
  | storeReloaded .. => "Store reloaded"
  | reloadRefused .. => "Reload failed, keeping previous generation"
  | storeCreated .. => "Store created"
  | reloadBroken .. => "Store reload panicked"
  | passComplete .. => "Reload pass complete"
  | listenerKnown .. => "Listener already registered"
  | listenerFailed .. => "Reload listener failed"
  | alreadyInitialized => "Already initialized, skipping"
  | nothingDiscovered .. => "No record types discovered"
  | initializationComplete .. => "Initialization complete"

def details : Notice → List (String × String)
  | indexRegistered typeName index => [("type_name", typeName), ("index", index)]
  | storeReloaded typeName generation records =>
    [("type_name", typeName), ("generation", toString generation), ("records", toString records)]
  | reloadRefused typeName location error =>
    [("type_name", typeName), ("location", location), ("error", error)]
  | storeCreated typeName location => [("type_name", typeName), ("location", location)]
  | reloadBroken typeName reason => [("type_name", typeName), ("error", reason)]
  | passComplete loaded failed records =>
    [("loaded", toString loaded), ("failed", toString failed), ("records", toString records)]
  | listenerKnown name => [("name", name)]
  | listenerFailed listener reason => [("listener", listener), ("error", reason)]
  | alreadyInitialized => []
  | nothingDiscovered scope location => [("scope", scope), ("location", location)]
  | initializationComplete types loaded failed listenerFailures =>
    [("types", toString types), ("loaded", toString loaded), ("failed", toString failed),
      ("listener_failures", toString listenerFailures)]

end Notice

end LiveTables
