import LiveTables.Config
import LiveTables.Listener
import LiveTables.Registry

namespace LiveTables

/-- A registry, by its number. -/
abbrev RegistryId := Nat

abbrev HubId := Nat

abbrev CoordinatorId := Nat

/-- Loads a registry from discovered bindings and tells the listeners of a hub when it has. Its
latch is set by its first initial load, and from then on initial loads are skipped unless the
configuration lets them run again. -/
structure Coordinator where
  config : Config
  registry : RegistryId
  hub : HubId
  discovery : Discovery
  /-- Listeners that join the hub when the next pass begins. -/
  pending : List Listener := []
  /-- Set by the first initial load and never cleared. -/
  initialized : Bool := false
  cycles : Nat := 0
deriving Inhabited

def Coordinator.fresh (config : Config) (registry : RegistryId) (hub : HubId)
    (discovery : Discovery) : Coordinator where
  config := config
  registry := registry
  hub := hub
  discovery := discovery

end LiveTables
