import LiveTables.Coordinator
import LiveTables.Notice

namespace LiveTables

/-- All objects by their numbers, and the notices given so far, the latest first. A number that
names nothing reads as an empty object, and changing it changes nothing, so every operation is
total. -/
structure World where
  stores : List Store := []
  registries : List Registry := []
  hubs : List Hub := []
  coordinators : List Coordinator := []
  notices : List Notice := []
deriving Inhabited

namespace World

def store (w : World) (s : StoreId) : Store := w.stores.getD s default

def registry (w : World) (r : RegistryId) : Registry := w.registries.getD r default

def hub (w : World) (h : HubId) : Hub := w.hubs.getD h default

def coordinator (w : World) (c : CoordinatorId) : Coordinator := w.coordinators.getD c default

/-- The store behind a handle, if it holds records of the given type. -/
def downcast? (w : World) (s : StoreId) (type : RecordType) : Option StoreId :=
  if (w.store s).recordType == type then some s else none

/-- The store of a type in a registry, for typed use. -/
def typedStore? (w : World) (r : RegistryId) (type : RecordType) : Option StoreId :=
  ((w.registry r).store? type).bind fun s => w.downcast? s type

/-- The figures of a registry's stores, in the order of their installation. -/
def registryStats (w : World) (r : RegistryId) : List StoreStats :=
  let it := w.registry r
  it.types.filterMap fun type => (it.store? type).map fun s => (w.store s).stats

def describeCoordinator (w : World) (c : CoordinatorId) : String :=
  let it := w.coordinator c
  "ReloadCoordinator \x7b config: " ++ it.config.describe ++
    ", registry: " ++ (w.registry it.registry).describe ++
    ", listeners: " ++ (w.hub it.hub).describe ++
    ", initialized: " ++ toString it.initialized ++
    ", cycles: " ++ toString it.cycles ++ " \x7d"

def setStore (w : World) (s : StoreId) (it : Store) : World :=
  { w with stores := w.stores.set s it }

def setRegistry (w : World) (r : RegistryId) (it : Registry) : World :=
  { w with registries := w.registries.set r it }

def setHub (w : World) (h : HubId) (it : Hub) : World := { w with hubs := w.hubs.set h it }

def setCoordinator (w : World) (c : CoordinatorId) (it : Coordinator) : World :=
  { w with coordinators := w.coordinators.set c it }

theorem store_setStore (w : World) {s : StoreId} (inRange : s < w.stores.length) (it : Store)
    (t : StoreId) : (w.setStore s it).store t = if s = t then it else w.store t := by
  by_cases same : s = t
  · subst same
    simp [store, setStore, List.getD_eq_getElem?_getD, inRange]
  · simp [store, setStore, List.getD_eq_getElem?_getD, same]

theorem registry_setRegistry (w : World) {r : RegistryId} (inRange : r < w.registries.length)
    (it : Registry) (q : RegistryId) :
    (w.setRegistry r it).registry q = if r = q then it else w.registry q := by
  by_cases same : r = q
  · subst same
    simp [registry, setRegistry, List.getD_eq_getElem?_getD, inRange]
  · simp [registry, setRegistry, List.getD_eq_getElem?_getD, same]

theorem hub_setHub (w : World) {h : HubId} (inRange : h < w.hubs.length) (it : Hub)
    (g : HubId) : (w.setHub h it).hub g = if h = g then it else w.hub g := by
  by_cases same : h = g
  · subst same
    simp [hub, setHub, List.getD_eq_getElem?_getD, inRange]
  · simp [hub, setHub, List.getD_eq_getElem?_getD, same]

theorem coordinator_setCoordinator (w : World) {c : CoordinatorId}
    (inRange : c < w.coordinators.length) (it : Coordinator) (d : CoordinatorId) :
    (w.setCoordinator c it).coordinator d = if c = d then it else w.coordinator d := by
  by_cases same : c = d
  · subst same
    simp [coordinator, setCoordinator, List.getD_eq_getElem?_getD, inRange]
  · simp [coordinator, setCoordinator, List.getD_eq_getElem?_getD, same]

def note (w : World) (n : Notice) : World := { w with notices := n :: w.notices }

def addStore (w : World) (it : Store) : World × StoreId :=
  ({ w with stores := w.stores ++ [it] }, w.stores.length)

def addRegistry (w : World) (it : Registry) : World × RegistryId :=
  ({ w with registries := w.registries ++ [it] }, w.registries.length)

def addHub (w : World) (it : Hub) : World × HubId :=
  ({ w with hubs := w.hubs ++ [it] }, w.hubs.length)

/-- A coordinator with a hub of its own, over a given registry or a new one at its configured
location. -/
def addCoordinator (w : World) (config : Config) (registry : Option RegistryId)
    (discovery : Discovery) : World × CoordinatorId :=
  let (w, registry) := match registry with
    | some r => (w, r)
    | none => w.addRegistry { location := config.location }
  let (w, hub) := w.addHub {}
  ({ w with coordinators := w.coordinators ++ [.fresh config registry hub discovery] },
    w.coordinators.length)

def registerIndex (w : World) (s : StoreId) (d : IndexDef) : World × Option Fault :=
  match (w.store s).registerIndex d with
  | (it, none) =>
    ((w.setStore s it).note (.indexRegistered it.recordType.name d.name), none)
  | (it, some fault) => (w.setStore s it, some fault)

/-- The store of a type, which is made and installed if the type is new to the registry. -/
def install (w : World) (r : RegistryId) (type : RecordType) (make : Location → Store) :
    World × StoreId :=
  let it := w.registry r
  match it.store? type with
  | some s => (w, s)
  | none =>
    let (w, s) := w.addStore (make it.location)
    ((w.setRegistry r (it.install type s)).note
      (.storeCreated type.name it.location.display), s)

/-- The store of a type for typed use. An earlier store of the type keeps its own loader. -/
def ensure (w : World) (r : RegistryId) (type : RecordType) (loader : LoaderId) :
    World × Except Error StoreId :=
  let (w, s) := w.install r type fun location => .fresh type location loader
  match w.downcast? s type with
  | some s => (w, .ok s)
  | none => (w, .error (.typeMismatch type.name))

/-- The store of a binding's type. An earlier store of the type keeps its own loader. -/
def ensureBinding (w : World) (r : RegistryId) (b : Binding) : World × StoreId :=
  w.install r b.recordType b.createStore

/-- Lets a listener join a hub, and says so if it has joined before. -/
def register (w : World) (h : HubId) (l : Listener) : World :=
  let it := w.hub h
  if it.holds l then w.note (.listenerKnown l.name) else w.setHub h (it.register l)

def queue (w : World) (c : CoordinatorId) (l : Listener) : World :=
  let it := w.coordinator c
  w.setCoordinator c { it with pending := it.pending ++ [l] }

/-- Moves the waiting listeners of a coordinator into its hub. -/
def collectPending (w : World) (c : CoordinatorId) : World :=
  let it := w.coordinator c
  it.pending.foldl (fun w l => w.register it.hub l) (w.setCoordinator c { it with pending := [] })

/-- Notes that an initial load of a coordinator has begun. -/
def latch (w : World) (c : CoordinatorId) : World :=
  w.setCoordinator c { w.coordinator c with initialized := true }

def endCycle (w : World) (c : CoordinatorId) : World :=
  let it := w.coordinator c
  w.setCoordinator c { it with cycles := it.cycles + 1 }

/-- Concludes a reload and gives notice of a publication or a refusal. -/
def concludeReload (w : World) (s : StoreId) (plan : Plan) (loaded : Outcome (List Record)) :
    World × Outcome Nat :=
  let (it, outcome) := (w.store s).conclude plan loaded
  let w := w.setStore s it
  match outcome with
  | .done count => (w.note (.storeReloaded it.recordType.name it.current.number count), outcome)
  | .failed e =>
    (w.note (.reloadRefused it.recordType.name it.location.display e.message), outcome)
  | .faulted _ => (w, outcome)

end World

end LiveTables
