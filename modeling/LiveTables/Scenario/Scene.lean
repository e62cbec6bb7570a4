import LiveTables.Files
import LiveTables.Scenario.Answer
import LiveTables.Scenario.Step

namespace LiveTables.Scenario

inductive Object where
  | store (s : StoreId)
  /-- A store whose type has been forgotten. -/
  | erased (s : StoreId)
  | snapshot (s : StoreId) (number : Nat)
  /-- A generation that belongs to no store. -/
  | generation (type : RecordType) (g : Generation)
  | binding (b : Binding)
  | catalog (c : Catalog)
  | registry (r : RegistryId)
  | hub (h : HubId)
  | listener (l : Listener)
  | coordinator (c : CoordinatorId)

/-- A scripted loader with the number of its calls so far. -/
structure LoaderState where
  script : LoaderScript Step
  calls : Nat := 0

/-- A scripted listener with the number of its calls so far. -/
structure ListenerState where
  label : String
  turns : List (Turn Step Unit)
  calls : Nat := 0

/-- Scripted discovery with the number of its calls so far. -/
structure DiscoveryState where
  rounds : List (List Binding)
  calls : Nat := 0

/-- Everything a scenario has made so far. The events are those of the step that is being played,
the latest first. -/
structure Scene where
  engine : Engine := {}
  objects : List (String × Object) := []
  files : Files := {}
  loaders : List LoaderState := []
  listeners : List ListenerState := []
  discoveries : List DiscoveryState := []
  events : List Event := []
deriving Inhabited

namespace Scene

def world (scene : Scene) : World := scene.engine.world

/-- Gives an object a name, in place of an earlier object of that name. -/
def name (scene : Scene) (target : String) (it : Object) : Scene :=
  { scene with objects := (target, it) :: scene.objects.filter (·.1 ≠ target) }

/-- The names of the objects that are a given store, in increasing order. -/
def namesOfStore (scene : Scene) (s : StoreId) : List String :=
  (scene.objects.filterMap fun entry =>
    match entry.2 with
    | .store t | .erased t => if t = s then some entry.1 else none
    | _ => none).mergeSort (fun a b => decide (a ≤ b))

def addLoader (scene : Scene) (script : LoaderScript Step) : Scene × LoaderId :=
  ({ scene with loaders := scene.loaders ++ [⟨script, 0⟩] }, scene.loaders.length)

def bind (scene : Scene) : BindingSpec Step → Except String (Scene × Binding)
  | .named name =>
    match scene.objects.lookup name with
    | some (.binding b) => .ok (scene, b)
    | _ => .error ("no object " ++ name)
  | .fresh type script managed =>
    let (scene, loader) := scene.addLoader script
    .ok (scene, ⟨type, loader, managed⟩)

def bindAll (scene : Scene) : List (BindingSpec Step) → Except String (Scene × List Binding)
  | [] => .ok (scene, [])
  | spec :: rest => do
    let (scene, b) ← scene.bind spec
    let (scene, bs) ← scene.bindAll rest
    return (scene, b :: bs)

def bindRounds (scene : Scene) :
    List (List (BindingSpec Step)) → Except String (Scene × List (List Binding))
  | [] => .ok (scene, [])
  | specs :: rest => do
    let (scene, round) ← scene.bindAll specs
    let (scene, rounds) ← scene.bindRounds rest
    return (scene, round :: rounds)

def discovery (scene : Scene) : DiscoverySpec Step → Except String (Scene × Discovery)
  | .named name =>
    match scene.objects.lookup name with
    | some (.catalog c) => .ok (scene, .catalog c)
    | _ => .error ("no object " ++ name)
  | .fresh specs => do
    let (scene, bindings) ← scene.bindAll specs
    return (scene, .catalog ⟨bindings⟩)
  | .rounds specs => do
    let (scene, rounds) ← scene.bindRounds specs
    return ({ scene with discoveries := scene.discoveries ++ [⟨rounds, 0⟩] },
      .outside scene.discoveries.length)

end Scene

end LiveTables.Scenario
