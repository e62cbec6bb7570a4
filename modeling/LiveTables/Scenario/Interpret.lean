import LiveTables.Config.File
import LiveTables.Scenario.Use

namespace LiveTables.Scenario

namespace Scene

/-- The request of a step that needs objects which may be missing. -/
def orRefused (scene : Scene) (request : Except String Request) : Request :=
  match request with
  | .ok request => request
  | .error reason => .answered scene (.refused reason)

def changeFiles (scene : Scene) (files : Files) : Option Error → Request
  | none => .answered { scene with files } .unit
  | some e => .answered { scene with files } (.failed e)

def registryOf? (scene : Scene) : Option String → Except String (Option RegistryId)
  | none => .ok none
  | some name =>
    match scene.objects.lookup name with
    | some (.registry r) => .ok (some r)
    | _ => .error ("no object " ++ name)

/-- What a step of a scenario asks for. -/
def interpret (scene : Scene) : Step → Request
  | .makeStore target type script location =>
    let (scene, loader) := scene.addLoader script
    .call scene (.makeStore type (.text location) loader) (nameMade target .store)
  | .makeEmptyGeneration target type =>
    .answered (scene.name target (.generation type .empty)) .unit
  | .makeGeneration target type batch indexes number =>
    match Generation.build type batch indexes with
    | .done g =>
      .answered (scene.name target (.generation type { g with number })) .unit
    | .failed e => .answered scene (.failed e)
    | .faulted f => .answered scene (.faulted f)
  | .makeBinding target spec =>
    scene.orRefused do
      let (scene, b) ← scene.bind spec
      return .answered (scene.name target (.binding b)) (.binding b)
  | .makeCatalog target specs =>
    scene.orRefused do
      let (scene, bindings) ← scene.bindAll specs
      return .answered (scene.name target (.catalog ⟨bindings⟩))
        (.sizeAndEmpty bindings.length bindings.isEmpty)
  | .makeRegistry target location =>
    .call scene (.makeRegistry location) (nameMade target .registry)
  | .makeHub target => .call scene .makeHub (nameMade target .hub)
  | .makeListener target name label turns =>
    let l : Listener := { number := scene.listeners.length, name }
    .answered { scene.name target (.listener l) with
      listeners := scene.listeners ++ [⟨label, turns, 0⟩] } .unit
  | .makeCoordinator target config registry discovery =>
    scene.orRefused do
      let (scene, discovery) ← scene.discovery discovery
      let registry ← scene.registryOf? registry
      return .call scene (.makeCoordinator config registry discovery)
        (nameMade target .coordinator)
  | .makeCoordinatorFromFile target path specs =>
    scene.orRefused do
      let (scene, bindings) ← scene.bindAll specs
      match Config.ofFile scene.files path with
      | .error e => return .answered scene (.failed e)
      | .ok config =>
        return .call scene (.makeCoordinator config none (.catalog ⟨bindings⟩))
          (nameMade target .coordinator)
  | .putFile path content =>
    match scene.files.write path content with
    | .ok files => scene.changeFiles files none
    | .error e => scene.changeFiles scene.files (some (.io e.message))
  | .getFile path =>
    match scene.files.readText path with
    | .ok text => .answered scene (.text text)
    | .error e => .answered scene (.failed (.io e.message))
  | .makeFolder path =>
    let (files, failure) := scene.files.makeFolder path
    scene.changeFiles files (failure.map fun e => .io e.message)
  | .readConfig path =>
    match Config.ofFile scene.files path with
    | .ok config => .answered scene (.config config)
    | .error e => .answered scene (.failed e)
  | .writeDefaultConfig path =>
    let (files, failure) := Config.writeDefaultIfMissing scene.files path
    scene.changeFiles files failure
  | .writeConfig path config =>
    let (files, failure) := config.toFile scene.files path
    scene.changeFiles files failure
  | .use name action => scene.useNamed name action
  | .unknown reason => .answered scene (.refused reason)

end Scene

end LiveTables.Scenario
