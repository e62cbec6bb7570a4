import LiveTables.Pass

namespace LiveTables

/-- All calls that change the world. -/
inductive Call where
  | makeStore (type : RecordType) (location : Location) (loader : LoaderId)
  | makeRegistry (location : Location)
  | makeHub
  | makeCoordinator (config : Config) (registry : Option RegistryId) (discovery : Discovery)
  /-- Makes a table of a binding that belongs to no registry. -/
  | makeBound (b : Binding) (location : Location)
  | reload (s : StoreId)
  | registerIndex (s : StoreId) (d : IndexDef)
  | append (s : StoreId) (index : String) (id : RecordId) (values : List Value)
  /-- Applies a definition to a generation of a store, which may have been replaced since. -/
  | applyToGeneration (s : StoreId) (number : Nat) (d : IndexDef)
  /-- Lists an id under a key of a generation of a store. -/
  | listInGeneration (s : StoreId) (number : Nat) (key : String) (id : RecordId)
  | ensure (r : RegistryId) (type : RecordType) (loader : LoaderId)
  | ensureBinding (r : RegistryId) (b : Binding)
  | reloadAll (r : RegistryId)
  | register (h : HubId) (l : Listener)
  | notify (h : HubId)
  | queue (c : CoordinatorId) (l : Listener)
  | initialLoad (c : CoordinatorId)
  | refresh (c : CoordinatorId)

/-- Carries a call to its answer or its first wait. -/
def World.begin (w : World) : Call → World × Progress
  | .makeStore type location loader =>
    let (w, s) := w.addStore (.fresh type location loader)
    (w, .done (.made s))
  | .makeRegistry location =>
    let (w, r) := w.addRegistry { location := location }
    (w, .done (.made r))
  | .makeHub =>
    let (w, h) := w.addHub {}
    (w, .done (.made h))
  | .makeCoordinator config registry discovery =>
    let (w, c) := w.addCoordinator config registry discovery
    (w, .done (.made c))
  | .makeBound b location =>
    let (w, s) := w.addStore (b.createStore location)
    (w, .done (.made s))
  | .reload s => (w, .waiting (.load ⟨s, (w.store s).plan, .answer⟩))
  | .registerIndex s d =>
    match w.registerIndex s d with
    | (w, none) => (w, .done .unit)
    | (w, some fault) => (w, .done (.faulted fault))
  | .append s index id values =>
    let (it, isNew) := (w.store s).append index id values
    (w.setStore s it, .done (.flag isNew))
  | .applyToGeneration s number d =>
    let it := w.store s
    let apply (g : Generation) := g.applyIndex it.recordType d
    let w := w.setStore s (it.updateGeneration number fun g => (apply g).1)
    match (it.generation? number).bind fun g => (apply g).2 with
    | none => (w, .done .unit)
    | some fault => (w, .done (.faulted fault))
  | .listInGeneration s number key id =>
    let it := w.store s
    let list (g : Generation) := g.insertKey key id
    let isNew := ((it.generation? number).map fun g => (list g).2).getD false
    (w.setStore s (it.updateGeneration number fun g => (list g).1), .done (.flag isNew))
  | .ensure r type loader =>
    match w.ensure r type loader with
    | (w, .ok s) => (w, .done (.made s))
    | (w, .error e) => (w, .done (.failed e))
  | .ensureBinding r b =>
    let (w, s) := w.ensureBinding r b
    (w, .done (.made s))
  | .reloadAll r => w.nextReload (w.registryPass r .registry)
  | .register h l => (w.register h l, .done (.flag (!(w.hub h).holds l)))
  | .notify h => w.notify h .answer
  | .queue c l => (w.queue c l, .done .unit)
  | .initialLoad c => w.initialLoad c
  | .refresh c => w.refresh c

end LiveTables
