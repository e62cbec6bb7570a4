import LiveTables.Scenario.Scene

namespace LiveTables.Scenario

/-- What a step asks for: an answer, or a call on the engine. The outside code that the call reaches
is left to the player. -/
inductive Request where
  /-- Nothing more: here is its answer. -/
  | answered (scene : Scene) (answer : Answer)
  /-- A call, and how its reply becomes the answer. -/
  | call (scene : Scene) (c : Call) (finish : Scene → Reply → Scene × Answer)
  | fire (scene : Scene) (l : Listener)

namespace Scene

def nameMade (target : String) (object : Nat → Object) (scene : Scene) :
    Reply → Scene × Answer
  | .made number => (scene.name target (object number), .unit)
  | _ => (scene, .unit)

/-- Names a store that a registry gave, and answers with the names it had before. -/
def nameInstalled (target : String) (object : Nat → Object) (scene : Scene) :
    Reply → Scene × Answer
  | .made s => (scene.name target (object s), .sameAs (scene.namesOfStore s))
  | .failed e => (scene, .failed e)
  | _ => (scene, .unit)

def replyAnswer (scene : Scene) : Reply → Scene × Answer
  | .unit => (scene, .unit)
  | .made number => (scene, .number number)
  | .flag b => (scene, .flag b)
  | .failed e => (scene, .failed e)
  | .faulted f => (scene, .faulted f)
  | .reloaded (.done count) => (scene, .number count)
  | .reloaded (.failed e) => (scene, .failed e)
  | .reloaded (.faulted f) => (scene, .faulted f)
  | .passed report => (scene, .report report)
  | .skipped => (scene, .skipped)
  | .initialized report => (scene, .initialized report)
  | .notified failures => (scene, .failures failures)

def dump (g : Generation) : Dump where
  generation := g.number
  ids := g.records.map Record.id
  index := g.index.entries.mergeSort (fun a b => decide (a.1 ≤ b.1))

def state (w : World) (c : CoordinatorId) : CoordinatorState :=
  let it := w.coordinator c
  { cycles := it.cycles
    initialized := it.initialized
    listeners := (w.hub it.hub).names
    config := it.config
    stats := w.registryStats it.registry }

def refuse (scene : Scene) : Request := .answered scene (.refused "no such use of the object")

/-- A use of an id that its type cannot have. -/
def refuseId (scene : Scene) : Request := .answered scene (.refused "no id of the type")

/-- A query on a store, or on the missing store of a type. -/
def query (scene : Scene) (type : RecordType) (s : Option StoreId) (q : Query) : Request :=
  let store := s.map scene.world.store
  let answer (a : Answer) := Request.answered scene a
  match q with
  | .get id =>
    match type.idKind.read? id with
    | some id => answer (.record (store.bind (·.get? id)))
    | none => scene.refuseId
  | .findByIndex index values =>
    answer (.records ((store.map (·.findByIndex index values)).getD []))
  | .indexIds index values => answer (.ids ((store.map (·.indexIds index values)).getD []))
  | .findUnique index values => answer (.record (store.bind (·.findUnique index values)))
  | .all => answer (.records ((store.map Store.all).getD []))
  | .append index id values =>
    match type.idKind.read? id, s with
    | some id, some s => .call scene (.append s index id values) replyAnswer
    | some _, none => answer (.flag false)
    | none, _ => scene.refuseId

def useStore (scene : Scene) (s : StoreId) (action : Action Step) : Request :=
  let it := scene.world.store s
  let answer (a : Answer) := Request.answered scene a
  match action with
  | .query q => scene.query it.recordType (some s) q
  | .reload => .call scene (.reload s) replyAnswer
  | .registerIndex d => .call scene (.registerIndex s d) replyAnswer
  | .size => answer (.number it.current.size)
  | .isEmpty => answer (.flag it.current.isEmpty)
  | .generation => answer (.number it.current.number)
  | .location => answer (.text it.location.display)
  | .type => answer (.type it.recordType)
  | .stats => answer (.stats it.stats)
  | .describe => answer (.text it.describe)
  | .dump => answer (.dump (dump it.current))
  | .same => answer (.texts (scene.namesOfStore s))
  | .snapshot target =>
    .answered (scene.name target (.snapshot s it.current.number)) .unit
  | .erase target => .answered (scene.name target (.erased s)) .unit
  | _ => scene.refuse

/-- A use of a store whose type has been forgotten. -/
def useErased (scene : Scene) (s : StoreId) (action : Action Step) : Request :=
  match action with
  | .reload | .stats | .type | .same => scene.useStore s action
  | .downcast type target =>
    let typed := scene.world.downcast? s type
    let scene := match typed, target with
      | some s, some target => scene.name target (.store s)
      | _, _ => scene
    .answered scene (.flag typed.isSome)
  | _ => scene.refuse

/-- A use of a generation that only looks at it. -/
def viewGeneration (scene : Scene) (type : RecordType) (g : Generation) (action : Action Step) :
    Request :=
  let answer (a : Answer) := Request.answered scene a
  match action with
  | .query (.get id) =>
    match type.idKind.read? id with
    | some id => answer (.record (g.get? id))
    | none => scene.refuseId
  | .query .all => answer (.records g.records)
  | .generation => answer (.number g.number)
  | .size => answer (.number g.size)
  | .isEmpty => answer (.flag g.isEmpty)
  | .sizeAndEmpty => answer (.sizeAndEmpty g.index.size g.index.isEmpty)
  | .dump => answer (.dump (dump g))
  | .keyIds key => answer (.ids (g.index.ids key))
  | .containsKey key => answer (.flag (g.index.containsKey key))
  | _ => scene.refuse

def useSnapshot (scene : Scene) (s : StoreId) (number : Nat) (action : Action Step) : Request :=
  let it := scene.world.store s
  match action with
  | .applyIndex d => .call scene (.applyToGeneration s number d) replyAnswer
  | .insertKey key id =>
    match it.recordType.idKind.read? id with
    | some id => .call scene (.listInGeneration s number key id) replyAnswer
    | none => scene.refuseId
  | action => scene.viewGeneration it.recordType ((it.generation? number).getD default) action

/-- A use of a generation that belongs to no store and has a name of its own. -/
def useGeneration (scene : Scene) (name : String) (type : RecordType) (g : Generation)
    (action : Action Step) : Request :=
  match action with
  | .applyIndex d =>
    let (next, fault) := g.applyIndex type d
    .answered (scene.name name (.generation type next))
      (match fault with | none => .unit | some f => .faulted f)
  | .insertKey key id =>
    match type.idKind.read? id with
    | some id =>
      let (next, isNew) := g.insertKey key id
      .answered (scene.name name (.generation type next)) (.flag isNew)
    | none => scene.refuseId
  | action => scene.viewGeneration type g action

def useBinding (scene : Scene) (b : Binding) (action : Action Step) : Request :=
  match action with
  | .createStore location target =>
    .call scene (.makeBound b (.text location)) (nameMade target .erased)
  | .unmark target => .answered (scene.name target (.binding b.unmarked)) .unit
  | .managed => .answered scene (.flag b.managed)
  | .describe => .answered scene (.text b.describe)
  | _ => scene.refuse

def useCatalog (scene : Scene) (c : Catalog) (action : Action Step) : Request :=
  match action with
  | .discover scope => .answered scene (.bindings (c.discover scope))
  | .describe => .answered scene (.text c.describe)
  | _ => scene.refuse

def useRegistry (scene : Scene) (r : RegistryId) (action : Action Step) : Request :=
  let it := scene.world.registry r
  let answer (a : Answer) := Request.answered scene a
  match action with
  | .queryType type q => scene.query type (scene.world.typedStore? r type) q
  | .ensure type script target =>
    let (scene, loader) := scene.addLoader script
    .call scene (.ensure r type loader) (nameInstalled target .store)
  | .ensureBinding spec target =>
    match scene.bind spec with
    | .ok (scene, b) => .call scene (.ensureBinding r b) (nameInstalled target .erased)
    | .error reason => answer (.refused reason)
  | .storeOf type target =>
    match scene.world.typedStore? r type with
    | some s => .answered (scene.name target (.store s)) (.flag true)
    | none => answer (.flag false)
  | .contains type => answer (.flag (it.contains type))
  | .reloadAll => .call scene (.reloadAll r) replyAnswer
  | .types => answer (.texts (it.types.map RecordType.qualifiedName))
  | .sizeAndEmpty => answer (.sizeAndEmpty it.size it.isEmpty)
  | .stats => answer (.statsList (scene.world.registryStats r))
  | .location => answer (.text it.location.display)
  | .describe => answer (.text it.describe)
  | _ => scene.refuse

def withListener (scene : Scene) (name : String) (use : Listener → Request) : Request :=
  match scene.objects.lookup name with
  | some (.listener l) => use l
  | _ => .answered scene (.refused ("no object " ++ name))

def useHub (scene : Scene) (h : HubId) (action : Action Step) : Request :=
  let it := scene.world.hub h
  match action with
  | .register listener =>
    scene.withListener listener fun l => .call scene (.register h l) replyAnswer
  | .notify => .call scene (.notify h) replyAnswer
  | .names => .answered scene (.texts it.names)
  | .sizeAndEmpty =>
    .answered scene (.sizeAndEmpty it.listeners.length it.listeners.isEmpty)
  | .describe => .answered scene (.text it.describe)
  | _ => scene.refuse

def useListener (scene : Scene) (l : Listener) (action : Action Step) : Request :=
  match action with
  | .name => .answered scene (.text l.name)
  | .fire => .fire scene l
  | _ => scene.refuse

def useCoordinator (scene : Scene) (c : CoordinatorId) (action : Action Step) : Request :=
  let it := scene.world.coordinator c
  match action with
  | .initialLoad => .call scene (.initialLoad c) replyAnswer
  | .reloadAll => .call scene (.refresh c) replyAnswer
  | .addListener listener =>
    scene.withListener listener fun l => .call scene (.queue c l) replyAnswer
  | .state => .answered scene (.state (state scene.world c))
  | .registry target => .answered (scene.name target (.registry it.registry)) .unit
  | .describe => .answered scene (.text (scene.world.describeCoordinator c))
  | action => scene.useHub it.hub action

def useNamed (scene : Scene) (name : String) (action : Action Step) : Request :=
  match scene.objects.lookup name with
  | none => .answered scene (.refused ("no object " ++ name))
  | some (.store s) => scene.useStore s action
  | some (.erased s) => scene.useErased s action
  | some (.snapshot s number) => scene.useSnapshot s number action
  | some (.generation type g) => scene.useGeneration name type g action
  | some (.binding b) => scene.useBinding b action
  | some (.catalog c) => scene.useCatalog c action
  | some (.registry r) => scene.useRegistry r action
  | some (.hub h) => scene.useHub h action
  | some (.listener l) => scene.useListener l action
  | some (.coordinator c) => scene.useCoordinator c action

end Scene

end LiveTables.Scenario
