import LiveTables.Wait

namespace LiveTables

namespace World

/-- Calls the next listener of a round, or ends the round. -/
def nextListener (w : World) (todo : List Listener) (failures : List ListenerFailure)
    (purpose : RoundPurpose) : World × Progress :=
  match todo with
  | l :: todo => (w, .waiting (.listener ⟨l, todo, failures, purpose⟩))
  | [] =>
    match purpose with
    | .answer => (w, .done (.notified failures))
    | .refresh c report =>
      (w.endCycle c, .done (.passed { report with listenerFailures := failures }))
    | .initialization c types report =>
      ((w.endCycle c).note (.initializationComplete types report.loaded.length
          report.failed.length failures.length),
        .done (.initialized { report with listenerFailures := failures }))

/-- Calls the listeners that are in a hub now. Whoever joins later is not called. -/
def notify (w : World) (h : HubId) (purpose : RoundPurpose) : World × Progress :=
  w.nextListener (w.hub h).listeners [] purpose

/-- A listener has ended. A failure is kept for the report and noted. -/
def heard (w : World) (wait : ListenerWait) (outcome : Outcome Unit) : World × Progress :=
  match outcome.reason? with
  | none => w.nextListener wait.todo wait.failures wait.purpose
  | some reason =>
    (w.note (.listenerFailed wait.listener.name reason)).nextListener wait.todo
      (wait.failures ++ [⟨wait.listener.name, reason⟩]) wait.purpose

def notePass (w : World) (report : Report) : World :=
  w.note (.passComplete report.loaded.length report.failed.length report.totalRecords)

def endReloads (w : World) (pass : Pass) : World × Progress :=
  match pass.ending with
  | .registry => (w.notePass pass.report, .done (.passed pass.report))
  | .refresh c =>
    (w.notePass pass.report).notify (w.coordinator c).hub (.refresh c pass.report)
  | .initialization c types =>
    w.notify (w.coordinator c).hub (.initialization c types pass.report)

/-- Begins the reload of a store for a pass. -/
def beginReload (w : World) (pass : Pass) (type : RecordType) (s : StoreId) : World × Progress :=
  (w, .waiting (.load ⟨s, (w.store s).plan, .pass type pass⟩))

/-- Begins the reload of the first item that has a store, or ends the reloads of a pass. -/
def reloadFirst (w : World) (pass : Pass) : List PassItem → World × Progress
  | [] => w.endReloads pass
  | .installed type :: todo =>
    match (w.registry pass.registry).store? type with
    | some s => w.beginReload { pass with todo } type s
    | none => reloadFirst w pass todo
  | .bound b :: todo =>
    let (w, s) := w.ensureBinding pass.registry b
    w.beginReload { pass with todo } b.recordType s

/-- Goes on with a pass. -/
def nextReload (w : World) (pass : Pass) : World × Progress := w.reloadFirst pass pass.todo

/-- Enters the end of a reload in the report of its pass. A fault goes no further than this. -/
def recordReload (w : World) (type : RecordType) (report : Report) (outcome : Outcome Nat) :
    World × Report :=
  match outcome with
  | .done count => (w, report.addLoaded type.name count)
  | .failed e => (w, report.addFailed type.name e.message)
  | .faulted f =>
    (w.note (.reloadBroken type.name f.reason), report.addFailed type.name f.reason)

def loaded (w : World) (wait : LoadWait) (batch : Outcome (List Record)) : World × Progress :=
  let (w, outcome) := w.concludeReload wait.store wait.plan batch
  match wait.purpose with
  | .answer => (w, .done (.reloaded outcome))
  | .pass type rest =>
    let (w, report) := w.recordReload type rest.report outcome
    w.nextReload { rest with report }

/-- A pass over the types that a registry has now, and no others. -/
def registryPass (w : World) (r : RegistryId) (ending : PassEnd) : Pass where
  registry := r
  todo := (w.registry r).types.map .installed
  ending

/-- Loads the managed ones of the bindings that discovery found. -/
def found (w : World) (c : CoordinatorId) (bindings : List Binding) : World × Progress :=
  let it := w.coordinator c
  let managed := bindings.filter Binding.managed
  let w :=
    if managed.isEmpty then
      w.note (.nothingDiscovered it.config.recordScope it.config.location.display)
    else w
  w.nextReload
    { registry := it.registry
      todo := managed.map .bound
      ending := .initialization c managed.length }

/-- The initial load. Once one has begun, the next ones are skipped, unless the configuration
lets them run again. -/
def initialLoad (w : World) (c : CoordinatorId) : World × Progress :=
  let it := w.coordinator c
  if it.initialized && !it.config.reloadOnRefresh then
    (w.note .alreadyInitialized, .done .skipped)
  else
    let w := (w.latch c).collectPending c
    match it.discovery with
    | .catalog catalog => w.found c (catalog.discover it.config.recordScope)
    | .outside number => (w, .waiting (.discovery ⟨c, number, it.config.recordScope⟩))

/-- Reloads everything in a coordinator's registry and tells its listeners. -/
def refresh (w : World) (c : CoordinatorId) : World × Progress :=
  let w := w.collectPending c
  w.nextReload (w.registryPass (w.coordinator c).registry (.refresh c))

end World

end LiveTables
