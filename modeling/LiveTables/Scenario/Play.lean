import LiveTables.Scenario.Interpret

namespace LiveTables.Scenario

namespace Scene

/-- Notes an event of the step that is being played. -/
def happen (scene : Scene) (e : Event) : Scene := { scene with events := e :: scene.events }

/-- Moves the engine's new notices to the events. -/
def takeNotices (scene : Scene) : Scene :=
  { scene with
    events := scene.world.notices.map Event.notice ++ scene.events
    engine := { scene.engine with world := { scene.world with notices := [] } } }

/-- The next turn of a loader, with the number of its call. -/
def nextLoad (scene : Scene) (loader : LoaderId) :
    Scene × Option (LoaderState × Option (Turn Step (List Record))) :=
  match scene.loaders[loader]? with
  | none => (scene, none)
  | some it =>
    ({ scene with loaders := scene.loaders.set loader { it with calls := it.calls + 1 } },
      some (it, it.script.turns[it.calls]?))

/-- The next turn of a listener, with the number of its call. The last turn repeats. -/
def nextHearing (scene : Scene) (l : Listener) :
    Scene × Option (ListenerState × Option (Turn Step Unit)) :=
  match scene.listeners[l.number]? with
  | none => (scene, none)
  | some it =>
    ({ scene with listeners := scene.listeners.set l.number { it with calls := it.calls + 1 } },
      some (it, (it.turns[it.calls]?).or it.turns.getLast?))

/-- The next round of scripted discovery. The last round repeats. -/
def nextRound (scene : Scene) (number : Nat) (scope : String) : Scene × List Binding :=
  match scene.discoveries[number]? with
  | none => (scene, [])
  | some it =>
    let scene :=
      { scene with
        discoveries := scene.discoveries.set number { it with calls := it.calls + 1 } }
    (scene.happen (.discover scope it.calls),
      ((it.rounds[it.calls]?).or it.rounds.getLast?).getD [])

end Scene

mutual

/-- Plays steps one after another: makes the calls that they ask for, and answers every wait of the
engine from the scripts. A script can lead back to itself without end, so a count bounds all that is
played. -/
def playSteps : Nat → Scene → List Step → Scene × List Entry
  | 0, scene, _ => (scene, [])
  | _ + 1, scene, [] => (scene, [])
  | bound + 1, scene, step :: rest =>
    let (scene, entry) := playStep bound scene step
    let (scene, entries) := playSteps bound scene rest
    (scene, entry :: entries)

def playStep : Nat → Scene → Step → Scene × Entry
  | 0, scene, _ => (scene, .mk (.refused "too many steps") [])
  | bound + 1, scene, step =>
    let outer := scene.events
    let (scene, answer) :=
      match ({ scene with events := [] } : Scene).interpret step with
      | .answered scene answer => (scene, answer)
      | .call scene c finish =>
        let (scene, reply) := pursue bound scene (.call c)
        finish scene reply
      | .fire scene l =>
        match playListener bound scene l with
        | (scene, .done ()) => (scene, .unit)
        | (scene, .failed e) => (scene, .failed e)
        | (scene, .faulted f) => (scene, .faulted f)
    ({ scene with events := outer }, .mk answer scene.events.reverse)

/-- Makes a move and plays the outside code that its call waits for, up to the reply. -/
def pursue : Nat → Scene → Move → Scene × Reply
  | 0, scene, _ => (scene, .unit)
  | bound + 1, scene, move =>
    let (engine, reply) := scene.engine.step move
    let scene := ({ scene with engine } : Scene).takeNotices
    match reply, engine.waits with
    | some reply, _ => (scene, reply)
    | none, .load wait :: _ =>
      let (scene, outcome) := playLoader bound scene (scene.world.store wait.store)
      pursue bound scene (.loaded outcome)
    | none, .listener wait :: _ =>
      let (scene, outcome) := playListener bound scene wait.listener
      pursue bound scene (.heard outcome)
    | none, .discovery wait :: _ =>
      let (scene, bindings) := scene.nextRound wait.discovery wait.scope
      pursue bound scene (.found bindings)
    | none, [] => (scene, .unit)

/-- Plays the next turn of a store's loader. A loader without a further turn fails. -/
def playLoader : Nat → Scene → Store → Scene × Outcome (List Record)
  | 0, scene, _ => (scene, .failed default)
  | bound + 1, scene, store =>
    match scene.nextLoad store.loader with
    | (scene, none) => (scene, .failed default)
    | (scene, some (loader, turn)) =>
      let (scene, during) := playSteps bound scene ((turn.map Turn.during).getD [])
      (scene.happen (.load store.recordType.name loader.script.tag loader.calls
          store.location.display during),
        (turn.map Turn.outcome).getD
          (.failed (.load store.recordType.name "script exhausted")))

/-- Plays the next turn of a listener. A listener without turns is content. -/
def playListener : Nat → Scene → Listener → Scene × Outcome Unit
  | 0, scene, _ => (scene, .failed default)
  | bound + 1, scene, l =>
    match scene.nextHearing l with
    | (scene, none) => (scene, .failed default)
    | (scene, some (listener, turn)) =>
      let (scene, during) := playSteps bound scene ((turn.map Turn.during).getD [])
      (scene.happen (.listener listener.label listener.calls during),
        (turn.map Turn.outcome).getD (.done ()))

end

def play (bound : Nat) (steps : List Step) : List Entry := (playSteps bound {} steps).2

end LiveTables.Scenario
