import LiveTables.Engine

namespace LiveTables

def PassItem.type : PassItem → RecordType
  | .installed type => type
  | .bound b => b.recordType

/-- A report with the end of the reload of a type. -/
def Report.enter (report : Report) (type : RecordType) : Outcome Nat → Report
  | .done n => report.addLoaded type.name n
  | .failed e => report.addFailed type.name e.message
  | .faulted f => report.addFailed type.name f.reason

/-- The pass of an initial load over given bindings. -/
def Coordinator.bindingPass (it : Coordinator) (c : CoordinatorId) (bindings : List Binding) :
    Pass where
  registry := it.registry
  todo := bindings.map .bound
  ending := .initialization c bindings.length

/-- The round of listeners after the reloads of a pass. -/
def PassEnd.round? (report : Report) : PassEnd → Option RoundPurpose
  | .registry => none
  | .refresh c => some (.refresh c report)
  | .initialization c types => some (.initialization c types report)

/-- The coordinator and the report that a round of listeners is for. -/
def RoundPurpose.pass? : RoundPurpose → Option (CoordinatorId × Report)
  | .answer => none
  | .refresh c report | .initialization c _ report => some (c, report)

/-- The answer of a round that is over. -/
def RoundPurpose.reply (failures : List ListenerFailure) : RoundPurpose → Reply
  | .answer => .notified failures
  | .refresh _ report => .passed { report with listenerFailures := failures }
  | .initialization _ _ report => .initialized { report with listenerFailures := failures }

/-- What a call has left to do when no outside work is under way: its answer only, a pass from the
next item on, or a round from the next listener on. -/
inductive Job where
  | answer (reply : Reply)
  | pass (pass : Pass)
  | round (todo : List Listener) (failures : List ListenerFailure) (purpose : RoundPurpose)

/-- The reloads of a call are over: it waits for a listener, or it has answered. -/
inductive Progress.PastReloads : Progress → Prop
  | hearing (wait : ListenerWait) : PastReloads (.waiting (.listener wait))
  | answered (reply : Reply) : PastReloads (.done reply)

namespace World

theorem begin_registerIndex (w : World) (s : StoreId) (d : IndexDef) :
    ∃ reply, w.begin (.registerIndex s d) = ((w.registerIndex s d).1, .done reply) := by
  cases ended : w.registerIndex s d with
  | mk v fault =>
    cases fault with
    | none => exact ⟨.unit, by simp only [begin, ended]⟩
    | some fault => exact ⟨.faulted fault, by simp only [begin, ended]⟩

theorem begin_applyToGeneration (w : World) (s : StoreId) (number : Nat) (d : IndexDef) :
    ∃ reply, w.begin (.applyToGeneration s number d) =
      (w.setStore s ((w.store s).updateGeneration number
        fun g => (g.applyIndex (w.store s).recordType d).1), .done reply) := by
  unfold begin
  dsimp only
  split
  · exact ⟨_, rfl⟩
  · exact ⟨_, rfl⟩

theorem begin_ensure (w : World) (r : RegistryId) (type : RecordType) (loader : LoaderId) :
    ∃ reply, w.begin (.ensure r type loader) =
      ((w.install r type fun location => .fresh type location loader).1, .done reply) := by
  have same : (w.ensure r type loader).1 =
      (w.install r type fun location => .fresh type location loader).1 := by
    unfold ensure
    dsimp only
    split <;> rfl
  rw [← same]
  cases ended : w.ensure r type loader with
  | mk v given =>
    cases given with
    | ok s => exact ⟨.made s, by simp only [begin, ended]⟩
    | error e => exact ⟨.failed e, by simp only [begin, ended]⟩

/-- The listeners that a pass of a coordinator would tell now. -/
def listeners (w : World) (c : CoordinatorId) : List Listener :=
  (w.hub (w.coordinator c).hub).listeners

/-- What remains of a pass after its last reload. -/
def afterReloads (w : World) (pass : Pass) : Job :=
  match pass.ending with
  | .registry => .answer (.passed pass.report)
  | .refresh c => .round (w.listeners c) [] (.refresh c pass.report)
  | .initialization c types => .round (w.listeners c) [] (.initialization c types pass.report)

/-- A pass notes the end of its reloads, except that an initial load notes its own end only. -/
def noteReloads (w : World) (pass : Pass) : World :=
  match pass.ending with
  | .initialization .. => w
  | .registry | .refresh _ => w.notePass pass.report

/-- The world after a round that was over with given failures. -/
def endRound (w : World) (failures : List ListenerFailure) : RoundPurpose → World
  | .answer => w
  | .refresh c _ => w.endCycle c
  | .initialization c types report => (w.endCycle c).note (.initializationComplete types
      report.loaded.length report.failed.length failures.length)

/-- A pass passes over these items: they are installed types without a store. -/
def Lacks (w : World) (r : RegistryId) (items : List PassItem) : Prop :=
  ∀ item ∈ items, ∃ type, item = .installed type ∧ (w.registry r).store? type = none

/-- The store of an item that a pass does not pass over. That of a binding is ensured first. -/
inductive Provides (w : World) (r : RegistryId) : PassItem → World → StoreId → Prop
  | installed {type : RecordType} {s : StoreId} : (w.registry r).store? type = some s →
      Provides w r (.installed type) w s
  | bound (b : Binding) :
      Provides w r (.bound b) (w.ensureBinding r b).1 (w.ensureBinding r b).2

/-- All that a call can go on with, whatever it has left to do. An invariant of calls needs one case
for each of these, and no look at the functions that make the turn. -/
inductive Turn : World → Job → World × Progress → Prop
  | answer (w : World) (reply : Reply) : Turn w (.answer reply) (w, .done reply)
  | call (w : World) (l : Listener) (todo : List Listener) (failures : List ListenerFailure)
      (purpose : RoundPurpose) : Turn w (.round (l :: todo) failures purpose)
        (w, .waiting (.listener ⟨l, todo, failures, purpose⟩))
  | roundOver (w : World) (failures : List ListenerFailure) (purpose : RoundPurpose) :
      Turn w (.round [] failures purpose)
        (w.endRound failures purpose, .done (purpose.reply failures))
  | reload {w v : World} {pass : Pass} {item : PassItem} {skipped rest : List PassItem}
      {s : StoreId} : pass.todo = skipped ++ item :: rest → w.Lacks pass.registry skipped →
      w.Provides pass.registry item v s →
      Turn w (.pass pass) (v.beginReload { pass with todo := rest } item.type s)
  | reloaded {w : World} {pass : Pass} {next : World × Progress} :
      w.Lacks pass.registry pass.todo → Turn (w.noteReloads pass) (w.afterReloads pass) next →
      Turn w (.pass pass) next

theorem afterReloads_ne_pass (w : World) (pass rest : Pass) : w.afterReloads pass ≠ .pass rest := by
  unfold afterReloads
  split <;> exact nofun

/-- A turn begins a reload for a pass, or the call is past its reloads. -/
theorem Turn.progress {w : World} {job : Job} {next : World × Progress} (turn : w.Turn job next) :
    (∃ (load : LoadWait) (type : RecordType) (rest : Pass), next.2 = .waiting (.load load) ∧
      load.purpose = .pass type rest ∧ ∃ pass, job = .pass pass) ∨ next.2.PastReloads := by
  induction turn with
  | answer w reply => exact Or.inr (.answered reply)
  | call => exact Or.inr (.hearing _)
  | roundOver => exact Or.inr (.answered _)
  | reload => exact Or.inl ⟨_, _, _, rfl, rfl, _, rfl⟩
  | reloaded _ _ ih =>
    rcases ih with ⟨_, _, _, _, _, rest, same⟩ | past
    · exact absurd same (afterReloads_ne_pass _ _ rest)
    · exact Or.inr past

theorem Turn.pastReloads {w : World} {job : Job} {next : World × Progress} (turn : w.Turn job next)
    (noPass : ∀ pass, job ≠ .pass pass) : next.2.PastReloads := by
  rcases turn.progress with ⟨_, _, _, _, _, pass, same⟩ | past
  · exact absurd same (noPass pass)
  · exact past

theorem turn_nextListener (w : World) (todo : List Listener) (failures : List ListenerFailure)
    (purpose : RoundPurpose) :
    w.Turn (.round todo failures purpose) (w.nextListener todo failures purpose) := by
  cases todo with
  | cons l rest => exact .call w l rest failures purpose
  | nil => cases purpose <;> exact .roundOver w failures _

theorem turn_endReloads {w : World} {pass : Pass} (nothing : w.Lacks pass.registry pass.todo) :
    w.Turn (.pass pass) (w.endReloads pass) := by
  refine .reloaded nothing ?_
  unfold endReloads noteReloads afterReloads
  cases pass.ending with
  | registry => exact .answer _ _
  | refresh c => exact turn_nextListener _ _ _ _
  | initialization c types => exact turn_nextListener _ _ _ _

/-- The items before those that are left have been passed over. -/
theorem turn_reloadFirst {w : World} {pass : Pass} {skipped todo : List PassItem}
    (whole : pass.todo = skipped ++ todo) (lacks : w.Lacks pass.registry skipped) :
    w.Turn (.pass pass) (w.reloadFirst pass todo) := by
  induction todo generalizing skipped with
  | nil =>
    rw [List.append_nil] at whole
    exact turn_endReloads (whole ▸ lacks)
  | cons item todo ih =>
    cases item with
    | bound b => exact .reload whole lacks (.bound b)
    | installed type =>
      cases found : (w.registry pass.registry).store? type with
      | some s =>
        simp only [reloadFirst, found]
        exact .reload whole lacks (.installed found)
      | none =>
        simp only [reloadFirst, found]
        have later : pass.todo = (skipped ++ [.installed type]) ++ todo := by
          rw [whole, List.append_assoc, List.singleton_append]
        refine ih later fun item member => ?_
        rcases List.mem_append.mp member with before | here
        · exact lacks item before
        · exact ⟨type, List.mem_singleton.mp here, found⟩

theorem turn_nextReload (w : World) (pass : Pass) : w.Turn (.pass pass) (w.nextReload pass) :=
  turn_reloadFirst (List.nil_append _).symm (List.forall_mem_nil _)

/-- The world that the end of a reload leaves behind before its call goes on. -/
def endLoad (w : World) (load : LoadWait) (given : Outcome (List Record)) : World :=
  let ended := w.concludeReload load.store load.plan given
  match load.purpose with
  | .answer => ended.1
  | .pass type rest => (ended.1.recordReload type rest.report ended.2).1

def noteHeard (w : World) (wait : ListenerWait) (given : Outcome Unit) : World :=
  match given.reason? with
  | none => w
  | some reason => w.note (.listenerFailed wait.listener.name reason)

/-- An initial load notes if it has found nothing to load. -/
def noteFound (w : World) (c : CoordinatorId) (bindings : List Binding) : World :=
  let it := w.coordinator c
  if (bindings.filter Binding.managed).isEmpty then
    w.note (.nothingDiscovered it.config.recordScope it.config.location.display)
  else w

theorem turn_found (w : World) (c : CoordinatorId) (bindings : List Binding) :
    (w.noteFound c bindings).Turn
      (.pass ((w.coordinator c).bindingPass c (bindings.filter Binding.managed)))
      (w.found c bindings) := by
  unfold noteFound found
  dsimp only
  split
  · exact turn_nextReload _ _
  · exact turn_nextReload _ _

theorem concludeReload_outcome (w : World) (s : StoreId) (plan : Plan)
    (outcome : Outcome (List Record)) :
    (w.concludeReload s plan outcome).2 = ((w.store s).conclude plan outcome).2 := by
  unfold concludeReload
  dsimp only
  split <;> rfl

theorem recordReload_report (w : World) (type : RecordType) (report : Report)
    (outcome : Outcome Nat) :
    (w.recordReload type report outcome).2 = report.enter type outcome := by
  cases outcome <;> rfl

end World

/-- What is to be reported of the listener that a round waits for, if it did not take the news. -/
def ListenerWait.failure? (wait : ListenerWait) (given : Outcome Unit) : Option ListenerFailure :=
  given.reason?.map (⟨wait.listener.name, ·⟩)

/-- The outside work that a call waits for has ended, and the call goes on. -/
inductive Wait.Goes (w : World) : Wait → Move → World × Progress → Prop
  | loaded (load : LoadWait) (outcome : Outcome (List Record)) :
      Goes w (.load load) (.loaded outcome) (w.loaded load outcome)
  | heard (wait : ListenerWait) (outcome : Outcome Unit) :
      Goes w (.listener wait) (.heard outcome) (w.heard wait outcome)
  | found (wait : DiscoveryWait) (bindings : List Binding) :
      Goes w (.discovery wait) (.found bindings) (w.found wait.coordinator bindings)

/-- The outside work that a call waits for has ended. This is entered in the world, and what the
call has left to do follows from it. -/
inductive Wait.Ends (w : World) : Wait → Move → World → Job → Prop
  | answered {load : LoadWait} (given : Outcome (List Record)) : load.purpose = .answer →
      Ends w (.load load) (.loaded given) (w.endLoad load given)
        (.answer (.reloaded ((w.store load.store).conclude load.plan given).2))
  | entered {load : LoadWait} {type : RecordType} {pass : Pass} (given : Outcome (List Record)) :
      load.purpose = .pass type pass → Ends w (.load load) (.loaded given) (w.endLoad load given)
        (.pass { pass with report :=
          pass.report.enter type ((w.store load.store).conclude load.plan given).2 })
  | heard (wait : ListenerWait) (given : Outcome Unit) :
      Ends w (.listener wait) (.heard given) (w.noteHeard wait given)
        (.round wait.todo (wait.failures ++ (wait.failure? given).toList) wait.purpose)
  | found (wait : DiscoveryWait) (bindings : List Binding) :
      Ends w (.discovery wait) (.found bindings) (w.noteFound wait.coordinator bindings)
        (.pass ((w.coordinator wait.coordinator).bindingPass wait.coordinator
          (bindings.filter Binding.managed)))

/-- A call goes on by entering the end of its outside work and taking its next turn. -/
theorem Wait.Goes.ends {w : World} {own : Wait} {move : Move} {next : World × Progress}
    (goes : own.Goes w move next) : ∃ v job, own.Ends w move v job ∧ v.Turn job next := by
  cases goes with
  | loaded load given =>
    cases purpose : load.purpose with
    | answer =>
      refine ⟨_, _, .answered given purpose, ?_⟩
      simp only [World.loaded, World.endLoad, purpose, World.concludeReload_outcome]
      exact .answer _ _
    | pass type pass =>
      refine ⟨_, _, .entered given purpose, ?_⟩
      simp only [World.loaded, World.endLoad, purpose, World.recordReload_report,
        World.concludeReload_outcome]
      exact World.turn_nextReload _ _
  | heard wait given =>
    refine ⟨_, _, .heard wait given, ?_⟩
    unfold World.heard World.noteHeard ListenerWait.failure?
    cases given.reason? with
    | none =>
      rw [Option.map_none, Option.toList_none, List.append_nil]
      exact World.turn_nextListener _ _ _ _
    | some reason => exact World.turn_nextListener _ _ _ _
  | found wait bindings => exact ⟨_, _, .found wait bindings, w.turn_found _ bindings⟩

/-- A move is no call, and no call waits for it on top of the stack. -/
structure Engine.Idle (e : Engine) (move : Move) : Prop where
  not_call : ∀ c, move ≠ .call c
  not_goes : ∀ own rest next, e.waits = own :: rest → ¬own.Goes e.world move next

namespace Engine

theorem idle_of_empty (w : World) {move : Move} (not_call : ∀ c, move ≠ .call c) :
    Idle ⟨w, []⟩ move where
  not_call := not_call
  not_goes := by
    intro own rest next top
    cases top

theorem idle_of_top (w : World) {top : Wait} (rest : List Wait) {move : Move}
    (not_call : ∀ c, move ≠ .call c) (not_goes : ∀ next, ¬top.Goes w move next) :
    Idle ⟨w, top :: rest⟩ move where
  not_call := not_call
  not_goes := by
    rintro _ _ next ⟨⟩ goes
    exact not_goes next goes

theorem step_forms (e : Engine) (move : Move) :
    (∃ c, move = .call c) ∨
    (∃ own rest next, e.waits = own :: rest ∧ own.Goes e.world move next ∧
      e.step move = advance rest next) ∨
    e.Idle move ∧ e.step move = (e, none) := by
  obtain ⟨w, waits⟩ := e
  cases move with
  | call c => exact Or.inl ⟨c, rfl⟩
  | loaded outcome =>
    refine Or.inr ?_
    rcases waits with _ | ⟨load | listener | discovery, rest⟩
    · exact Or.inr ⟨idle_of_empty w (fun _ => Move.noConfusion), rfl⟩
    · exact Or.inl ⟨_, rest, _, rfl, .loaded load outcome, rfl⟩
    · refine Or.inr ⟨idle_of_top w rest (fun _ => Move.noConfusion) ?_, rfl⟩
      rintro _ ⟨⟩
    · refine Or.inr ⟨idle_of_top w rest (fun _ => Move.noConfusion) ?_, rfl⟩
      rintro _ ⟨⟩
  | heard outcome =>
    refine Or.inr ?_
    rcases waits with _ | ⟨load | listener | discovery, rest⟩
    · exact Or.inr ⟨idle_of_empty w (fun _ => Move.noConfusion), rfl⟩
    · refine Or.inr ⟨idle_of_top w rest (fun _ => Move.noConfusion) ?_, rfl⟩
      rintro _ ⟨⟩
    · exact Or.inl ⟨_, rest, _, rfl, .heard listener outcome, rfl⟩
    · refine Or.inr ⟨idle_of_top w rest (fun _ => Move.noConfusion) ?_, rfl⟩
      rintro _ ⟨⟩
  | found bindings =>
    refine Or.inr ?_
    rcases waits with _ | ⟨load | listener | discovery, rest⟩
    · exact Or.inr ⟨idle_of_empty w (fun _ => Move.noConfusion), rfl⟩
    · refine Or.inr ⟨idle_of_top w rest (fun _ => Move.noConfusion) ?_, rfl⟩
      rintro _ ⟨⟩
    · refine Or.inr ⟨idle_of_top w rest (fun _ => Move.noConfusion) ?_, rfl⟩
      rintro _ ⟨⟩
    · exact Or.inl ⟨_, rest, _, rfl, .found discovery bindings, rfl⟩

theorem step_call (e : Engine) (c : Call) :
    e.step (.call c) = advance e.waits (e.world.begin c) := rfl

theorem step_goes {e : Engine} {own : Wait} {rest : List Wait} {move : Move}
    {next : World × Progress} (top : e.waits = own :: rest) (goes : own.Goes e.world move next) :
    e.step move = advance rest next := by
  obtain ⟨w, waits⟩ := e
  obtain rfl : waits = own :: rest := top
  cases goes <;> rfl

theorem advance_world (waits : List Wait) (next : World × Progress) :
    (advance waits next).1.world = next.1 := by
  obtain ⟨w, progress⟩ := next
  cases progress <;> rfl

theorem advance_waits (waits : List Wait) (next : World × Progress) :
    (advance waits next).1.waits = waits ∨
      ∃ wait, next.2 = .waiting wait ∧ (advance waits next).1.waits = wait :: waits := by
  obtain ⟨w, progress⟩ := next
  cases progress with
  | done reply => exact Or.inl rfl
  | waiting wait => exact Or.inr ⟨wait, rfl, rfl⟩

/-- Whatever follows from how calls begin and go on holds of the world after a step. -/
theorem step_world (P : World → Prop) {e : Engine} {move : Move}
    (begun : ∀ c, move = .call c → P (e.world.begin c).1)
    (goesOn : ∀ own rest next, e.waits = own :: rest → own.Goes e.world move next → P next.1)
    (idle : e.Idle move → P e.world) : P (e.step move).1.world := by
  rcases e.step_forms move with ⟨c, rfl⟩ | ⟨own, rest, next, top, goes, run⟩ | ⟨nothing, run⟩
  · rw [step_call, advance_world]
    exact begun c rfl
  · rw [run, advance_world]
    exact goesOn own rest next top goes
  · rw [run]
    exact idle nothing

end Engine

end LiveTables
