import LiveTables.Proofs.CompletePass
import LiveTables.Proofs.GatheredListeners

namespace LiveTables

/-- An initial load is under way, or it has answered with a report. -/
inductive Progress.Opening (c : CoordinatorId) : Progress → Prop
  | discovery {wait : DiscoveryWait} : wait.coordinator = c →
      Opening c (.waiting (.discovery wait))
  | load {load : LoadWait} {type : RecordType} {pass : Pass} {types : Nat} :
      load.purpose = .pass type pass → pass.ending = .initialization c types →
      Opening c (.waiting (.load load))
  | listener {wait : ListenerWait} {types : Nat} {report : Report} :
      wait.purpose = .initialization c types report → Opening c (.waiting (.listener wait))
  | initialized {report : Report} : Opening c (.done (.initialized report))

/-- What is left to do belongs to an initial load of a coordinator. -/
inductive Job.Opens (c : CoordinatorId) : Job → Prop
  | reloads {pass : Pass} {types : Nat} : pass.ending = .initialization c types →
      Opens c (.pass pass)
  | round {todo : List Listener} {failures : List ListenerFailure} {types : Nat}
      {report : Report} : Opens c (.round todo failures (.initialization c types report))

namespace World

variable {w : World} {c : CoordinatorId}

theorem opens_afterReloads (w : World) {pass : Pass} {types : Nat}
    (ending : pass.ending = .initialization c types) : (w.afterReloads pass).Opens c := by
  rw [afterReloads, ending]
  exact .round

/-- An initial load remains one with each turn. -/
theorem opening_turn {job : Job} {next : World × Progress} (opens : job.Opens c)
    (turn : w.Turn job next) : next.2.Opening c := by
  induction turn with
  | answer => cases opens
  | call => cases opens with | round => exact .listener rfl
  | roundOver => cases opens with | round => exact .initialized
  | reload => cases opens with | reloads ending => exact .load rfl ending
  | @reloaded w _ _ _ _ ih =>
    cases opens with | reloads ending => exact ih (w.opens_afterReloads ending)

theorem opening_goes {own : Wait} {move : Move} {next : World × Progress}
    (opening : (Progress.waiting own).Opening c) (goes : own.Goes w move next) :
    next.2.Opening c := by
  obtain ⟨v, job, ends, turn⟩ := goes.ends
  refine opening_turn ?_ turn
  cases ends with
  | answered given purpose =>
    cases opening with
    | load ofPass _ => cases purpose.symm.trans ofPass
  | entered given purpose =>
    cases opening with
    | load ofPass ending =>
      obtain ⟨rfl, rfl⟩ := ReloadPurpose.pass.inj (purpose.symm.trans ofPass)
      exact .reloads ending
  | heard wait outcome =>
    cases opening with
    | listener purpose =>
      rw [purpose]
      exact .round
  | found wait bindings =>
    cases opening with
    | discovery same =>
      subst same
      exact .reloads rfl

theorem opening_initialLoad (runs : (Call.initialLoad c).pass? w = some c) :
    (w.initialLoad c).2.Opening c := by
  rw [initialLoad_runs runs]
  split
  · exact opening_turn (.reloads rfl) (turn_found _ c _)
  · exact .discovery rfl

end World

namespace Engine

variable {start e f : Engine} {before past : List (Engine × Move)} {c : CoordinatorId}

/-- An initial load of a coordinator was called in a run. -/
def Opened (c : CoordinatorId) (past : List (Engine × Move)) : Prop :=
  ∃ made ∈ past, made.2 = .call (.initialLoad c)

theorem opens?_eq_some_iff {move : Move} :
    move.opens? = some c ↔ move = .call (.initialLoad c) := by
  unfold Move.opens?
  split
  · simp
  · rename_i other
    constructor
    · exact nofun
    · rintro rfl
      exact absurd rfl (other c)

theorem opened_cons {move : Move} :
    Opened c ((e, move) :: past) ↔ move.opens? = some c ∨ Opened c past := by
  simp [Opened, opens?_eq_some_iff]

/-- Only coordinators that exist are called. -/
theorem Reach.opened_lt (reach : Reach start e past) (opened : Opened c past) :
    c < e.world.coordinators.length := by
  induction reach with
  | start =>
    obtain ⟨_, member, _⟩ := opened
    cases member
  | next reach known ih =>
    refine Nat.lt_of_lt_of_le ?_ (step_latches known).length_le
    rcases opened_cons.mp opened with now | earlier
    · obtain rfl := opens?_eq_some_iff.mp now
      exact known
    · exact ih earlier

/-- The latch is set from the first initial load on, and only then. -/
theorem Reach.initialized_iff (reach : Reach {} e past)
    (inRange : c < e.world.coordinators.length) :
    (e.world.coordinator c).initialized = true ↔ Opened c past := by
  induction reach with
  | start => exact absurd inRange (Nat.not_lt_zero c)
  | @next e past move reach known ih =>
    have latches := step_latches known
    rw [opened_cons]
    by_cases old : c < e.world.coordinators.length
    · have latch := congrArg Coordinator.initialized (latches.settings c old)
      rw [show ((e.step move).1.world.coordinator c).initialized = _ from latch, ← ih old]
      split
      · rename_i now
        simp [now]
      · rename_i other
        simp [other, Coordinator.settings]
    · -- A coordinator that this move makes: nothing can have called it.
      obtain ⟨unset, _⟩ := latches.new c (Nat.le_of_not_lt old) inRange
      have never : ¬(move.opens? = some c ∨ Opened c past) := by
        rintro (now | earlier)
        · obtain rfl := opens?_eq_some_iff.mp now
          exact old known
        · exact old (reach.opened_lt earlier)
      simp [unset, never]

/-- An initial load that runs answers with a report. -/
theorem Course.initialized (course : Course e (.initialLoad c) f past)
    (runs : (Call.initialLoad c).pass? e.world = some c) (back : f.waits = e.waits) :
    ∃ report, lastReply past = some (.initialized report) := by
  obtain ⟨progress, opening, stands⟩ := course.stands (P := fun _ progress => progress.Opening c)
    (World.opening_initialLoad runs) (fun _ opening _ goes => World.opening_goes opening goes)
    (fun _ opening _ _ => opening)
  obtain ⟨reply, rfl, last⟩ := stands.answer back
  cases opening
  exact ⟨_, last⟩

/-- What a pass of a coordinator does for the listeners, whatever call it is. -/
structure Informs (e : Engine) (c : CoordinatorId) (k : Call) (f : Engine)
    (later : List (Engine × Move)) : Prop extends Told e c f later where
  /-- Before anything else, the whole queue joins the hub. -/
  joined : (e.step (.call k)).1.world.hub (e.world.coordinator c).hub =
    (e.world.hub (e.world.coordinator c).hub).join (e.world.coordinator c).pending
  emptied : ((e.step (.call k)).1.world.coordinator c).pending = []
  /-- Whoever was in the queue or in the hub has been told, once, when the pass returns. -/
  everyone : f.waits = e.waits → ∀ l, l ∈ (e.world.coordinator c).pending ∨
    l ∈ e.world.listeners c →
    ((roundCalls e.waits.length later).map fun it => it.listener.number).count l.number = 1

theorem Reach.informs (reach : Reach {} e before) {k : Call} (course : Course e k f past)
    (begins : k.pass? e.world = some c) : Informs e c k f past := by
  have known : (Move.call k).Known e.world := course.known
  have inRange := pass?_lt course.known begins
  obtain ⟨joined, emptied⟩ := step_gathers reach.ownHubs course.known begins rfl
  refine ⟨reach.told course begins, joined, emptied, fun back l there => ?_⟩
  refine reach.called_once course begins back ?_
  rw [World.listeners, step_hub_eq known inRange, joined]
  refine Hub.mem_numbers_join.mpr ?_
  rcases there with waiting | present
  · exact Or.inr (List.mem_map_of_mem waiting)
  · exact Or.inl (List.mem_map_of_mem present)

theorem begin_refresh (w : World) (c : CoordinatorId) : (w.collectPending c).Turn
    (.pass (w.registryPass (w.coordinator c).registry (.refresh c))) (w.begin (.refresh c)) := by
  have collected := w.keeps_collectPending c
  rw [World.begin, World.refresh, World.registryPass, World.registryPass,
    collected.registry_coordinator, collected.registry]
  exact World.turn_nextReload _ _

/-- A refresh from end to end: the queue joins the hub, every type of the registry is reloaded, then
every listener is told, and with the answer one more cycle counts. -/
structure Refreshes (e : Engine) (c : CoordinatorId) (f : Engine) (later : List (Engine × Move)) :
    Prop extends Informs e c (.refresh c) f later where
  /-- There is one reload for each type that the registry had when the refresh was called, in
  order. -/
  reloads : f.waits = e.waits → (passReloads e.waits.length later).map PassReload.type =
    (e.world.registry (e.world.coordinator c).registry).types
  answered : f.waits = e.waits → ∃ report : Report, lastReply later = some (.passed
      { report with listenerFailures :=
        (roundCalls e.waits.length later).filterMap RoundCall.failure? }) ∧
    report.Accounts (passReloads e.waits.length later)
  faithful : ∀ it ∈ passReloads e.waits.length later,
    (e.world.registry (e.world.coordinator c).registry).store? it.type = some it.load.store ∧
      it.Faithful

/-- Whether the latch is set has no part in a refresh. -/
theorem Reach.refreshes (reach : Reach {} e before) (course : Course e (.refresh c) f past) :
    Refreshes e c f past := by
  have informs := reach.informs course (c := c) rfl
  obtain ⟨progress, stage, stands, faithful⟩ := reach.registryPass_stages course
    (reach.linked.coordinators c course.known) (e.world.keeps_collectPending c).registries
    (begin_refresh e.world c)
  refine ⟨informs, fun back => ?_, fun back => ?_, faithful⟩
  · obtain ⟨reply, rfl, last⟩ := stands.answer back
    cases stage with
    | answered all accounts => rw [← all, registryPass_types]
  · obtain ⟨reply, rfl, last⟩ := stands.answer back
    obtain ⟨reply, report, replied, given, failures, _⟩ := informs.reported back
    cases stage with
    | answered all accounts =>
      obtain rfl := Option.some.inj (last.symm.trans replied)
      obtain rfl := Option.some.inj given
      exact ⟨_, failures ▸ last, accounts⟩

/-- What the latch of a coordinator does in a run. -/
structure OneWay (e : Engine) (c : CoordinatorId) (past : List (Engine × Move)) : Prop where
  /-- It is set from the first initial load on, and only then. -/
  initialized_iff : (e.world.coordinator c).initialized = true ↔ Opened c past
  kept : ∀ f later, Reach e f later →
    (f.world.coordinator c).config = (e.world.coordinator c).config ∧
      ((e.world.coordinator c).initialized = true → (f.world.coordinator c).initialized = true)
  /-- Unless initial loads may run again, all but the first are skipped and change nothing. -/
  skipped : (e.world.coordinator c).config.reloadOnRefresh = false → Opened c past →
    e.step (.call (.initialLoad c)) =
      (⟨e.world.note .alreadyInitialized, e.waits⟩, some .skipped)
  /-- The first initial load, and every one that may run again, is a pass that answers with a
  report. -/
  runs : ((e.world.coordinator c).config.reloadOnRefresh = true ∨ ¬Opened c past) →
    ∀ f later, Course e (.initialLoad c) f later →
      (f.world.coordinator c).initialized = true ∧
        (f.waits = e.waits → ∃ report, lastReply later = some (.initialized report)) ∧
        Informs e c (.initialLoad c) f later
  /-- The initial loads of one coordinator leave the latches of all others alone. -/
  others : ∀ d, d ≠ c → d < e.world.coordinators.length →
    ((e.step (.call (.initialLoad d))).1.world.coordinator c).settings =
      (e.world.coordinator c).settings
  /-- Refreshes are full passes, whether or not the latch is set. -/
  refreshed : ∀ f later, Course e (.refresh c) f later → Refreshes e c f later

/-- The latch is one-way, however calls nest: the call that is running counts for what its own
loaders and listeners call. -/
theorem Reach.one_way (reach : Reach {} e past) (inRange : c < e.world.coordinators.length) :
    e.OneWay c past where
  initialized_iff := reach.initialized_iff inRange
  kept f later goesOn := by
    have bound := Nat.lt_of_lt_of_le inRange goesOn.length_coordinators_le
    refine ⟨goesOn.config_eq inRange, fun set => ?_⟩
    obtain ⟨made, member, called⟩ := (reach.initialized_iff inRange).mp set
    exact ((reach.trans goesOn).initialized_iff bound).mpr
      ⟨made, List.mem_append_right later member, called⟩
  skipped once opened := by
    have set := (reach.initialized_iff inRange).mpr opened
    exact step_skipped (by simp [Call.pass?, set, once])
  runs free f later course := by
    have bound := Nat.lt_of_lt_of_le inRange course.reach.length_coordinators_le
    have runs : (Call.initialLoad c).pass? e.world = some c := by
      refine World.runs_iff.mpr fun skips => ?_
      obtain ⟨set, once⟩ := Bool.and_eq_true_iff.mp skips
      rcases free with again | first
      · rw [again] at once
        cases once
      · exact first ((reach.initialized_iff inRange).mp set)
    refine ⟨?_, course.initialized runs, reach.informs course runs⟩
    exact ((reach.trans course.reach).initialized_iff bound).mpr
      ⟨_, List.mem_append_left past course.called, rfl⟩
  others d other known := by
    have called : (Move.call (.initialLoad d)).Known e.world := known
    have elsewhere : (Move.call (.initialLoad d)).opens? ≠ some c :=
      fun same => other (Option.some.inj same)
    have settings := (step_latches called).settings c inRange
    rwa [if_neg elsewhere] at settings
  refreshed f later course := reach.refreshes course

/-- An initial load whose only loader is at work, and a listener in the queue. -/
def opening : List Move :=
  [.call (.makeCoordinator {} none (.catalog ⟨[⟨itemType, 0, true⟩]⟩)), .call (.initialLoad 0),
    .call (.queue 0 ⟨1, "cache"⟩)]

/-- The loader calls a refresh. -/
def refreshing : List Move :=
  [.call (.refresh 0), .loaded (.done [goodItem]), .heard (.done ())]

/-- Of what the loader of a first initial load calls, another initial load is skipped, and a refresh
is a full pass. -/
theorem nested_initialLoad_skipped :
    ((({} : Engine).run opening).world.coordinator 0).initialized = true ∧
    ((({} : Engine).run opening).step (.call (.initialLoad 0))).2 = some .skipped ∧
    ((({} : Engine).run opening).step (.call (.initialLoad 0))).1.waits =
      [.load ⟨0, ⟨[], 0⟩, .pass itemType ⟨0, [], {}, .initialization 0 1⟩⟩] ∧
    ((roundCalls 1 ((({} : Engine).run opening).trail refreshing)).map
      fun it => it.listener.number).count 1 = 1 ∧
    ∃ report : Report, lastReply ((({} : Engine).run opening).trail refreshing) =
      some (.passed { report with listenerFailures := [] }) ∧ report.loaded = [⟨"Item", 1⟩] := by
  have plays : ({} : Engine).Plays opening := by decide
  have latch := (reach_run plays).one_way (c := 0) (by decide)
  have opened : Opened 0 (({} : Engine).trail opening) :=
    ⟨_, List.mem_cons_of_mem _ List.mem_cons_self, rfl⟩
  have course : Course (({} : Engine).run opening) (.refresh 0)
      ((({} : Engine).run opening).run refreshing) ((({} : Engine).run opening).trail refreshing) :=
    course_run (by decide) (by decide)
  have refreshes := latch.refreshed _ _ course
  obtain ⟨report, last, accounts⟩ := refreshes.answered rfl
  rw [latch.skipped rfl opened]
  refine ⟨latch.initialized_iff.mpr opened, rfl, rfl, ?_, report, last, accounts.loaded⟩
  exact refreshes.everyone rfl ⟨1, "cache"⟩ (Or.inl List.mem_cons_self)

end Engine

end LiveTables
