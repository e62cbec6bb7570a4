import LiveTables.Proofs.Frame

namespace LiveTables

/-- The coordinator whose initial load a move calls. -/
def Move.opens? : Move → Option CoordinatorId
  | .call (.initialLoad c) => some c
  | _ => none

namespace World

/-- A later world has the coordinators of an earlier one, one latch set among them if one was
opened, and beyond them only fresh ones over registries that exist. -/
structure Latches (w next : World) (opened : Option CoordinatorId) : Prop where
  length_le : w.coordinators.length ≤ next.coordinators.length
  settings : ∀ c, c < w.coordinators.length → (next.coordinator c).settings =
    if opened = some c then { (w.coordinator c).settings with initialized := true }
    else (w.coordinator c).settings
  new : ∀ c, w.coordinators.length ≤ c → c < next.coordinators.length →
    (next.coordinator c).initialized = false ∧
      (next.coordinator c).registry < next.registries.length

variable {w v : World}

theorem Latches.of_same
    (same : v.coordinators.map Coordinator.settings = w.coordinators.map Coordinator.settings) :
    w.Latches v none := by
  have lengths := congrArg List.length same
  rw [List.length_map, List.length_map] at lengths
  refine ⟨Nat.le_of_eq lengths.symm, ?_, ?_⟩
  · intro c _
    rw [settings_coordinator, settings_coordinator, same]
    rfl
  · intro c beyond inRange
    omega

theorem Keeps.latches (keeps : w.Keeps v) : w.Latches v none := .of_same keeps.coordinators

theorem coordinators_install (w : World) (r : RegistryId) (type : RecordType)
    (make : Location → Store) : (w.install r type make).1.coordinators = w.coordinators := by
  unfold install
  dsimp only
  split <;> rfl

theorem settings_turn {job : Job} {next : World × Progress} (turn : w.Turn job next) :
    next.1.coordinators.map Coordinator.settings = w.coordinators.map Coordinator.settings := by
  induction turn with
  | answer | call => rfl
  | roundOver w failures purpose => exact (w.keeps_endRound failures purpose).coordinators
  | reload _ _ provides =>
    cases provides with
    | installed _ => rfl
    | bound b => exact congrArg _ (coordinators_install _ _ b.recordType b.createStore)
  | @reloaded w pass _ _ _ ih => exact ih.trans (w.keeps_noteReloads pass).coordinators

/-- Neither the end of outside work nor a turn changes the settings of coordinators. -/
theorem Keeps.turn_latches (keeps : w.Keeps v) {job : Job} {next : World × Progress}
    (turn : v.Turn job next) : w.Latches next.1 none :=
  .of_same ((settings_turn turn).trans keeps.coordinators)

theorem Latches.of_latch {c : CoordinatorId}
    (same : v.coordinators.map Coordinator.settings =
      (w.latch c).coordinators.map Coordinator.settings) : w.Latches v (some c) := by
  have lengths := congrArg List.length same
  rw [List.length_map, List.length_map, latch, setCoordinator, List.length_set] at lengths
  refine ⟨Nat.le_of_eq lengths.symm, ?_, ?_⟩
  · intro d inRange
    rw [settings_coordinator, same, ← settings_coordinator, settings_latch]
    by_cases here : c = d
    · subst here
      simp [inRange]
    · simp [here]
  · intro d beyond inRange
    omega

/-- A call that is skipped finds its latch set. -/
theorem latches_initialLoad (w : World) (c : CoordinatorId) :
    w.Latches (w.initialLoad c).1 (some c) := by
  have collected := ((w.latch c).keeps_collectPending c).coordinators
  unfold initialLoad
  dsimp only
  split
  · rename_i skipped
    rw [Bool.and_eq_true] at skipped
    have set : { w.coordinator c with initialized := true } = w.coordinator c := by
      rw [← skipped.1]
    exact .of_latch (w.keeps_setCoordinator (congrArg Coordinator.settings set)).coordinators.symm
  · split
    · have found := keeps_noteFound ((w.latch c).collectPending c) c
      have kept (bindings : List Binding) := (found bindings).coordinators.trans collected
      exact .of_latch ((settings_turn (turn_found _ c _)).trans (kept _))
    · exact .of_latch collected

theorem latches_addCoordinator (w : World) (config : Config) {r : Option RegistryId}
    (discovery : Discovery) (known : ∀ q, r = some q → q < w.registries.length) :
    w.Latches (w.addCoordinator config r discovery).1 none := by
  obtain ⟨made, h, whole, inRange⟩ : ∃ made h,
      (w.addCoordinator config r discovery).1.coordinators =
      w.coordinators ++ [.fresh config made h discovery] ∧
      made < (w.addCoordinator config r discovery).1.registries.length := by
    cases r with
    | none => exact ⟨_, _, rfl, by simp [addCoordinator, addRegistry, addHub]⟩
    | some r => exact ⟨_, _, rfl, known r rfl⟩
  refine ⟨by simp [whole], ?_, ?_⟩
  · intro c old
    simp [coordinator, whole, List.getD_eq_getElem?_getD, List.getElem?_append_left old]
  · intro c beyond bound
    rw [whole, List.length_append, List.length_singleton] at bound
    obtain rfl : c = w.coordinators.length := by omega
    have fresh : (w.addCoordinator config r discovery).1.coordinator w.coordinators.length =
        .fresh config made h discovery := by
      simp [coordinator, whole, List.getD_eq_getElem?_getD]
    rw [fresh]
    exact ⟨rfl, inRange⟩

theorem begin_latches {c : Call} (known : c.Known w) :
    w.Latches (w.begin c).1 (Move.call c).opens? := by
  cases c with
  | makeCoordinator config r discovery =>
    refine w.latches_addCoordinator config discovery ?_
    rintro q rfl
    exact known
  | makeStore | makeRegistry | makeHub | makeBound | reload | append | listInGeneration =>
    exact .of_same rfl
  | registerIndex s d =>
    obtain ⟨reply, run⟩ := w.begin_registerIndex s d
    rw [run]
    exact (w.keeps_registerIndex s d).latches
  | applyToGeneration s number d =>
    obtain ⟨reply, run⟩ := w.begin_applyToGeneration s number d
    rw [run]
    exact .of_same rfl
  | ensure r type loader =>
    obtain ⟨reply, run⟩ := w.begin_ensure r type loader
    rw [run]
    exact .of_same (congrArg _ (w.coordinators_install _ _ _))
  | ensureBinding r b => exact .of_same (congrArg _ (w.coordinators_install _ _ _))
  | reloadAll r => exact (Keeps.refl w).turn_latches (turn_nextReload _ _)
  | register h l => exact (w.keeps_register h l).latches
  | notify h => exact (Keeps.refl w).turn_latches (turn_nextListener _ _ _ _)
  | queue c l => exact (w.keeps_queue c l).latches
  | initialLoad c => exact w.latches_initialLoad c
  | refresh c => exact (w.keeps_collectPending c).turn_latches (turn_nextReload _ _)

end World

theorem Engine.Idle.opens? {e : Engine} {move : Move} (idle : e.Idle move) :
    move.opens? = none := by
  unfold Move.opens?
  split
  · exact absurd rfl (idle.not_call _)
  · rfl

/-- All that a move does to the settings of coordinators. -/
theorem Engine.step_latches {e : Engine} {move : Move} (known : move.Known e.world) :
    e.world.Latches (e.step move).1.world move.opens? := by
  refine step_world (e.world.Latches · move.opens?) ?_ ?_ ?_
  · rintro c rfl
    exact World.begin_latches known
  · intro own rest next _ goes
    obtain ⟨v, job, ends, turn⟩ := goes.ends
    have none : move.opens? = none := by cases goes <;> rfl
    rw [none]
    exact (World.keeps_ends ends).turn_latches turn
  · intro idle
    rw [idle.opens?]
    exact .of_same rfl

namespace Engine

variable {start e : Engine} {past : List (Engine × Move)}

/-- Coordinators are not removed. -/
theorem Reach.length_coordinators_le (reach : Reach start e past) :
    start.world.coordinators.length ≤ e.world.coordinators.length := by
  induction reach with
  | start => exact Nat.le_refl _
  | next reach known ih => exact Nat.le_trans ih (step_latches known).length_le

theorem Reach.config_eq (reach : Reach start e past) {c : CoordinatorId}
    (inRange : c < start.world.coordinators.length) :
    (e.world.coordinator c).config = (start.world.coordinator c).config := by
  induction reach with
  | start => rfl
  | next reach known ih =>
    have bound := Nat.lt_of_lt_of_le inRange reach.length_coordinators_le
    have settings := (step_latches known).settings c bound
    refine (congrArg Coordinator.config settings).trans (Eq.trans ?_ ih)
    split <;> rfl

end Engine

end LiveTables
