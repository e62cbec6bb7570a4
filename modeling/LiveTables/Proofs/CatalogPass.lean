import LiveTables.Proofs.Gathering
import LiveTables.Proofs.Offers
import LiveTables.Proofs.Verdicts

namespace LiveTables

/-- The bindings of a catalog that an initial load of a coordinator loads, in catalog order. -/
def Coordinator.chosen (it : Coordinator) (catalog : Catalog) : List Binding :=
  catalog.bindings.filter fun b =>
    b.managed && Scope.selects it.config.recordScope b.recordType.qualifier

/-- It is the same whether unmanaged bindings are left out before or after the scope selects. -/
theorem Coordinator.chosen_eq (it : Coordinator) (catalog : Catalog) :
    (catalog.discover it.config.recordScope).filter Binding.managed = it.chosen catalog :=
  List.filter_filter

namespace World

/-- How often notice was given that nothing was discovered in a scope at a location. -/
def undiscovered (w : World) (scope location : String) : Nat :=
  w.notices.count (.nothingDiscovered scope location)

/-- A later world has as many such notices as an earlier one. -/
def Quiet (w v : World) : Prop :=
  ∀ scope location, v.undiscovered scope location = w.undiscovered scope location

variable {w v u : World}

theorem undiscovered_eq (w : World) (scope location : String) :
    w.undiscovered scope location = w.verdicts.count (.nothingDiscovered scope location) :=
  (List.count_filter rfl).symm

/-- What gives none of the notices that tell how something ended is quiet. -/
theorem Quiet.of_verdicts (same : v.verdicts = w.verdicts) : w.Quiet v := by
  intro scope location
  rw [undiscovered_eq, undiscovered_eq, same]

theorem Quiet.of_other {given : Option Notice}
    (verdicts : v.verdicts = given.toList ++ w.verdicts)
    (other : ∀ scope location, given ≠ some (.nothingDiscovered scope location)) : w.Quiet v := by
  intro scope location
  rw [undiscovered_eq, undiscovered_eq, verdicts, List.count_append]
  cases given with
  | none => exact Nat.zero_add _
  | some n =>
    have apart : n ≠ .nothingDiscovered scope location :=
      fun same => other scope location (congrArg some same)
    rw [Option.toList_some, List.count_singleton, if_neg (by simpa using apart), Nat.zero_add]

theorem undiscovered_note (w : World) (s l scope location : String) :
    (w.note (.nothingDiscovered s l)).undiscovered scope location =
      w.undiscovered scope location + if s = scope ∧ l = location then 1 else 0 := by
  rw [undiscovered, note, List.count_cons]
  simp [undiscovered]

/-- When a call goes on, only what discovery found can be found to be nothing. -/
theorem quiet_goes {own : Wait} {move : Move} {next : World × Progress}
    (goes : own.Goes w move next) (noDiscovery : ∀ wait, own ≠ .discovery wait) :
    w.Quiet next.1 := by
  refine .of_other (verdicts_goes goes) fun scope location => ?_
  cases goes with
  | loaded load given =>
    unfold Wait.verdict? LoadWait.verdict?
    dsimp only
    split <;> exact nofun
  | heard wait given => cases given <;> exact nofun
  | found wait bindings => exact absurd rfl (noDiscovery wait)

/-- An initial load that runs begins with the pass over the chosen bindings, and with a notice if
there are none. -/
theorem begin_catalog {c : CoordinatorId} {catalog : Catalog}
    (runs : (Call.initialLoad c).pass? w = some c)
    (given : (w.coordinator c).discovery = .catalog catalog) :
    ∃ v : World, v.registries = w.registries ∧ v.Turn (.pass
        ((w.coordinator c).bindingPass c ((w.coordinator c).chosen catalog)))
        (w.begin (.initialLoad c)) ∧
      ∀ scope location, v.undiscovered scope location = w.undiscovered scope location +
        if (w.coordinator c).chosen catalog = [] ∧
            (w.coordinator c).config.recordScope = scope ∧
            (w.coordinator c).config.location.display = location then 1 else 0 := by
  have collected := (w.latch c).keeps_collectPending c
  have quiet : w.Quiet ((w.latch c).collectPending c) :=
    .of_verdicts (verdicts_collectPending (w.latch c) c)
  have turn := turn_found ((w.latch c).collectPending c) c
    (catalog.discover (w.coordinator c).config.recordScope)
  rw [Coordinator.chosen_eq, Coordinator.bindingPass, registry_latch] at turn
  have registries := (keeps_noteFound ((w.latch c).collectPending c) c
    (catalog.discover (w.coordinator c).config.recordScope)).registries
  refine ⟨_, registries.trans collected.registries, ?_, fun scope location => ?_⟩
  · rw [begin, initialLoad_runs runs, given]
    exact turn
  · rw [noteFound, config_latch, Coordinator.chosen_eq]
    by_cases nothing : (w.coordinator c).chosen catalog = []
    · rw [nothing, List.isEmpty_nil, if_pos rfl, undiscovered_note, quiet]
      simp
    · rw [if_neg (mt List.isEmpty_iff.mp nothing), quiet, if_neg fun both => nothing both.1,
        Nat.add_zero]

/-- The call itself offers the first of the chosen bindings. -/
theorem offer?_catalog {c : CoordinatorId} {catalog : Catalog}
    (runs : (Call.initialLoad c).pass? w = some c)
    (given : (w.coordinator c).discovery = .catalog catalog) :
    (Call.initialLoad c).offer? w = w.turn? (w.coordinator c).registry
      (((w.coordinator c).chosen catalog).map .bound) := by
  unfold Call.offer?
  dsimp only
  rw [if_neg (runs_iff.mp runs), given]
  dsimp only
  rw [foundOffer?, Coordinator.chosen_eq]

end World

end LiveTables
