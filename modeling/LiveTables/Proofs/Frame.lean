import LiveTables.Proofs.StoreStep

namespace LiveTables

/-- A coordinator without its queue and its count of cycles. -/
def Coordinator.settings (it : Coordinator) : Coordinator := { it with pending := [], cycles := 0 }

namespace World

theorem settings_coordinator (w : World) (c : CoordinatorId) : (w.coordinator c).settings =
    (w.coordinators.map Coordinator.settings).getD c (default : Coordinator).settings := by
  simp only [coordinator, List.getD_eq_getElem?_getD, List.getElem?_map]
  cases w.coordinators[c]? <;> rfl

/-- A later world has the same registries as an earlier one, as many stores and hubs, and
coordinators with the same settings. -/
structure Keeps (w v : World) : Prop where
  registries : v.registries = w.registries
  stores : v.stores.length = w.stores.length
  hubs : v.hubs.length = w.hubs.length
  coordinators : v.coordinators.map Coordinator.settings = w.coordinators.map Coordinator.settings

namespace Keeps

variable {w v u : World}

theorem refl (w : World) : w.Keeps w := ⟨rfl, rfl, rfl, rfl⟩

theorem trans (first : w.Keeps v) (second : v.Keeps u) : w.Keeps u where
  registries := second.registries.trans first.registries
  stores := second.stores.trans first.stores
  hubs := second.hubs.trans first.hubs
  coordinators := second.coordinators.trans first.coordinators

theorem registry (keeps : w.Keeps v) (r : RegistryId) : v.registry r = w.registry r := by
  rw [World.registry, World.registry, keeps.registries]

theorem settings (keeps : w.Keeps v) (c : CoordinatorId) :
    (v.coordinator c).settings = (w.coordinator c).settings := by
  rw [settings_coordinator, settings_coordinator, keeps.coordinators]

theorem registry_coordinator (keeps : w.Keeps v) (c : CoordinatorId) :
    (v.coordinator c).registry = (w.coordinator c).registry := by
  have same := congrArg Coordinator.registry (keeps.settings c)
  exact same

theorem length_coordinators (keeps : w.Keeps v) :
    v.coordinators.length = w.coordinators.length := by
  have lengths := congrArg List.length keeps.coordinators
  rwa [List.length_map, List.length_map] at lengths

end Keeps

variable (w : World)

theorem keeps_note (n : Notice) : w.Keeps (w.note n) := ⟨rfl, rfl, rfl, rfl⟩

theorem keeps_setStore (s : StoreId) (it : Store) : w.Keeps (w.setStore s it) :=
  ⟨rfl, List.length_set, rfl, rfl⟩

theorem keeps_setHub (h : HubId) (it : Hub) : w.Keeps (w.setHub h it) :=
  ⟨rfl, rfl, List.length_set, rfl⟩

theorem keeps_setCoordinator {c : CoordinatorId} {it : Coordinator}
    (same : it.settings = (w.coordinator c).settings) : w.Keeps (w.setCoordinator c it) where
  registries := rfl
  stores := rfl
  hubs := rfl
  coordinators := by
    rw [setCoordinator, List.map_set]
    by_cases inRange : c < w.coordinators.length
    · have bound : c < (w.coordinators.map Coordinator.settings).length := by simpa using inRange
      have atNumber : it.settings = (w.coordinators.map Coordinator.settings)[c] := by
        simp [same, coordinator, List.getD_eq_getElem?_getD, inRange]
      rw [atNumber, List.set_getElem_self]
    · exact List.set_eq_of_length_le (by simpa using inRange)

theorem keeps_register (h : HubId) (l : Listener) : w.Keeps (w.register h l) := by
  unfold register
  dsimp only
  split
  · exact w.keeps_note _
  · exact w.keeps_setHub _ _

theorem keeps_collectPending (c : CoordinatorId) : w.Keeps (w.collectPending c) := by
  have joins (h : HubId) (ls : List Listener) (v : World) :
      v.Keeps (ls.foldl (fun v l => v.register h l) v) := by
    induction ls generalizing v with
    | nil => exact .refl v
    | cons l rest ih => exact (v.keeps_register h l).trans (ih _)
  have emptied : w.Keeps (w.setCoordinator c { w.coordinator c with pending := [] }) :=
    w.keeps_setCoordinator rfl
  exact emptied.trans (joins _ _ _)

theorem keeps_queue (c : CoordinatorId) (l : Listener) : w.Keeps (w.queue c l) :=
  w.keeps_setCoordinator rfl

theorem keeps_endCycle (c : CoordinatorId) : w.Keeps (w.endCycle c) :=
  w.keeps_setCoordinator rfl

theorem settings_latch (c d : CoordinatorId) : ((w.latch c).coordinator d).settings =
    if c = d ∧ c < w.coordinators.length then
      { (w.coordinator d).settings with initialized := true } else (w.coordinator d).settings := by
  by_cases inRange : c < w.coordinators.length
  · rw [latch, coordinator_setCoordinator w inRange]
    by_cases same : c = d
    · subst same
      simp [inRange, Coordinator.settings]
    · simp [same]
  · rw [if_neg fun both => inRange both.2, latch, setCoordinator,
      List.set_eq_of_length_le (Nat.le_of_not_lt inRange)]

/-- The settings of a coordinator that has set its latch are those before, but for the latch. -/
theorem settings_latched (w : World) (c : CoordinatorId) :
    { (((w.latch c).collectPending c).coordinator c).settings with initialized := true } =
      { (w.coordinator c).settings with initialized := true } := by
  rw [((w.latch c).keeps_collectPending c).settings c, settings_latch]
  split <;> rfl

theorem config_latch (w : World) (c : CoordinatorId) :
    (((w.latch c).collectPending c).coordinator c).config = (w.coordinator c).config := by
  have same := congrArg Coordinator.config (w.settings_latched c)
  exact same

theorem registry_latch (w : World) (c : CoordinatorId) :
    (((w.latch c).collectPending c).coordinator c).registry = (w.coordinator c).registry := by
  have same := congrArg Coordinator.registry (w.settings_latched c)
  exact same

theorem keeps_registerIndex (s : StoreId) (d : IndexDef) : w.Keeps (w.registerIndex s d).1 := by
  unfold registerIndex
  split
  · exact (w.keeps_setStore _ _).trans (keeps_note _ _)
  · exact w.keeps_setStore _ _

theorem keeps_endRound (failures : List ListenerFailure) (purpose : RoundPurpose) :
    w.Keeps (w.endRound failures purpose) := by
  cases purpose with
  | answer => exact .refl w
  | refresh c report => exact w.keeps_endCycle c
  | initialization c types report => exact (w.keeps_endCycle c).trans (keeps_note _ _)

theorem keeps_noteReloads (pass : Pass) : w.Keeps (w.noteReloads pass) := by
  unfold noteReloads
  split
  · exact .refl w
  · exact w.keeps_note _
  · exact w.keeps_note _

theorem keeps_concludeReload (s : StoreId) (plan : Plan) (outcome : Outcome (List Record)) :
    w.Keeps (w.concludeReload s plan outcome).1 := by
  have concluded := w.keeps_setStore s ((w.store s).conclude plan outcome).1
  unfold concludeReload
  dsimp only
  split
  · exact concluded.trans (keeps_note _ _)
  · exact concluded.trans (keeps_note _ _)
  · exact concluded

theorem keeps_recordReload (type : RecordType) (report : Report) (outcome : Outcome Nat) :
    w.Keeps (w.recordReload type report outcome).1 := by
  unfold recordReload
  split
  · exact .refl w
  · exact .refl w
  · exact w.keeps_note _

theorem keeps_endLoad (load : LoadWait) (given : Outcome (List Record)) :
    w.Keeps (w.endLoad load given) := by
  have concluded := w.keeps_concludeReload load.store load.plan given
  unfold endLoad
  dsimp only
  split
  · exact concluded
  · exact concluded.trans (keeps_recordReload _ _ _ _)

theorem keeps_noteHeard (wait : ListenerWait) (given : Outcome Unit) :
    w.Keeps (w.noteHeard wait given) := by
  unfold noteHeard
  split
  · exact .refl w
  · exact w.keeps_note _

theorem keeps_noteFound (c : CoordinatorId) (bindings : List Binding) :
    w.Keeps (w.noteFound c bindings) := by
  unfold noteFound
  dsimp only
  split
  · exact w.keeps_note _
  · exact .refl w

variable {w}

/-- The end of outside work is entered in stores, reports and notices only. -/
theorem keeps_ends {v : World} {own : Wait} {move : Move} {job : Job}
    (ends : own.Ends w move v job) : w.Keeps v := by
  cases ends with
  | answered given _ => exact w.keeps_endLoad _ given
  | entered given _ => exact w.keeps_endLoad _ given
  | heard wait given => exact w.keeps_noteHeard wait given
  | found wait bindings => exact w.keeps_noteFound _ bindings

end World

end LiveTables
