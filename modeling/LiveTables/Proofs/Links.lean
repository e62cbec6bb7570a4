import LiveTables.Proofs.Latches
import LiveTables.Proofs.RegistryGrowth

namespace LiveTables

/-- What a call that goes on refers to is there. -/
structure Progress.Linked (w : World) (progress : Progress) : Prop where
  pass : ∀ load type pass, progress = .waiting (.load load) → load.purpose = .pass type pass →
    pass.registry < w.registries.length ∧
      (w.registry pass.registry).store? type = some load.store
  discovery : ∀ wait, progress = .waiting (.discovery wait) →
    wait.coordinator < w.coordinators.length

namespace World

variable {w : World}

theorem linked_done (w : World) (reply : Reply) : (Progress.done reply).Linked w :=
  ⟨fun _ _ _ ends => (by cases ends), fun _ ends => (by cases ends)⟩

theorem linked_listener (w : World) (wait : ListenerWait) :
    (Progress.waiting (.listener wait)).Linked w :=
  ⟨fun _ _ _ ends => (by cases ends), fun _ ends => (by cases ends)⟩

/-- The registry finds the store that an installation answers with. -/
theorem store?_install {r : RegistryId} (inRange : r < w.registries.length) (type : RecordType)
    (make : Location → Store) :
    ((w.install r type make).1.registry r).store? type = some (w.install r type make).2 := by
  cases found : (w.registry r).store? type with
  | some s => simp only [install, found]
  | none =>
    have installed := registry_setRegistry (w.addStore (make (w.registry r).location)).1 inRange
      ((w.registry r).install type w.stores.length) r
    rw [if_pos rfl] at installed
    have now := Registry.store?_install (w.registry r) type type w.stores.length
    rw [if_pos BEq.rfl] at now
    simp only [install, found]
    exact (congrArg (Registry.store? · type) installed).trans now

theorem length_install (w : World) (r : RegistryId) (type : RecordType)
    (make : Location → Store) :
    (w.install r type make).1.registries.length = w.registries.length := by
  unfold install
  dsimp only
  split
  · rfl
  · exact List.length_set

/-- A reload begins for a store that the registry of its pass has. -/
theorem linked_turn {job : Job} {next : World × Progress} (turn : w.Turn job next)
    (inRange : ∀ pass, job = .pass pass → pass.registry < w.registries.length) :
    next.2.Linked next.1 := by
  induction turn with
  | answer | roundOver => exact linked_done _ _
  | call => exact linked_listener _ _
  | @reload w _ pass _ _ _ _ _ _ provides =>
    have known := inRange pass rfl
    refine ⟨?_, fun _ ends => (by cases ends)⟩
    rintro _ _ _ ⟨⟩ ⟨⟩
    cases provides with
    | installed found => exact ⟨known, found⟩
    | bound b =>
      have length := w.length_install pass.registry b.recordType b.createStore
      exact ⟨length.symm ▸ known, store?_install known b.recordType b.createStore⟩
  | reloaded _ _ ih => exact ih fun rest same => absurd same (afterReloads_ne_pass _ _ rest)

end World

/-- What coordinators and waits refer to is there. -/
structure Engine.Linked (e : Engine) : Prop where
  coordinators : ∀ c, c < e.world.coordinators.length →
    (e.world.coordinator c).registry < e.world.registries.length
  waits : ∀ wait ∈ e.waits, (Progress.waiting wait).Linked e.world

namespace World

variable {w : World}

theorem linked_begin
    (coordinators : ∀ c, c < w.coordinators.length →
      (w.coordinator c).registry < w.registries.length)
    {c : Call} (known : c.Known w) : (w.begin c).2.Linked (w.begin c).1 := by
  cases c with
  | makeStore | makeRegistry | makeHub | makeCoordinator | makeBound | append | listInGeneration
  | ensureBinding | register | queue => exact linked_done _ _
  | reload s =>
    refine ⟨?_, fun _ ends => (by cases ends)⟩
    rintro _ _ _ ⟨⟩ ⟨⟩
  | registerIndex s d =>
    obtain ⟨reply, run⟩ := w.begin_registerIndex s d
    rw [run]
    exact linked_done _ reply
  | applyToGeneration s number d =>
    obtain ⟨reply, run⟩ := w.begin_applyToGeneration s number d
    rw [run]
    exact linked_done _ reply
  | ensure r type loader =>
    obtain ⟨reply, run⟩ := w.begin_ensure r type loader
    rw [run]
    exact linked_done _ reply
  | reloadAll r =>
    refine linked_turn (turn_nextReload _ _) ?_
    rintro _ ⟨⟩
    exact known
  | notify h => exact linked_turn (turn_nextListener _ _ _ _) nofun
  | initialLoad c =>
    have inRange := coordinators c known
    have collected := (w.latch c).keeps_collectPending c
    have registries : ((w.latch c).collectPending c).registries = w.registries :=
      collected.registries
    simp only [begin, initialLoad]
    split
    · exact linked_done _ _
    · split
      · refine linked_turn (turn_found _ c _) ?_
        rintro _ ⟨⟩
        rw [Coordinator.bindingPass, registry_latch, (keeps_noteFound _ c _).registries, registries]
        exact inRange
      · refine ⟨fun _ _ _ ends => (by cases ends), ?_⟩
        rintro _ ⟨⟩
        rw [collected.length_coordinators, latch, setCoordinator, List.length_set]
        exact known
  | refresh c =>
    have collected := w.keeps_collectPending c
    refine linked_turn (turn_nextReload _ _) ?_
    rintro _ ⟨⟩
    rw [registryPass, collected.registry_coordinator, collected.registries]
    exact coordinators c known

/-- The registry of the pass that goes on after outside work has ended is one of the world's. -/
theorem registry_of_ends {v : World} {own : Wait} {move : Move} {job : Job}
    (ends : own.Ends w move v job) (linked : (Progress.waiting own).Linked w)
    (coordinators : ∀ c, c < w.coordinators.length →
      (w.coordinator c).registry < w.registries.length)
    {pass : Pass} (same : job = .pass pass) : pass.registry < v.registries.length := by
  rw [(keeps_ends ends).registries]
  cases ends with
  | answered | heard => cases same
  | entered given purpose =>
    cases same
    exact (linked.pass _ _ _ rfl purpose).1
  | found wait bindings =>
    cases same
    exact coordinators _ (linked.discovery wait rfl)

end World

namespace Engine

variable {e : Engine} {move : Move}

theorem Linked.coordinators_step (linked : e.Linked) (known : move.Known e.world)
    {c : CoordinatorId} (inRange : c < (e.step move).1.world.coordinators.length) :
    ((e.step move).1.world.coordinator c).registry < (e.step move).1.world.registries.length := by
  have latches := step_latches known
  by_cases old : c < e.world.coordinators.length
  · have settings := congrArg Coordinator.registry (latches.settings c old)
    have same : ((e.step move).1.world.coordinator c).registry =
        (e.world.coordinator c).registry := by
      refine settings.trans ?_
      split <;> rfl
    rw [same]
    exact Nat.lt_of_lt_of_le (linked.coordinators c old) (e.step_takes move).length_le
  · exact (latches.new c (Nat.le_of_not_lt old) inRange).2

theorem Linked.old_wait (linked : e.Linked) (known : move.Known e.world) {wait : Wait}
    (member : wait ∈ e.waits) : (Progress.waiting wait).Linked (e.step move).1.world where
  pass load type pass waiting purpose := by
    obtain ⟨inRange, found⟩ := (linked.waits wait member).pass load type pass waiting purpose
    have takes := e.step_takes move
    exact ⟨Nat.lt_of_lt_of_le inRange takes.length_le,
      (takes.grows inRange).found type load.store found⟩
  discovery own waiting := by
    have inRange := (linked.waits wait member).discovery own waiting
    exact Nat.lt_of_lt_of_le inRange (step_latches known).length_le

theorem linked_advance {waits : List Wait} {next : World × Progress}
    (linked : next.2.Linked next.1)
    (old : ∀ wait ∈ waits, (Progress.waiting wait).Linked next.1) :
    ∀ wait ∈ (advance waits next).1.waits, (Progress.waiting wait).Linked next.1 := by
  obtain ⟨w, progress⟩ := next
  cases progress with
  | done reply => exact old
  | waiting top => exact List.forall_mem_cons.mpr ⟨linked, old⟩

theorem step_linked (linked : e.Linked) (known : move.Known e.world) : (e.step move).1.Linked where
  coordinators _ inRange := linked.coordinators_step known inRange
  waits := by
    have old (wait : Wait) (member : wait ∈ e.waits) := linked.old_wait known member
    rcases e.step_forms move with ⟨c, rfl⟩ | ⟨own, rest, next, top, goes, run⟩ | ⟨nothing, run⟩
    · rw [step_call, advance_world] at old ⊢
      exact linked_advance (World.linked_begin linked.coordinators known) old
    · have below : ∀ wait ∈ rest, wait ∈ e.waits := by
        rw [top]
        exact fun wait => List.mem_cons_of_mem own
      rw [run, advance_world] at old ⊢
      refine linked_advance ?_ fun wait member => old wait (below wait member)
      have mine := linked.waits own (top ▸ List.mem_cons_self)
      obtain ⟨v, job, ends, turn⟩ := goes.ends
      exact World.linked_turn turn fun pass => World.registry_of_ends ends mine linked.coordinators
    · rw [run]
      exact linked.waits

theorem linked_empty : ({} : Engine).Linked where
  coordinators _ inRange := absurd inRange (Nat.not_lt_zero _)
  waits _ member := absurd member List.not_mem_nil

theorem Reach.linked {past : List (Engine × Move)} (reach : Reach {} e past) : e.Linked := by
  induction reach with
  | start => exact linked_empty
  | next _ known ih => exact step_linked ih known

end Engine

end LiveTables
