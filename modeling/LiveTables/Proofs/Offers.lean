import LiveTables.Proofs.Frame

namespace LiveTables

/-- A type that a registry is asked to hold, with the loader for a new table. -/
structure Offer where
  registry : RegistryId
  type : RecordType
  loader : LoaderId

def Binding.offer (r : RegistryId) (b : Binding) : Offer := ⟨r, b.recordType, b.loader⟩

/-- A registry after an offer to the registry of a number. The new store would have the given
number. -/
def Registry.take (it : Registry) (r : RegistryId) (new : StoreId) : Option Offer → Registry
  | none => it
  | some o => if o.registry = r ∧ it.contains o.type = false then it.install o.type new else it

namespace World

/-- The offer of the first item of a pass that has a store or a binding. -/
def turn? (w : World) (r : RegistryId) : List PassItem → Option Offer
  | [] => none
  | .installed type :: todo => if (w.registry r).contains type then none else w.turn? r todo
  | .bound b :: _ => some (b.offer r)

/-- What the first of the bindings that discovery found is offered as. -/
def foundOffer? (w : World) (c : CoordinatorId) (bindings : List Binding) : Option Offer :=
  w.turn? (w.coordinator c).registry ((bindings.filter Binding.managed).map .bound)

end World

/-- What a call offers with the next turn of what it has left to do. -/
def Job.offer? (w : World) : Job → Option Offer
  | .pass rest => w.turn? rest.registry rest.todo
  | .answer _ | .round .. => none

/-- What a call offers at once. -/
def Call.offer? (w : World) : Call → Option Offer
  | .ensure r type loader => some ⟨r, type, loader⟩
  | .ensureBinding r b => some (b.offer r)
  | .initialLoad c =>
    let it := w.coordinator c
    if it.initialized && !it.config.reloadOnRefresh then none
    else match it.discovery with
      | .catalog catalog => w.foundOffer? c (catalog.discover it.config.recordScope)
      | .outside _ => none
  | _ => none

/-- What a move offers, if it offers anything. -/
def Engine.offer? (e : Engine) (move : Move) : Option Offer :=
  match move, e.waits with
  | .call c, _ => c.offer? e.world
  | .loaded _, .load ⟨_, _, .pass _ pass⟩ :: _ => e.world.turn? pass.registry pass.todo
  | .found bindings, .discovery wait :: _ => e.world.foundOffer? wait.coordinator bindings
  | _, _ => none

namespace World

/-- A later world's registries are those of an earlier one after an offer, and beyond them only
empty ones. -/
structure Takes (w next : World) (offer : Option Offer) : Prop where
  length_le : w.registries.length ≤ next.registries.length
  registry : ∀ r, r < w.registries.length →
    next.registry r = (w.registry r).take r w.stores.length offer
  new : ∀ r, w.registries.length ≤ r →
    (next.registry r).types = [] ∧ (next.registry r).stores = []
  store : ∀ o, offer = some o → (w.registry o.registry).contains o.type = false →
    next.store w.stores.length = .fresh o.type (w.registry o.registry).location o.loader

variable {w v next : World} {offer : Option Offer}

theorem registry_of_le {r : RegistryId} (beyond : w.registries.length ≤ r) :
    w.registry r = default := by
  simp [World.registry, List.getD_eq_getElem?_getD, beyond]

theorem empty_of_le {r : RegistryId} (beyond : w.registries.length ≤ r) :
    (w.registry r).types = [] ∧ (w.registry r).stores = [] := by
  rw [registry_of_le beyond]
  exact ⟨rfl, rfl⟩

theorem Takes.of_same (same : v.registries = w.registries) : w.Takes v none where
  length_le := Nat.le_of_eq (congrArg List.length same.symm)
  registry r _ := by
    rw [World.registry, same]
    rfl
  new _ beyond := empty_of_le (same ▸ beyond)
  store _ absent := by cases absent

theorem Keeps.takes (keeps : w.Keeps v) : w.Takes v none := .of_same keeps.registries

/-- Changes that touch no registry and make no store can come before an offer. -/
theorem Takes.after (registries : v.registries = w.registries)
    (stores : v.stores.length = w.stores.length) (takes : v.Takes next offer) :
    w.Takes next offer := by
  have same (r : RegistryId) : v.registry r = w.registry r := by
    rw [World.registry, World.registry, registries]
  refine ⟨registries ▸ takes.length_le, ?_, ?_, ?_⟩
  · intro r inRange
    rw [← registries] at inRange
    rw [takes.registry r inRange, same, stores]
  · intro r beyond
    exact takes.new r (registries ▸ beyond)
  · intro o offered absent
    rw [← same] at absent ⊢
    rw [← stores, takes.store o offered absent]

theorem takes_addRegistry (w : World) (location : Location) :
    w.Takes (w.addRegistry { location := location }).1 none where
  length_le := by simp [addRegistry]
  registry r inRange := by
    simp [addRegistry, World.registry, List.getD_eq_getElem?_getD,
      List.getElem?_append_left inRange, Registry.take]
  new r beyond := by
    rw [World.registry, addRegistry, List.getD_eq_getElem?_getD,
      List.getElem?_append_right beyond]
    cases r - w.registries.length with
    | zero => exact ⟨rfl, rfl⟩
    | succ n => exact ⟨rfl, rfl⟩
  store _ absent := by cases absent

theorem takes_addCoordinator (w : World) (config : Config) (r : Option RegistryId)
    (discovery : Discovery) : w.Takes (w.addCoordinator config r discovery).1 none := by
  cases r with
  | none =>
    obtain ⟨length, old, new, _⟩ := w.takes_addRegistry config.location
    exact ⟨length, old, new, fun _ absent => by cases absent⟩
  | some r => exact .of_same rfl

theorem takes_install (w : World) (o : Offer) : w.Takes (w.install o.registry o.type
    fun location => .fresh o.type location o.loader).1 (some o) := by
  cases found : (w.registry o.registry).store? o.type with
  | some s =>
    -- The type is there: the store is found, and the world stays as it is.
    have known : (w.registry o.registry).contains o.type = true := by
      simp [Registry.contains, found]
    simp only [install, found]
    refine ⟨Nat.le_refl _, ?_, fun _ => empty_of_le, ?_⟩
    · intro r _
      refine (if_neg ?_).symm
      rintro ⟨rfl, absent⟩
      rw [known] at absent
      contradiction
    · rintro _ ⟨⟩ absent
      rw [known] at absent
      contradiction
  | none =>
    have absent : (w.registry o.registry).contains o.type = false := by
      simp [Registry.contains, found]
    simp only [install, found]
    refine ⟨by simp [note, setRegistry, addStore], ?_, ?_, ?_⟩
    · intro r inRange
      by_cases same : o.registry = r
      · subst same
        have installed := registry_setRegistry (w.addStore (.fresh o.type
          (w.registry o.registry).location o.loader)).1 inRange
          ((w.registry o.registry).install o.type w.stores.length) o.registry
        rw [if_pos rfl] at installed
        rw [Registry.take, if_pos ⟨rfl, absent⟩]
        exact installed
      · rw [Registry.take, if_neg fun both => same both.1]
        simp [registry, note, setRegistry, addStore, List.getD_eq_getElem?_getD,
          List.getElem?_set_ne same]
    · intro r beyond
      exact empty_of_le (by simpa [note, setRegistry, addStore] using beyond)
    · rintro _ ⟨⟩ _
      simp [store, note, setRegistry, addStore, List.getD_eq_getElem?_getD]

theorem turn?_append {r : RegistryId} {skipped : List PassItem} (lacks : w.Lacks r skipped)
    (todo : List PassItem) : w.turn? r (skipped ++ todo) = w.turn? r todo := by
  induction skipped with
  | nil => rfl
  | cons item rest ih =>
    obtain ⟨⟨type, rfl, missing⟩, later⟩ := List.forall_mem_cons.mp lacks
    have absent : (w.registry r).contains type = false := by simp [Registry.contains, missing]
    simp only [List.cons_append, turn?, absent, Bool.false_eq_true, if_false]
    exact ih later

theorem offer?_afterReloads (w : World) (pass : Pass) :
    (w.afterReloads pass).offer? (w.noteReloads pass) = none := by
  unfold afterReloads
  split <;> rfl

/-- A turn offers the binding whose turn it is, and nothing else changes a registry. -/
theorem takes_turn {job : Job} {next : World × Progress} (turn : w.Turn job next) :
    w.Takes next.1 (job.offer? w) := by
  induction turn with
  | answer | call => exact .of_same rfl
  | roundOver w failures purpose => exact (w.keeps_endRound failures purpose).takes
  | @reload w _ pass item skipped rest s whole lacks provides =>
    rw [Job.offer?, whole, turn?_append lacks]
    cases provides with
    | @installed type _ found =>
      have known : (w.registry pass.registry).contains type = true := by
        simp [Registry.contains, found]
      rw [turn?, if_pos known]
      exact .of_same rfl
    | bound b => exact w.takes_install (b.offer pass.registry)
  | @reloaded w pass next lacks _ ih =>
    have none : w.turn? pass.registry pass.todo = none := by
      rw [← List.append_nil pass.todo, turn?_append lacks]
      rfl
    rw [Job.offer?, none]
    rw [offer?_afterReloads] at ih
    exact ih.after (w.keeps_noteReloads pass).registries (w.keeps_noteReloads pass).stores

theorem turn?_of_same (same : v.registries = w.registries) (r : RegistryId) (todo : List PassItem) :
    v.turn? r todo = w.turn? r todo := by
  induction todo with
  | nil => rfl
  | cons item todo ih =>
    cases item with
    | installed type =>
      have found : v.registry r = w.registry r := by rw [registry, registry, same]
      simp only [turn?, found, ih]
    | bound b => rfl

theorem turn?_installed (w : World) (r : RegistryId) (types : List RecordType) :
    w.turn? r (types.map .installed) = none := by
  induction types with
  | nil => rfl
  | cons type rest ih => simp only [List.map_cons, turn?, ih, ite_self]

theorem Job.offer?_of_same (same : v.registries = w.registries) (job : Job) :
    job.offer? v = job.offer? w := by
  cases job with
  | pass rest => exact turn?_of_same same _ _
  | answer | round => rfl

theorem Keeps.turn_takes (keeps : w.Keeps v) {job : Job} {next : World × Progress}
    (turn : v.Turn job next) : w.Takes next.1 (job.offer? w) := by
  rw [← Job.offer?_of_same keeps.registries]
  exact (takes_turn turn).after keeps.registries keeps.stores

/-- A pass over what is installed offers nothing. -/
theorem Keeps.registryPass_takes (keeps : w.Keeps v) (r : RegistryId) (ending : PassEnd) :
    w.Takes (v.nextReload (v.registryPass r ending)).1 none := by
  have begun := keeps.turn_takes (turn_nextReload v (v.registryPass r ending))
  rwa [Job.offer?, registryPass, turn?_installed] at begun

theorem takes_initialLoad (w : World) (c : CoordinatorId) :
    w.Takes (w.initialLoad c).1 ((Call.initialLoad c).offer? w) := by
  have collected := (w.latch c).keeps_collectPending c
  have registries : ((w.latch c).collectPending c).registries = w.registries :=
    collected.registries
  unfold initialLoad Call.offer?
  dsimp only
  split
  · exact (w.keeps_note _).takes
  · cases discovery : (w.coordinator c).discovery with
    | catalog catalog =>
      have found := collected.trans (keeps_noteFound _ c
        (catalog.discover (w.coordinator c).config.recordScope))
      have begun := found.turn_takes (turn_found _ c _)
      have latched : (w.latch c).registries = w.registries := rfl
      rw [Job.offer?_of_same latched, Coordinator.bindingPass, registry_latch] at begun
      exact begun.after latched rfl
    | outside number => exact .of_same registries

theorem begin_takes (w : World) (c : Call) : w.Takes (w.begin c).1 (c.offer? w) := by
  cases c with
  | makeRegistry location => exact w.takes_addRegistry location
  | makeCoordinator config r discovery => exact w.takes_addCoordinator config r discovery
  | makeStore | makeHub | makeBound | reload | append | listInGeneration => exact .of_same rfl
  | registerIndex s d =>
    obtain ⟨reply, run⟩ := w.begin_registerIndex s d
    rw [run]
    exact (w.keeps_registerIndex s d).takes
  | applyToGeneration s number d =>
    obtain ⟨reply, run⟩ := w.begin_applyToGeneration s number d
    rw [run]
    exact .of_same rfl
  | ensure r type loader =>
    obtain ⟨reply, run⟩ := w.begin_ensure r type loader
    rw [run]
    exact w.takes_install ⟨r, type, loader⟩
  | ensureBinding r b => exact w.takes_install (b.offer r)
  | reloadAll r => exact (Keeps.refl w).registryPass_takes r .registry
  | register h l => exact (w.keeps_register h l).takes
  | notify h => exact takes_turn (turn_nextListener _ _ _ _)
  | queue c l => exact (w.keeps_queue c l).takes
  | initialLoad c => exact w.takes_initialLoad c
  | refresh c => exact (w.keeps_collectPending c).registryPass_takes _ _

end World

theorem Engine.Idle.offer? {e : Engine} {move : Move} (idle : e.Idle move) :
    e.offer? move = none := by
  unfold Engine.offer?
  split
  · exact absurd rfl (idle.not_call _)
  · rename_i top
    exact absurd (.loaded _ _) (idle.not_goes _ _ _ top)
  · rename_i top
    exact absurd (.found _ _) (idle.not_goes _ _ _ top)
  · rfl

theorem Engine.offer?_of_top {e : Engine} {load : LoadWait} {rest : List Wait} {type : RecordType}
    {pass : Pass} (top : e.waits = .load load :: rest) (purpose : load.purpose = .pass type pass)
    (given : Outcome (List Record)) :
    e.offer? (.loaded given) = e.world.turn? pass.registry pass.todo := by
  obtain ⟨w, waits⟩ := e
  obtain ⟨store, plan, _⟩ := load
  cases top
  cases purpose
  rfl

/-- The offer of a move that ends outside work is that of what its call has left to do. -/
theorem Wait.Ends.offer? {w v : World} {own : Wait} {move : Move} {job : Job}
    (ends : own.Ends w move v job) (rest : List Wait) :
    (⟨w, own :: rest⟩ : Engine).offer? move = job.offer? w := by
  cases ends with
  | answered given purpose =>
    rename_i load
    obtain ⟨store, plan, _⟩ := load
    cases purpose
    rfl
  | entered given purpose => exact Engine.offer?_of_top rfl purpose given
  | heard | found => rfl

/-- All that a move does to registries. -/
theorem Engine.step_takes (e : Engine) (move : Move) :
    e.world.Takes (e.step move).1.world (e.offer? move) := by
  refine step_world (e.world.Takes · (e.offer? move)) ?_ ?_ ?_
  · rintro c rfl
    exact e.world.begin_takes c
  · intro own rest next top goes
    obtain ⟨w, waits⟩ := e
    cases top
    obtain ⟨v, job, ends, turn⟩ := goes.ends
    rw [ends.offer? rest]
    exact (World.keeps_ends ends).turn_takes turn
  · intro idle
    rw [idle.offer?]
    exact .of_same rfl

end LiveTables
