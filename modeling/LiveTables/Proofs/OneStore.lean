import LiveTables.Proofs.Holdings

namespace LiveTables

namespace World

variable {w : World} {r : RegistryId}

/-- An installed type keeps its store, whatever would be made for it. -/
theorem install_found {type : RecordType} {s : StoreId}
    (found : (w.registry r).store? type = some s) (make : Location → Store) :
    w.install r type make = (w, s) := by
  simp only [install, found]

/-- No store that a registry finds for a type holds records of another one. -/
theorem Holds.downcast {offers : List Offer} (holds : w.Holds r offers) {type : RecordType}
    {s : StoreId} (found : (w.registry r).store? type = some s) : w.downcast? s type = some s := by
  rw [downcast?, if_pos (holds.recordType found)]

theorem Holds.ensure_found {offers : List Offer} (holds : w.Holds r offers) {type : RecordType}
    {s : StoreId} (found : (w.registry r).store? type = some s) (loader : LoaderId) :
    w.ensure r type loader = (w, .ok s) := by
  simp only [ensure, install_found found, holds.downcast found]

/-- A new type gets a store with the loader that it is asked for with. -/
theorem ensure_new {type : RecordType} (absent : (w.registry r).store? type = none)
    (loader : LoaderId) : w.ensure r type loader =
      ((w.install r type fun location => .fresh type location loader).1, .ok w.stores.length) := by
  have taken := w.takes_install ⟨r, type, loader⟩
  have fresh := taken.store _ rfl (by simp [Registry.contains, absent])
  have number : (w.install r type fun location => .fresh type location loader).2 =
      w.stores.length := by
    simp only [install, absent]
    rfl
  have cast : (w.install r type fun location => .fresh type location loader).1.downcast?
      w.stores.length type = some w.stores.length := by
    rw [downcast?, show (World.store _ w.stores.length).recordType = type from
      congrArg Store.recordType fresh, if_pos BEq.rfl]
  simp only [ensure, number, cast]

/-- Each type of a registry has a row, of its own store. -/
theorem Holds.stats {offers : List Offer} (holds : w.Holds r offers) :
    ∃ stores : List StoreId, (w.registry r).types.map (w.registry r).store? = stores.map some ∧
      w.registryStats r = stores.map fun s => (w.store s).stats := by
  refine ⟨(w.registry r).types.filterMap (w.registry r).store?, ?_, ?_⟩
  · rw [List.map_filterMap_some_eq_filter_map_isSome, List.filter_eq_self.mpr]
    intro found member
    obtain ⟨type, inTypes, rfl⟩ := List.mem_map.mp member
    have known : (w.registry r).contains type = true := by
      rw [holds.contains, List.any_eq_true]
      exact ⟨type, inTypes, BEq.rfl⟩
    exact known
  · rw [List.map_filterMap]
    rfl

end World

namespace Engine

/-- What holds of a registry after a run. Its types are those that were offered to it, in the order
of their first offers, and nothing but the first offer of a type has any effect. -/
structure OneStore (e : Engine) (r : RegistryId) (past : List (Engine × Move)) : Prop
    extends e.world.Holds r (offers r past) where
  typed : ∀ type, e.world.typedStore? r type = (e.world.registry r).store? type
  stats : ∃ stores : List StoreId,
    (e.world.registry r).types.map (e.world.registry r).store? = stores.map some ∧
      e.world.registryStats r = stores.map fun s => (e.world.store s).stats
  /-- Typed requests are never refused. -/
  ensured : ∀ type loader, ∃ s, (e.step (.call (.ensure r type loader))).2 = some (.made s) ∧
    ((e.step (.call (.ensure r type loader))).1.world.registry r).store? type = some s
  bound : ∀ b, ∃ s, (e.step (.call (.ensureBinding r b))).2 = some (.made s) ∧
    ((e.step (.call (.ensureBinding r b))).1.world.registry r).store? b.recordType = some s
  /-- The reloads of a pass over the registry are of its own stores. -/
  passes : ∀ load type pass, .load load ∈ e.waits → load.purpose = .pass type pass →
    pass.registry = r → (e.world.registry r).store? type = some load.store
  /-- All reloads of a store of the registry call the loader of the first offer. -/
  loaders : ∀ load type, .load load ∈ e.waits →
    (e.world.registry r).store? type = some load.store →
    ∃ o, (offers r past).find? (·.type == type) = some o ∧
      (e.world.store load.store).loader = o.loader
  /-- However the run goes on, types only come at the end, and each has the same store for ever. -/
  kept : ∀ f later, Reach e f later →
    (e.world.registry r).types <+: (f.world.registry r).types ∧
    ∀ type s, (e.world.registry r).store? type = some s →
      (f.world.registry r).store? type = some s ∧ f.world.typedStore? r type = some s ∧
      (∀ loader, (f.step (.call (.ensure r type loader))).2 = some (.made s)) ∧
      ∀ b, b.recordType == type → (f.step (.call (.ensureBinding r b))).2 = some (.made s)

variable {e : Engine} {past : List (Engine × Move)} {r : RegistryId}

/-- The call answers with the store. -/
theorem reply_ensure {type : RecordType} {loader : LoaderId} {w : World} {s : StoreId}
    (ensured : e.world.ensure r type loader = (w, .ok s)) :
    e.step (.call (.ensure r type loader)) = (⟨w, e.waits⟩, some (.made s)) := by
  simp only [step_call, World.begin, ensured]
  rfl

theorem reply_ensureBinding (e : Engine) (r : RegistryId) (b : Binding) :
    e.step (.call (.ensureBinding r b)) =
      (⟨(e.world.ensureBinding r b).1, e.waits⟩, some (.made (e.world.ensureBinding r b).2)) := rfl

theorem typedStore?_eq {offers : List Offer} (holds : e.world.Holds r offers) (type : RecordType) :
    e.world.typedStore? r type = (e.world.registry r).store? type := by
  rw [World.typedStore?]
  cases found : (e.world.registry r).store? type with
  | none => rfl
  | some s => exact holds.downcast found

/-- One store per type, for ever: whatever a run does, also from within loaders and listeners. -/
theorem Reach.one_store (reach : Reach {} e past) (inRange : r < e.world.registries.length) :
    e.OneStore r past where
  toHolds := reach.holds inRange
  typed := typedStore?_eq (reach.holds inRange)
  stats := (reach.holds inRange).stats
  ensured type loader := by
    have installed := World.store?_install inRange type fun location => .fresh type location loader
    cases found : (e.world.registry r).store? type with
    | some s =>
      rw [reply_ensure ((reach.holds inRange).ensure_found found loader)]
      exact ⟨s, rfl, found⟩
    | none =>
      rw [reply_ensure (World.ensure_new found loader)]
      refine ⟨_, rfl, ?_⟩
      rw [installed]
      simp only [World.install, found]
      rfl
  bound b := by
    rw [reply_ensureBinding]
    exact ⟨_, rfl, World.store?_install inRange b.recordType b.createStore⟩
  passes load type pass member purpose same := by
    have linked := (reach.linked.waits _ member).pass load type pass rfl purpose
    rw [← same]
    exact linked.2
  loaders load type _ found := by
    obtain ⟨o, first, origin⟩ := (reach.holds inRange).made type load.store found
    exact ⟨o, first, congrArg Store.loader origin⟩
  kept f later goesOn := by
    have grows := goesOn.registry_grows inRange
    have holds := (reach.trans goesOn).holds
      (Nat.lt_of_lt_of_le inRange goesOn.length_registries_le)
    refine ⟨grows.types, fun type s found => ?_⟩
    have found := grows.found type s found
    refine ⟨found, ?_, ?_, ?_⟩
    · rw [typedStore?_eq holds, found]
    · intro loader
      rw [reply_ensure (holds.ensure_found found loader)]
    · intro b same
      have asked : (f.world.registry r).store? b.recordType = some s := by
        rw [Registry.store?, RecordType.beq_iff.mp same]
        exact found
      rw [reply_ensureBinding, World.ensureBinding, World.install_found asked]

/-- While a loader of a pass runs, a second type of the same name is installed, and the first one is
asked for with another loader. -/
def twins : List Move :=
  [.call (.makeRegistry (.text "items")), .call (.ensure 0 itemType 5), .call (.reloadAll 0),
    .call (.ensure 0 twinType 6), .call (.ensure 0 itemType 7)]

theorem twins_apart :
    (((({} : Engine).run twins).world.registry 0).types.map RecordType.identity = [0, 1]) ∧
    (({} : Engine).run twins).world.typedStore? 0 twinType = some 1 ∧
    ((({} : Engine).run twins).step (.call (.ensure 0 twinType 8))).2 = some (.made 1) ∧
    ((({} : Engine).run twins).world.store 0).loader = 5 := by
  have plays : ({} : Engine).Plays twins := by decide
  have one := (reach_run plays).one_store (r := 0) (by decide)
  have second := (one.kept _ _ .start).2 twinType 1 rfl
  have top : (({} : Engine).run twins).waits =
      [.load ⟨0, ⟨[], 0⟩, .pass itemType ⟨0, [], {}, .registry⟩⟩] := rfl
  obtain ⟨o, first, loader⟩ := one.loaders _ itemType (top ▸ List.mem_cons_self) rfl
  obtain rfl : ⟨0, itemType, 5⟩ = o := Option.some.inj first
  refine ⟨?_, second.2.1, second.2.2.1 8, loader⟩
  rw [one.types]
  rfl

end Engine

end LiveTables
