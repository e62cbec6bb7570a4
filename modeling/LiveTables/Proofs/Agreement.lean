import LiveTables.Pass
import LiveTables.Proofs.Conclusion

namespace LiveTables

/-- Two worlds that differ at most in what one store holds and in the notices given. No operation
looks into a store that it is not made on, but for its type, which never changes, so two such worlds
still agree after the same operation. -/
structure World.Agree (a : StoreId) (w v : World) : Prop where
  length : v.stores.length = w.stores.length
  store : ∀ s, s ≠ a → v.store s = w.store s
  type : (v.store a).recordType = (w.store a).recordType
  registries : v.registries = w.registries
  hubs : v.hubs = w.hubs
  coordinators : v.coordinators = w.coordinators

namespace World

theorem store_setStore_eq (w : World) (s : StoreId) (it : Store) (t : StoreId) :
    (w.setStore s it).store t = if s = t ∧ s < w.stores.length then it else w.store t := by
  by_cases inRange : s < w.stores.length
  · simp only [store_setStore w inRange, inRange, and_true]
  · rw [if_neg fun both => inRange both.2, setStore,
      List.set_eq_of_length_le (Nat.le_of_not_lt inRange)]

theorem store_addStore (w : World) (it : Store) (t : StoreId) :
    (w.addStore it).1.store t = if t = w.stores.length then it else w.store t := by
  simp only [addStore, store, List.getD_eq_getElem?_getD]
  rcases Nat.lt_trichotomy t w.stores.length with old | rfl | beyond
  · rw [if_neg (Nat.ne_of_lt old), List.getElem?_append_left old]
  · simp
  · rw [if_neg (Nat.ne_of_gt beyond), List.getElem?_eq_none (by simp; omega),
      List.getElem?_eq_none (Nat.le_of_lt beyond)]

namespace Agree

variable {a : StoreId} {w v u : World}

theorem refl (a : StoreId) (w : World) : w.Agree a w := ⟨rfl, fun _ _ => rfl, rfl, rfl, rfl, rfl⟩

theorem symm (agree : w.Agree a v) : v.Agree a w where
  length := agree.length.symm
  store s other := (agree.store s other).symm
  type := agree.type.symm
  registries := agree.registries.symm
  hubs := agree.hubs.symm
  coordinators := agree.coordinators.symm

theorem trans (first : w.Agree a v) (second : v.Agree a u) : w.Agree a u where
  length := second.length.trans first.length
  store s other := (second.store s other).trans (first.store s other)
  type := second.type.trans first.type
  registries := second.registries.trans first.registries
  hubs := second.hubs.trans first.hubs
  coordinators := second.coordinators.trans first.coordinators

theorem registry (agree : w.Agree a v) (r : RegistryId) : v.registry r = w.registry r := by
  rw [World.registry, World.registry, agree.registries]

theorem hub (agree : w.Agree a v) (h : HubId) : v.hub h = w.hub h := by
  rw [World.hub, World.hub, agree.hubs]

theorem coordinator (agree : w.Agree a v) (c : CoordinatorId) :
    v.coordinator c = w.coordinator c := by
  rw [World.coordinator, World.coordinator, agree.coordinators]

/-- Also the store in which two worlds may differ has the same type in both. -/
theorem types (agree : w.Agree a v) (s : StoreId) :
    (v.store s).recordType = (w.store s).recordType := by
  by_cases same : s = a
  · subst same
    exact agree.type
  · rw [agree.store s same]

theorem downcast (agree : w.Agree a v) (s : StoreId) (type : RecordType) :
    v.downcast? s type = w.downcast? s type := by
  rw [downcast?, downcast?, agree.types]

theorem typedStore (agree : w.Agree a v) (r : RegistryId) (type : RecordType) :
    v.typedStore? r type = w.typedStore? r type := by
  rw [typedStore?, typedStore?, agree.registry]
  exact congrArg _ (funext fun s => agree.downcast s type)

theorem note (agree : w.Agree a v) (n m : Notice) : (w.note n).Agree a (v.note m) :=
  ⟨agree.length, agree.store, agree.type, agree.registries, agree.hubs, agree.coordinators⟩

theorem of_note (a : StoreId) (w : World) (n : Notice) : w.Agree a (w.note n) :=
  ⟨rfl, fun _ _ => rfl, rfl, rfl, rfl, rfl⟩

/-- The same change is made to a store that is not the one in question; what is made of that one is
left open, but for its type. -/
theorem setStore (agree : w.Agree a v) {s : StoreId} {it it' : Store}
    (same : s ≠ a → it' = it) (type : it'.recordType = it.recordType) :
    (w.setStore s it).Agree a (v.setStore s it') where
  length := by
    simp only [World.setStore, List.length_set]
    exact agree.length
  store t other := by
    rw [store_setStore_eq, store_setStore_eq, agree.length]
    split
    · rename_i here
      exact same (here.1 ▸ other)
    · exact agree.store t other
  type := by
    rw [store_setStore_eq, store_setStore_eq, agree.length]
    split
    · exact type
    · exact agree.type
  registries := agree.registries
  hubs := agree.hubs
  coordinators := agree.coordinators

/-- What changes one store is seen in this store only. -/
theorem of_setStore (w : World) {a : StoreId} {it : Store}
    (type : it.recordType = (w.store a).recordType) : w.Agree a (w.setStore a it) where
  length := List.length_set
  store t other := by rw [store_setStore_eq, if_neg fun both => other both.1.symm]
  type := by
    rw [store_setStore_eq]
    split
    · exact type
    · rfl
  registries := rfl
  hubs := rfl
  coordinators := rfl

theorem setRegistry (agree : w.Agree a v) (r : RegistryId) (it : Registry) :
    (w.setRegistry r it).Agree a (v.setRegistry r it) :=
  ⟨agree.length, agree.store, agree.type, congrArg (List.set · r it) agree.registries,
    agree.hubs, agree.coordinators⟩

theorem setHub (agree : w.Agree a v) (h : HubId) (it : Hub) :
    (w.setHub h it).Agree a (v.setHub h it) :=
  ⟨agree.length, agree.store, agree.type, agree.registries,
    congrArg (List.set · h it) agree.hubs, agree.coordinators⟩

theorem setCoordinator (agree : w.Agree a v) (c : CoordinatorId) (it : Coordinator) :
    (w.setCoordinator c it).Agree a (v.setCoordinator c it) :=
  ⟨agree.length, agree.store, agree.type, agree.registries, agree.hubs,
    congrArg (List.set · c it) agree.coordinators⟩

/-- A new store gets the same number in both worlds. -/
theorem addStore (agree : w.Agree a v) (it : Store) :
    (w.addStore it).1.Agree a (v.addStore it).1 where
  length := by
    simp only [World.addStore, List.length_append]
    rw [agree.length]
  store t other := by rw [store_addStore, store_addStore, agree.length, agree.store t other]
  type := by
    rw [store_addStore, store_addStore, agree.length]
    split
    · rfl
    · exact agree.type
  registries := agree.registries
  hubs := agree.hubs
  coordinators := agree.coordinators

theorem addRegistry (agree : w.Agree a v) (it : Registry) :
    (w.addRegistry it).1.Agree a (v.addRegistry it).1 :=
  ⟨agree.length, agree.store, agree.type, congrArg (· ++ [it]) agree.registries,
    agree.hubs, agree.coordinators⟩

theorem addHub (agree : w.Agree a v) (it : Hub) : (w.addHub it).1.Agree a (v.addHub it).1 :=
  ⟨agree.length, agree.store, agree.type, agree.registries,
    congrArg (· ++ [it]) agree.hubs, agree.coordinators⟩

theorem addCoordinator (agree : w.Agree a v) (config : Config) (r : Option RegistryId)
    (discovery : Discovery) : (w.addCoordinator config r discovery).1.Agree a
      (v.addCoordinator config r discovery).1 := by
  have made (it : Coordinator) {w v : World} (agree : w.Agree a v) :
      ({ w with coordinators := w.coordinators ++ [it] } : World).Agree a
        { v with coordinators := v.coordinators ++ [it] } :=
    ⟨agree.length, agree.store, agree.type, agree.registries, agree.hubs,
      congrArg (· ++ [it]) agree.coordinators⟩
  cases r with
  | none =>
    have same := made (.fresh config w.registries.length w.hubs.length discovery)
      ((agree.addRegistry { location := config.location }).addHub {})
    simpa only [World.addCoordinator, World.addRegistry, World.addHub, agree.registries,
      agree.hubs] using same
  | some r =>
    have same := made (.fresh config r w.hubs.length discovery) (agree.addHub {})
    simpa only [World.addCoordinator, World.addHub, agree.hubs] using same

/-- A type gets the same store, and a new one gets it at the same location. -/
theorem install (agree : w.Agree a v) (r : RegistryId) (type : RecordType)
    (make : Location → Store) : (w.install r type make).1.Agree a (v.install r type make).1 ∧
      (v.install r type make).2 = (w.install r type make).2 := by
  unfold World.install
  rw [agree.registry r]
  dsimp only
  split
  · exact ⟨agree, rfl⟩
  · have number : (v.addStore (make (w.registry r).location)).2 =
        (w.addStore (make (w.registry r).location)).2 := agree.length
    rw [number]
    exact ⟨((agree.addStore _).setRegistry r _).note _ _, rfl⟩

theorem ensure (agree : w.Agree a v) (r : RegistryId) (type : RecordType) (loader : LoaderId) :
    (w.ensure r type loader).1.Agree a (v.ensure r type loader).1 ∧
      (v.ensure r type loader).2 = (w.ensure r type loader).2 := by
  obtain ⟨installed, number⟩ := agree.install r type fun location => .fresh type location loader
  unfold World.ensure
  dsimp only
  rw [number, installed.downcast]
  split
  · exact ⟨installed, rfl⟩
  · exact ⟨installed, rfl⟩

/-- Elsewhere a definition is registered alike, and ends abruptly in both worlds or in none. -/
theorem registerIndex (agree : w.Agree a v) {s : StoreId} (other : s ≠ a) (d : IndexDef) :
    (w.registerIndex s d).1.Agree a (v.registerIndex s d).1 ∧
      (v.registerIndex s d).2 = (w.registerIndex s d).2 := by
  unfold World.registerIndex
  rw [agree.store s other]
  split
  · exact ⟨(agree.setStore (fun _ => rfl) rfl).note _ _, rfl⟩
  · exact ⟨agree.setStore (fun _ => rfl) rfl, rfl⟩

theorem register (agree : w.Agree a v) (h : HubId) (l : Listener) :
    (w.register h l).Agree a (v.register h l) := by
  unfold World.register
  rw [agree.hub h]
  dsimp only
  split
  · exact agree.note _ _
  · exact agree.setHub h _

theorem queue (agree : w.Agree a v) (c : CoordinatorId) (l : Listener) :
    (w.queue c l).Agree a (v.queue c l) := by
  unfold World.queue
  rw [agree.coordinator c]
  exact agree.setCoordinator c _

theorem collectPending (agree : w.Agree a v) (c : CoordinatorId) :
    (w.collectPending c).Agree a (v.collectPending c) := by
  have joins (h : HubId) (ls : List Listener) {w v : World} (agree : w.Agree a v) :
      (ls.foldl (fun w l => w.register h l) w).Agree a
        (ls.foldl (fun v l => v.register h l) v) := by
    induction ls generalizing w v with
    | nil => exact agree
    | cons l rest ih => exact ih (agree.register h l)
  unfold World.collectPending
  rw [agree.coordinator c]
  exact joins _ _ (agree.setCoordinator c _)

theorem latch (agree : w.Agree a v) (c : CoordinatorId) : (w.latch c).Agree a (v.latch c) := by
  unfold World.latch
  rw [agree.coordinator c]
  exact agree.setCoordinator c _

theorem endCycle (agree : w.Agree a v) (c : CoordinatorId) :
    (w.endCycle c).Agree a (v.endCycle c) := by
  unfold World.endCycle
  rw [agree.coordinator c]
  exact agree.setCoordinator c _

/-- The end of a reload is noted, and nothing else follows from it but what its store makes of
it. -/
theorem of_concludeReload (a : StoreId) (w : World) (s : StoreId) (plan : Plan)
    (given : Outcome (List Record)) :
    (w.setStore s ((w.store s).conclude plan given).1).Agree a
      (w.concludeReload s plan given).1 := by
  unfold World.concludeReload
  dsimp only
  split
  · exact of_note a _ _
  · exact of_note a _ _
  · exact refl a _

/-- A reload ends alike, unless it is one of the store in question. -/
theorem concludeReload (agree : w.Agree a v) {s : StoreId} {plan plan' : Plan}
    {given given' : Outcome (List Record)} (plans : s ≠ a → plan' = plan)
    (same : s ≠ a → given' = given) :
    (w.concludeReload s plan given).1.Agree a (v.concludeReload s plan' given').1 := by
  have concluded : (w.setStore s ((w.store s).conclude plan given).1).Agree a
      (v.setStore s ((v.store s).conclude plan' given').1) := by
    refine agree.setStore (fun other => ?_) ?_
    · rw [agree.store s other, plans other, same other]
    · rw [(Store.conclude_keeps _ _ _).1, (Store.conclude_keeps _ _ _).1, agree.types]
  exact ((of_concludeReload a w s plan given).symm.trans concluded).trans
    (of_concludeReload a v s plan' given')

/-- A reload of the one store is seen in this store only. -/
theorem of_own_concludeReload (w : World) (a : StoreId) (plan : Plan)
    (given : Outcome (List Record)) : w.Agree a (w.concludeReload a plan given).1 :=
  (of_setStore w (Store.conclude_keeps _ plan given).1).trans (of_concludeReload a w a plan given)

/-- What a report says is not looked at. -/
theorem recordReload (agree : w.Agree a v) (type : RecordType) (report report' : Report)
    (ending ending' : Outcome Nat) :
    (w.recordReload type report ending).1.Agree a (v.recordReload type report' ending').1 := by
  have noted (w : World) (report : Report) (ending : Outcome Nat) :
      w.Agree a (w.recordReload type report ending).1 := by
    cases ending with
    | done _ | failed _ => exact refl a w
    | faulted _ => exact of_note a w _
  exact ((noted w report ending).symm.trans agree).trans (noted v report' ending')

end Agree

end World

end LiveTables
