import LiveTables.Call

namespace LiveTables

/-- A store as it is made: nothing was loaded or registered. -/
def Store.IsFresh (it : Store) : Prop := ∃ type location loader, it = .fresh type location loader

theorem Store.isFresh_fresh (type : RecordType) (location : Location) (loader : LoaderId) :
    (Store.fresh type location loader).IsFresh := ⟨type, location, loader, rfl⟩

theorem Binding.isFresh_createStore (b : Binding) (location : Location) :
    (b.createStore location).IsFresh := Store.isFresh_fresh _ _ _

namespace World

/-- Registries install only stores that exist. -/
def Sound (w : World) : Prop :=
  ∀ it ∈ w.registries, ∀ entry ∈ it.stores, entry.2 < w.stores.length

theorem Sound.entry_lt {w : World} (sound : w.Sound) {r : RegistryId} {entry : Nat × StoreId}
    (member : entry ∈ (w.registry r).stores) : entry.2 < w.stores.length := by
  rw [registry, List.getD_eq_getElem?_getD] at member
  cases atNumber : w.registries[r]? with
  | none =>
    rw [atNumber] at member
    exact absurd member List.not_mem_nil
  | some it =>
    rw [atNumber] at member
    exact sound it (List.mem_of_getElem? atNumber) entry member

/-- A later world has the stores of an earlier one, and beyond them only new ones. -/
structure Extends (w next : World) : Prop where
  stores : ∃ new, next.stores = w.stores ++ new ∧ ∀ it ∈ new, it.IsFresh
  sound : w.Sound → next.Sound

namespace Extends

variable {w next last : World}

theorem of_same (stores : next.stores = w.stores) (registries : next.registries = w.registries) :
    w.Extends next where
  stores := ⟨[], by simp [stores], by simp⟩
  sound := by simp [Sound, stores, registries]

theorem refl (w : World) : w.Extends w := of_same rfl rfl

theorem trans (first : w.Extends next) (second : next.Extends last) : w.Extends last where
  stores := by
    obtain ⟨new, whole, fresh⟩ := first.stores
    obtain ⟨newer, whole', fresh'⟩ := second.stores
    refine ⟨new ++ newer, by rw [whole', whole, List.append_assoc], ?_⟩
    intro it member
    rcases List.mem_append.mp member with early | late
    · exact fresh it early
    · exact fresh' it late
  sound := second.sound ∘ first.sound

theorem length_le (grown : w.Extends next) : w.stores.length ≤ next.stores.length := by
  obtain ⟨new, whole, _⟩ := grown.stores
  rw [whole, List.length_append]
  omega

theorem store_eq (grown : w.Extends next) {s : Nat} (inRange : s < w.stores.length) :
    next.store s = w.store s := by
  obtain ⟨new, whole, _⟩ := grown.stores
  simp [store, whole, List.getD_eq_getElem?_getD, List.getElem?_append_left inRange]

/-- A store that is new was just made. -/
theorem isFresh (grown : w.Extends next) {s : Nat} (inRange : s < next.stores.length)
    (beyond : w.stores.length ≤ s) : (next.store s).IsFresh := by
  obtain ⟨new, whole, fresh⟩ := grown.stores
  apply fresh
  have bound : s - w.stores.length < new.length := by
    rw [whole, List.length_append] at inRange
    omega
  have atNew : next.store s = new[s - w.stores.length] := by
    simp [store, whole, List.getD_eq_getElem?_getD, List.getElem?_append_right beyond, bound]
  rw [atNew]
  exact List.getElem_mem bound

end Extends

variable (w : World)

theorem extends_note (n : Notice) : w.Extends (w.note n) := .of_same rfl rfl

theorem extends_register (h : HubId) (l : Listener) : w.Extends (w.register h l) := by
  by_cases joined : (w.hub h).holds l
  · simpa only [register, joined, if_true] using w.extends_note _
  · simp only [register, joined]
    exact .of_same rfl rfl

theorem extends_collectPending (c : CoordinatorId) : w.Extends (w.collectPending c) := by
  have joins (h : HubId) (ls : List Listener) (v : World) :
      v.Extends (ls.foldl (fun v l => v.register h l) v) := by
    induction ls generalizing v with
    | nil => exact .refl v
    | cons l rest ih => exact (v.extends_register h l).trans (ih _)
  have emptied : w.Extends (w.setCoordinator c { w.coordinator c with pending := [] }) :=
    .of_same rfl rfl
  exact emptied.trans (joins _ _ _)

theorem extends_addStore {it : Store} (fresh : it.IsFresh) : w.Extends (w.addStore it).1 where
  stores := ⟨[it], rfl, by simpa using fresh⟩
  sound := by
    intro sound it member entry installed
    simp only [addStore, List.length_append, List.length_singleton]
    exact Nat.lt_succ_of_lt (sound it member entry installed)

theorem extends_addRegistry (location : Location) :
    w.Extends (w.addRegistry { location := location }).1 where
  stores := ⟨[], by simp [addRegistry], by simp⟩
  sound := by
    intro sound it member entry installed
    rcases List.mem_append.mp member with old | new
    · exact sound it old entry installed
    · simp [List.mem_singleton.mp new] at installed

theorem extends_addCoordinator (config : Config) (r : Option RegistryId) (discovery : Discovery) :
    w.Extends (w.addCoordinator config r discovery).1 := by
  cases r with
  | none => exact (w.extends_addRegistry config.location).trans (.of_same rfl rfl)
  | some r => exact .of_same rfl rfl

theorem Sound.store?_lt {w : World} (sound : w.Sound) {r : RegistryId} {type : RecordType}
    {s : StoreId} (found : (w.registry r).store? type = some s) : s < w.stores.length := by
  obtain ⟨before, after, place, _⟩ := List.lookup_eq_some_iff.mp found
  have member : (type.identity, s) ∈ (w.registry r).stores := by simp [place]
  exact sound.entry_lt member

/-- An installation makes a store for a new type and touches none that is there. -/
theorem extends_install (r : RegistryId) (type : RecordType) {make : Location → Store}
    (fresh : ∀ location, (make location).IsFresh) : w.Extends (w.install r type make).1 := by
  cases found : (w.registry r).store? type with
  | some s => simpa only [install, found] using .refl w
  | none =>
    have added := w.extends_addStore (fresh (w.registry r).location)
    simp only [install, found]
    -- The new store is there before it is installed, so its entry is sound.
    refine ⟨added.stores, ?_⟩
    intro sound it member entry installed
    have inRange : entry.2 < w.stores.length ∨ entry.2 = w.stores.length := by
      rcases List.mem_or_eq_of_mem_set member with old | rfl
      · exact Or.inl (sound it old entry installed)
      · rcases List.mem_cons.mp installed with new | old
        · exact Or.inr (by rw [new, addStore])
        · exact Or.inl (sound.entry_lt old)
    simp only [note, setRegistry, addStore, List.length_append, List.length_singleton]
    exact Nat.lt_succ_iff_lt_or_eq.mpr inRange

theorem install_lt (sound : w.Sound) (r : RegistryId) (type : RecordType)
    (make : Location → Store) :
    (w.install r type make).2 < (w.install r type make).1.stores.length := by
  cases found : (w.registry r).store? type with
  | some s => simpa only [install, found] using sound.store?_lt found
  | none => simp [install, found, note, setRegistry, addStore]

end World

end LiveTables
