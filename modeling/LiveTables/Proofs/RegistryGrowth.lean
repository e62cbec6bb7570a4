import LiveTables.Proofs.Offers

namespace LiveTables

namespace Registry

/-- A later registry has what an earlier one has, and beyond that only later types. -/
structure Grows (it next : Registry) : Prop where
  location : next.location = it.location
  types : it.types <+: next.types
  found : ∀ type s, it.store? type = some s → next.store? type = some s

variable {it next last : Registry}

theorem Grows.refl (it : Registry) : it.Grows it :=
  ⟨rfl, List.prefix_refl _, fun _ _ found => found⟩

theorem Grows.trans (first : it.Grows next) (second : next.Grows last) : it.Grows last where
  location := second.location.trans first.location
  types := first.types.trans second.types
  found type s found := second.found type s (first.found type s found)

theorem Grows.contains (grows : it.Grows next) {type : RecordType}
    (known : it.contains type = true) : next.contains type = true := by
  obtain ⟨s, found⟩ := Option.isSome_iff_exists.mp known
  exact Option.isSome_iff_exists.mpr ⟨s, grows.found type s found⟩

/-- What a later registry finds for an old type is what was found before. -/
theorem Grows.found_before (grows : it.Grows next) {type : RecordType} {s : StoreId}
    (known : it.contains type = true) (found : next.store? type = some s) :
    it.store? type = some s := by
  obtain ⟨t, before⟩ := Option.isSome_iff_exists.mp known
  rw [before, ← found, grows.found type t before]

/-- Types of one identity are the same to a registry. -/
theorem contains_congr (it : Registry) {type other : RecordType} (same : (type == other) = true) :
    it.contains type = it.contains other := by
  rw [contains, contains, store?, store?, RecordType.beq_iff.mp same]

theorem contains_install (it : Registry) (type other : RecordType) (store : StoreId) :
    (it.install type store).contains other = (it.contains other || type == other) := by
  rw [contains, store?_install, BEq.comm (a := other)]
  cases type == other with
  | true => simp
  | false => simp [contains]

/-- A new type comes after the earlier ones. -/
theorem grows_install {type : RecordType} (absent : it.contains type = false) (store : StoreId) :
    it.Grows (it.install type store) where
  location := rfl
  types := List.prefix_append _ _
  found other s found := by
    have apart : (other == type) = false := by
      rw [← Bool.not_eq_true]
      intro same
      rw [← it.contains_congr same, contains, found] at absent
      contradiction
    rw [store?_install, apart]
    exact found

theorem grows_take (it : Registry) (r : RegistryId) (new : StoreId) (offer : Option Offer) :
    it.Grows (it.take r new offer) := by
  cases offer with
  | none => exact .refl it
  | some o =>
    simp only [take]
    split
    · rename_i taken
      exact grows_install taken.2 new
    · exact .refl it

end Registry

theorem World.Takes.grows {w next : World} {offer : Option Offer} (takes : w.Takes next offer)
    {r : RegistryId} (inRange : r < w.registries.length) :
    (w.registry r).Grows (next.registry r) := by
  rw [takes.registry r inRange]
  exact Registry.grows_take _ r _ offer

namespace Engine

variable {start e : Engine} {past : List (Engine × Move)}

/-- No registry disappears. -/
theorem Reach.length_registries_le (reach : Reach start e past) :
    start.world.registries.length ≤ e.world.registries.length := by
  induction reach with
  | start => exact Nat.le_refl _
  | @next e past move reach known ih => exact Nat.le_trans ih (e.step_takes move).length_le

/-- What a registry has installed stays as it is in every run, and later types come after it. -/
theorem Reach.registry_grows (reach : Reach start e past) {r : RegistryId}
    (inRange : r < start.world.registries.length) :
    (start.world.registry r).Grows (e.world.registry r) := by
  induction reach with
  | start => exact .refl _
  | @next e past move reach known ih =>
    have bound := Nat.lt_of_lt_of_le inRange reach.length_registries_le
    exact ih.trans ((e.step_takes move).grows bound)

end Engine

end LiveTables
