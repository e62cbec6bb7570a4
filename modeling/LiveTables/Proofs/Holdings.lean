import LiveTables.Proofs.FirstOccurrences
import LiveTables.Proofs.Links
import LiveTables.Proofs.Live

namespace LiveTables

/-- What a registry holds after a list of offers to it, the earliest first: one store for each type
that was offered, made for the first offer of the type. -/
structure World.Holds (w : World) (r : RegistryId) (offers : List Offer) : Prop where
  types : (w.registry r).types = (offers.map Offer.type).eraseDups
  distinct : (w.registry r).types.Pairwise fun a b => (a == b) = false
  size : (w.registry r).size = (w.registry r).types.length
  contains : ∀ type, (w.registry r).contains type = (w.registry r).types.any (· == type)
  offered : ∀ type, (w.registry r).contains type = offers.any (·.type == type)
  made : ∀ type s, (w.registry r).store? type = some s →
    ∃ o, offers.find? (·.type == type) = some o ∧
      (w.store s).origin = .fresh o.type (w.registry r).location o.loader

namespace World.Holds

variable {w next : World} {r : RegistryId} {offers : List Offer}

theorem of_empty (types : (w.registry r).types = []) (stores : (w.registry r).stores = []) :
    w.Holds r [] where
  types := types
  distinct := by simp [types]
  size := by simp [Registry.size, types, stores]
  contains type := by simp [Registry.contains, Registry.store?, types, stores]
  offered type := by simp [Registry.contains, Registry.store?, stores]
  made type s found := by simp [Registry.store?, stores] at found

/-- A store that is found for a type holds records of this type. -/
theorem recordType (holds : w.Holds r offers) {type : RecordType} {s : StoreId}
    (found : (w.registry r).store? type = some s) : ((w.store s).recordType == type) = true := by
  obtain ⟨o, first, origin⟩ := holds.made type s found
  have same := List.find?_some (p := fun o : Offer => o.type == type) first
  rwa [← show (w.store s).recordType = o.type from congrArg Store.recordType origin] at same

/-- Stores keep what they were made as, so an unchanged registry holds what it held. -/
theorem of_same (holds : w.Holds r offers) (sound : w.Sound)
    (origin : ∀ s, s < w.stores.length → (next.store s).origin = (w.store s).origin)
    (same : next.registry r = w.registry r) : next.Holds r offers where
  types := same ▸ holds.types
  distinct := same ▸ holds.distinct
  size := same ▸ holds.size
  contains := same ▸ holds.contains
  offered := same ▸ holds.offered
  made type s found := by
    rw [same] at found ⊢
    rw [origin s (sound.store?_lt found)]
    exact holds.made type s found

/-- An offer of a type that the registry has changes nothing. -/
theorem again (holds : w.Holds r offers) {o : Offer}
    (known : (w.registry r).contains o.type = true) : w.Holds r (offers ++ [o]) where
  types := by
    have before : (offers.map Offer.type).any (· == o.type) = true := by
      rw [List.any_map, ← known]
      exact (holds.offered o.type).symm
    rw [List.map_append, List.map_singleton, eraseDups_concat, if_pos before, holds.types]
  distinct := holds.distinct
  size := holds.size
  contains := holds.contains
  offered type := by
    rw [List.any_append, ← holds.offered]
    cases same : o.type == type with
    | true =>
      rw [← (w.registry r).contains_congr same, known]
      rfl
    | false => simp [same]
  made type s found := by
    obtain ⟨first, found, origin⟩ := holds.made type s found
    exact ⟨first, by rw [List.find?_append, found, Option.some_or], origin⟩

/-- An offer of a new type installs a store that is made for it. -/
theorem first (holds : w.Holds r offers) (sound : w.Sound) {o : Offer}
    (absent : (w.registry r).contains o.type = false)
    (origin : ∀ s, s < w.stores.length → (next.store s).origin = (w.store s).origin)
    (installed : next.registry r = (w.registry r).install o.type w.stores.length)
    (fresh : next.store w.stores.length = .fresh o.type (w.registry r).location o.loader) :
    next.Holds r (offers ++ [o]) where
  types := by
    have before : (offers.map Offer.type).any (· == o.type) = false := by
      rw [List.any_map, ← absent]
      exact (holds.offered o.type).symm
    rw [List.map_append, List.map_singleton, eraseDups_concat, before, installed, ← holds.types]
    rfl
  distinct := by
    rw [installed, Registry.install, List.pairwise_append]
    refine ⟨holds.distinct, List.pairwise_singleton _ _, ?_⟩
    intro a member b last
    obtain rfl := List.mem_singleton.mp last
    rw [holds.contains, List.any_eq_false] at absent
    exact Bool.eq_false_iff.mpr (absent a member)
  size := by
    have size := holds.size
    simp only [Registry.size, installed, Registry.install, List.length_cons, List.length_append,
      List.length_nil] at size ⊢
    omega
  contains type := by
    rw [installed, Registry.contains_install, Registry.install, List.any_append, ← holds.contains]
    simp
  offered type := by
    rw [installed, Registry.contains_install, List.any_append, ← holds.offered]
    simp
  made type s found := by
    rw [installed] at found ⊢
    rw [Registry.store?_install] at found
    -- The new store answers for its own type, and for all others what was there before.
    cases same : type == o.type with
    | true =>
      obtain rfl : w.stores.length = s := by simpa [same] using found
      have unseen : offers.find? (·.type == type) = none := by
        rw [(w.registry r).contains_congr (BEq.symm same), holds.offered,
          List.any_eq_false] at absent
        exact List.find?_eq_none.mpr absent
      refine ⟨o, ?_, by rw [fresh]; rfl⟩
      rw [List.find?_append, unseen, Option.none_or]
      exact List.find?_cons_of_pos (BEq.symm same)
    | false =>
      have old : (w.registry r).store? type = some s := by simpa [same] using found
      obtain ⟨before, seen, made⟩ := holds.made type s old
      refine ⟨before, by rw [List.find?_append, seen, Option.some_or], ?_⟩
      rw [origin s (sound.store?_lt old)]
      exact made

/-- Whatever is offered, and to whatever registry. -/
theorem take (holds : w.Holds r offers) (sound : w.Sound) (inRange : r < w.registries.length)
    {offer : Option Offer} (takes : w.Takes next offer)
    (origin : ∀ s, s < w.stores.length → (next.store s).origin = (w.store s).origin) :
    next.Holds r (offers ++ (offer.filter (·.registry = r)).toList) := by
  have registry := takes.registry r inRange
  cases offer with
  | none =>
    rw [Option.filter_none, Option.toList_none, List.append_nil]
    exact holds.of_same sound origin registry
  | some o =>
    by_cases here : o.registry = r
    · have asked : (some o).filter (·.registry = r) = some o := by simp [here]
      rw [asked, Option.toList_some]
      cases known : (w.registry r).contains o.type with
      | true =>
        rw [Registry.take, known, if_neg (by simp)] at registry
        exact (holds.again known).of_same sound origin registry
      | false =>
        rw [Registry.take, if_pos ⟨here, known⟩] at registry
        have fresh := takes.store o rfl (here ▸ known)
        rw [here] at fresh
        exact holds.first sound known origin registry fresh
    · have elsewhere : (some o).filter (·.registry = r) = none := by simp [here]
      rw [Registry.take, if_neg fun both => here both.1] at registry
      rw [elsewhere, Option.toList_none, List.append_nil]
      exact holds.of_same sound origin registry

end World.Holds

namespace World

variable {w : World} {r : RegistryId}

theorem turn?_registry {todo : List PassItem} {o : Offer} (offered : w.turn? r todo = some o) :
    o.registry = r := by
  induction todo with
  | nil => cases offered
  | cons item todo ih =>
    cases item with
    | bound b =>
      cases offered
      rfl
    | installed type =>
      rw [turn?] at offered
      split at offered
      · cases offered
      · exact ih offered

end World

namespace Engine

/-- The offers to a registry in a run, the earliest first. -/
def offers (r : RegistryId) (past : List (Engine × Move)) : List Offer :=
  past.reverse.filterMap fun made => (made.1.offer? made.2).filter (·.registry = r)

variable {e : Engine} {past : List (Engine × Move)} {move : Move} {r : RegistryId}

theorem offers_cons (r : RegistryId) (e : Engine) (move : Move) (past : List (Engine × Move)) :
    offers r ((e, move) :: past) =
      offers r past ++ ((e.offer? move).filter (·.registry = r)).toList :=
  filterMap_reverse_cons _ _ past

/-- Offers are made to registries that exist. -/
theorem offer_inRange (linked : e.Linked) (known : move.Known e.world) {o : Offer}
    (offered : e.offer? move = some o) : o.registry < e.world.registries.length := by
  have found {c : CoordinatorId} {bindings : List Binding}
      (offered : e.world.foundOffer? c bindings = some o)
      (known : c < e.world.coordinators.length) : o.registry < e.world.registries.length := by
    rw [World.turn?_registry offered]
    exact linked.coordinators c known
  unfold offer? at offered
  split at offered
  · rename_i c
    unfold Call.offer? at offered
    split at offered
    · cases offered
      exact known
    · cases offered
      exact known
    · dsimp only at offered
      split at offered
      · cases offered
      · split at offered
        · exact found offered known
        · cases offered
    · cases offered
  · rename_i top
    have mine := linked.waits _ (top ▸ List.mem_cons_self)
    rw [World.turn?_registry offered]
    exact (mine.pass _ _ _ rfl rfl).1
  · rename_i top
    have mine := linked.waits _ (top ▸ List.mem_cons_self)
    exact found offered (mine.discovery _ rfl)
  · cases offered

/-- Nothing is offered to a registry that does not exist yet. -/
theorem offer_elsewhere (linked : e.Linked) (known : move.Known e.world)
    (beyond : e.world.registries.length ≤ r) :
    (e.offer? move).filter (·.registry = r) = none := by
  cases offered : e.offer? move with
  | none => rfl
  | some o =>
    have inRange := offer_inRange linked known offered
    have other : o.registry ≠ r := Nat.ne_of_lt (Nat.lt_of_lt_of_le inRange beyond)
    simp [other]

theorem Reach.offers_of_beyond (reach : Reach {} e past)
    (beyond : e.world.registries.length ≤ r) : offers r past = [] := by
  induction reach with
  | start => rfl
  | @next e past move reach known ih =>
    have before := Nat.le_trans (e.step_takes move).length_le beyond
    rw [offers_cons, ih before, offer_elsewhere reach.linked known before]
    rfl

/-- A registry is settled by the offers that a run has made to it: the first offer of a type decides
which store the type has there, and later offers of it change nothing. -/
theorem Reach.holds (reach : Reach {} e past) (inRange : r < e.world.registries.length) :
    e.world.Holds r (offers r past) := by
  induction reach with
  | start => exact absurd inRange (Nat.not_lt_zero r)
  | @next e past move reach known ih =>
    have takes := e.step_takes move
    by_cases old : r < e.world.registries.length
    · rw [offers_cons]
      exact (ih old).take reach.sound.world old takes fun _ => step_origin reach.sound known
    · -- A registry that this move makes: it is empty, and nothing was offered to it before.
      have beyond := Nat.le_of_not_lt old
      obtain ⟨types, stores⟩ := takes.new r beyond
      rw [offers_cons, reach.offers_of_beyond beyond, offer_elsewhere reach.linked known beyond]
      exact .of_empty types stores

end Engine

end LiveTables
