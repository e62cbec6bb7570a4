import LiveTables.Proofs.CatalogPass
import LiveTables.Proofs.CompletePass
import LiveTables.Proofs.OtherCalls

namespace LiveTables.Engine

variable {e f : Engine} {k : Call} {before past : List (Engine × Move)} {move : Move}
  {c : CoordinatorId} {catalog : Catalog} {r : RegistryId}

theorem bindingPass_types (it : Coordinator) (c : CoordinatorId) (bindings : List Binding) :
    (it.bindingPass c bindings).todo.map PassItem.type = bindings.map Binding.recordType :=
  List.map_map

/-- Of the bindings of a pass some have had their turn: the registry was asked for their types, and
the pass goes on with the others. -/
structure Turned (pass : Pass) (bindings : List Binding) (given : List Offer) (w : World)
    (progress : Progress) (started rest : List Binding) : Prop where
  whole : bindings = started ++ rest
  holds : w.Holds pass.registry (given ++ started.map (Binding.offer pass.registry))
  load : ∀ load, progress = .waiting (.load load) → ∃ type report,
    load.purpose = .pass type { pass with todo := rest.map .bound, report }
  last : (∀ load, progress ≠ .waiting (.load load)) → rest = []

/-- A pass over bindings passes over none of them. -/
theorem turn_bound {w : World} {pass : Pass} {next : World × Progress}
    (turn : w.Turn (.pass pass) next) {bindings : List Binding}
    (todo : pass.todo = bindings.map .bound) : (bindings = [] ∧ next.2.PastReloads) ∨
      ∃ b rest load, bindings = b :: rest ∧ next.2 = .waiting (.load load) ∧
        load.purpose = .pass b.recordType { pass with todo := rest.map .bound } := by
  have nothing {items : List PassItem} (within : items ⊆ pass.todo)
      (lacks : w.Lacks pass.registry items) : items = [] := by
    cases items with
    | nil => rfl
    | cons item rest =>
      obtain ⟨type, rfl, _⟩ := lacks item List.mem_cons_self
      have member := within List.mem_cons_self
      rw [todo] at member
      obtain ⟨_, _, other⟩ := List.mem_map.mp member
      cases other
  cases turn with
  | @reload _ v _ item skipped rest s whole lacks provides =>
    obtain rfl := nothing (whole ▸ List.subset_append_left _ _) lacks
    rw [todo, List.nil_append] at whole
    obtain ⟨b, later, rfl, rfl, rfl⟩ := List.map_eq_cons_iff.mp whole
    exact Or.inr ⟨b, later, _, rfl, rfl, rfl⟩
  | reloaded lacks turn =>
    have none := nothing (List.Subset.refl _) lacks
    rw [todo] at none
    exact Or.inl ⟨List.map_eq_nil_iff.mp none,
      turn.pastReloads fun rest => World.afterReloads_ne_pass _ _ rest⟩

/-- The next binding has its turn, if there is one. -/
theorem turned_turn {pass : Pass} {report : Report} {bindings started rest : List Binding}
    {given : List Offer} {w v after : World} {next : World × Progress}
    (turn : v.Turn (.pass { pass with todo := rest.map .bound, report }) next)
    (whole : bindings = started ++ rest)
    (holds : w.Holds pass.registry (given ++ started.map (Binding.offer pass.registry)))
    (sound : w.Sound) (inRange : pass.registry < w.registries.length)
    (takes : w.Takes after (v.turn? pass.registry (rest.map .bound)))
    (origin : ∀ s, s < w.stores.length → (after.store s).origin = (w.store s).origin) :
    ∃ started rest', Turned pass bindings given after next.2 started rest' := by
  have held := holds.take sound inRange takes origin
  rcases turn_bound turn rfl with ⟨rfl, finished⟩ | ⟨b, rest, load, rfl, run, purpose⟩
  · rw [List.map_nil, World.turn?, Option.filter_none, Option.toList_none, List.append_nil] at held
    refine ⟨started, [], whole, held, fun load run => ?_, fun _ => rfl⟩
    rw [run] at finished
    cases finished
  · have asked : (some (b.offer pass.registry)).filter (·.registry = pass.registry) =
        some (b.offer pass.registry) := by simp [Binding.offer]
    rw [List.map_cons, World.turn?, asked, Option.toList_some, List.append_assoc,
      ← List.map_singleton, ← List.map_append] at held
    refine ⟨started ++ [b], rest, by rw [whole]; simp, held, ?_, fun other => ?_⟩
    · rintro other waiting
      obtain rfl := Wait.load.inj (Progress.waiting.inj (run.symm.trans waiting))
      exact ⟨b.recordType, report, purpose⟩
    · exact absurd run (other _)

/-- The call that begins a pass over bindings offers the first one. -/
theorem Reach.turned_begin (reach : Reach {} e before) (known : k.Known e.world) {pass : Pass}
    {bindings : List Binding} {v : World} (inRange : pass.registry < e.world.registries.length)
    (todo : pass.todo = bindings.map .bound) (begun : v.Turn (.pass pass) (e.world.begin k))
    (offered : k.offer? e.world = v.turn? pass.registry pass.todo) :
    ∃ started rest, Turned pass bindings (offers pass.registry before)
      (e.step (.call k)).1.world (e.world.begin k).2 started rest := by
  have called : (Move.call k).Known e.world := known
  have takes := e.step_takes (.call k)
  rw [show e.offer? (.call k) = k.offer? e.world from rfl, offered, todo] at takes
  have whole : pass = { pass with todo := bindings.map .bound, report := pass.report } := by
    rw [← todo]
  have holds := reach.holds inRange
  rw [← List.append_nil (offers _ _)] at holds
  rw [whole] at begun
  exact turned_turn begun (List.nil_append _).symm holds reach.sound.world inRange takes
    fun _ => step_origin reach.sound called

/-- When a reload of the pass ends, the next binding has its turn. -/
theorem Turned.goes {pass : Pass} {bindings started rest : List Binding} {given : List Offer}
    {own : Wait} {base : List Wait} {next : World × Progress}
    (turned : Turned pass bindings given f.world (.waiting own) started rest) (sound : f.Sound)
    (inRange : pass.registry < f.world.registries.length) (known : move.Known f.world)
    (top : f.waits = own :: base) (goes : own.Goes f.world move next)
    (noDiscovery : ∀ wait, own ≠ .discovery wait) :
    ∃ started rest, Turned pass bindings given (f.step move).1.world next.2 started rest := by
  obtain ⟨whole, holds, load, last⟩ := turned
  have takes := f.step_takes move
  have origin (s : StoreId) (bound : s < f.world.stores.length) := step_origin sound known bound
  obtain ⟨v, job, ends, turn⟩ := goes.ends
  cases ends with
  | answered outcome answers =>
    obtain ⟨type, report, purpose⟩ := load _ rfl
    cases answers.symm.trans purpose
  | @entered wait _ _ outcome entered =>
    obtain ⟨type, report, purpose⟩ := load _ rfl
    obtain ⟨rfl, rfl⟩ := ReloadPurpose.pass.inj (entered.symm.trans purpose)
    have registries := (f.world.keeps_endLoad wait outcome).registries
    rw [offer?_of_top top purpose, ← World.turn?_of_same registries] at takes
    exact turned_turn turn whole holds sound.world inRange takes origin
  | heard wait outcome =>
    have quiet : f.offer? (.heard outcome) = none := rfl
    rw [quiet] at takes
    have held := holds.take sound.world inRange takes origin
    rw [Option.filter_none, Option.toList_none, List.append_nil] at held
    refine ⟨started, rest, whole, held, fun load run => ?_, fun _ => last nofun⟩
    have finished := turn.pastReloads nofun
    rw [run] at finished
    cases finished
  | found wait bindings => exact absurd rfl (noDiscovery wait)

/-- A pass over bindings offers them to its registry in turn, and if nobody else does anything to
the registry, this settles what it holds. -/
theorem Course.turned (course : Course e k f past) (reach : Reach {} e before) {pass : Pass}
    {bindings : List Binding} {v : World} (fresh : pass.report = {})
    (inRange : pass.registry < e.world.registries.length) (todo : pass.todo = bindings.map .bound)
    (registries : v.registries = e.world.registries)
    (begun : v.Turn (.pass pass) (e.world.begin k))
    (offered : k.offer? e.world = v.turn? pass.registry pass.todo)
    (alone : Undisturbed e.waits.length pass.registry past) :
    ∃ progress, (∃ started rest, Turned pass bindings (offers pass.registry before) f.world
        progress started rest) ∧ Stands e.waits f (lastReply past) progress := by
  have ready := Pass.ready_of_bound todo e.world
  -- The walk goes over all moves, so that the registry is left alone becomes a part of it.
  suffices walk : ∃ progress, (Undisturbed e.waits.length pass.registry past →
      ∃ started rest, Turned pass bindings (offers pass.registry before) f.world progress
        started rest) ∧ Stands e.waits f (lastReply past) progress by
    obtain ⟨progress, turned, stands⟩ := walk
    exact ⟨progress, turned alone, stands⟩
  refine course.stands_at (P := fun f past progress =>
    Undisturbed e.waits.length pass.registry past → ∃ started rest, Turned pass bindings
      (offers pass.registry before) f.world progress started rest) ?_ ?_ ?_
  · exact fun _ => reach.turned_begin course.known inRange todo begun offered
  · rintro f past own move next course known turned top goes alone
    obtain ⟨started, rest, turned⟩ :=
      turned fun made member => alone made (List.mem_cons_of_mem _ member)
    have inRange' := Nat.lt_of_lt_of_le inRange course.reach.length_registries_le
    refine turned.goes (reach.trans course.reach).sound inRange' known top goes fun wait same => ?_
    obtain ⟨_, ⟨stage, _⟩, stands⟩ := course.stages fresh inRange ready registries begun
    have place : f.waits = [] ++ own :: e.waits := top
    obtain rfl := stands.own place
    rw [same] at stage
    cases stage
  · rintro f past own above move course known turned waits notOwn alone
    obtain ⟨started, rest, whole, holds, load, last⟩ :=
      turned fun made member => alone made (List.mem_cons_of_mem _ member)
    have sound := (reach.trans course.reach).sound
    have held := holds.of_same sound.world (fun _ => step_origin sound known)
      (registry_same waits notOwn alone)
    exact ⟨started, rest, whole, held, load, last⟩

section

variable (reach : Reach {} e before) (runs : (Call.initialLoad c).pass? e.world = some c)
  (given : (e.world.coordinator c).discovery = .catalog catalog)
  (course : Course e (.initialLoad c) f past)

include reach runs given course

/-- An initial load from a catalog goes through the stages of a pass over the bindings that it
chose. -/
theorem Reach.catalog_stages : ∃ progress, (((e.world.coordinator c).bindingPass c
          ((e.world.coordinator c).chosen catalog)).Stage
        (passReloads e.waits.length past) progress ∧
      ∀ it ∈ passReloads e.waits.length past, it.Of e ((e.world.coordinator c).bindingPass c
        ((e.world.coordinator c).chosen catalog))) ∧
      Stands e.waits f (lastReply past) progress := by
  have inRange := reach.linked.coordinators c course.known
  obtain ⟨v, registries, begun, _⟩ := World.begin_catalog runs given
  exact course.stages rfl inRange (Pass.ready_of_bound rfl e.world) registries begun

/-- The registry of an initial load holds what it held before and the types of the bindings that
have had their turn. -/
theorem Reach.holds_chosen (serves : (e.world.coordinator c).registry = r)
    (alone : Undisturbed e.waits.length r past) :
    ∃ started rest, (e.world.coordinator c).chosen catalog = started ++ rest ∧
      f.world.Holds r (offers r before ++ started.map (Binding.offer r)) ∧
      (f.waits = e.waits → rest = []) := by
  subst serves
  have inRange := reach.linked.coordinators c course.known
  obtain ⟨v, registries, begun, _⟩ := World.begin_catalog runs given
  have offered := (World.offer?_catalog runs given).trans
    (World.turn?_of_same registries (e.world.coordinator c).registry _).symm
  obtain ⟨progress, ⟨started, rest, turned⟩, stands⟩ :=
    course.turned reach rfl inRange rfl registries begun offered alone
  refine ⟨started, rest, turned.whole, turned.holds, fun back => ?_⟩
  obtain ⟨reply, rfl, _⟩ := stands.answer back
  exact turned.last nofun

/-- The types of the bindings that are new come after the earlier ones. -/
theorem Reach.types_loaded (serves : (e.world.coordinator c).registry = r)
    (alone : Undisturbed e.waits.length r past) (back : f.waits = e.waits) :
    (f.world.registry r).types = (e.world.registry r).types ++
      ((((e.world.coordinator c).chosen catalog).map Binding.recordType).filter
        fun type => !(e.world.registry r).contains type).eraseDups := by
  have inRange : r < e.world.registries.length :=
    serves ▸ reach.linked.coordinators c course.known
  have held := reach.holds inRange
  obtain ⟨started, rest, whole, holds, last⟩ := reach.holds_chosen runs given course serves alone
  obtain rfl := last back
  have types : (started.map (Binding.offer r)).map Offer.type = started.map Binding.recordType :=
    List.map_map
  have known (type : RecordType) : ((offers r before).map Offer.type).any (· == type) =
      (e.world.registry r).contains type := by
    rw [held.offered, List.any_map]
    rfl
  rw [whole, List.append_nil, held.types, holds.types, List.map_append, types,
    eraseDups_append_new]
  simp only [known]

/-- The store of a type that is new was made for the first binding of the type. -/
theorem Reach.first_made (serves : (e.world.coordinator c).registry = r)
    (alone : Undisturbed e.waits.length r past) {type : RecordType}
    (new : (e.world.registry r).contains type = false) {s : StoreId}
    (found : (f.world.registry r).store? type = some s) :
    ∃ b, ((e.world.coordinator c).chosen catalog).find? (·.recordType == type) = some b ∧
      (f.world.store s).origin =
        .fresh b.recordType (e.world.registry r).location b.loader := by
  have inRange : r < e.world.registries.length :=
    serves ▸ reach.linked.coordinators c course.known
  have held := reach.holds inRange
  obtain ⟨started, rest, whole, holds, _⟩ := reach.holds_chosen runs given course serves alone
  obtain ⟨o, first, origin⟩ := holds.made type s found
  -- No offer of the type is older than the call.
  have unseen : (offers r before).find? (·.type == type) = none := by
    rw [held.offered, List.any_eq_false] at new
    exact List.find?_eq_none.mpr new
  rw [List.find?_append, unseen, Option.none_or, List.find?_map] at first
  obtain ⟨b, asked, rfl⟩ := Option.map_eq_some_iff.mp first
  refine ⟨b, ?_, ?_⟩
  · rw [whole, List.find?_append]
    exact congrArg (Option.or · _) asked
  · rw [origin, (course.reach.registry_grows inRange).location]
    rfl

end

end LiveTables.Engine
