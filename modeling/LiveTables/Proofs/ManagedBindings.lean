import LiveTables.Proofs.CatalogTurns

namespace LiveTables.Engine

variable {e f : Engine} {k : Call} {before past : List (Engine × Move)} {move : Move}
  {c : CoordinatorId} {catalog : Catalog} {r : RegistryId}

/-- A move changes no store but that whose reload it ends, if it ends one of a pass above so many
waits, and it does not say that nothing was discovered. -/
structure Confined (level : Nat) (made : Engine × Move) : Prop where
  stores : ∀ s, s < made.1.world.stores.length →
    (∀ it, passReload? level made = some it → it.load.store ≠ s) →
    (made.1.step made.2).1.world.store s = made.1.world.store s
  quiet : made.1.world.Quiet (made.1.step made.2).1.world

/-- The store that a pass reloads for a type is the one that the registry has for it, then and for
ever. -/
theorem Course.own_store (course : Course e k f past) (reach : Reach {} e before) {pass : Pass}
    (inRange : pass.registry < e.world.registries.length) {it : PassReload}
    (member : it ∈ passReloads e.waits.length past) (ofPass : it.Of e pass) :
    (f.world.registry pass.registry).store? it.type = some it.load.store ∧
    ∀ s, (e.world.registry pass.registry).store? it.type = some s →
      it.load.store = s ∧ it.before.origin = (e.world.store s).origin := by
  obtain ⟨inPast, _⟩ := mem_passReloads member
  obtain ⟨_, prior, first⟩ := course.reach.of_mem inPast
  obtain ⟨later, onward⟩ := course.reach.onwards inPast
  obtain ⟨rest, report, purpose⟩ := ofPass.purpose
  have linked := (reach.trans first).linked.waits _ (ofPass.top ▸ List.mem_cons_self)
  have found : (it.state.world.registry pass.registry).store? it.type = some it.load.store :=
    (linked.pass it.load it.type _ rfl purpose).2
  have inRange' := Nat.lt_of_lt_of_le inRange first.length_registries_le
  refine ⟨(onward.registry_grows inRange').found _ _ found, fun s earlier => ?_⟩
  have same := (first.registry_grows inRange).found _ _ earlier
  obtain rfl := Option.some.inj (found.symm.trans same)
  exact ⟨rfl, first.origin_eq reach.sound (reach.sound.world.store?_lt earlier)⟩

section

variable (reach : Reach {} e before) (runs : (Call.initialLoad c).pass? e.world = some c)
  (given : (e.world.coordinator c).discovery = .catalog catalog)
  (course : Course e (.initialLoad c) f past)

include reach runs given course

/-- While an initial load is under way, other calls are confined if they leave its registry alone,
and so is all that is not its own. -/
theorem Reach.confined (waiting : e.waits.length < f.waits.length)
    (known : move.Known f.world) (own : ¬Nested e.waits.length (f, move)) :
    Confined e.waits.length (f, move) := by
  have sound := (reach.trans course.reach).sound
  rcases course.own_cases waiting move with nested | ⟨wait, next, top, goes⟩ | idle
  · exact absurd nested own
  · obtain ⟨progress, ⟨stage, _⟩, stands⟩ := reach.catalog_stages runs given course
    have place : f.waits = [] ++ wait :: e.waits := top
    obtain rfl := stands.own place
    have quiet : f.world.Quiet (f.step move).1.world := by
      rw [step_goes top goes, advance_world]
      refine World.quiet_goes goes ?_
      rintro wait rfl
      cases stage
    refine ⟨fun s inRange elsewhere => ?_, quiet⟩
    rw [step_store sound known inRange]
    cases goes with
    | loaded load outcome =>
      cases stage with
      | reloading purpose _ _ _ =>
        rw [top]
        exact if_neg (elsewhere _ (passReload?_of_top top purpose outcome))
    | heard | found => rfl
  · refine ⟨fun s _ _ => ?_, ?_⟩
    · rw [idle]
    · rw [idle]
      exact .of_verdicts rfl

/-- Between two moves of confined calls a store stays as it is, unless one of its own reloads
ends. -/
theorem Reach.store_confined {made : Engine × Move} (member : made ∈ past)
    (own : ¬Nested e.waits.length made) {s : Nat} (inRange : s < made.1.world.stores.length)
    (elsewhere : ∀ it, passReload? e.waits.length made = some it → it.load.store ≠ s) :
    (made.1.step made.2).1.world.store s = made.1.world.store s := by
  obtain ⟨known, _⟩ := course.reach.of_mem member
  rcases course.of_mem member with rfl | ⟨earlier, within, waiting⟩
  · exact step_store reach.sound known inRange
  · exact (reach.confined runs given within waiting known own).stores s inRange elsewhere

/-- The stores of types that no binding has stay as they were. -/
theorem Reach.untouched (serves : (e.world.coordinator c).registry = r)
    (alone : Undisturbed e.waits.length r past) {type : RecordType} {s : StoreId}
    (found : (e.world.registry r).store? type = some s)
    (others : ∀ b ∈ (e.world.coordinator c).chosen catalog, (b.recordType == type) = false) :
    f.world.store s = e.world.store s := by
  subst serves
  have inRange := reach.linked.coordinators c course.known
  obtain ⟨_, ⟨stage, ofPass⟩, _⟩ := reach.catalog_stages runs given course
  refine course.reach.store_same fun made member => ?_
  obtain ⟨known, prior, first⟩ := course.reach.of_mem member
  by_cases nested : Nested e.waits.length made
  · exact (alone made member nested).stores type s ((first.registry_grows inRange).found _ _ found)
  · have bound := Nat.lt_of_lt_of_le (reach.sound.world.store?_lt found)
      (first.length_le reach.sound)
    refine reach.store_confined runs given course member nested bound fun it ended same => ?_
    -- A store of a binding's type is no store of another type.
    have inPass : it ∈ passReloads e.waits.length past :=
      List.mem_filterMap.mpr ⟨made, List.mem_reverse.mpr member, ended⟩
    have mine := (course.own_store reach inRange inPass (ofPass it inPass)).1
    have later := (course.reach.registry_grows inRange).found _ _ found
    have holds := (reach.trans course.reach).holds
      (Nat.lt_of_lt_of_le inRange course.reach.length_registries_le)
    have listed := stage.types_before.mem (List.mem_map_of_mem inPass)
    rw [bindingPass_types] at listed
    obtain ⟨b, chosen, type'⟩ := List.mem_map.mp listed
    have here := holds.recordType mine
    rw [same, ← type'] at here
    have apart := others b chosen
    rw [BEq.trans (BEq.symm here) (holds.recordType later)] at apart
    cases apart

end

/-- What an initial load of a coordinator does while it goes over given bindings for a registry. -/
structure LoadsChosen (e : Engine) (c : CoordinatorId) (r : RegistryId) (bindings : List Binding)
    (f : Engine) (past : List (Engine × Move)) : Prop where
  /-- There is one reload for each binding, in their order. -/
  reloads : (passReloads e.waits.length past).map PassReload.type <+:
    bindings.map Binding.recordType
  /-- A reload is of the store that the registry has for the type, and an earlier store stays what
  it was made as. -/
  stores : ∀ it ∈ passReloads e.waits.length past,
    (f.world.registry r).store? it.type = some it.load.store ∧
    ∀ s, (e.world.registry r).store? it.type = some s →
      it.load.store = s ∧ it.before.origin = (e.world.store s).origin
  /-- Its own moves change no store but those that it reloads. -/
  confined : ∀ made ∈ past, ¬Nested e.waits.length made →
    ∀ s, s < made.1.world.stores.length →
    (∀ it, passReload? e.waits.length made = some it → it.load.store ≠ s) →
    (made.1.step made.2).1.world.store s = made.1.world.store s
  /-- It gives notice that nothing was discovered when it begins, exactly if there are no
  bindings. -/
  noted : ∀ scope location,
    (e.step (.call (.initialLoad c))).1.world.undiscovered scope location =
      e.world.undiscovered scope location +
        if bindings = [] ∧ (e.world.coordinator c).config.recordScope = scope ∧
          (e.world.coordinator c).config.location.display = location then 1 else 0
  silent : ∀ made ∈ past, e.waits.length < made.1.waits.length → ¬Nested e.waits.length made →
    made.1.world.Quiet (made.1.step made.2).1.world
  /-- When it answers, all bindings have had their reloads, and the report accounts for them. -/
  answered : f.waits = e.waits →
    (passReloads e.waits.length past).map PassReload.type = bindings.map Binding.recordType ∧
    ∃ (report : Report) (failures : List ListenerFailure),
      lastReply past = some (.initialized { report with listenerFailures := failures }) ∧
      report.Accounts (passReloads e.waits.length past) ∧
      report.loaded.length + report.failed.length = bindings.length
  faithful : ∀ it ∈ passReloads e.waits.length past, it.Faithful
  /-- If nobody else does anything to the registry, the types of the bindings come after those that
  were there, a new store is made for the first binding of its type, and the stores of all other
  types stay as they were. -/
  undisturbed : Undisturbed e.waits.length r past →
    (f.waits = e.waits → (f.world.registry r).types = (e.world.registry r).types ++
      ((bindings.map Binding.recordType).filter
        fun type => !(e.world.registry r).contains type).eraseDups) ∧
    (∀ it ∈ passReloads e.waits.length past, (e.world.registry r).contains it.type = false →
      ∃ b, bindings.find? (·.recordType == it.type) = some b ∧
        (f.world.store it.load.store).origin =
          .fresh b.recordType (e.world.registry r).location b.loader) ∧
    ∀ type s, (e.world.registry r).store? type = some s →
      (∀ b ∈ bindings, (b.recordType == type) = false) → f.world.store s = e.world.store s

/-- An initial load that runs loads the managed bindings in its scope, and nothing else. -/
theorem Reach.loads_chosen (reach : Reach {} e before)
    (runs : (Call.initialLoad c).pass? e.world = some c)
    (given : (e.world.coordinator c).discovery = .catalog catalog)
    (course : Course e (.initialLoad c) f past) :
    LoadsChosen e c (e.world.coordinator c).registry ((e.world.coordinator c).chosen catalog) f
      past where
  reloads := by
    obtain ⟨_, ⟨stage, _⟩, _⟩ := reach.catalog_stages runs given course
    have first := stage.types_before
    rwa [bindingPass_types] at first
  stores it member := by
    obtain ⟨_, ⟨_, ofPass⟩, _⟩ := reach.catalog_stages runs given course
    have inRange := reach.linked.coordinators c course.known
    exact course.own_store reach inRange member (ofPass it member)
  confined made member own s bound elsewhere :=
    reach.store_confined runs given course member own bound elsewhere
  noted scope location := by
    obtain ⟨v, _, begun, noted⟩ := World.begin_catalog runs given
    have quiet : v.Quiet (e.world.begin (.initialLoad c)).1 :=
      .of_verdicts (World.verdicts_turn begun)
    rw [step_call, advance_world, quiet, noted]
  silent made member waiting own := by
    obtain ⟨known, _⟩ := course.reach.of_mem member
    rcases course.of_mem member with rfl | ⟨earlier, within, _⟩
    · exact absurd waiting (Nat.lt_irrefl _)
    · exact (reach.confined runs given within waiting known own).quiet
  answered back := by
    obtain ⟨progress, ⟨stage, _⟩, stands⟩ := reach.catalog_stages runs given course
    obtain ⟨reply, rfl, last⟩ := stands.answer back
    cases stage with
    | @answered report failures all accounts =>
      rw [bindingPass_types] at all
      refine ⟨all.symm, report, failures, last, accounts, ?_⟩
      have lengths := congrArg List.length all
      rw [accounts.entries, ← List.length_map PassReload.type, ← all, List.length_map]
  faithful it member := by
    obtain ⟨_, ⟨_, ofPass⟩, _⟩ := reach.catalog_stages runs given course
    exact (ofPass it member).faithful reach
  undisturbed alone := by
    obtain ⟨_, ⟨_, ofPass⟩, _⟩ := reach.catalog_stages runs given course
    have inRange := reach.linked.coordinators c course.known
    refine ⟨reach.types_loaded runs given course rfl alone, fun it member new => ?_, ?_⟩
    · have found := (course.own_store reach inRange member (ofPass it member)).1
      exact reach.first_made runs given course rfl alone new found
    · exact fun type s found others => reach.untouched runs given course rfl alone found others

def shopType : RecordType := ⟨5, "Shop", "shop", .number, []⟩

def bagType : RecordType := ⟨6, "Bag", "shop", .number, []⟩

def tagType : RecordType := ⟨7, "Tag", "shop", .number, []⟩

/-- A registry that has one type, and a coordinator over it with a catalog: a type stands in it
twice, one binding is not managed, one is out of scope, and the last one's type is the one that is
there. -/
def stocked : List Move :=
  [.call (.makeRegistry (.text "shops")), .call (.ensure 0 tagType 9),
    .call (.makeCoordinator { recordScope := "shop" } (some 0) (.catalog ⟨[⟨shopType, 1, true⟩,
      ⟨bagType, 2, false⟩, ⟨shopType, 3, true⟩, ⟨itemType, 4, true⟩, ⟨tagType, 5, true⟩]⟩))]

/-- An initial load, in which a loader queues a listener and the last loader ends abruptly. -/
def stocking : List Move :=
  [.call (.initialLoad 0), .loaded (.done [goodItem]), .call (.queue 0 ⟨1, "cache"⟩),
    .loaded (.done []), .loaded (.faulted .unspoken)]

theorem stocking_loaded :
    (((({} : Engine).run stocked).run stocking).world.registry 0).types.map RecordType.identity =
      [7, 5] ∧
    (((({} : Engine).run stocked).run stocking).world.store 1).loader = 1 ∧
    ∃ (report : Report) (failures : List ListenerFailure),
      lastReply ((({} : Engine).run stocked).trail stocking) =
        some (.initialized { report with listenerFailures := failures }) ∧
      report.loaded = [⟨"Shop", 1⟩, ⟨"Shop", 0⟩] ∧
      report.failed = [⟨"Tag", "panicked: (non-string panic)"⟩] := by
  have plays : ({} : Engine).Plays stocked := by decide
  have course : Course (({} : Engine).run stocked) (.initialLoad 0)
      ((({} : Engine).run stocked).run stocking) ((({} : Engine).run stocked).trail stocking) :=
    course_run (by decide) (by decide)
  have loads := (reach_run plays).loads_chosen rfl rfl course
  have alone : Undisturbed 0 0 ((({} : Engine).run stocked).trail stocking) := by
    intro made member nested
    simp only [stocking, trail, List.nil_append, List.cons_append, List.mem_cons,
      List.not_mem_nil, or_false] at member
    rcases member with rfl | rfl | rfl | rfl | rfl
    · rcases nested with deep | ⟨_, _, ⟨⟩⟩
      exact absurd deep (by decide)
    · rcases nested with deep | ⟨_, _, ⟨⟩⟩
      exact absurd deep (by decide)
    · exact ⟨rfl, fun _ _ _ => rfl⟩
    · rcases nested with deep | ⟨_, _, ⟨⟩⟩
      exact absurd deep (by decide)
    · rcases nested with deep | ⟨waiting, _⟩
      · exact absurd deep (by decide)
      · exact absurd waiting (by decide)
  obtain ⟨types, first, _⟩ := loads.undisturbed alone
  obtain ⟨_, report, failures, last, accounts, _⟩ := loads.answered rfl
  refine ⟨?_, ?_, report, failures, last, accounts.loaded, accounts.failed⟩
  · exact congrArg (List.map RecordType.identity) (types rfl)
  · obtain ⟨b, asked, made⟩ := first _ List.mem_cons_self rfl
    obtain rfl : ⟨shopType, 1, true⟩ = b := Option.some.inj asked
    exact congrArg Store.loader made

end LiveTables.Engine
