import LiveTables.Proofs.Holdings
import LiveTables.Proofs.PassStages
import LiveTables.Proofs.RefusedReload

namespace LiveTables

namespace PassReload

/-- A reload ends with a result exactly if it publishes, and then the result is the size of the new
generation. Otherwise the store serves what it served when the loader ended. -/
structure Faithful (it : PassReload) : Prop where
  published : ∀ n, it.ending = .done n ↔ ∃ batch, it.given = .done batch ∧
    it.state.published? it.load.store (.loaded it.given) = some batch ∧ n = batch.length
  size : ∀ n, it.ending = .done n → it.after.current.size = n
  refused : (∀ n, it.ending ≠ .done n) →
    it.after = it.before.afterRefusal it.ending ∧ it.after.current = it.before.current

variable {it : PassReload} {e : Engine} {pass : Pass} {past : List (Engine × Move)}

theorem Of.faithful (ofPass : it.Of e pass) (reach : Engine.Reach {} e past) : it.Faithful := by
  obtain ⟨later, goesOn⟩ := ofPass.reach
  have sound := (reach.trans goesOn).sound
  have after : it.after = (it.before.conclude it.load.plan it.given).1 :=
    Engine.step_concludes sound ofPass.top it.given
  refine ⟨fun n => Engine.ends_done_iff sound ofPass.top, ?_, ?_⟩
  · intro n done
    obtain ⟨batch, given, accepted, rfl⟩ := Store.conclude_done_iff.mp done
    obtain ⟨index, _, run⟩ := Store.conclude_of_accepts accepted
    rw [after, given, run]
    rfl
  · intro refused
    obtain ⟨ending, _, run⟩ := Store.conclude_refused refused
    have ended : it.ending = ending := congrArg Prod.snd run
    rw [after, run, ended]
    exact ⟨rfl, Store.current_afterRefusal _ _⟩

/-- The store that is reloaded for a type is the one that the registry had for it all along. -/
theorem Of.store (ofPass : it.Of e pass) (reach : Engine.Reach {} e past)
    (inRange : pass.registry < e.world.registries.length)
    (known : (e.world.registry pass.registry).contains it.type = true) :
    (e.world.registry pass.registry).store? it.type = some it.load.store := by
  obtain ⟨later, goesOn⟩ := ofPass.reach
  obtain ⟨rest, report, purpose⟩ := ofPass.purpose
  have linked := (reach.trans goesOn).linked.waits _ (ofPass.top ▸ List.mem_cons_self)
  have found := (linked.pass it.load it.type _ rfl purpose).2
  exact (goesOn.registry_grows inRange).found_before known found

end PassReload

namespace Engine

variable {e f : Engine} {before past : List (Engine × Move)} {r : RegistryId}

theorem registryPass_types (w : World) (r : RegistryId) (ending : PassEnd) :
    (w.registryPass r ending).todo.map PassItem.type = (w.registry r).types := by
  rw [World.registryPass, List.map_map]
  exact List.map_id _

theorem Reach.contains (reach : Reach {} e before) (inRange : r < e.world.registries.length)
    {type : RecordType} (member : type ∈ (e.world.registry r).types) :
    (e.world.registry r).contains type = true := by
  rw [(reach.holds inRange).contains, List.any_eq_true]
  exact ⟨type, member, BEq.rfl⟩

theorem Reach.registryPass_ready (reach : Reach {} e before)
    (inRange : r < e.world.registries.length) (ending : PassEnd) :
    (e.world.registryPass r ending).Ready e.world := by
  intro type member
  obtain ⟨_, inTypes, same⟩ := List.mem_map.mp member
  cases same
  exact reach.contains inRange inTypes

/-- A call that begins a pass over a registry goes through its stages, and each of its reloads is
one of the store that the registry had for the type. -/
theorem Reach.registryPass_stages (reach : Reach {} e before) {c : Call}
    (course : Course e c f past) {ending : PassEnd} {v : World}
    (inRange : r < e.world.registries.length) (registries : v.registries = e.world.registries)
    (begun : v.Turn (.pass (e.world.registryPass r ending)) (e.world.begin c)) :
    ∃ progress, (e.world.registryPass r ending).Stage (passReloads e.waits.length past) progress ∧
      Stands e.waits f (lastReply past) progress ∧
      ∀ it ∈ passReloads e.waits.length past,
        (e.world.registry r).store? it.type = some it.load.store ∧ it.Faithful := by
  have ready := reach.registryPass_ready inRange ending
  obtain ⟨progress, ⟨stage, ofPass⟩, stands⟩ := course.stages rfl inRange ready registries begun
  refine ⟨progress, stage, stands, fun it member => ?_⟩
  have listed : it.type ∈ (e.world.registry r).types := by
    have called := stage.types_before.mem (List.mem_map_of_mem member)
    rwa [registryPass_types] at called
  exact ⟨(ofPass it member).store reach inRange (reach.contains inRange listed),
    (ofPass it member).faithful reach⟩

/-- A pass over a registry reloads the types that the registry had when it was called, each once and
in their order, whatever happens in between. It answers when the last of them has ended, and not
before; then its report accounts for all of them. -/
theorem Reach.reloadAll_complete (reach : Reach {} e before)
    (course : Course e (.reloadAll r) f past) :
    (∃ todo, (e.world.registry r).types =
        (passReloads e.waits.length past).map PassReload.type ++ todo ∧
      (todo = [] → f.waits = e.waits ∧ ∃ report, lastReply past = some (.passed report) ∧
        report.Accounts (passReloads e.waits.length past) ∧
        report.totalRecords = (report.loaded.map LoadedType.records).foldl (· + ·) 0) ∧
      ∀ type rest, todo = type :: rest → ∃ above load pass,
        f.waits = above ++ .load load :: e.waits ∧ load.purpose = .pass type pass ∧
        (e.world.registry r).store? type = some load.store) ∧
    (e.world.registry r).types.Pairwise (fun a b => (a == b) = false) ∧
    ∀ it ∈ passReloads e.waits.length past,
      (e.world.registry r).store? it.type = some it.load.store ∧ it.Faithful := by
  have inRange : r < e.world.registries.length := course.known
  obtain ⟨progress, stage, stands, reloads⟩ :=
    reach.registryPass_stages course inRange rfl (World.turn_nextReload _ _)
  have whole := registryPass_types e.world r .registry
  refine ⟨?_, (reach.holds inRange).distinct, reloads⟩
  cases stage with
  | @reloading load type rest report purpose all left accounts =>
    rw [whole] at all
    refine ⟨_, all, fun nothing => absurd nothing (List.cons_ne_nil _ _), ?_⟩
    rintro _ _ ⟨⟩
    cases stands with
    | @waiting above own waits =>
      -- The store was found when its turn came, so it was there when the pass began.
      have member : .load load ∈ f.waits := by simp [waits]
      have linked := (reach.trans course.reach).linked.waits _ member
      have found := (linked.pass load type _ rfl purpose).2
      have listed : type ∈ (e.world.registry r).types := by simp [all]
      have known := reach.contains inRange listed
      exact ⟨above, load, _, waits, purpose,
        (course.reach.registry_grows inRange).found_before known found⟩
  | telling round all accounts => cases round
  | @answered report failures all accounts =>
    rw [whole] at all
    refine ⟨[], by rw [all, List.append_nil], ?_, nofun⟩
    intro _
    cases stands with
    | answered waits last =>
      refine ⟨waits, report, last, accounts, ?_⟩
      rw [Report.totalRecords, List.foldl_map]

def twoTypes : List Move :=
  [.call (.makeRegistry (.text "items")), .call (.ensure 0 itemType 0),
    .call (.ensure 0 twinType 1)]

/-- The first loader of a pass installs a third type, and the second one ends abruptly. -/
def contained : List Move :=
  [.call (.reloadAll 0), .call (.ensure 0 ⟨2, "Late", "", .number, []⟩ 2),
    .loaded (.done [goodItem]), .loaded (.faulted .unspoken)]

theorem contained_reported : ∃ report,
    lastReply ((({} : Engine).run twoTypes).trail contained) = some (.passed report) ∧
      report.loaded = [⟨"Item", 1⟩] ∧
      report.failed = [⟨"Item", "panicked: (non-string panic)"⟩] ∧ report.totalRecords = 1 := by
  have plays : ({} : Engine).Plays twoTypes := by decide
  have course : Course (({} : Engine).run twoTypes) (.reloadAll 0)
      ((({} : Engine).run twoTypes).run contained)
      ((({} : Engine).run twoTypes).trail contained) :=
    .next (.next (.next (.begun (by decide)) (by decide) (by decide)) (by decide) (by decide))
      (by decide) (by decide)
  obtain ⟨⟨todo, all, finished, _⟩, _⟩ := (reach_run plays).reloadAll_complete course
  have whole : [itemType, twinType] = [itemType, twinType] ++ todo := all
  obtain ⟨_, report, last, accounts, total⟩ := finished (List.self_eq_append_right.mp whole)
  have loaded : report.loaded = [⟨"Item", 1⟩] := accounts.loaded
  refine ⟨report, last, loaded, accounts.failed, ?_⟩
  rw [total, loaded]
  rfl

end Engine

end LiveTables
