import LiveTables.Proofs.CompletePass
import LiveTables.Proofs.CommonSteps
import LiveTables.Proofs.OneStore
import LiveTables.Proofs.Snapshots

namespace LiveTables.Engine

variable {a : StoreId} {e f : Engine} {move move' : Move} {common : CommonMove}
  {one two : List (Engine × Move)} {r : RegistryId} {type : RecordType}

theorem commonSteps_of_none (unseen : e.common? a move = none) (past : List (Engine × Move)) :
    commonSteps a ((e, move) :: past) = commonSteps a past := by
  simp only [commonSteps, unseen]

theorem commonSteps_of_some (seen : e.common? a move = some common) (past : List (Engine × Move)) :
    commonSteps a ((e, move) :: past) = commonStep common e move past :: commonSteps a past := by
  simp only [commonSteps, seen]

/-- Two engines agree beside the use of one store after runs that have done the same there. -/
structure Alike (a : StoreId) (one two : List (Engine × Move)) (e f : Engine) : Prop extends
    e.Agree a one two f where
  steps : List.Forall₂ (CommonStep.Agree fun it => it.load.store = a) (commonSteps a one)
    (commonSteps a two)

/-- A move of the first run that is seen in the one store only. -/
theorem Alike.left (alike : Alike a one two e f) (unseen : e.common? a move = none) :
    Alike a ((e, move) :: one) two (e.step move).1 f := by
  obtain ⟨world, waits⟩ := step_unseen unseen one
  refine ⟨⟨world.symm.trans alike.world, ?_⟩, ?_⟩
  · rw [waits]
    exact alike.waits
  · rw [commonSteps_of_none unseen]
    exact alike.steps

/-- A move of the second run that is seen in the one store only. -/
theorem Alike.right (alike : Alike a one two e f) (unseen : f.common? a move = none) :
    Alike a one ((f, move) :: two) e (f.step move).1 := by
  obtain ⟨world, waits⟩ := step_unseen unseen two
  refine ⟨⟨alike.world.trans world, ?_⟩, ?_⟩
  · rw [waits]
    exact alike.waits
  · rw [commonSteps_of_none unseen]
    exact alike.steps

/-- Two moves, one of each run, that are the same beside the use of the store. -/
theorem Alike.both (alike : Alike a one two e f) (seen : e.common? a move = some common)
    (seen' : f.common? a move' = some common) :
    Alike a ((e, move) :: one) ((f, move') :: two) (e.step move).1 (f.step move').1 := by
  obtain ⟨agree, last⟩ := step_common alike.toAgree seen seen'
  refine ⟨agree, ?_⟩
  rw [commonSteps_of_some seen, commonSteps_of_some seen']
  exact .cons last alike.steps

/-- The moves that two runs have in common beside the use of one store decide all that is done
there. -/
theorem Reach.alike (first : Reach {} e one) (second : Reach {} f two)
    (same : (commonSteps a one).map CommonStep.move = (commonSteps a two).map CommonStep.move) :
    Alike a one two e f := by
  induction first generalizing f two with
  | start =>
    induction second with
    | start => exact ⟨⟨.refl a _, .nil⟩, .nil⟩
    | @next f two move second known ih =>
      cases seen : f.common? a move with
      | none =>
        rw [commonSteps_of_none seen] at same
        exact (ih same).right seen
      | some common =>
        rw [commonSteps_of_some seen] at same
        cases same
  | @next e one move first known ih =>
    cases seen : e.common? a move with
    | none =>
      rw [commonSteps_of_none seen] at same
      exact (ih second same).left seen
    | some common =>
      -- The same move is made in the other run, perhaps before moves that are not seen.
      induction second with
      | start =>
        rw [commonSteps_of_some seen] at same
        cases same
      | @next f two move' second known' ih' =>
        cases seen' : f.common? a move' with
        | none =>
          rw [commonSteps_of_none seen'] at same
          exact (ih' same).right seen'
        | some common' =>
          rw [commonSteps_of_some seen, commonSteps_of_some seen'] at same
          obtain ⟨alike, earlier⟩ := List.cons.inj same
          obtain rfl : common = common' := alike
          exact (ih second earlier).both seen seen'

theorem mem_reloads {step : CommonStep} (member : step ∈ commonSteps a one) {it : PassReload}
    (own : it ∈ step.reloads) : ∃ level, it ∈ passReloads level one := by
  suffices ∃ level, ∃ made ∈ one, passReload? level made = some it by
    obtain ⟨level, made, inside, found⟩ := this
    exact ⟨level, List.mem_filterMap.mpr ⟨made, List.mem_reverse.mpr inside, found⟩⟩
  induction one with
  | nil => cases member
  | cons made past ih =>
    have earlier (member : step ∈ commonSteps a past) :
        ∃ level, ∃ made' ∈ made :: past, passReload? level made' = some it := by
      obtain ⟨level, made', inside, found⟩ := ih member
      exact ⟨level, made', List.mem_cons_of_mem _ inside, found⟩
    cases seen : made.1.common? a made.2 with
    | none =>
      rw [commonSteps_of_none seen] at member
      exact earlier member
    | some common =>
      rw [commonSteps_of_some seen] at member
      rcases List.mem_cons.mp member with rfl | member
      · obtain ⟨made', inside, found⟩ := List.mem_filterMap.mp own
        exact ⟨_, made', List.takeWhile_subset _ (List.mem_reverse.mp inside), found⟩
      · exact earlier member

/-- Whatever pass reloads the store of a type, it does so for this type. -/
theorem Reach.passReload_type (reach : Reach {} e one) (inRange : r < e.world.registries.length)
    (found : (e.world.registry r).store? type = some a) {level : Nat} {it : PassReload}
    (member : it ∈ passReloads level one) (own : it.load.store = a) : (type == it.type) = true := by
  obtain ⟨made, ⟨below, top⟩, pass, purpose⟩ := mem_passReloads member
  obtain ⟨_, prior, earlier⟩ := reach.of_mem made
  obtain ⟨later, onwards⟩ := reach.onwards made
  have linked := earlier.linked.waits _ (top ▸ List.mem_cons_self)
  obtain ⟨bound, there⟩ := linked.pass it.load it.type pass rfl purpose
  have before := (earlier.holds bound).recordType there
  have now := (reach.holds inRange).recordType found
  have kept := onwards.recordType_eq earlier.sound (earlier.sound.top_within top).store
  rw [own] at before kept
  rw [kept] at now
  exact BEq.trans (BEq.symm now) before

/-- Types do not interfere. Two runs differ at most in the direct use of the store of one type, in
what its loader gives and in how listeners end, wherever any of this is nested. Then every other
type of the registry has the same store in both, with the same contents in all its generations and
the same row of figures. All other moves have the same answers, and where these are reports, their
entries are the same for all reloads but those of the one type. -/
theorem Reach.types_apart (first : Reach {} e one) (second : Reach {} f two)
    (same : (commonSteps a one).map CommonStep.move = (commonSteps a two).map CommonStep.move)
    (inRange : r < e.world.registries.length)
    (found : (e.world.registry r).store? type = some a) :
    (∀ other, (type == other) = false →
      f.world.typedStore? r other = e.world.typedStore? r other ∧
      ∀ b, e.world.typedStore? r other = some b →
        b ≠ a ∧ f.world.store b = e.world.store b) ∧
    (∃ stores : List StoreId,
      (e.world.registry r).types.map (e.world.registry r).store? = stores.map some ∧
      e.world.registryStats r = stores.map (fun s => (e.world.store s).stats) ∧
      f.world.registryStats r = stores.map (fun s => (f.world.store s).stats) ∧
      ∀ s ∈ stores, s ≠ a → (f.world.store s).stats = (e.world.store s).stats) ∧
    List.Forall₂ (CommonStep.Agree fun it => type == it.type) (commonSteps a one)
      (commonSteps a two) := by
  have alike := first.alike second same
  have holds := first.holds inRange
  refine ⟨fun other apart => ⟨alike.world.typedStore r other, fun b typed => ?_⟩, ?_, ?_⟩
  · rw [typedStore?_eq holds] at typed
    have distinct : b ≠ a := by
      rintro rfl
      have one := holds.recordType found
      have another := holds.recordType typed
      rw [BEq.trans (BEq.symm one) another] at apart
      cases apart
    exact ⟨distinct, alike.world.store b distinct⟩
  · -- The registries are the same, so their rows are those of the same stores.
    obtain ⟨stores, rows, stats⟩ := holds.stats
    have inRange' : r < f.world.registries.length := alike.world.registries ▸ inRange
    obtain ⟨_, rows', stats'⟩ := (second.holds inRange').stats
    rw [alike.world.registry r, rows] at rows'
    obtain rfl := (List.map_inj_right fun _ _ => Option.some.inj).mp rows'
    exact ⟨stores, rows, stats, stats', fun s _ other => by rw [alike.world.store s other]⟩
  · -- What was left open for the store of the type was left open for the type.
    have ofType : ∀ step ∈ commonSteps a one, ∀ it ∈ step.reloads, it.load.store = a →
        (type == it.type) = true := by
      intro step member it own
      obtain ⟨level, listed⟩ := mem_reloads member own
      exact first.passReload_type inRange found listed
    refine ((List.forall₂_and_left _ _).mpr ⟨ofType, alike.steps⟩).imp ?_
    rintro x y ⟨ofType, agree⟩
    exact agree.imp ofType

/-- A pass over two types of the same name. -/
def calmPass : List Move :=
  twoTypes ++ [.call (.reloadAll 0), .loaded (.done [goodItem]), .loaded (.done [goodItem])]

/-- The same pass, after the first type has been reloaded in vain and changed, and with a loader of
this type that ends abruptly. -/
def disturbedPass : List Move :=
  twoTypes ++ [.call (.registerIndex 0 (.never "kind")), .call (.reload 0),
    .loaded (.failed (.io "gone")), .call (.append 0 "kind" (.number 7) []), .call (.reloadAll 0),
    .loaded (.faulted (.text "boom")), .loaded (.done [goodItem])]

theorem twin_undisturbed :
    let e := ({} : Engine).run calmPass
    let f := ({} : Engine).run disturbedPass
    (itemType == twinType) = false ∧ e.world.typedStore? 0 twinType = some 1 ∧
      f.world.store 1 = e.world.store 1 ∧ (f.world.store 1).all = [goodItem] ∧
      (f.world.store 0).stats ≠ (e.world.store 0).stats := by
  have calm : ({} : Engine).Plays calmPass := by decide
  have disturbed : ({} : Engine).Plays disturbedPass := by decide
  have found : ((({} : Engine).run calmPass).world.registry 0).store? itemType = some 0 := rfl
  have same : (commonSteps 0 (({} : Engine).trail calmPass)).map CommonStep.move =
      (commonSteps 0 (({} : Engine).trail disturbedPass)).map CommonStep.move := rfl
  obtain ⟨others, _⟩ := (reach_run calm).types_apart (reach_run disturbed) same (by decide) found
  have apart : (itemType == twinType) = false := by decide
  exact ⟨apart, rfl, ((others twinType apart).2 1 rfl).2, rfl, by decide⟩

end LiveTables.Engine
