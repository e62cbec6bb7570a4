import Mathlib.Data.List.Perm.Basic
import LiveTables.Proofs.FreeLookup
import LiveTables.Proofs.LaterListing
import LiveTables.Proofs.Snapshots

namespace LiveTables

namespace Store

variable {it next : Store} {plan : Plan} {batch : List Record} {d : IndexDef}

/-- A store shows a batch as a build of it with all definitions of the store would, but for the
order within lists. -/
structure Shows (it : Store) (batch : List Record) : Prop where
  all : it.all = batch
  distinct : (batch.map Record.id).Nodup
  answered : ∀ d ∈ it.definitions, ∀ r ∈ batch, d.Answers r
  lists : Generation.Lists it.recordType it.definitions batch it.current.index

theorem publishing_subset (planned : plan.indexes ⊆ it.definitions) :
    it.publishing plan ⊆ it.definitions := by
  intro d member
  rcases List.mem_append.mp member with inPlan | late
  · exact planned inPlan
  · split at late
    · cases late
    · exact List.mem_append_right _ late

/-- A publication goes through a build with the definitions of its plan, and through later
applications if the plan is out of date. -/
theorem conclude_stages {n : Nat} (published : it.conclude plan (.done batch) = (next, .done n)) :
    ∃ built, Generation.build it.recordType batch plan.indexes = .done built ∧
      ∃ last, (if it.epoch = plan.epoch then
        .done { built with number := it.current.number + 1 } else
          Generation.applyIndexes it.recordType { built with number := it.current.number + 1 }
            it.dynamic) = .done last ∧ next.current = last := by
  unfold conclude at published
  split at published
  · rename_i built whole
    refine ⟨built, whole, ?_⟩
    unfold publish at published
    dsimp only at published
    split at published
    · rename_i last applied
      obtain rfl := (Prod.mk.inj published).1
      exact ⟨last, applied, rfl⟩
    · cases published
    · cases published
  · cases published
  · cases published

/-- A publication shows its batch, if its plan holds none but definitions of the store. -/
theorem shows_conclude (fits : it.Fits plan) (planned : plan.indexes ⊆ it.definitions)
    (accepted : it.Accepts plan batch) : (it.conclude plan (.done batch)).1.Shows batch := by
  obtain ⟨index, _, run⟩ := conclude_of_accepts accepted
  obtain ⟨built, whole, last, applied, current⟩ := conclude_stages run
  have same (d : IndexDef) : d ∈ it.publishing plan ↔ d ∈ it.definitions :=
    ⟨fun member => publishing_subset planned member, fits.mem_publishing⟩
  have records := Generation.records_build whole
  rw [run]
  refine ⟨rfl, accepted.distinct, fun d member => accepted.answered d ((same d).mpr member), ?_⟩
  have lists : Generation.Lists it.recordType (it.publishing plan) batch last.index := by
    have first := Generation.lists_build whole
    rw [publishing]
    split at applied
    · rename_i inTime
      obtain rfl := Outcome.done.inj applied
      rw [if_pos inTime, List.append_nil]
      exact first
    · rename_i late
      rw [if_neg late]
      subst records
      exact first.applyIndexes { built with number := it.current.number + 1 } applied
  rw [← current] at lists
  exact lists.congr same

theorem Shows.accepts (shows : it.Shows batch) (planned : plan.indexes ⊆ it.definitions) :
    it.Accepts plan batch :=
  ⟨shows.distinct, fun d member => shows.answered d (publishing_subset planned member)⟩

/-- Definitions and lists stay as they are. -/
theorem Shows.of_same (shows : it.Shows batch) (type : next.recordType = it.recordType)
    (current : next.current = it.current) (dynamic : next.dynamic = it.dynamic) :
    next.Shows batch := by
  obtain ⟨all, distinct, answered, lists⟩ := shows
  have definitions : next.definitions = it.definitions := by
    rw [Store.definitions, Store.definitions, type, dynamic]
  refine ⟨?_, distinct, definitions ▸ answered, ?_⟩
  · rw [Store.all, current]
    exact all
  · rw [type, current, definitions]
    exact lists

/-- A new name comes last. -/
theorem replaceDef_of_new {ds : List IndexDef} (new : ∀ e ∈ ds, e.name ≠ d.name) :
    replaceDef d ds = ds ++ [d] := by
  induction ds with
  | nil => rfl
  | cons first rest ih =>
    obtain ⟨other, others⟩ := List.forall_mem_cons.mp new
    rw [replaceDef, if_neg other, ih others, List.cons_append]

/-- A definition under a new name comes to stand behind all others. -/
theorem Shows.registerIndex (shows : it.Shows batch) (new : ∀ e ∈ it.dynamic, e.name ≠ d.name)
    (answers : ∀ r ∈ batch, d.Answers r) : (it.registerIndex d).1.Shows batch := by
  obtain ⟨rfl, distinct, answered, lists⟩ := shows
  have definitions : (it.registerIndex d).1.definitions = it.definitions ++ [d] := by
    rw [Store.definitions, Store.definitions, List.append_assoc, ← replaceDef_of_new new]
    rfl
  have whole : (Generation.listAll it.recordType d it.current.index it.all).2 = none := by
    rcases Generation.listAll_cases it.recordType d it.current.index it.all with
      ⟨whole, _⟩ | ⟨fault, _, r, inBatch, faulted⟩
    · exact whole
    · exact absurd faulted ((answers r inBatch).ne_error fault)
  refine ⟨rfl, distinct, ?_, ?_⟩
  · rw [definitions]
    exact List.forall_mem_append.mpr ⟨answered, fun e member => by
      rw [List.mem_singleton.mp member]
      exact answers⟩
  · rw [definitions]
    exact lists.listAll distinct whole

/-- The table that a store shows comes from an empty one by insertions. -/
theorem Live.filled {plans : List Plan} (live : it.Live plans) :
    ({} : IndexTable RecordId).Filled it.current.index := by
  induction live with
  | fresh isFresh =>
    obtain ⟨type, location, loader, rfl⟩ := isFresh
    exact .start
  | begun _ ih => exact ih
  | @concluded it plan _ outcome _ ih =>
    rcases it.conclude_cases plan outcome with
      ⟨_, _, _, _, _, run⟩ | ⟨_, _, run⟩ | ⟨_, _, run⟩
    · have published := filled_conclude run
      rw [run]
      exact published
    · rw [run]
      exact ih
    · rw [run]
      exact ih
  | @registered it _ d _ ih => exact ih.trans (it.current.gains_applyIndex it.recordType d).index
  | @appended it _ _ _ _ _ ih => exact ih.trans (it.current.gains_insertKey _ _).index
  | @applied it _ number d _ ih =>
    have gained := Generation.Gains.atNumber (fun g => g.gains_applyIndex it.recordType d)
    exact ih.trans (gained number it.current).index
  | @listed it _ number key id _ ih =>
    have gained := Generation.Gains.atNumber (fun g => g.gains_insertKey key id)
    exact ih.trans (gained number it.current).index

/-- A plan that is not out of date is the plan of a reload that begins now. -/
theorem Fits.eq_plan (fits : it.Fits plan) (inTime : plan.epoch = it.epoch) : plan = it.plan := by
  have indexes := fits.current inTime.symm
  cases plan
  subst inTime indexes
  rfl

/-- A later state of a store answers as an earlier one does, but for the order of ids and records
that are listed together. -/
structure Repeats (it next : Store) : Prop where
  get : ∀ id, next.get? id = it.get? id
  all : next.all = it.all
  ids : ∀ index values, (next.indexIds index values).Perm (it.indexIds index values)
  found : ∀ index values, (next.findByIndex index values).Perm (it.findByIndex index values)
  sameOrder : ∀ index values, next.indexIds index values = it.indexIds index values →
    next.findByIndex index values = it.findByIndex index values
  keys : ∀ key, next.current.index.containsKey key = it.current.index.containsKey key
  stats : next.stats = { it.stats with
    generation := it.stats.generation + 1, reloads := it.stats.reloads + 1 }
  definitions : next.definitions = it.definitions

/-- A batch that is shown already makes no difference when it is published again, except to the
order of what is listed together: a definition that was applied later listed its records behind the
others, and a build puts them in load order. -/
theorem Shows.repeats {plans : List Plan} (shows : it.Shows batch)
    (live : it.Live (plan :: plans)) (planned : plan.indexes ⊆ it.definitions) :
    it.Repeats (it.conclude plan (.done batch)).1 := by
  have accepted := shows.accepts planned
  have after := shows_conclude (live.fits plan List.mem_cons_self) planned accepted
  have liveAfter := live.concluded (.done batch)
  obtain ⟨index, _, run⟩ := conclude_of_accepts accepted
  rw [run] at after liveAfter ⊢
  have records : it.current.records = batch := shows.all
  have get (id : RecordId) : (it.replaceCurrent (.ofRecords (it.current.number + 1) batch index
      accepted.distinct)).get? id = it.get? id := by
    rw [Store.get?, Store.get?, Generation.get?_eq_find?, Generation.get?_eq_find?, records]
    rfl
  -- Both tables list what the definitions ask for, so they differ in the order at most.
  have listed (key : String) (id : RecordId) :
      id ∈ index.ids key ↔ id ∈ it.current.index.ids key :=
    (after.lists.members key id).trans (shows.lists.members key id).symm
  obtain ⟨keys, size⟩ : (∀ key, index.containsKey key = it.current.index.containsKey key) ∧
      index.size = it.current.index.size :=
    (live.filled.proper IndexTable.proper_empty).same_keys
      (liveAfter.filled.proper IndexTable.proper_empty) listed
  have perm (key : String) : (index.ids key).Perm (it.current.index.ids key) :=
    (List.perm_ext_iff_of_nodup (liveAfter.tidy.once key) (live.tidy.once key)).mpr (listed key)
  have found (ids : List RecordId) :
      ids.filterMap (it.replaceCurrent (.ofRecords (it.current.number + 1) batch index
        accepted.distinct)).get? = ids.filterMap it.get? := by rw [funext get]
  constructor
  case get => exact get
  case all => exact records.symm
  case ids => exact fun name values => perm _
  case found =>
    intro name values
    have resolved := (perm (it.recordType.key name values)).filterMap it.get?
    rw [← found] at resolved
    exact resolved
  case sameOrder =>
    intro name values same
    have resolved := congrArg (List.filterMap it.get?) same
    rw [← found] at resolved
    exact resolved
  case keys => exact keys
  case stats =>
    simp only [Store.stats, replaceCurrent, Generation.size, Generation.number_ofRecords,
      Generation.records_ofRecords, Generation.index_ofRecords, records, size]
  case definitions => rfl

/-- A batch that is shown already is published again, and nothing but the order within lists can
change. -/
theorem Shows.again {plans : List Plan} (shows : it.Shows batch) (live : it.Live (plan :: plans))
    (planned : plan.indexes ⊆ it.definitions) :
    (it.conclude plan (.done batch)).2 = .done batch.length ∧
    ∀ next, next = (it.conclude plan (.done batch)).1 → it.Repeats next ∧
      (plan.epoch = it.epoch → ∀ key, next.current.index.ids key = it.current.index.ids key ↔
        (it.current.index.ids key).Sublist (batch.map Record.id)) ∧
      ∀ key, Generation.Agreed it.recordType it.definitions batch key →
        next.current.index.ids key = it.current.index.ids key := by
  have fits := live.fits plan List.mem_cons_self
  have accepted := shows.accepts planned
  have after := shows_conclude fits planned accepted
  obtain ⟨type, dynamic, _⟩ := it.conclude_keeps plan (.done batch)
  have definitions : (it.conclude plan (.done batch)).1.definitions = it.definitions := by
    rw [Store.definitions, Store.definitions, type, dynamic]
  have done : (it.conclude plan (.done batch)).2 = .done batch.length :=
    conclude_done_iff.mpr ⟨batch, rfl, accepted, rfl⟩
  have lists := after.lists
  rw [type, definitions] at lists
  refine ⟨done, ?_⟩
  rintro _ rfl
  refine ⟨shows.repeats live planned, fun inTime key => ?_, fun key agreed => ?_⟩
  · obtain rfl := fits.eq_plan inTime
    have loadOrder := Generation.asked_sublist it.recordType it.definitions batch key
    rw [← ids_conclude_plan done key] at loadOrder
    have listed (id : RecordId) := (lists.members key id).trans (shows.lists.members key id).symm
    refine ⟨fun same => same ▸ loadOrder, fun ordered => ?_⟩
    -- Two parts of a list without repetitions are the same if they have the same members.
    have perm := (List.perm_ext_iff_of_nodup (loadOrder.nodup shows.distinct)
      (ordered.nodup shows.distinct)).mpr listed
    exact (shows.distinct.perm_iff_eq_of_sublist loadOrder ordered).mp perm
  · exact (lists.ordered key agreed).trans (shows.lists.ordered key agreed).symm

end Store

namespace Engine

/-- A move leaves the current generation and the definitions of a store alone, or it registers with
it a definition under a new name that answers on all its records. -/
def OnlyRegisters (s : StoreId) (made : Engine × Move) : Prop :=
  let it := made.1.world.store s
  let next := (made.1.step made.2).1.world.store s
  (next.current = it.current ∧ next.dynamic = it.dynamic) ∨
    ∃ d, made.2 = .call (.registerIndex s d) ∧ (∀ e ∈ it.dynamic, e.name ≠ d.name) ∧
      ∀ r ∈ it.all, d.Answers r

variable {e f : Engine} {past later : List (Engine × Move)} {move : Move} {s : StoreId}
  {batch : List Record}

theorem step_shows (sound : e.Sound) (known : move.Known e.world)
    (inRange : s < e.world.stores.length) (only : OnlyRegisters s (e, move))
    (shows : (e.world.store s).Shows batch) :
    ((e.step move).1.world.store s).Shows batch := by
  rcases only with ⟨current, dynamic⟩ | ⟨d, rfl, new, answers⟩
  · have type := congrArg Store.recordType (step_origin sound known inRange)
    exact shows.of_same type current dynamic
  · rw [shows.all] at answers
    rw [step_store sound known inRange, Move.change, Call.change, if_pos rfl]
    exact shows.registerIndex new answers

/-- A table goes on showing its batch while definitions are only added to it. -/
theorem Reach.shows (goesOn : Reach e f later) (sound : e.Sound)
    (inRange : s < e.world.stores.length) (only : ∀ made ∈ later, OnlyRegisters s made)
    (shows : (e.world.store s).Shows batch) : (f.world.store s).Shows batch := by
  induction goesOn with
  | start => exact shows
  | next goesOn known ih =>
    obtain ⟨now, earlier⟩ := List.forall_mem_cons.mp only
    exact step_shows (goesOn.sound_of sound) known
      (Nat.lt_of_lt_of_le inRange (goesOn.length_le sound)) now (ih earlier)

/-- What a reload publishes whose plan has none but registered definitions is shown. -/
theorem Reach.shows_published (reach : Reach {} e past)
    (publishes : e.published? s (.loaded (.done batch)) = some batch)
    (planned : ∀ load rest, e.waits = .load load :: rest →
      load.plan.indexes ⊆ (e.world.store s).definitions) :
    s < e.world.stores.length ∧
      ((e.step (.loaded (.done batch))).1.world.store s).Shows batch := by
  have inRange : s < e.world.stores.length := by
    refine Nat.lt_of_not_le fun new => ?_
    rw [published?_of_new reach.sound new] at publishes
    cases publishes
  refine ⟨inRange, ?_⟩
  rcases step_publication reach.sound (Move.known_loaded _ (.done batch)) inRange with
    ⟨nothing, _⟩ | ⟨load, rest, _, _, top, rfl, move, accepted, _, _⟩
  · rw [publishes] at nothing
    cases nothing
  · obtain rfl := Outcome.done.inj (Move.loaded.inj move)
    have fits := (reach.live_top top).fits load.plan List.mem_cons_self
    rw [step_concludes reach.sound top]
    exact Store.shows_conclude fits (planned load rest top) accepted

/-- A batch that was published with none but registered definitions, and to which since then only
new definitions were applied, can be published again: the reload succeeds and changes no answer, but
for the order within lists. If no definition is registered while it runs, its lists stand in load
order, and so exactly those change that did not. A list whose definitions agree does not change. -/
theorem Reach.repeated (reach : Reach {} e past) {published : Engine}
    {before : List (Engine × Move)}
    (history : past = later ++ (published, .loaded (.done batch)) :: before)
    (publishes : published.published? s (.loaded (.done batch)) = some batch)
    (planned : ∀ load rest, published.waits = .load load :: rest →
      load.plan.indexes ⊆ (published.world.store s).definitions)
    (since : ∀ made ∈ later, OnlyRegisters s made) {again : LoadWait} {rest : List Wait}
    (top : e.waits = .load again :: rest) (own : again.store = s)
    (registered : again.plan.indexes ⊆ (e.world.store s).definitions) :
    ((e.world.store s).conclude again.plan (.done batch)).2 = .done batch.length ∧
    ∀ it next, it = e.world.store s →
      next = (e.step (.loaded (.done batch))).1.world.store s →
      it.Repeats next ∧
      (again.plan.epoch = it.epoch → ∀ key, next.current.index.ids key =
        it.current.index.ids key ↔ (it.current.index.ids key).Sublist (batch.map Record.id)) ∧
      ∀ key, Generation.Agreed it.recordType it.definitions batch key →
        next.current.index.ids key = it.current.index.ids key := by
  subst history own
  obtain ⟨earlier, known⟩ := reach.before_move
  have goesOn := reach.after_move.2
  obtain ⟨inRange, begun⟩ := earlier.shows_published publishes planned
  have sound := step_sound earlier.sound known
  have inRangeNext := Nat.lt_of_lt_of_le inRange (length_step_le earlier.sound known)
  have shows := goesOn.shows sound inRangeNext since begun
  have live := reach.live_top top
  obtain ⟨done, answers⟩ := shows.again live registered
  refine ⟨done, ?_⟩
  rintro it next rfl rfl
  exact answers _ (step_concludes reach.sound top (.done batch))

/-- A definition with the name of one that the type has. -/
def bySide : IndexDef := .byFields "kind" ["side"] none

def sided : List Record :=
  [⟨.number 1, [("side", .text "sword")]⟩, ⟨.number 2, [("main", .text "sword")]⟩]

/-- A definition is registered after its table was loaded, and the table is loaded again. -/
def loadedTwice : List Move :=
  [.call (.makeStore { itemType with indexes := [.byFields "kind" ["main"] none] }
      (.text "items") 0),
    .call (.reload 0), .loaded (.done sided), .call (.registerIndex 0 bySide), .call (.reload 0)]

theorem loaded_twice_stats :
    ((({} : Engine).run (loadedTwice ++ [.loaded (.done sided)])).world.store 0).stats =
      ⟨"Item", 2, 2, 1, 2, 0⟩ := by
  have plays : ({} : Engine).Plays loadedTwice := by decide
  have history : ({} : Engine).trail loadedTwice =
      [(({} : Engine).run (loadedTwice.take 4), .call (.reload 0)),
        (({} : Engine).run (loadedTwice.take 3), .call (.registerIndex 0 bySide))] ++
      (({} : Engine).run (loadedTwice.take 2), .loaded (.done sided)) ::
        ({} : Engine).trail (loadedTwice.take 2) := rfl
  have publishes : (({} : Engine).run (loadedTwice.take 2)).published? 0 (.loaded (.done sided)) =
      some sided := by decide
  have planned (load : LoadWait) (rest : List Wait)
      (top : (({} : Engine).run (loadedTwice.take 2)).waits = .load load :: rest) :
      load.plan.indexes ⊆
        ((({} : Engine).run (loadedTwice.take 2)).world.store 0).definitions := by
    cases top
    exact List.Subset.refl _
  have answers : ∀ r ∈ sided, bySide.Answers r :=
    List.forall_mem_cons.mpr ⟨⟨_, rfl⟩, List.forall_mem_singleton.mpr ⟨_, rfl⟩⟩
  obtain ⟨_, repeats⟩ := (reach_run plays).repeated history publishes planned
    (List.forall_mem_cons.mpr ⟨Or.inl ⟨rfl, rfl⟩, List.forall_mem_singleton.mpr
      (Or.inr ⟨bySide, rfl, List.forall_mem_nil _, answers⟩)⟩)
    rfl rfl (List.Subset.refl _)
  exact (repeats _ _ rfl rfl).1.stats

/-- A definition is replaced while a loader runs, and then the same batch is loaded again. -/
def replacedThenAgain : List Move :=
  [.call (.makeStore itemType (.text "items") 0),
    .call (.registerIndex 0 (.constant "kind" [.text "old"])), .call (.reload 0),
    .call (.registerIndex 0 (.never "kind")), .loaded (.done [⟨.number 1, []⟩]), .call (.reload 0)]

/-- Two ways in which an answer changes. A definition that was registered late lists a record behind
the others until the next reload, and what was listed for a definition that was replaced while the
loader ran is listed until then. -/
theorem reload_reorders :
    ({} : Engine).Plays loadedTwice ∧
    ((({} : Engine).run loadedTwice).world.store 0).indexIds "kind" [.text "sword"] =
      [.number 2, .number 1] ∧
    ((({} : Engine).run (loadedTwice ++ [.loaded (.done sided)])).world.store 0).indexIds
      "kind" [.text "sword"] = [.number 1, .number 2] ∧
    ({} : Engine).Plays replacedThenAgain ∧
    ((({} : Engine).run replacedThenAgain).world.store 0).indexIds "kind" [.text "old"] =
      [.number 1] ∧
    ((({} : Engine).run (replacedThenAgain ++ [.loaded (.done [⟨.number 1, []⟩])])).world.store
      0).indexIds "kind" [.text "old"] = [] :=
  ⟨by decide, by decide, by decide, by decide, by decide, by decide⟩

end Engine

end LiveTables
