import LiveTables.IndexDef.Fields
import LiveTables.Proofs.Conclusion
import LiveTables.Proofs.StoreStep

namespace LiveTables

namespace Store

/-- A store has not been published to: it shows the same records under the same number. -/
structure Rests (it next : Store) : Prop where
  all : next.all = it.all
  number : next.current.number = it.current.number
  reloads : next.reloads = it.reloads
  retired : next.retired.length = it.retired.length

theorem Rests.refl (it : Store) : it.Rests it := ⟨rfl, rfl, rfl, rfl⟩

theorem rests_updateGeneration (it : Store) (number : Nat) {change : Generation → Generation}
    (records : ∀ g, (change g).records = g.records) (numbers : ∀ g, (change g).number = g.number) :
    it.Rests (it.updateGeneration number change) := by
  refine ⟨?_, ?_, rfl, List.length_map _⟩
  · by_cases same : it.current.number = number
    · simp [all, updateGeneration, same, records]
    · simp [all, updateGeneration, same]
  · by_cases same : it.current.number = number
    · simp [updateGeneration, same, numbers]
    · simp [updateGeneration, same]

theorem rests_call (s : StoreId) (it : Store) (c : Call) : it.Rests (c.change s it) := by
  rcases c.change_cases s it with same | ⟨d, change⟩ | ⟨index, id, values, change⟩ |
    ⟨number, d, change⟩ | ⟨number, key, id, change⟩
  · rw [same]
    exact .refl it
  · rw [change]
    exact ⟨rfl, rfl, rfl, rfl⟩
  · rw [change]
    exact ⟨rfl, rfl, rfl, rfl⟩
  · rw [change]
    exact it.rests_updateGeneration _ (fun _ => rfl) (fun _ => rfl)
  · rw [change]
    exact it.rests_updateGeneration _ (fun _ => rfl) (fun _ => rfl)

end Store

namespace Generation

/-- Every record of a generation is found by its id, and nothing else is. -/
theorem get?_eq_some_iff {g : Generation} {id : RecordId} {r : Record} :
    g.get? id = some r ↔ r ∈ g.records ∧ r.id = id := by
  constructor
  · exact mem_of_get?
  · rintro ⟨member, rfl⟩
    obtain ⟨before, after, whole⟩ := List.append_of_mem member
    have distinct := g.distinct
    rw [whole, List.map_append, List.map_cons, List.nodup_append] at distinct
    rw [get?_eq_find?]
    refine List.find?_eq_some_iff_append.mpr ⟨by simp, before, after, whole, ?_⟩
    intro q earlier
    have apart := distinct.2.2 q.id (List.mem_map_of_mem earlier) r.id List.mem_cons_self
    simpa using apart

end Generation

/-- What a store shows when its reloads have published certain batches, the latest first. -/
structure Store.Serves (it : Store) (published : List (List Record)) : Prop where
  all : it.all = published.headD []
  distinct : (it.all.map Record.id).Nodup
  get : ∀ id r, it.get? id = some r ↔ r ∈ it.all ∧ r.id = id
  size : it.current.size = it.all.length
  records : it.stats.records = it.all.length
  number : it.current.number = published.length
  generation : it.stats.generation = published.length
  reloads : it.stats.reloads = published.length

namespace Store

variable {it next : Store} {published : List (List Record)}

theorem Serves.of (all : it.all = published.headD [])
    (number : it.current.number = published.length) (reloads : it.reloads = published.length) :
    it.Serves published where
  all := all
  distinct := it.current.distinct
  get _ _ := Generation.get?_eq_some_iff
  size := rfl
  records := rfl
  number := number
  generation := number
  reloads := reloads

theorem IsFresh.serves (fresh : it.IsFresh) : it.Serves [] := by
  obtain ⟨type, location, loader, rfl⟩ := fresh
  exact .of rfl rfl rfl

theorem Serves.of_rests (serves : it.Serves published) (rests : it.Rests next) :
    next.Serves published :=
  .of (rests.all.trans serves.all) (rests.number.trans serves.number)
    (rests.reloads.trans serves.reloads)

theorem Serves.publish (serves : it.Serves published) {batch : List Record}
    (index : IndexTable RecordId) (distinct : (batch.map Record.id).Nodup) :
    (it.replaceCurrent (.ofRecords (it.current.number + 1) batch index distinct)).Serves
      (batch :: published) := by
  have number : it.current.number + 1 = (batch :: published).length := by
    rw [serves.number, List.length_cons]
  have reloads : it.reloads + 1 = (batch :: published).length :=
    congrArg (· + 1) serves.reloads
  exact .of rfl number reloads

end Store

namespace Engine

/-- The batch that a move publishes to a store, if it retires the generation that was current. -/
def published? (e : Engine) (s : StoreId) (move : Move) : Option (List Record) :=
  match move, e.waits with
  | .loaded (.done batch), .load load :: _ =>
    if load.store = s ∧ (e.world.store s).retired.length <
      ((e.step move).1.world.store s).retired.length then some batch else none
  | _, _ => none

/-- The batches that the moves of a run have published to a store, the latest first. -/
def publications (s : StoreId) (past : List (Engine × Move)) : List (List Record) :=
  past.filterMap fun made => made.1.published? s made.2

variable {start e : Engine} {past : List (Engine × Move)} {move : Move}

theorem published?_eq_none {s : StoreId}
    (rests : (e.world.store s).Rests ((e.step move).1.world.store s)) :
    e.published? s move = none := by
  unfold published?
  split
  · exact if_neg fun ⟨_, grown⟩ => Nat.ne_of_gt grown rests.retired
  · rfl

/-- A move publishes the whole batch that a loader gave under the next number, or leaves the
records alone. -/
theorem step_publication (sound : e.Sound) (known : move.Known e.world) {s : Nat}
    (inRange : s < e.world.stores.length) :
    (e.published? s move = none ∧ (e.world.store s).Rests ((e.step move).1.world.store s)) ∨
    ∃ load rest batch index, e.waits = .load load :: rest ∧ load.store = s ∧
      move = .loaded (.done batch) ∧ ∃ accepted : (e.world.store s).Accepts load.plan batch,
      e.published? s move = some batch ∧ (e.step move).1.world.store s =
        (e.world.store s).replaceCurrent
          (.ofRecords ((e.world.store s).current.number + 1) batch index accepted.distinct) := by
  have after := step_store sound known inRange
  have resting (rests : (e.world.store s).Rests (move.change s (e.world.store s) e.waits)) :
      e.published? s move = none ∧ (e.world.store s).Rests ((e.step move).1.world.store s) := by
    rw [← after] at rests
    exact ⟨published?_eq_none rests, rests⟩
  rcases move.change_cases s (e.world.store s) e.waits with
    same | ⟨c, change⟩ | ⟨load, rest, outcome, top, same, rfl, change⟩
  · exact Or.inl (resting (by rw [same]; exact .refl _))
  · exact Or.inl (resting (by rw [change]; exact Store.rests_call s _ c))
  -- Only the end of a reload can retire a generation, and only if it accepts its batch.
  · rcases (e.world.store s).conclude_cases load.plan outcome with
      ⟨batch, index, rfl, accepted, _, run⟩ | ⟨_, _, run⟩ | ⟨_, _, run⟩
    · rw [change, run] at after
      refine Or.inr ⟨load, rest, batch, index, top, same, rfl, accepted, ?_, after⟩
      unfold published?
      rw [top, after]
      exact if_pos ⟨same, Nat.lt_succ_self _⟩
    · exact Or.inl (resting (by rw [change, run]; exact ⟨rfl, rfl, rfl, rfl⟩))
    · exact Or.inl (resting (by rw [change, run]; exact .refl _))

theorem published?_of_new (sound : e.Sound) {s : Nat} (new : e.world.stores.length ≤ s) :
    e.published? s move = none := by
  unfold published?
  split
  · rename_i load rest top
    refine if_neg ?_
    rintro ⟨rfl, _⟩
    exact absurd (sound.top_within top).store (Nat.not_lt_of_le new)
  · rfl

theorem publications_cons (s : StoreId) (e : Engine) (move : Move) (past : List (Engine × Move)) :
    publications s ((e, move) :: past) = (e.published? s move).toList ++ publications s past := by
  cases published : e.published? s move with
  | none => simp [publications, published]
  | some batch => simp [publications, published]

theorem Reach.publications_of_new (reach : Reach start e past) (sound : start.Sound) {s : Nat}
    (new : e.world.stores.length ≤ s) : publications s past = [] := by
  induction reach with
  | start => rfl
  | @next e past move reach known ih =>
    have sound := reach.sound_of sound
    have earlier := Nat.le_trans (length_step_le sound known) new
    rw [publications_cons, published?_of_new sound earlier, ih earlier]
    rfl

/-- The number of a store's generation counts its publications, from whatever state on. -/
theorem Reach.number_eq (reach : Reach start e past) (sound : start.Sound) {s : Nat}
    (inRange : s < start.world.stores.length) : (e.world.store s).current.number =
      (start.world.store s).current.number + (publications s past).length := by
  induction reach with
  | start => rfl
  | @next e past move reach known ih =>
    have bound := Nat.lt_of_lt_of_le inRange (reach.length_le sound)
    rcases step_publication (reach.sound_of sound) known bound with
      ⟨nothing, rests⟩ | ⟨load, rest, batch, index, _, _, _, _, published, after⟩
    · rw [publications_cons, nothing, rests.number, ih]
      rfl
    · rw [publications_cons, published, after, List.length_append]
      simp only [Store.replaceCurrent, Generation.number_ofRecords, ih, Option.toList_some,
        List.length_singleton]
      omega

theorem Reach.serves (reach : Reach {} e past) {s : Nat} (inRange : s < e.world.stores.length) :
    (e.world.store s).Serves (publications s past) := by
  induction reach with
  | start => exact absurd inRange (Nat.not_lt_zero s)
  | @next e past move reach known ih =>
    have sound := reach.sound
    rw [publications_cons]
    by_cases old : s < e.world.stores.length
    · rcases step_publication sound known old with
        ⟨nothing, rests⟩ | ⟨load, rest, batch, index, _, _, _, accepted, published, after⟩
      · rw [nothing]
        exact (ih old).of_rests rests
      · rw [published, after]
        exact (ih old).publish index accepted.distinct
    · -- A store that this move makes: nothing can have been published to it.
      have new := Nat.le_of_not_lt old
      rw [published?_of_new sound new, reach.publications_of_new sound_empty new]
      exact (step_new_store sound known inRange new).serves

/-- A reload on top of the stack ends with a result exactly if it publishes. -/
theorem ends_done_iff (sound : e.Sound) {load : LoadWait} {rest : List Wait}
    (top : e.waits = .load load :: rest) {outcome : Outcome (List Record)} {n : Nat} :
    ((e.world.store load.store).conclude load.plan outcome).2 = .done n ↔
      ∃ batch, outcome = .done batch ∧ e.published? load.store (.loaded outcome) = some batch ∧
        n = batch.length := by
  have known := Move.known_loaded e.world outcome
  have after := step_concludes sound top outcome
  rw [Store.conclude_done_iff]
  rcases step_publication sound known (sound.top_within top).store with
    ⟨nothing, rests⟩ | ⟨other, _, batch, index, top', _, move, accepted, published, _⟩
  · constructor
    · rintro ⟨batch, rfl, accepted, _⟩
      -- An accepted batch retires a generation, and this move did not.
      obtain ⟨index, _, run⟩ := Store.conclude_of_accepts accepted
      have retired := rests.retired
      rw [after, run] at retired
      exact absurd retired (Nat.succ_ne_self _)
    · rintro ⟨batch, _, published, _⟩
      rw [nothing] at published
      cases published
  · obtain rfl := Move.loaded.inj move
    obtain ⟨same, _⟩ := List.cons.inj (top.symm.trans top')
    obtain rfl := Wait.load.inj same
    constructor
    · rintro ⟨_, given, _, size⟩
      obtain rfl := Outcome.done.inj given
      exact ⟨batch, rfl, published, size⟩
    · rintro ⟨_, given, _, size⟩
      obtain rfl := Outcome.done.inj given
      exact ⟨batch, rfl, accepted, size⟩

theorem step_reply {load : LoadWait} {rest : List Wait} (top : e.waits = .load load :: rest)
    (answer : load.purpose = .answer) (outcome : Outcome (List Record)) :
    (e.step (.loaded outcome)).2 =
      some (.reloaded ((e.world.store load.store).conclude load.plan outcome).2) := by
  obtain ⟨w, waits⟩ := e
  obtain rfl : waits = .load load :: rest := top
  simp only [step, World.loaded, answer, advance, World.concludeReload_outcome]

/-- Whatever was published last is shown whole, and numbered by the count of all publications. A
publication raises the number by one, and reloads that publish, and only these, answer with the
sizes of their own batches. -/
theorem Reach.last_publication_shown (reach : Reach {} e past) {s : Nat}
    (inRange : s < e.world.stores.length) :
    (e.world.store s).Serves (publications s past) ∧
    (∀ move batch, move.Known e.world → e.published? s move = some batch →
      ((e.step move).1.world.store s).current.number = (e.world.store s).current.number + 1 ∧
        ((e.step move).1.world.store s).all = batch) ∧
    ∀ load rest, e.waits = .load load :: rest → load.store = s → ∀ outcome n,
      (((e.world.store s).conclude load.plan outcome).2 = .done n ↔
        ∃ batch, outcome = .done batch ∧ e.published? s (.loaded outcome) = some batch ∧
          n = batch.length) ∧
      (load.purpose = .answer → (e.step (.loaded outcome)).2 =
        some (.reloaded ((e.world.store s).conclude load.plan outcome).2)) := by
  refine ⟨reach.serves inRange, ?_, ?_⟩
  · intro move batch known published
    rcases step_publication reach.sound known inRange with
      ⟨nothing, _⟩ | ⟨_, _, other, index, _, _, _, _, published', after⟩
    · rw [nothing] at published
      cases published
    · obtain rfl := Option.some.inj (published.symm.trans published')
      rw [after]
      exact ⟨rfl, rfl⟩
  · rintro load rest top rfl outcome n
    exact ⟨ends_done_iff reach.sound top, fun answer => step_reply top answer outcome⟩

/-- The reload that began first publishes last. -/
theorem overtaken_shown :
    ((({} : Engine).run (overtaken (.never "kind") [⟨.number 1, []⟩]
      [⟨.number 2, []⟩, ⟨.number 3, []⟩])).world.store 0).Serves
      [[⟨.number 2, []⟩, ⟨.number 3, []⟩], [⟨.number 1, []⟩]] := by
  have plays : ({} : Engine).Plays (overtaken (.never "kind") [⟨.number 1, []⟩]
      [⟨.number 2, []⟩, ⟨.number 3, []⟩]) := by decide
  have published : publications 0 (({} : Engine).trail (overtaken (.never "kind")
      [⟨.number 1, []⟩] [⟨.number 2, []⟩, ⟨.number 3, []⟩])) =
      [[⟨.number 2, []⟩, ⟨.number 3, []⟩], [⟨.number 1, []⟩]] := by decide
  rw [← published]
  exact ((reach_run plays).last_publication_shown (by decide)).1

end Engine

end LiveTables
