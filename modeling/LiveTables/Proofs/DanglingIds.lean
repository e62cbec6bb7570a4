import LiveTables.Proofs.Publication

namespace LiveTables

namespace Generation

variable {type : RecordType} {d : IndexDef} {g : Generation} {key : String} {id : RecordId}

/-- Applying a definition lists nothing but ids of records, also if it ends abruptly. -/
theorem mem_ids_listAll {table : IndexTable RecordId} {rs : List Record}
    (listed : id ∈ (listAll type d table rs).1.ids key) :
    id ∈ table.ids key ∨ id ∈ rs.map Record.id := by
  induction rs generalizing table with
  | nil => exact Or.inl listed
  | cons r rest ih =>
    unfold listAll at listed
    split at listed
    · exact Or.inl listed
    · exact (ih listed).imp_right (List.mem_cons_of_mem _)
    · rcases ih listed with before | later
      · rcases IndexTable.mem_ids_insert.mp before with old | ⟨_, rfl⟩
        · exact Or.inl old
        · exact Or.inr List.mem_cons_self
      · exact Or.inr (List.mem_cons_of_mem _ later)

/-- A record is found under a key if its own id is listed there and finds it. -/
theorem mem_resolve {r : Record} :
    r ∈ g.resolve key ↔ r.id ∈ g.index.ids key ∧ g.get? r.id = some r := by
  rw [resolve, List.mem_filterMap]
  constructor
  · rintro ⟨id, listed, found⟩
    obtain rfl := (mem_of_get? found).2
    exact ⟨listed, found⟩
  · rintro ⟨listed, found⟩
    exact ⟨r.id, listed, found⟩

/-- The records found under a key stand in the order of the ids that find them. -/
theorem map_id_resolve (g : Generation) (key : String) :
    (g.resolve key).map Record.id = (g.index.ids key).filter fun id => (g.get? id).isSome := by
  unfold resolve
  induction g.index.ids key with
  | nil => rfl
  | cons id rest ih =>
    cases found : g.get? id with
    | none => simp [found, ih]
    | some r => simp [found, ih, (mem_of_get? found).2]

/-- Where every listed id has a record, none is passed over. -/
theorem length_resolve (whole : ∀ id ∈ g.index.ids key, g.get? id ≠ none) :
    (g.resolve key).length = (g.index.ids key).length := by
  have kept : (g.index.ids key).filter (fun id => (g.get? id).isSome) = g.index.ids key :=
    List.filter_eq_self.mpr fun id listed => Option.isSome_iff_ne_none.mpr (whole id listed)
  rw [← List.length_map Record.id, map_id_resolve, kept]

theorem head?_resolve (g : Generation) (key : String) :
    (g.resolve key).head? = (g.index.ids key).findSome? g.get? := List.head?_filterMap

end Generation

namespace Store

/-- The first record found is that of the first id that has one. -/
theorem findUnique_eq (it : Store) (index : String) (values : List Value) :
    it.findUnique index values = (it.indexIds index values).findSome? it.get? :=
  it.current.head?_resolve _

/-- An id dangles in a store if the current generation lists it under a key and has no record for
it. -/
structure Dangles (it : Store) (key : String) (id : RecordId) : Prop where
  listed : id ∈ it.current.index.ids key
  absent : it.get? id = none

variable {it next : Store} {key : String} {id : RecordId}

theorem mem_ids_updateGeneration {number : Nat} {change : Generation → Generation}
    (listed : id ∈ (it.updateGeneration number change).current.index.ids key) :
    id ∈ it.current.index.ids key ∨ id ∈ (change it.current).index.ids key := by
  dsimp only [updateGeneration] at listed
  split at listed
  · exact Or.inr listed
  · exact Or.inl listed

theorem Rests.get?_eq (rests : it.Rests next) (id : RecordId) : next.get? id = it.get? id := by
  have records : next.current.records = it.current.records := rests.all
  rw [get?, get?, Generation.get?_eq_find?, Generation.get?_eq_find?, records]

/-- A reload that does not publish leaves the current generation alone, its table included. -/
theorem Rests.current_conclude {plan : Plan} {outcome : Outcome (List Record)}
    (rests : it.Rests (it.conclude plan outcome).1) :
    (it.conclude plan outcome).1.current = it.current := by
  rcases it.conclude_cases plan outcome with ⟨_, _, _, _, _, run⟩ | ⟨_, _, run⟩ | ⟨_, _, run⟩
  · have retired := rests.retired
    rw [run] at retired
    exact absurd retired (Nat.succ_ne_self _)
  · rw [run]
    rfl
  · rw [run]

end Store

namespace Engine

variable {e : Engine} {past : List (Engine × Move)} {s : StoreId} {key : String} {id : RecordId}

/-- A move appends an id to an index of a store, or without values to the index of its whole type,
under a key that did not list it before. -/
def Appended (s : StoreId) (key : String) (id : RecordId) (made : Engine × Move) : Prop :=
  ∃ index values, made.2 = .call (.append s index id values) ∧
    (made.1.world.store s).recordType.key index values = key ∧
    ((made.1.world.store s).append index id values).2 = true

/-- A move lists an id past the store, in the table of one of its snapshots. -/
def WrittenPast (s : StoreId) (key : String) (id : RecordId) (made : Engine × Move) : Prop :=
  ∃ number, made.2 = .call (.listInGeneration s number key id)

/-- A new id in a list of the current generation is that of a record, or listed by the call. -/
theorem mem_ids_call (c : Call)
    (listed : id ∈ (c.change s (e.world.store s)).current.index.ids key) :
    id ∈ (e.world.store s).current.index.ids key ∨ id ∈ (e.world.store s).all.map Record.id ∨
      Appended s key id (e, .call c) ∨ WrittenPast s key id (e, .call c) := by
  -- The calls that list something on their own store, and all the others in the last case.
  unfold Call.change at listed
  split at listed
  · split at listed
    · exact (Generation.mem_ids_listAll listed).imp_right Or.inl
    · exact Or.inl listed
  · rename_i t index x values
    split at listed
    · rename_i same
      subst same
      by_cases old : id ∈ (e.world.store t).current.index.ids key
      · exact Or.inl old
      · obtain ⟨rfl, rfl⟩ := (IndexTable.mem_ids_insert.mp listed).resolve_left old
        have new : ((e.world.store t).append index id values).2 = true := by
          rw [Store.append_snd, IndexTable.lists, decide_eq_false old, Bool.not_false]
        exact Or.inr (Or.inr (Or.inl ⟨index, values, rfl, rfl, new⟩))
    · exact Or.inl listed
  · split at listed
    · rcases Store.mem_ids_updateGeneration listed with old | applied
      · exact Or.inl old
      · exact (Generation.mem_ids_listAll applied).imp_right Or.inl
    · exact Or.inl listed
  · rename_i t number k x
    split at listed
    · rename_i same
      subst same
      rcases Store.mem_ids_updateGeneration listed with old | written
      · exact Or.inl old
      · rcases IndexTable.mem_ids_insert.mp written with old | ⟨rfl, rfl⟩
        · exact Or.inl old
        · exact Or.inr (Or.inr (Or.inr ⟨number, rfl⟩))
    · exact Or.inl listed
  · exact Or.inl listed

/-- After a publication nothing dangles. After any other move, what dangles did so before, or the
move listed it. -/
theorem step_dangles {move : Move} (sound : e.Sound) (known : move.Known e.world)
    (inRange : s < e.world.stores.length)
    (dangles : ((e.step move).1.world.store s).Dangles key id) :
    e.published? s move = none ∧ ((e.world.store s).Dangles key id ∨
      Appended s key id (e, move) ∨ WrittenPast s key id (e, move)) := by
  obtain ⟨listed, absent⟩ := dangles
  rcases step_publication sound known inRange with
    ⟨nothing, rests⟩ | ⟨load, rest, batch, _, top, rfl, rfl, accepted, _, _⟩
  · rw [rests.get?_eq] at absent
    have before (old : id ∈ (e.world.store s).current.index.ids key) :
        (e.world.store s).Dangles key id ∨
          Appended s key id (e, move) ∨ WrittenPast s key id (e, move) :=
      Or.inl ⟨old, absent⟩
    refine ⟨nothing, ?_⟩
    rw [step_store sound known inRange] at listed
    unfold Move.change at listed
    split at listed
    · rcases mem_ids_call _ listed with old | own | byHand
      · exact before old
      · exact absurd own (Generation.get?_eq_none_iff.mp absent)
      · exact Or.inr byHand
    · rename_i top
      split at listed
      · rename_i same
        subst same
        rw [step_concludes sound top] at rests
        exact before (rests.current_conclude ▸ listed)
      · exact before listed
    · exact before listed
  · -- The new table lists only what definitions asked for on the batch.
    obtain ⟨index, added, run⟩ := Store.conclude_of_accepts accepted
    rw [step_concludes sound top, run] at listed absent
    rcases (added key id).mp listed with old | ⟨r, inBatch, rfl, _⟩
    · cases old
    · exact absurd (List.mem_map_of_mem inBatch) (Generation.get?_eq_none_iff.mp absent)

/-- The moves of a run since the last publication to a store, or all of them if there is none. -/
def sincePublished (s : StoreId) (past : List (Engine × Move)) : List (Engine × Move) :=
  past.takeWhile fun made => (made.1.published? s made.2).isNone

theorem sincePublished_cons_of_none {move : Move} (nothing : e.published? s move = none) :
    sincePublished s ((e, move) :: past) = (e, move) :: sincePublished s past := by
  simp [sincePublished, nothing]

/-- What dangles was listed by hand since the last publication. -/
theorem Reach.dangles (reach : Reach {} e past) (inRange : s < e.world.stores.length)
    (dangles : (e.world.store s).Dangles key id) :
    ∃ made ∈ sincePublished s past, Appended s key id made ∨ WrittenPast s key id made := by
  induction reach with
  | start => exact absurd inRange (Nat.not_lt_zero s)
  | @next e past move reach known ih =>
    have sound := reach.sound
    by_cases old : s < e.world.stores.length
    · obtain ⟨nothing, before | now⟩ := step_dangles sound known old dangles
      · obtain ⟨made, since, byHand⟩ := ih old before
        rw [sincePublished_cons_of_none nothing]
        exact ⟨made, List.mem_cons_of_mem _ since, byHand⟩
      · rw [sincePublished_cons_of_none nothing]
        exact ⟨(e, move), List.mem_cons_self, now⟩
    · obtain ⟨type, location, loader, fresh⟩ :=
        step_new_store sound known inRange (Nat.le_of_not_lt old)
      have listed := dangles.listed
      rw [fresh] at listed
      cases listed

/-- What the lists of a store find after a run, in which certain moves came after the last
publication to it. -/
structure Resolves (e : Engine) (s : StoreId) (since : List (Engine × Move)) : Prop where
  /-- Unless a snapshot's table was written to past the store, only appends list an id without a
  record. -/
  appended : ∀ key id, (e.world.store s).Dangles key id →
    (∀ made ∈ since, ¬WrittenPast s key id made) → ∃ made ∈ since, Appended s key id made
  /-- A look-up passes over the ids without a record and keeps the order of the others. -/
  ids : ∀ index values, ((e.world.store s).findByIndex index values).map Record.id =
    ((e.world.store s).indexIds index values).filter fun id => ((e.world.store s).get? id).isSome
  records : ∀ index values, ∀ r ∈ (e.world.store s).findByIndex index values,
    r ∈ (e.world.store s).all ∧ (e.world.store s).get? r.id = some r
  /-- Without ids by hand under the key it passes over none. -/
  length : ∀ index values,
    (∀ made ∈ since, ∀ id, ¬Appended s ((e.world.store s).recordType.key index values) id made ∧
      ¬WrittenPast s ((e.world.store s).recordType.key index values) id made) →
    ((e.world.store s).findByIndex index values).length =
      ((e.world.store s).indexIds index values).length
  /-- The first of the records is the one that the first id with a record finds. -/
  unique : ∀ index values r, (e.world.store s).findUnique index values = some r ↔
    ∃ before after, (e.world.store s).indexIds index values = before ++ r.id :: after ∧
      (e.world.store s).get? r.id = some r ∧ ∀ id ∈ before, (e.world.store s).get? id = none
  someUnique : ∀ index values, ((e.world.store s).findUnique index values).isSome = true ↔
    ∃ id ∈ (e.world.store s).indexIds index values, ((e.world.store s).get? id).isSome = true

/-- Only appends make ids dangle, and only until the next publication; all other listed ids find
records of their own generation. -/
theorem Reach.resolves (reach : Reach {} e past) (inRange : s < e.world.stores.length) :
    e.Resolves s (sincePublished s past) where
  appended key id dangles unwritten := by
    obtain ⟨made, since, appended | written⟩ := reach.dangles inRange dangles
    · exact ⟨made, since, appended⟩
    · exact absurd written (unwritten made since)
  ids index values := Generation.map_id_resolve _ _
  records index values r found := by
    obtain ⟨_, own⟩ := Generation.mem_resolve.mp found
    exact ⟨(Generation.mem_of_get? own).1, own⟩
  length index values unlisted := by
    refine Generation.length_resolve fun id listed absent => ?_
    obtain ⟨made, since, byHand⟩ := reach.dangles inRange ⟨listed, absent⟩
    obtain ⟨unappended, unwritten⟩ := unlisted made since id
    exact byHand.elim unappended unwritten
  unique index values r := by
    rw [Store.findUnique_eq, List.findSome?_eq_some_iff]
    constructor
    · rintro ⟨before, id, after, split, found, earlier⟩
      obtain rfl := (Generation.mem_of_get? found).2
      exact ⟨before, after, split, found, earlier⟩
    · rintro ⟨before, after, split, found, earlier⟩
      exact ⟨before, r.id, after, split, found, earlier⟩
  someUnique index values := by
    rw [Store.findUnique_eq, List.isSome_findSome?, List.any_eq_true]

/-- Ids without a record are appended in three generations, the second time while a reload is under
way. The reload of the third one is refused. -/
def danglingThrice : List Move :=
  [.call (.makeStore itemType (.text "items") 0),
    .call (.append 0 "kind" (.number 6) [.text "axe"]), .call (.reload 0),
    .loaded (.done [⟨.number 1, []⟩]), .call (.reload 0),
    .call (.append 0 "kind" (.number 7) [.text "axe"]),
    .call (.registerIndex 0 (.constant "all" [.null])), .loaded (.done [⟨.number 2, []⟩]),
    .call (.append 0 "kind" (.number 8) [.text "axe"]),
    .call (.append 0 "kind" (.number 2) [.text "axe"]), .call (.reload 0),
    .loaded (.faulted .unspoken)]

/-- Of these ids the last one is left, and it stands before one that finds a record. -/
theorem third_left :
    ((({} : Engine).run danglingThrice).world.store 0).indexIds "kind" [.text "axe"] =
      [.number 8, .number 2] ∧
    (∃ made ∈ sincePublished 0 (({} : Engine).trail danglingThrice),
      Appended 0 "Item&kind#axe" (.number 8) made) ∧
    ((({} : Engine).run danglingThrice).world.store 0).findUnique "kind" [.text "axe"] =
      some ⟨.number 2, []⟩ := by
  have plays : ({} : Engine).Plays danglingThrice := by decide
  have resolves := (reach_run plays).resolves (s := 0) (by decide)
  refine ⟨by decide, ?_, ?_⟩
  · refine resolves.appended _ _ ⟨by decide, by decide⟩ ?_
    rintro made since ⟨number, written⟩
    have member := mem_trail ((List.takeWhile_sublist _).mem since)
    simp [written, danglingThrice] at member
  · exact (resolves.unique _ _ _).mpr ⟨[.number 8], [], by decide, by decide, by decide⟩

end Engine

end LiveTables
