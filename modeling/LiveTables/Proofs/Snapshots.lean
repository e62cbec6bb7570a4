import LiveTables.Proofs.Filling
import LiveTables.Proofs.Live
import LiveTables.Proofs.Publication

namespace LiveTables

/-- The holder of a snapshot of a table lists ids in it by hand. -/
def Call.WritesTo (s : StoreId) (number : Nat) : Call → Prop
  | .applyToGeneration t m _ | .listInGeneration t m _ _ => t = s ∧ m = number
  | _ => False

def Move.WritesTo (s : StoreId) (number : Nat) : Move → Prop
  | .call c => c.WritesTo s number
  | _ => False

instance (s : StoreId) (number : Nat) : (c : Call) → Decidable (c.WritesTo s number)
  | .applyToGeneration t m _ | .listInGeneration t m _ _ =>
    inferInstanceAs (Decidable (t = s ∧ m = number))
  | .makeStore .. | .makeRegistry _ | .makeHub | .makeCoordinator .. | .makeBound .. | .reload _
  | .registerIndex .. | .append .. | .ensure .. | .ensureBinding .. | .reloadAll _ | .register ..
  | .notify _ | .queue .. | .initialLoad _ | .refresh _ => inferInstanceAs (Decidable False)

instance (s : StoreId) (number : Nat) : (move : Move) → Decidable (move.WritesTo s number)
  | .call c => inferInstanceAs (Decidable (c.WritesTo s number))
  | .loaded _ | .heard _ | .found _ => inferInstanceAs (Decidable False)

namespace Store

/-- The generations of a store have falling numbers, and no list of the current one has an id
twice. -/
structure Tidy (it : Store) : Prop where
  falling : ((it.current :: it.retired).map Generation.number).Pairwise (· > ·)
  once : ∀ key, (it.current.index.ids key).Nodup

variable {it : Store} {plans : List Plan} {n number : Nat} {g : Generation}
  {change : Generation → Generation}

/-- Retired generations have lower numbers. -/
theorem Tidy.behind (tidy : it.Tidy) (old : g ∈ it.retired) : g.number < it.current.number :=
  List.rel_of_pairwise_cons tidy.falling (List.mem_map_of_mem old)

/-- The current generation is looked at first. -/
theorem generation?_eq (it : Store) (n : Nat) : it.generation? n =
    if it.current.number = n then some it.current else it.retired.find? (·.number = n) := by
  by_cases here : it.current.number = n
  · simp [generation?, here]
  · simp [generation?, here]

theorem generation?_current (it : Store) : it.generation? it.current.number = some it.current := by
  rw [generation?_eq, if_pos rfl]

theorem number_of_generation? (taken : it.generation? n = some g) : g.number = n := by
  simpa using List.find?_some taken

theorem Tidy.le_number (tidy : it.Tidy) (taken : it.generation? n = some g) :
    n ≤ it.current.number := by
  obtain rfl := number_of_generation? taken
  rcases List.mem_cons.mp (List.mem_of_find?_eq_some taken) with rfl | old
  · exact Nat.le_refl _
  · exact Nat.le_of_lt (tidy.behind old)

theorem generations_updateGeneration (it : Store) (number : Nat)
    (change : Generation → Generation) :
    (it.updateGeneration number change).current :: (it.updateGeneration number change).retired =
      (it.current :: it.retired).map fun g => if g.number = number then change g else g := rfl

/-- A change that leaves numbers alone reaches the generation that it is meant for. -/
theorem generation?_updateGeneration (it : Store) (number n : Nat)
    (numbers : ∀ g, (change g).number = g.number) :
    (it.updateGeneration number change).generation? n =
      (it.generation? n).map fun g => if g.number = number then change g else g := by
  have same (g : Generation) : (if g.number = number then change g else g).number = g.number := by
    split
    · exact numbers g
    · rfl
  rw [generation?, generations_updateGeneration, List.find?_map]
  simp only [Function.comp_def, same]
  rfl

theorem generation?_setCurrent (it : Store) {next : Generation}
    (same : next.number = it.current.number) (n : Nat) : { it with current := next }.generation? n =
      if it.current.number = n then some next else it.generation? n := by
  rw [generation?_eq, generation?_eq]
  by_cases here : it.current.number = n
  · simp [same, here]
  · simp [same, here]

/-- A publication takes a number that no generation had. -/
theorem generation?_replaceCurrent (it : Store) {next : Generation}
    (number : next.number = it.current.number + 1) (le : n ≤ it.current.number) :
    (it.replaceCurrent next).generation? n = it.generation? n := by
  have other : next.number ≠ n := by omega
  rw [generation?_eq, replaceCurrent, if_neg other]
  rfl

theorem Tidy.setCurrent (tidy : it.Tidy) {next : Generation} (gains : it.current.Gains next) :
    { it with current := next }.Tidy where
  falling := by
    rw [List.map_cons, gains.number]
    exact tidy.falling
  once := gains.index.nodup tidy.once

theorem Tidy.updateGeneration (tidy : it.Tidy) (number : Nat)
    (gains : ∀ g : Generation, g.Gains (change g)) : (it.updateGeneration number change).Tidy := by
  have gained := Generation.Gains.atNumber gains number
  refine ⟨?_, (gained it.current).index.nodup tidy.once⟩
  rw [generations_updateGeneration, List.map_map]
  simpa only [Function.comp_def, (gained _).number] using tidy.falling

/-- A publication takes the next number, above all earlier ones. -/
theorem Tidy.conclude (tidy : it.Tidy) (plan : Plan) (outcome : Outcome (List Record)) :
    (it.conclude plan outcome).1.Tidy := by
  rcases it.conclude_cases plan outcome with
    ⟨batch, index, _, _, _, run⟩ | ⟨_, _, run⟩ | ⟨_, _, run⟩
  · have filled := filled_conclude run
    rw [run]
    refine ⟨?_, filled.nodup fun _ => List.nodup_nil⟩
    -- The new number is above the last one, and so above all.
    refine List.pairwise_cons.mpr ⟨?_, tidy.falling⟩
    intro n member
    obtain ⟨g, held, rfl⟩ := List.mem_map.mp member
    rcases List.mem_cons.mp held with rfl | old
    · exact Nat.lt_succ_self _
    · exact Nat.lt_succ_of_lt (tidy.behind old)
  · rw [run]
    exact ⟨tidy.falling, tidy.once⟩
  · rw [run]
    exact tidy

/-- Stores are tidy in every run. -/
theorem Live.tidy (live : it.Live plans) : it.Tidy := by
  induction live with
  | fresh isFresh =>
    obtain ⟨type, location, loader, rfl⟩ := isFresh
    exact ⟨List.pairwise_singleton _ _, fun _ => List.nodup_nil⟩
  | begun _ ih => exact ih
  | concluded outcome _ ih => exact ih.conclude _ outcome
  | @registered it _ d _ ih =>
    have gained := ih.setCurrent (it.current.gains_applyIndex it.recordType d)
    exact ⟨gained.falling, gained.once⟩
  | appended _ _ _ _ ih => exact ih.setCurrent (Generation.gains_insertKey _ _ _)
  | applied number d _ ih =>
    exact ih.updateGeneration number fun g => g.gains_applyIndex _ d
  | listed number key id _ ih => exact ih.updateGeneration number fun g => g.gains_insertKey key id

/-- A snapshot of a store goes on as a snapshot of the next state of the store: it gains at most,
and nothing at all if it is not current and its holder leaves it alone. -/
def Carries (it next : Store) (number : Nat) (written : Prop) : Prop :=
  ∀ g, it.generation? number = some g → ∃ h, next.generation? number = some h ∧ g.Gains h ∧
    (number < it.current.number → ¬written → h = g)

theorem Carries.refl (it : Store) (number : Nat) (written : Prop) : it.Carries it number written :=
  fun g taken => ⟨g, taken, .refl g, fun _ _ => rfl⟩

theorem carries_setCurrent (it : Store) {next : Generation} (gains : it.current.Gains next)
    (number : Nat) (written : Prop) : it.Carries { it with current := next } number written := by
  intro g taken
  rw [it.generation?_setCurrent gains.number]
  by_cases here : it.current.number = number
  · subst here
    obtain rfl := Option.some.inj (it.generation?_current.symm.trans taken)
    exact ⟨next, if_pos rfl, gains, fun behind => absurd behind (Nat.lt_irrefl _)⟩
  · exact ⟨g, by rw [if_neg here, taken], .refl g, fun _ _ => rfl⟩

theorem carries_updateGeneration (it : Store) (m : Nat)
    (gains : ∀ g : Generation, g.Gains (change g)) (number : Nat) :
    it.Carries (it.updateGeneration m change) number (m = number) := by
  intro g taken
  have own := number_of_generation? taken
  rw [it.generation?_updateGeneration m number fun g => (gains g).number, taken]
  by_cases here : m = number
  · refine ⟨change g, ?_, gains g, fun _ untouched => absurd here untouched⟩
    rw [Option.map_some, if_pos (own.trans here.symm)]
  · refine ⟨g, ?_, .refl g, fun _ _ => rfl⟩
    rw [Option.map_some, if_neg (own ▸ Ne.symm here)]

/-- A call reaches the current generation only, unless it is the holder's own. -/
theorem carries_call (s : StoreId) (it : Store) (c : Call) (number : Nat) :
    it.Carries (c.change s it) number (c.WritesTo s number) := by
  unfold Call.change
  split
  · split
    · exact it.carries_setCurrent (it.current.gains_applyIndex it.recordType _) number _
    · exact .refl it number _
  · split
    · exact it.carries_setCurrent (it.current.gains_insertKey _ _) number _
    · exact .refl it number _
  · rename_i t m d
    split
    · rename_i same
      simpa only [Call.WritesTo, same, true_and] using
        it.carries_updateGeneration m (fun g => g.gains_applyIndex it.recordType d) number
    · exact .refl it number _
  · rename_i t m key id
    split
    · rename_i same
      simpa only [Call.WritesTo, same, true_and] using
        it.carries_updateGeneration m (fun g => g.gains_insertKey key id) number
    · exact .refl it number _
  · exact .refl it number _

theorem Tidy.carries_conclude (tidy : it.Tidy) (plan : Plan) (outcome : Outcome (List Record))
    (number : Nat) (written : Prop) :
    it.Carries (it.conclude plan outcome).1 number written := by
  intro g taken
  refine ⟨g, ?_, .refl g, fun _ _ => rfl⟩
  rcases it.conclude_cases plan outcome with
    ⟨batch, index, _, _, _, run⟩ | ⟨_, _, run⟩ | ⟨_, _, run⟩
  · rw [run]
    exact (it.generation?_replaceCurrent rfl (tidy.le_number taken)).trans taken
  · rw [run]
    exact taken
  · rw [run]
    exact taken

/-- Whatever the move is, and whatever calls wait. -/
theorem Tidy.carries_move (tidy : it.Tidy) (s : StoreId) (move : Move) (waits : List Wait)
    (number : Nat) : it.Carries (move.change s it waits) number (move.WritesTo s number) := by
  unfold Move.change
  split
  · exact carries_call s it _ number
  · split
    · exact tidy.carries_conclude _ _ number _
    · exact .refl it number _
  · exact .refl it number _

end Store

namespace Engine

variable {e f : Engine} {past later : List (Engine × Move)} {s : StoreId} {n : Nat} {g : Generation}

theorem Reach.tidy (reach : Reach {} e past) (inRange : s < e.world.stores.length) :
    (e.world.store s).Tidy := (reach.live inRange).tidy

/-- A snapshot goes on as a snapshot in the whole of a run. As long as it is current, its lists can
grow at their ends; once another generation has taken its place, nothing that is done to the table
reaches it any more. -/
theorem Reach.carries (reach : Reach {} e past) (inRange : s < e.world.stores.length)
    (goesOn : Reach e f later) (number : Nat) :
    (e.world.store s).Carries (f.world.store s) number
      (∃ made ∈ later, made.2.WritesTo s number) := by
  induction goesOn with
  | start => exact .refl _ number _
  | @next f later move goesOn known ih =>
    intro g taken
    obtain ⟨h, then_, gains, same⟩ := ih g taken
    have sound := (reach.trans goesOn).sound
    have bound := Nat.lt_of_lt_of_le inRange (goesOn.length_le reach.sound)
    have tidy := (reach.trans goesOn).tidy bound
    obtain ⟨last, now, more, same'⟩ := tidy.carries_move s move f.waits number h then_
    rw [step_store sound known bound]
    refine ⟨last, now, gains.trans more, fun behind untouched => ?_⟩
    -- Numbers of current generations never fall, so a snapshot that is behind stays behind.
    have behind' : number < (f.world.store s).current.number := by
      have numbers := goesOn.number_eq reach.sound inRange
      omega
    rw [same' behind' fun written => untouched ⟨_, List.mem_cons_self, written⟩]
    exact same behind fun ⟨made, member, written⟩ =>
      untouched ⟨made, List.mem_cons_of_mem _ member, written⟩

theorem Reach.recordType_eq (goesOn : Reach e f later) (sound : e.Sound)
    (inRange : s < e.world.stores.length) :
    (f.world.store s).recordType = (e.world.store s).recordType := by
  have type := congrArg Store.recordType (goesOn.origin_eq sound inRange)
  exact type

/-- Until the next publication, the current generation only gains. -/
theorem Reach.current_gains (reach : Reach {} e past) (inRange : s < e.world.stores.length)
    (goesOn : Reach e f later) (unpublished : publications s later = []) :
    (e.world.store s).current.Gains (f.world.store s).current := by
  obtain ⟨h, taken, gains, _⟩ := reach.carries inRange goesOn _ _ (Store.generation?_current _)
  have number := goesOn.number_eq reach.sound inRange
  rw [unpublished, List.length_nil, Nat.add_zero] at number
  rw [← number, Store.generation?_current] at taken
  obtain rfl := Option.some.inj taken
  exact gains

theorem step_append (sound : e.Sound) (inRange : s < e.world.stores.length) (index : String)
    (id : RecordId) (values : List Value) :
    (e.step (.call (.append s index id values))).1.world.store s =
      ((e.world.store s).append index id values).1 := by
  have known : (Move.call (.append s index id values)).Known e.world := inRange
  rw [step_store sound known inRange]
  exact if_pos rfl

/-- An appended id is found, once, until the next publication. -/
theorem Reach.appended_listed (reach : Reach {} e past) (inRange : s < e.world.stores.length)
    {index : String} {id : RecordId} {values : List Value}
    (goesOn : Reach (e.step (.call (.append s index id values))).1 f later)
    (unpublished : publications s later = []) :
    ((f.world.store s).indexIds index values).count id = 1 := by
  have known : (Move.call (.append s index id values)).Known e.world := inRange
  have reach' := reach.next known
  have bound := Nat.lt_of_lt_of_le inRange (length_step_le reach.sound known)
  have gains := reach'.current_gains bound goesOn unpublished
  have type := goesOn.recordType_eq reach'.sound bound
  rw [step_append reach.sound inRange] at gains type
  have bound' := Nat.lt_of_lt_of_le bound (goesOn.length_le reach'.sound)
  have once := ((reach'.trans goesOn).tidy bound').once
  have listed : id ∈ (f.world.store s).indexIds index values := by
    rw [Store.indexIds, type]
    refine (gains.index.ids_prefix _).subset (IndexTable.mem_ids_insert.mpr ?_)
    exact Or.inr ⟨rfl, rfl⟩
  rw [Store.indexIds, (once _).count]
  exact if_pos listed

/-- What snapshots of a table show from a state of a run on. -/
structure SnapshotsKept (e : Engine) (s : StoreId) : Prop where
  /-- A snapshot that is taken now is the current generation, and numbers tell snapshots apart. -/
  taken : (e.world.store s).generation? (e.world.store s).current.number =
    some (e.world.store s).current
  apart : (((e.world.store s).current :: (e.world.store s).retired).map
    Generation.number).Pairwise (· > ·)
  /-- However the run goes on, a snapshot keeps its number, its records and their look-up; its lists
  grow only at their ends, and no key disappears. -/
  kept : ∀ n g, (e.world.store s).generation? n = some g → ∀ f later, Reach e f later →
    ∃ h, (f.world.store s).generation? n = some h ∧ h.number = g.number ∧
      h.records = g.records ∧ (∀ id, h.get? id = g.get? id) ∧
      ∀ key, g.index.ids key <+: h.index.ids key ∧
        (g.index.containsKey key = true → h.index.containsKey key = true)
  /-- A publication puts the current generation behind. -/
  superseded : ∀ f later, Reach e f later → publications s later ≠ [] →
    (e.world.store s).current.number < (f.world.store s).current.number
  /-- Behind the current generation, a snapshot changes only by what its own holder lists in it. -/
  settled : ∀ n g, (e.world.store s).generation? n = some g →
    n < (e.world.store s).current.number → ∀ f later, Reach e f later →
    (∀ made ∈ later, ¬made.2.WritesTo s n) → (f.world.store s).generation? n = some g
  /-- An appended id stays, once, until the next publication, and is not appended again. -/
  appended : ∀ index id values f later,
    Reach (e.step (.call (.append s index id values))).1 f later → publications s later = [] →
    ((f.world.store s).indexIds index values).count id = 1 ∧
      (f.step (.call (.append s index id values))).2 = some (.flag false)

/-- Snapshots are fixed but for what is added to them while they are current. -/
theorem Reach.snapshots_kept (reach : Reach {} e past) (inRange : s < e.world.stores.length) :
    e.SnapshotsKept s where
  taken := Store.generation?_current _
  apart := (reach.tidy inRange).falling
  kept n g taken f later goesOn := by
    obtain ⟨h, then_, gains, _⟩ := reach.carries inRange goesOn n g taken
    exact ⟨h, then_, gains.number, gains.records, gains.get?_eq,
      fun key => ⟨gains.ids_prefix key, gains.index.containsKey⟩⟩
  superseded f later goesOn published := by
    have number := goesOn.number_eq reach.sound inRange
    have some := List.length_pos_iff.mpr published
    omega
  settled n g taken behind f later goesOn untouched := by
    obtain ⟨h, then_, _, same⟩ := reach.carries inRange goesOn n g taken
    have unwritten : ¬∃ made ∈ later, made.2.WritesTo s n := by
      rintro ⟨made, member, written⟩
      exact untouched made member written
    rw [then_, same behind unwritten]
  appended index id values f later goesOn unpublished := by
    have once := reach.appended_listed inRange goesOn unpublished
    refine ⟨once, ?_⟩
    have listed : id ∈ (f.world.store s).indexIds index values := by
      rw [← List.count_pos_iff, once]
      exact Nat.one_pos
    have again : ((f.world.store s).append index id values).2 = false := by
      rw [Store.append_snd, IndexTable.lists, Bool.not_eq_false', decide_eq_true_iff]
      exact listed
    simp only [step_call, World.begin, again]
    rfl

/-- A table whose first generation was added to and then replaced. -/
def superseding : List Move :=
  [.call (.makeStore itemType (.text "items") 0), .call (.reload 0),
    .loaded (.done [⟨.number 1, []⟩]), .call (.append 0 "kind" (.number 7) [.text "axe"]),
    .call (.reload 0), .loaded (.done [⟨.number 2, []⟩])]

/-- What is appended and registered afterwards goes into the second generation alone. -/
theorem superseded_settled : ((({} : Engine).run (superseding ++
      [.call (.append 0 "kind" (.number 8) [.text "axe"]),
        .call (.registerIndex 0 (.constant "kind" [.text "axe"])), .call (.reload 0),
        .loaded (.faulted .unspoken)])).world.store 0).generation? 1 =
    some (.ofRecords 1 [⟨.number 1, []⟩] ⟨[("Item&kind#axe", [.number 7])]⟩ (by decide)) := by
  have plays : ({} : Engine).Plays superseding := by decide
  have kept := (reach_run plays).snapshots_kept (s := 0) (by decide)
  have goesOn : (({} : Engine).run superseding).Plays
      [.call (.append 0 "kind" (.number 8) [.text "axe"]),
        .call (.registerIndex 0 (.constant "kind" [.text "axe"])), .call (.reload 0),
        .loaded (.faulted .unspoken)] := by decide
  rw [run_append]
  exact kept.settled 1 _ rfl (by decide) _ _ (reach_run goesOn) (by decide)

end Engine

end LiveTables
