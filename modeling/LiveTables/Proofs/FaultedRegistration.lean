import LiveTables.Proofs.LaterListing
import LiveTables.Proofs.RefusedReload
import LiveTables.Proofs.RegisteredIndexes

namespace LiveTables

namespace Generation

variable {type : RecordType} {d : IndexDef} {r : Record} {before after : List Record}
  {fault : Fault}

/-- The first record on which a definition does not answer ends its application, and those before
it are listed as if they were all. -/
theorem listAll_to_fault {table : IndexTable RecordId} (answers : ∀ q ∈ before, d.Answers q)
    (faulted : d.valuesFor r = .error fault) :
    listAll type d table (before ++ r :: after) =
      ((listAll type d table before).1, some fault) := by
  induction before generalizing table with
  | nil => simp [listAll, faulted]
  | cons q rest ih =>
    obtain ⟨⟨given, atRecord⟩, answers⟩ := List.forall_mem_cons.mp answers
    cases given with
    | none => simpa [listAll, atRecord] using ih answers
    | some values => simpa [listAll, atRecord] using ih answers

/-- If a definition does not answer on all records, there is a first one on which it does not. -/
theorem exists_first_silent {rs : List Record} (silent : ∃ r ∈ rs, ¬d.Answers r) :
    ∃ before r after fault, rs = before ++ r :: after ∧ (∀ q ∈ before, d.Answers q) ∧
      d.valuesFor r = .error fault := by
  have found : (rs.find? fun r => ¬d.Answers r).isSome = true := by simpa using silent
  obtain ⟨r, first⟩ := Option.isSome_iff_exists.mp found
  obtain ⟨offends, before, after, place, answers⟩ := List.find?_eq_some_iff_append.mp first
  cases atRecord : d.valuesFor r with
  | ok values => exact absurd ⟨values, atRecord⟩ (of_decide_eq_true offends)
  | error fault =>
    exact ⟨before, r, after, fault, place, by simpa using answers, atRecord⟩

end Generation

namespace Store

variable {d : IndexDef}

/-- What a registration has done to a store when it ends abruptly after some records: the
definition is registered, and these records are listed behind what was listed before. -/
structure HalfRegistered (it : Store) (d : IndexDef) (before : List Record) (next : Store) :
    Prop where
  changed : next = { it with
    dynamic := replaceDef d it.dynamic
    epoch := it.epoch + 1
    current := { it.current with index := next.current.index } }
  ids : ∀ key, next.current.index.ids key = it.current.index.ids key ++
    (Generation.asked it.recordType [d] before key).filter fun id =>
      id ∉ it.current.index.ids key

/-- A registration that ends abruptly on a record has listed the records before it and stays
registered. -/
theorem registerIndex_to_fault (it : Store) {before after : List Record} {r : Record}
    {fault : Fault} (place : it.all = before ++ r :: after)
    (answers : ∀ q ∈ before, d.Answers q) (faulted : d.valuesFor r = .error fault) :
    (it.registerIndex d).2 = some fault ∧ it.HalfRegistered d before (it.registerIndex d).1 := by
  have applied : Generation.listAll it.recordType d it.current.index it.current.records =
      ((Generation.listAll it.recordType d it.current.index before).1, some fault) := by
    rw [show it.current.records = _ from place]
    exact Generation.listAll_to_fault answers faulted
  have whole : (Generation.listAll it.recordType d it.current.index before).2 = none := by
    rcases Generation.listAll_cases it.recordType d it.current.index before with
      ⟨whole, _⟩ | ⟨other, _, q, inBefore, faulted⟩
    · exact whole
    · exact absurd faulted ((answers q inBefore).ne_error other)
  have distinct : (it.all.map Record.id).Nodup := it.current.distinct
  rw [place, List.map_append] at distinct
  have ids := Generation.ids_listAll (List.nodup_append.mp distinct).1 whole
  refine ⟨?_, rfl, fun key => ?_⟩
  · simp only [registerIndex, Generation.applyIndex, applied]
  · simpa only [registerIndex, Generation.applyIndex, applied] using ids key

end Store

/-- A move registers a definition of a name with a store. -/
def Move.Registers (s : StoreId) (name : String) : Move → Prop
  | .call (.registerIndex t d) => t = s ∧ d.name = name
  | _ => False

namespace Engine

variable {e f : Engine} {past later : List (Engine × Move)} {move : Move} {s : StoreId}
  {d : IndexDef}

theorem step_registered (sound : e.Sound) (known : move.Known e.world)
    (inRange : s < e.world.stores.length) (registered : d ∈ (e.world.store s).dynamic)
    (other : ¬move.Registers s d.name) : d ∈ ((e.step move).1.world.store s).dynamic := by
  rw [step_store sound known inRange]
  unfold Move.change
  split
  · unfold Call.change
    split
    · split
      · rename_i t new same
        exact Store.mem_replaceDef_of_ne registered fun name => other ⟨same, name.symm⟩
      · exact registered
    · split <;> exact registered
    · split <;> exact registered
    · split <;> exact registered
    · exact registered
  · split
    · rw [((e.world.store s).conclude_keeps _ _).2.1]
      exact registered
    · exact registered
  · exact registered

/-- A registered definition stays registered until another one takes its name. -/
theorem Reach.registered (goesOn : Reach e f later) (sound : e.Sound)
    (inRange : s < e.world.stores.length) (registered : d ∈ (e.world.store s).dynamic)
    (others : ∀ made ∈ later, ¬made.2.Registers s d.name) : d ∈ (f.world.store s).dynamic := by
  induction goesOn with
  | start => exact registered
  | @next f later move goesOn known ih =>
    obtain ⟨other, others⟩ := List.forall_mem_cons.mp others
    have bound := Nat.lt_of_lt_of_le inRange (goesOn.length_le sound)
    exact step_registered (goesOn.sound_of sound) known bound (ih others) other

/-- Every registered definition answers on the whole of a batch that is published. -/
theorem Reach.published_answers (reach : Reach {} e past) (inRange : s < e.world.stores.length)
    (registered : d ∈ (e.world.store s).dynamic) (known : move.Known e.world) {batch : List Record}
    (published : e.published? s move = some batch) : ∀ r ∈ batch, d.Answers r := by
  rcases step_publication reach.sound known inRange with
    ⟨nothing, _⟩ | ⟨load, rest, other, _, top, rfl, _, accepted, published', _⟩
  · cases nothing.symm.trans published
  · obtain rfl := Option.some.inj (published'.symm.trans published)
    have fits := (reach.live_top top).fits load.plan List.mem_cons_self
    exact accepted.answered d (fits.mem_publishing (List.mem_append_right _ registered))

/-- The call ends abruptly when the application does. -/
theorem reply_registerIndex (e : Engine) {fault : Fault}
    (faulted : ((e.world.store s).registerIndex d).2 = some fault) :
    (e.step (.call (.registerIndex s d))).2 = some (.faulted fault) := by
  have ended : e.world.registerIndex s d =
      (e.world.setStore s ((e.world.store s).registerIndex d).1, some fault) := by
    unfold World.registerIndex
    split
    · rename_i run
      rw [run] at faulted
      cases faulted
    · rename_i run
      rw [run] at faulted ⊢
      rw [Option.some.inj faulted]
  simp only [step_call, World.begin, ended]
  rfl

/-- A registration that ends abruptly is half done, and nothing takes it back. The definition is
registered, the records before the first one that it does not answer on are listed, and however the
run goes on, a reload publishes no batch that it does not answer on as a whole, unless another
definition has taken its name. -/
theorem Reach.registration_half_done (reach : Reach {} e past)
    (inRange : s < e.world.stores.length) (silent : ∃ r ∈ (e.world.store s).all, ¬d.Answers r) :
    ∃ before r after fault, (e.world.store s).all = before ++ r :: after ∧
      (∀ q ∈ before, d.Answers q) ∧ d.valuesFor r = .error fault ∧
      (e.step (.call (.registerIndex s d))).2 = some (.faulted fault) ∧
      (e.world.store s).HalfRegistered d before
        ((e.step (.call (.registerIndex s d))).1.world.store s) ∧
      (∀ t, t < e.world.stores.length → t ≠ s →
        (e.step (.call (.registerIndex s d))).1.world.store t = e.world.store t) ∧
      ∀ f later, Reach (e.step (.call (.registerIndex s d))).1 f later →
        (∀ made ∈ later, ¬made.2.Registers s d.name) → d ∈ (f.world.store s).dynamic ∧
          ∀ move batch, move.Known f.world → f.published? s move = some batch →
            ∀ q ∈ batch, d.Answers q := by
  have sound := reach.sound
  have known : (Move.call (.registerIndex s d)).Known e.world := inRange
  obtain ⟨before, r, after, fault, place, answers, faulted⟩ :=
    Generation.exists_first_silent silent
  obtain ⟨ended, half⟩ := (e.world.store s).registerIndex_to_fault place answers faulted
  have next : (e.step (.call (.registerIndex s d))).1.world.store s =
      ((e.world.store s).registerIndex d).1 := by
    rw [step_store sound known inRange]
    exact if_pos rfl
  refine ⟨before, r, after, fault, place, answers, faulted, reply_registerIndex e ended,
    by rw [next]; exact half, ?_, ?_⟩
  · intro t bound other
    rw [step_store sound known bound]
    exact if_neg (Ne.symm other)
  · intro f later goesOn others
    have reach' := reach.next known
    have inRange' := Nat.lt_of_lt_of_le inRange (length_step_le sound known)
    have begun : d ∈ ((e.step (.call (.registerIndex s d))).1.world.store s).dynamic := by
      rw [next]
      exact Store.self_mem_replaceDef d _
    have registered := goesOn.registered reach'.sound inRange' begun others
    have bound := Nat.lt_of_lt_of_le inRange' (goesOn.length_le reach'.sound)
    exact ⟨registered, fun move batch known published =>
      (reach'.trans goesOn).published_answers bound registered known published⟩

/-- A table of two records, the second of which a definition does not answer on. -/
def goodThenBad : List Move :=
  [.call (.makeStore itemType (.text "items") 0), .call (.reload 0),
    .loaded (.done [goodItem, badItem])]

/-- The first record is listed, and the second one can never be published again. -/
theorem half_done_for_good :
    ((({} : Engine).run (goodThenBad ++ [.call (.registerIndex 0 rejecting)])).world.store
      0).indexIds "kind" [.text "good"] = [.number 2] ∧
    ∀ f later, Reach (({} : Engine).run (goodThenBad ++ [.call (.registerIndex 0 rejecting)])) f
        later → (∀ made ∈ later, ¬made.2.Registers 0 "kind") →
      ∀ move batch, move.Known f.world → f.published? 0 move = some batch → badItem ∉ batch := by
  have plays : ({} : Engine).Plays goodThenBad := by decide
  have silent : ∃ r ∈ ((({} : Engine).run goodThenBad).world.store 0).all, ¬rejecting.Answers r :=
    ⟨badItem, List.mem_cons_of_mem _ List.mem_cons_self, by decide⟩
  obtain ⟨before, r, after, fault, _, _, _, _, _, _, onwards⟩ :=
    (reach_run plays).registration_half_done (by decide) silent
  refine ⟨by decide, fun f later goesOn others move batch known published member => ?_⟩
  have answers := (onwards f later goesOn others).2 move batch known published badItem member
  revert answers
  decide

/-- A call that ends abruptly changes the definitions and a list, and a reload that would be
published without it ends abruptly. -/
theorem faulted_registration_kept :
    ((({} : Engine).run goodThenBad).step (.call (.registerIndex 0 rejecting))).2 =
      some (.faulted (.text "extractor rejected bad")) ∧
    (∀ it, it = (({} : Engine).run goodThenBad).world.store 0 →
      it.dynamic = [] ∧ it.indexIds "kind" [.text "good"] = []) ∧
    (∀ it, it = (({} : Engine).run (goodThenBad ++
        [.call (.registerIndex 0 rejecting)])).world.store 0 →
      it.dynamic = [rejecting] ∧ it.indexIds "kind" [.text "good"] = [.number 2]) ∧
    ((({} : Engine).run (goodThenBad ++ [.call (.reload 0)])).step
      (.loaded (.done [goodItem, badItem]))).2 = some (.reloaded (.done 2)) ∧
    ((({} : Engine).run (goodThenBad ++ [.call (.registerIndex 0 rejecting),
        .call (.reload 0)])).step (.loaded (.done [goodItem, badItem]))).2 =
      some (.reloaded (.faulted (.text "extractor rejected bad"))) := by
  refine ⟨rfl, ?_, ?_, rfl, rfl⟩
  · rintro it rfl
    exact ⟨rfl, by decide⟩
  · rintro it rfl
    exact ⟨rfl, by decide⟩

end Engine

end LiveTables
