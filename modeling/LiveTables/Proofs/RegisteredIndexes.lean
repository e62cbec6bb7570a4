import LiveTables.IndexDef.Fields
import LiveTables.Proofs.Filling
import LiveTables.Proofs.Live

namespace LiveTables

namespace Store

/-- The definitions of the type and those registered. -/
def definitions (it : Store) : List IndexDef := it.recordType.indexes ++ it.dynamic

/-- The current generation is listed as a definition asks, unless the definition ends abruptly on
one of its records. -/
def Follows (it : Store) (d : IndexDef) : Prop :=
  (∀ r ∈ it.all, d.Answers r) →
    ∀ r ∈ it.all, ∀ key, d.Asks it.recordType r key → r.id ∈ it.current.index.ids key

/-- A plan is out of date or holds all definitions, and in either case those of the type. -/
structure Fits (it : Store) (plan : Plan) : Prop where
  epoch_le : plan.epoch ≤ it.epoch
  indexes : ∃ taken, plan.indexes = it.recordType.indexes ++ taken
  current : it.epoch = plan.epoch → plan.indexes = it.definitions

variable {it next : Store} {plan : Plan} {plans : List Plan}

theorem fits_plan (it : Store) : it.Fits it.plan := ⟨Nat.le_refl _, ⟨it.dynamic, rfl⟩, fun _ => rfl⟩

theorem Fits.of_same (fits : it.Fits plan) (type : next.recordType = it.recordType)
    (dynamic : next.dynamic = it.dynamic) (epoch : next.epoch = it.epoch) : next.Fits plan where
  epoch_le := epoch ▸ fits.epoch_le
  indexes := type ▸ fits.indexes
  current same := by
    rw [definitions, type, dynamic]
    exact fits.current (epoch.symm.trans same)

/-- Every plan that waits fits its store. The epoch that was taken with it tells whether its
definitions are still those registered. -/
theorem Live.fits (live : it.Live plans) : ∀ plan ∈ plans, it.Fits plan := by
  induction live with
  | fresh => intro plan member; cases member
  | @begun it plans _ ih =>
    intro plan member
    rcases List.mem_cons.mp member with rfl | earlier
    · exact it.fits_plan
    · exact ih plan earlier
  | @concluded it top plans outcome _ ih =>
    intro plan member
    obtain ⟨type, dynamic, epoch⟩ := it.conclude_keeps top outcome
    exact (ih plan (List.mem_cons_of_mem _ member)).of_same type dynamic epoch
  | @registered it plans d _ ih =>
    intro plan member
    have before := ih plan member
    -- The registration puts every earlier plan out of date.
    have behind : plan.epoch < it.epoch + 1 := Nat.lt_succ_of_le before.epoch_le
    exact ⟨Nat.le_of_lt behind, before.indexes, fun same => absurd same (Nat.ne_of_gt behind)⟩
  | appended _ _ _ _ ih => exact fun plan member => (ih plan member).of_same rfl rfl rfl
  | applied _ _ _ ih => exact fun plan member => (ih plan member).of_same rfl rfl rfl
  | listed _ _ _ _ ih => exact fun plan member => (ih plan member).of_same rfl rfl rfl

/-- What is published has gone through all definitions there are then. -/
theorem Fits.mem_publishing (fits : it.Fits plan) {d : IndexDef} (registered : d ∈ it.definitions) :
    d ∈ it.publishing plan := by
  by_cases same : it.epoch = plan.epoch
  · rw [Store.publishing, fits.current same]
    exact List.mem_append_left _ registered
  · rw [Store.publishing, if_neg same]
    rcases List.mem_append.mp registered with static | dynamic
    · obtain ⟨taken, planned⟩ := fits.indexes
      rw [planned]
      exact List.mem_append_left _ (List.mem_append_left _ static)
    · exact List.mem_append_right _ dynamic

/-- A registration brings in nothing but its own definition. -/
theorem mem_replaceDef {d e : IndexDef} {ds : List IndexDef} (member : e ∈ replaceDef d ds) :
    e = d ∨ e ∈ ds := by
  induction ds with
  | nil => exact Or.inl (List.mem_singleton.mp member)
  | cons first rest ih =>
    by_cases same : first.name = d.name
    · simp only [replaceDef, same, if_true] at member
      rcases List.mem_cons.mp member with new | old
      · exact Or.inl new
      · exact Or.inr (List.mem_cons_of_mem _ old)
    · simp only [replaceDef, same, if_false] at member
      rcases List.mem_cons.mp member with rfl | later
      · exact Or.inr List.mem_cons_self
      · exact (ih later).imp_right (List.mem_cons_of_mem _)

theorem self_mem_replaceDef (d : IndexDef) (ds : List IndexDef) : d ∈ replaceDef d ds := by
  induction ds with
  | nil => exact List.mem_singleton_self d
  | cons first rest ih =>
    unfold replaceDef
    split
    · exact List.mem_cons_self
    · exact List.mem_cons_of_mem _ ih

/-- A registration replaces only what has its name. -/
theorem mem_replaceDef_of_ne {d e : IndexDef} {ds : List IndexDef} (member : e ∈ ds)
    (other : e.name ≠ d.name) : e ∈ replaceDef d ds := by
  induction ds with
  | nil => cases member
  | cons first rest ih =>
    unfold replaceDef
    split
    · rename_i same
      refine List.mem_cons_of_mem _ ((List.mem_cons.mp member).resolve_left ?_)
      rintro rfl
      exact other same
    · rcases List.mem_cons.mp member with rfl | later
      · exact List.mem_cons_self
      · exact List.mem_cons_of_mem _ (ih later)

/-- Listing more takes nothing away. -/
theorem Follows.grow {d : IndexDef} (follows : it.Follows d)
    (type : next.recordType = it.recordType) (gains : it.current.Gains next.current) :
    next.Follows d := by
  intro answers r member key asks
  have records : next.all = it.all := gains.records
  rw [records] at answers member
  rw [type] at asks
  exact (gains.ids_prefix key).subset (follows answers r member key asks)

/-- A definition is followed from its registration on. -/
theorem follows_registerIndex (it : Store) (d : IndexDef) : (it.registerIndex d).1.Follows d := by
  intro answers r member key asks
  rcases Generation.listAll_cases it.recordType d it.current.index it.current.records with
    ⟨_, _, added⟩ | ⟨fault, _, q, inRecords, faulted⟩
  · exact (added key r.id).mpr (Or.inr ⟨r, member, rfl, d, List.mem_singleton_self d, asks⟩)
  · exact absurd faulted ((answers q inRecords).ne_error fault)

/-- Every definition is followed in every generation, since a publication goes through all that are
registered when it is made. -/
theorem Live.follows (live : it.Live plans) : ∀ d ∈ it.definitions, it.Follows d := by
  induction live with
  | fresh isFresh =>
    obtain ⟨type, location, loader, rfl⟩ := isFresh
    intro d _ _ r member
    cases member
  | begun _ ih => exact ih
  | @concluded it plan plans outcome live ih =>
    have fits := live.fits plan List.mem_cons_self
    rcases it.conclude_cases plan outcome with
      ⟨batch, index, _, _, added, run⟩ | ⟨_, _, run⟩ | ⟨_, _, run⟩
    · -- A new generation owes nothing to the old one: all that it lists comes from its own build.
      rw [run]
      intro d registered _ r member key asks
      exact (added key r.id).mpr (Or.inr ⟨r, member, rfl, d, fits.mem_publishing registered, asks⟩)
    · rw [run]
      exact ih
    · rw [run]
      exact ih
  | @registered it plans d _ ih =>
    intro e registered
    rcases List.mem_append.mp registered with static | dynamic
    · exact (ih e (List.mem_append_left _ static)).grow rfl (it.current.gains_applyIndex _ d)
    · rcases mem_replaceDef dynamic with rfl | old
      · exact it.follows_registerIndex e
      · exact (ih e (List.mem_append_right _ old)).grow rfl (it.current.gains_applyIndex _ d)
  | @appended it _ _ _ _ _ ih =>
    exact fun d registered => (ih d registered).grow rfl (it.current.gains_insertKey _ _)
  | @applied it _ number e _ ih =>
    exact fun d registered => (ih d registered).grow rfl
      (.atNumber (fun g => g.gains_applyIndex _ e) number it.current)
  | @listed it _ number key id _ ih =>
    exact fun d registered => (ih d registered).grow rfl
      (.atNumber (fun g => g.gains_insertKey key id) number it.current)

end Store

/-- In every state of every run, each record of a store's current generation is listed as each
definition of the type and each registered one asks. Only the definition in question has to
answer, and only on these records. -/
theorem Engine.Reach.registered_listed {e : Engine} {past : List (Engine × Move)}
    (reach : Reach {} e past) {s : StoreId} (inRange : s < e.world.stores.length) {d : IndexDef}
    (registered : d ∈ (e.world.store s).definitions)
    (answers : ∀ r ∈ (e.world.store s).all, d.Answers r) {r : Record}
    (current : r ∈ (e.world.store s).all) {values : List Value}
    (extracted : d.valuesFor r = .ok (some values)) :
    r.id ∈ (e.world.store s).indexIds d.name values :=
  (reach.live inRange).follows d registered answers r current _ ⟨values, extracted, rfl⟩

/-- The second batch was planned before its definition was registered, and was overtaken by a batch
that was planned after that. -/
theorem Engine.overtaken_listed : .number 2 ∈ ((({} : Engine).run (overtaken
      (.constant "all" [.null]) [⟨.number 1, []⟩] [⟨.number 2, []⟩])).world.store 0).indexIds
    "all" [.null] := by
  have plays : ({} : Engine).Plays (overtaken (.constant "all" [.null]) [⟨.number 1, []⟩]
      [⟨.number 2, []⟩]) := by decide
  refine (reach_run plays).registered_listed (d := .constant "all" [.null])
    (r := ⟨.number 2, []⟩) ?_ ?_ ?_ ?_ rfl
  · decide
  · exact List.mem_singleton.mpr rfl
  · exact fun _ _ => ⟨_, rfl⟩
  · decide

end LiveTables
