import Mathlib.Data.List.Perm.Subperm
import LiveTables.Proofs.ExactTable
import LiveTables.Proofs.LaterListing

namespace LiveTables

namespace Generation

variable {type : RecordType} {d : IndexDef} {ds es : List IndexDef} {batch : List Record}
  {g next early late whole : Generation} {key : String}

/-- What has been listed is not listed again. -/
theorem listAll_of_listed {table : IndexTable RecordId} {rs : List Record}
    (answers : ∀ r ∈ rs, d.Answers r)
    (listed : ∀ r ∈ rs, ∀ key, d.Asks type r key → r.id ∈ table.ids key) :
    listAll type d table rs = (table, none) := by
  induction rs with
  | nil => rfl
  | cons r rest ih =>
    obtain ⟨⟨given, atRecord⟩, answers⟩ := List.forall_mem_cons.mp answers
    obtain ⟨now, later⟩ := List.forall_mem_cons.mp listed
    have others := ih answers later
    cases given with
    | none => simpa [listAll, atRecord] using others
    | some values =>
      have known := now _ ((IndexDef.asks_iff atRecord).mpr rfl)
      simpa [listAll, atRecord, IndexTable.insert_of_listed known] using others

theorem applyIndex_of_listed (answers : ∀ r ∈ g.records, d.Answers r)
    (listed : ∀ r ∈ g.records, ∀ key, d.Asks type r key → r.id ∈ g.index.ids key) :
    g.applyIndex type d = (g, none) := by
  rw [applyIndex, listAll_of_listed answers listed]

theorem applyIndexes_of_listed
    (answers : ∀ d ∈ ds, ∀ r ∈ g.records, d.Answers r)
    (listed : ∀ d ∈ ds, ∀ r ∈ g.records, ∀ key, d.Asks type r key → r.id ∈ g.index.ids key) :
    g.applyIndexes type ds = .done g := by
  induction ds with
  | nil => rfl
  | cons d rest ih =>
    obtain ⟨now, later⟩ := List.forall_mem_cons.mp answers
    obtain ⟨first, others⟩ := List.forall_mem_cons.mp listed
    rw [applyIndexes, applyIndex_of_listed now first]
    exact ih later others

/-- A build has listed whatever its definitions ask for. -/
theorem listed_build (built : build type batch ds = .done g) :
    ∀ d ∈ ds, ∀ r ∈ g.records, ∀ key, d.Asks type r key → r.id ∈ g.index.ids key := by
  intro d member r inRecords key asks
  rw [records_build built] at inRecords
  rw [ids_build built]
  exact mem_asked.mpr ⟨r, inRecords, rfl, d, member, asks⟩

/-- Under a key where definitions find all listed, they list nothing more. -/
theorem ids_applyIndexes_of_listed (run : g.applyIndexes type es = .done next)
    (once : ∀ key, (next.index.ids key).Nodup)
    (listed : ∀ e ∈ es, ∀ r ∈ g.records, e.Asks type r key → r.id ∈ g.index.ids key) :
    next.index.ids key = g.index.ids key := by
  have within : next.index.ids key ⊆ g.index.ids key := by
    intro id member
    rcases applyIndexes_cases type g es with ⟨index, applied, _, added⟩ | ⟨_, faulted, _⟩
    · obtain rfl := Outcome.done.inj (applied.symm.trans run)
      rcases (added key id).mp member with old | ⟨r, inRecords, rfl, e, inList, asks⟩
      · exact old
      · exact listed e inList r inRecords asks
    · cases faulted.symm.trans run
  have filled : g.index.Filled next.index := filled_applyIndexes run
  have longer := filled.ids_prefix key
  exact (longer.eq_of_length_le ((List.subperm_of_subset (once key) within).length_le)).symm

/-- Two generations list the same ids under the same keys, each once, as definitions ask for on a
batch. Under keys that not both the earlier ones and the last one ask for, they list them in load
order. -/
structure Agrees (type : RecordType) (ds : List IndexDef) (d : IndexDef) (batch : List Record)
    (late whole : Generation) : Prop where
  keys : ∀ key, late.index.containsKey key = whole.index.containsKey key
  size : late.index.size = whole.index.size
  ids : ∀ key, (late.index.ids key).Perm (whole.index.ids key)
  once : ∀ key, (late.index.ids key).Nodup ∧ (whole.index.ids key).Nodup
  ordered : ∀ key, ¬(Wanted type ds batch key ∧ Wanted type [d] batch key) →
    late.index.ids key = whole.index.ids key ∧
      late.index.ids key = asked type (ds ++ [d]) batch key

/-- A definition that comes late lists behind what the build has listed. -/
theorem ids_applyIndex (built : build type batch ds = .done early)
    (applied : early.applyIndex type d = (late, none))
    (key : String) : late.index.ids key = asked type ds batch key ++
      (asked type [d] batch key).filter fun id => id ∉ asked type ds batch key := by
  obtain ⟨rfl, ended⟩ := Prod.mk.inj applied
  rw [records_build built] at ended
  have listed := ids_listAll (nodup_of_build built) ended key
  rw [ids_build built] at listed
  simpa only [applyIndex, records_build built] using listed

/-- The lists differ in order only where two of the definitions ask. -/
theorem ids_applyIndex_ordered (built : build type batch ds = .done early)
    (applied : early.applyIndex type d = (late, none))
    (apart : ¬(Wanted type ds batch key ∧ Wanted type [d] batch key)) :
    late.index.ids key = asked type (ds ++ [d]) batch key := by
  rw [ids_applyIndex built applied]
  by_cases some : Wanted type ds batch key
  · have nothing : ¬Wanted type [d] batch key := fun more => apart ⟨some, more⟩
    rw [asked_append_left nothing, asked_eq_nil_iff.mpr nothing]
    exact List.append_nil _
  · rw [asked_append_right some, asked_eq_nil_iff.mpr some, List.nil_append]
    exact List.filter_eq_self.mpr fun _ _ => by simp

theorem lists_applyIndex (built : build type batch ds = .done early)
    (applied : early.applyIndex type d = (late, none)) :
    Lists type (ds ++ [d]) batch late.index := by
  obtain ⟨rfl, ended⟩ := Prod.mk.inj applied
  rw [records_build built] at ended
  have lists := (lists_build built).listAll (nodup_of_build built) ended
  simpa only [applyIndex, records_build built] using lists

/-- Applying a definition to a built generation lists what building with it would have listed. Only
the order can differ, and only under keys that both the definition and the build ask for. -/
theorem agrees_build (built : build type batch ds = .done early)
    (applied : early.applyIndex type d = (late, none))
    (builtWhole : build type batch (ds ++ [d]) = .done whole) :
    Agrees type ds d batch late whole := by
  have listed (key : String) : whole.index.ids key = asked type (ds ++ [d]) batch key :=
    ids_build builtWhole key
  have filled : ({} : IndexTable RecordId).Filled late.index := by
    obtain ⟨rfl, _⟩ := Prod.mk.inj applied
    exact (filled_foldlM_extend built).trans (early.gains_applyIndex type d).index
  have once (key : String) : (late.index.ids key).Nodup :=
    filled.nodup (fun _ => List.nodup_nil) key
  have onceWhole (key : String) : (whole.index.ids key).Nodup := by
    rw [listed]
    exact nodup_asked (nodup_of_build built) key
  have same (key : String) (id : RecordId) :
      id ∈ late.index.ids key ↔ id ∈ whole.index.ids key := by
    rw [listed]
    exact (lists_applyIndex built applied).members key id
  obtain ⟨keys, size⟩ :=
    (proper_build builtWhole).same_keys (filled.proper IndexTable.proper_empty) same
  refine ⟨keys, size, fun key => ?_, fun key => ⟨once key, onceWhole key⟩, fun key apart => ?_⟩
  · exact (List.perm_ext_iff_of_nodup (once key) (onceWhole key)).mpr (same key)
  · have ordered := ids_applyIndex_ordered built applied apart
    exact ⟨ordered.trans (listed key).symm, ordered⟩

end Generation

namespace Store

open Generation

variable {it : Store} {ds : List IndexDef} {batch : List Record} {built : Generation}

/-- A store publishes a built generation and may list more in it before. What the build has listed
keeps its order and comes first, nothing comes to stand twice, and lists that registered definitions
beyond those of the build do not ask for stay as they are. -/
structure PublishesBuilt (it : Store) (ds : List IndexDef) (batch : List Record)
    (built : Generation) (next : Store) : Prop where
  all : next.all = batch
  ids : ∀ key, built.index.ids key <+: next.current.index.ids key
  once : ∀ key, (next.current.index.ids key).Nodup
  kept : ∀ key, (∀ d ∈ it.dynamic, d ∈ ds ∨ ¬Wanted it.recordType [d] batch key) →
    next.current.index.ids key = built.index.ids key
  same : it.dynamic ⊆ ds → next.current.index = built.index

/-- Definitions that are applied before a publication keep to what the build has listed. -/
theorem publishesBuilt (whole : build it.recordType batch ds = .done built)
    (answers : ∀ d ∈ it.dynamic, ∀ r ∈ batch, d.Answers r) (epoch : Nat) :
    ∃ next, it.publish built epoch = (next, .done batch.length) ∧
      it.PublishesBuilt ds batch built next := by
  have records := records_build whole
  have first (key : String) : (built.index.ids key).Nodup := by
    rw [ids_build whole]
    exact nodup_asked (nodup_of_build whole) key
  by_cases inTime : it.epoch = epoch
  · refine ⟨_, by rw [publish, if_pos inTime, ← records]; rfl, ?_⟩
    exact ⟨records, fun _ => List.prefix_refl _, first, fun _ _ => rfl, fun _ => rfl⟩
  · -- Out of date, the registered definitions go over the built table once more.
    obtain ⟨last, run⟩ : ∃ last, applyIndexes it.recordType
        { built with number := it.current.number + 1 } it.dynamic = .done last := by
      rcases applyIndexes_cases it.recordType { built with number := it.current.number + 1 }
        it.dynamic with ⟨index, run, _⟩ | ⟨fault, _, d, member, r, inRecords, faulted⟩
      · exact ⟨_, run⟩
      · subst records
        exact absurd faulted ((answers d member r inRecords).ne_error fault)
    have published : it.publish built epoch = (it.replaceCurrent last, .done last.size) := by
      rw [publish, if_neg inTime, run]
      rfl
    have after : last.records = batch := (records_applyIndexes run).1.trans records
    have filled : { built with number := it.current.number + 1 }.index.Filled last.index :=
      filled_applyIndexes run
    refine ⟨it.replaceCurrent last, by rw [published, Generation.size, after], after,
      filled.ids_prefix, filled.nodup first, fun key settled => ?_, fun own => ?_⟩
    · refine ids_applyIndexes_of_listed (g := { built with number := it.current.number + 1 })
        run (filled.nodup first) fun d member r inRecords asks => ?_
      rcases settled d member with planned | nothing
      · exact listed_build whole d planned r inRecords key asks
      · subst records
        exact absurd ⟨r, inRecords, d, List.mem_singleton_self d, asks⟩ nothing
    · have again : applyIndexes it.recordType { built with number := it.current.number + 1 }
          it.dynamic = .done { built with number := it.current.number + 1 } := by
        subst records
        exact applyIndexes_of_listed answers fun d member => listed_build whole d (own member)
      obtain rfl := Outcome.done.inj (again.symm.trans run)
      rfl

end Store

namespace Generation

variable {type : RecordType} {d : IndexDef} {ds : List IndexDef} {batch : List Record}

/-- Applying a definition to a build agrees with building with it, but for the order under keys that
both ask for. If the build had the definition already, applying it changes nothing, and neither does
a publication that applies definitions of the build once more. -/
theorem applyIndex_agrees (type : RecordType) (distinct : (batch.map Record.id).Nodup)
    (answers : ∀ e ∈ ds ++ [d], ∀ r ∈ batch, e.Answers r) :
    ∃ early late whole, build type batch ds = .done early ∧
      early.applyIndex type d = (late, none) ∧ build type batch (ds ++ [d]) = .done whole ∧
      Agrees type ds d batch late whole ∧ (d ∈ ds → late = early) ∧
      ∀ (it : Store) (epoch : Nat), it.recordType = type →
        (∀ e ∈ it.dynamic, ∀ r ∈ batch, e.Answers r) →
        ∃ next, it.publish early epoch = (next, .done batch.length) ∧
          it.PublishesBuilt ds batch early next := by
  obtain ⟨earlier, atLast⟩ := List.forall_mem_append.mp answers
  have last : ∀ r ∈ batch, d.Answers r := atLast d (List.mem_singleton_self d)
  obtain ⟨index, built⟩ := build_of_answers type distinct earlier
  obtain ⟨indexWhole, builtWhole⟩ := build_of_answers type distinct answers
  have applied : applyIndex type d (.ofRecords 0 batch index distinct) =
      ((applyIndex type d (.ofRecords 0 batch index distinct)).1, none) := by
    rcases listAll_cases type d index batch with ⟨whole, _⟩ | ⟨fault, _, r, inBatch, faulted⟩
    · exact Prod.ext rfl whole
    · exact absurd faulted ((last r inBatch).ne_error fault)
  refine ⟨_, _, _, built, applied, builtWhole, agrees_build built applied builtWhole,
    fun known => ?_, ?_⟩
  · rw [applyIndex_of_listed last (listed_build built d known)]
  · rintro it epoch rfl answers
    exact Store.publishesBuilt built answers epoch

/-- Under one key the last record comes before the second one if the definition that asks for the
second one comes late. Under the other keys the order is the same. -/
theorem crossed_applied : ∃ early late whole : Generation,
    early.applyIndex ⟨0, "Item", "", .number, []⟩ (.byField "kind" "c") = (late, none) ∧
      build ⟨0, "Item", "", .number, []⟩ crossedItems crossed = .done whole ∧
      late.index.ids "Item&kind#x#y" = [.number 3, .number 2, .number 1] ∧
      (late.index.ids "Item&kind#x#y").Perm (whole.index.ids "Item&kind#x#y") ∧
      whole.index.ids "Item&kind#null" = [.number 2] := by
  have answers : ∀ e ∈ [IndexDef.byField "kind#x" "b"] ++ [IndexDef.byField "kind" "c"],
      ∀ r ∈ crossedItems, e.Answers r := by
    intro d member r _
    rcases List.mem_cons.mp member with rfl | member
    · exact ⟨_, rfl⟩
    · obtain rfl := List.mem_singleton.mp member
      exact ⟨_, rfl⟩
  have distinct : (crossedItems.map Record.id).Nodup := by decide
  obtain ⟨early, late, whole, built, applied, builtWhole, agrees, _⟩ :=
    applyIndex_agrees ⟨0, "Item", "", .number, []⟩ distinct answers
  have ordered := agrees.ordered "Item&kind#null" (by decide)
  refine ⟨early, late, whole, applied, builtWhole, ?_, agrees.ids _, ?_⟩
  · exact (ids_applyIndex built applied _).trans (by decide)
  · exact ordered.1.symm.trans (ordered.2.trans (by decide))

end Generation

end LiveTables
