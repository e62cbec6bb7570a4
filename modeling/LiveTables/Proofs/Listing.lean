import LiveTables.Generation

namespace LiveTables

namespace IndexDef

/-- A definition answers on a record unless its rule ends abruptly there. -/
def Answers (d : IndexDef) (r : Record) : Prop := ∃ values, d.valuesFor r = .ok values

/-- A definition asks for a record to be listed under a key. -/
def Asks (d : IndexDef) (type : RecordType) (r : Record) (key : String) : Prop :=
  ∃ values, d.valuesFor r = .ok (some values) ∧ type.key d.name values = key

theorem asks_iff {d : IndexDef} {type : RecordType} {r : Record} {key : String}
    {values : List Value} (extracted : d.valuesFor r = .ok (some values)) :
    d.Asks type r key ↔ key = type.key d.name values := by
  simp [Asks, extracted, eq_comm]

theorem Answers.ne_error {d : IndexDef} {r : Record} (answers : d.Answers r) (fault : Fault) :
    d.valuesFor r ≠ .error fault := by
  obtain ⟨values, atRecord⟩ := answers
  simp [atRecord]

instance (d : IndexDef) (r : Record) : Decidable (d.Answers r) :=
  match atRecord : d.valuesFor r with
  | .ok values => .isTrue ⟨values, atRecord⟩
  | .error fault => .isFalse fun answers => answers.ne_error fault atRecord

end IndexDef

namespace IndexTable

theorem mem_ids_insert {t : IndexTable RecordId} {key k : String} {id x : RecordId} :
    x ∈ (t.insert key id).ids k ↔ x ∈ t.ids k ∨ k = key ∧ x = id := by
  rw [ids_insert]
  by_cases same : k = key
  · subst same
    by_cases listed : id ∈ t.ids k
    · simp only [listed, if_true, true_and]
      constructor
      · exact Or.inl
      · rintro (old | rfl)
        · exact old
        · exact listed
    · simp [listed]
  · simp [same]

/-- Lists only grow, and only at their ends. -/
theorem ids_prefix_insert (t : IndexTable RecordId) (key k : String) (id : RecordId) :
    t.ids k <+: (t.insert key id).ids k := by
  rw [ids_insert]
  by_cases same : k = key
  · subst same
    by_cases listed : id ∈ t.ids k
    · simp [listed]
    · simp [listed]
  · simp [same]

end IndexTable

namespace Generation

/-- Of two tables, the later one lists what the earlier one lists and what definitions ask for
on records, and nothing else. -/
def Adds (type : RecordType) (ds : List IndexDef) (rs : List Record)
    (table next : IndexTable RecordId) : Prop :=
  ∀ key id, id ∈ next.ids key ↔
    id ∈ table.ids key ∨ ∃ r ∈ rs, r.id = id ∧ ∃ d ∈ ds, d.Asks type r key

variable {type : RecordType} {d : IndexDef} {ds es : List IndexDef} {r : Record}
  {rs qs : List Record} {a b c : IndexTable RecordId}

theorem Adds.of_no_records (type : RecordType) (ds : List IndexDef) (a : IndexTable RecordId) :
    Adds type ds [] a a := by
  intro key id
  simp

theorem Adds.of_no_indexes (type : RecordType) (rs : List Record) (a : IndexTable RecordId) :
    Adds type [] rs a a := by
  intro key id
  simp

theorem Adds.trans_records (first : Adds type ds rs a b) (second : Adds type ds qs b c) :
    Adds type ds (rs ++ qs) a c := by
  intro key id
  rw [second key id, first key id]
  simp only [List.mem_append, or_and_right, exists_or, or_assoc]

theorem Adds.trans_indexes (first : Adds type ds rs a b) (second : Adds type es rs b c) :
    Adds type (ds ++ es) rs a c := by
  intro key id
  rw [second key id, first key id]
  simp only [List.mem_append, or_and_right, exists_or, and_or_left, or_assoc]

theorem Adds.of_none (skipped : d.valuesFor r = .ok none) : Adds type [d] [r] a a := by
  intro key id
  simp [IndexDef.Asks, skipped]

theorem Adds.of_some {values : List Value} (extracted : d.valuesFor r = .ok (some values)) :
    Adds type [d] [r] a (a.insert (type.key d.name values) r.id) := by
  intro key id
  rw [IndexTable.mem_ids_insert]
  simp only [IndexDef.Asks, extracted, List.mem_singleton, exists_eq_left, Except.ok.injEq,
    Option.some.injEq, exists_eq_left']
  constructor
  · rintro (old | ⟨atKey, same⟩)
    · exact Or.inl old
    · exact Or.inr ⟨same.symm, atKey.symm⟩
  · rintro (old | ⟨same, atKey⟩)
    · exact Or.inl old
    · exact Or.inr ⟨atKey.symm, same.symm⟩

theorem listRecord_cases (type : RecordType) (r : Record) (table : IndexTable RecordId)
    (ds : List IndexDef) :
    (∃ next, listRecord type r table ds = .done next ∧ (∀ d ∈ ds, d.Answers r) ∧
      Adds type ds [r] table next) ∨
    ∃ fault, listRecord type r table ds = .faulted fault ∧
      ∃ d ∈ ds, d.valuesFor r = .error fault := by
  induction ds generalizing table with
  | nil => exact Or.inl ⟨table, rfl, by simp, .of_no_indexes type [r] table⟩
  | cons d rest ih =>
    cases atRecord : d.valuesFor r with
    | error fault =>
      exact Or.inr ⟨fault, by simp [listRecord, atRecord], d, List.mem_cons_self, atRecord⟩
    | ok values =>
      -- What the first definition does to the table; the others then go on from there.
      obtain ⟨first, begun, added⟩ : ∃ first,
          listRecord type r table (d :: rest) = listRecord type r first rest ∧
            Adds type [d] [r] table first := by
        cases values with
        | none => exact ⟨table, by simp [listRecord, atRecord], .of_none atRecord⟩
        | some values => exact ⟨_, by simp [listRecord, atRecord], .of_some atRecord⟩
      rw [begun]
      rcases ih first with ⟨next, run, answers, more⟩ | ⟨fault, run, e, member, faulted⟩
      · refine Or.inl ⟨next, run, ?_, added.trans_indexes more⟩
        exact List.forall_mem_cons.mpr ⟨⟨values, atRecord⟩, answers⟩
      · exact Or.inr ⟨fault, run, e, List.mem_cons_of_mem _ member, faulted⟩

/-- A record is taken in only if its id is new and no definition ends abruptly on it. -/
theorem extend_done {g next : Generation} (run : extend type ds g r = .done next) :
    ∃ (new : g.get? r.id = none) (index : IndexTable RecordId),
      listRecord type r g.index ds = .done index ∧ next = g.add r index new := by
  unfold extend at run
  split at run
  · contradiction
  · rename_i new
    refine ⟨new, ?_⟩
    cases listed : listRecord type r g.index ds with
    | done index =>
      rw [listed] at run
      exact ⟨index, rfl, (Outcome.done.inj run).symm⟩
    | failed e =>
      rw [listed] at run
      contradiction
    | faulted fault =>
      rw [listed] at run
      contradiction

/-- A batch is taken into a generation as a whole, or its first fault or repeated id decides. -/
theorem foldlM_extend_cases (type : RecordType) (ds : List IndexDef) (g : Generation)
    (batch : List Record) :
    (∃ next, batch.foldlM (extend type ds) g = .done next ∧ next.number = g.number ∧
      next.records = g.records ++ batch ∧ (∀ d ∈ ds, ∀ r ∈ batch, d.Answers r) ∧
      Adds type ds batch g.index next.index) ∨
    (∃ before r after, batch.foldlM (extend type ds) g =
        .failed (.duplicateId type.name r.id.describe) ∧
      g.records ++ batch = before ++ r :: after ∧ r.id ∈ before.map Record.id) ∨
    ∃ fault, batch.foldlM (extend type ds) g = .faulted fault ∧
      ∃ d ∈ ds, ∃ r ∈ batch, d.valuesFor r = .error fault := by
  induction batch generalizing g with
  | nil => exact Or.inl ⟨g, rfl, rfl, by simp, by simp, .of_no_records type ds _⟩
  | cons r rest ih =>
    rw [List.foldlM_cons]
    cases known : g.get? r.id with
    | some earlier =>
      have repeated : r.id ∈ g.records.map Record.id := by
        obtain ⟨member, same⟩ := mem_of_get? known
        exact List.mem_map.mpr ⟨earlier, member, same⟩
      rw [extend_known known]
      exact Or.inr (Or.inl ⟨g.records, r, rest, rfl, rfl, repeated⟩)
    | none =>
      rw [extend_new known]
      rcases listRecord_cases type r g.index ds with
        ⟨index, run, answers, added⟩ | ⟨fault, run, d, member, faulted⟩
      · rw [run]
        have split : g.records ++ r :: rest = (g.add r index known).records ++ rest := by simp [add]
        rcases ih (g.add r index known) with
          ⟨last, built, number, whole, more, addedMore⟩ |
          ⟨before, q, after, refused, place, again⟩ |
          ⟨fault, refused, d, member, q, inRest, faulted⟩
        · refine Or.inl ⟨last, built, number, whole.trans split.symm, ?_,
            added.trans_records addedMore⟩
          intro d member
          exact List.forall_mem_cons.mpr ⟨answers d member, more d member⟩
        · exact Or.inr (Or.inl ⟨before, q, after, refused, split.trans place, again⟩)
        · exact Or.inr (Or.inr ⟨fault, refused, d, member, q, List.mem_cons_of_mem _ inRest,
            faulted⟩)
      · rw [run]
        exact Or.inr (Or.inr ⟨fault, rfl, d, member, r, List.mem_cons_self, faulted⟩)

theorem build_cases (type : RecordType) (batch : List Record) (ds : List IndexDef) :
    (∃ index distinct, build type batch ds = .done (.ofRecords 0 batch index distinct) ∧
      (∀ d ∈ ds, ∀ r ∈ batch, d.Answers r) ∧ Adds type ds batch {} index) ∨
    (∃ before r after, build type batch ds = .failed (.duplicateId type.name r.id.describe) ∧
      batch = before ++ r :: after ∧ r.id ∈ before.map Record.id) ∨
    ∃ fault, build type batch ds = .faulted fault ∧
      ∃ d ∈ ds, ∃ r ∈ batch, d.valuesFor r = .error fault := by
  rcases foldlM_extend_cases type ds empty batch with
    ⟨next, built, number, whole, answers, added⟩ | refused | faulted
  · obtain ⟨distinct, same⟩ := eq_ofRecords number whole
    exact Or.inl ⟨next.index, distinct, built.trans (congrArg _ same), answers, added⟩
  · exact Or.inr (Or.inl refused)
  · exact Or.inr (Or.inr faulted)

theorem records_build {batch : List Record} {g : Generation}
    (built : build type batch ds = .done g) : g.records = batch := by
  rcases build_cases type batch ds with
    ⟨_, _, done, _⟩ | ⟨_, _, _, refused, _⟩ | ⟨_, refused, _⟩
  · rw [← Outcome.done.inj (done.symm.trans built), ofRecords]
  · cases refused.symm.trans built
  · cases refused.symm.trans built

/-- Only a batch of distinct ids can be built. -/
theorem nodup_of_build {batch : List Record} {g : Generation}
    (built : build type batch ds = .done g) : (batch.map Record.id).Nodup :=
  records_build built ▸ g.distinct

theorem listAll_cases (type : RecordType) (d : IndexDef) (table : IndexTable RecordId)
    (rs : List Record) :
    ((listAll type d table rs).2 = none ∧ (∀ r ∈ rs, d.Answers r) ∧
      Adds type [d] rs table (listAll type d table rs).1) ∨
    ∃ fault, (listAll type d table rs).2 = some fault ∧ ∃ r ∈ rs, d.valuesFor r = .error fault := by
  induction rs generalizing table with
  | nil => exact Or.inl ⟨rfl, by simp, .of_no_records type [d] table⟩
  | cons r rest ih =>
    cases atRecord : d.valuesFor r with
    | error fault =>
      exact Or.inr ⟨fault, by simp [listAll, atRecord], r, List.mem_cons_self, atRecord⟩
    | ok values =>
      obtain ⟨first, begun, added⟩ : ∃ first,
          listAll type d table (r :: rest) = listAll type d first rest ∧
            Adds type [d] [r] table first := by
        cases values with
        | none => exact ⟨table, by simp [listAll, atRecord], .of_none atRecord⟩
        | some values => exact ⟨_, by simp [listAll, atRecord], .of_some atRecord⟩
      rw [begun]
      rcases ih first with ⟨whole, answers, more⟩ | ⟨fault, ended, q, member, faulted⟩
      · refine Or.inl ⟨whole, ?_, added.trans_records more⟩
        exact List.forall_mem_cons.mpr ⟨⟨values, atRecord⟩, answers⟩
      · exact Or.inr ⟨fault, ended, q, List.mem_cons_of_mem _ member, faulted⟩

theorem applyIndexes_cases (type : RecordType) (g : Generation) (ds : List IndexDef) :
    (∃ index, g.applyIndexes type ds = .done { g with index } ∧
      (∀ d ∈ ds, ∀ r ∈ g.records, d.Answers r) ∧ Adds type ds g.records g.index index) ∨
    ∃ fault, g.applyIndexes type ds = .faulted fault ∧
      ∃ d ∈ ds, ∃ r ∈ g.records, d.valuesFor r = .error fault := by
  induction ds generalizing g with
  | nil => exact Or.inl ⟨g.index, rfl, by simp, .of_no_indexes type g.records g.index⟩
  | cons d rest ih =>
    rcases listAll_cases type d g.index g.records with
      ⟨whole, answers, added⟩ | ⟨fault, ended, r, member, faulted⟩
    · have applied : g.applyIndex type d =
          ({ g with index := (listAll type d g.index g.records).1 }, none) := by
        simp [applyIndex, whole]
      have begun : g.applyIndexes type (d :: rest) =
          applyIndexes type { g with index := (listAll type d g.index g.records).1 } rest := by
        simp [applyIndexes, applied]
      rw [begun]
      rcases ih { g with index := (listAll type d g.index g.records).1 } with
        ⟨index, run, more, addedMore⟩ | ⟨fault, run, e, member, r, inRecords, faulted⟩
      · refine Or.inl ⟨index, run, ?_, added.trans_indexes addedMore⟩
        exact List.forall_mem_cons.mpr ⟨answers, more⟩
      · exact Or.inr ⟨fault, run, e, List.mem_cons_of_mem _ member, r, inRecords, faulted⟩
    · refine Or.inr ⟨fault, ?_, d, List.mem_cons_self, r, member, faulted⟩
      have applied : (g.applyIndex type d).2 = some fault := by simp [applyIndex, ended]
      unfold applyIndexes
      split
      · rename_i atFirst
        simp [atFirst] at applied
      · rename_i other atFirst
        simp only [atFirst, Option.some.injEq] at applied
        rw [applied]

end Generation

end LiveTables
