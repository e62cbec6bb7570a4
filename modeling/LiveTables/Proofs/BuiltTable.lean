import LiveTables.Proofs.Listing

namespace LiveTables

instance (d : IndexDef) (type : RecordType) (r : Record) (key : String) :
    Decidable (d.Asks type r key) :=
  match atRecord : d.valuesFor r with
  | .error _ => .isFalse (by simp [IndexDef.Asks, atRecord])
  | .ok none => .isFalse (by simp [IndexDef.Asks, atRecord])
  | .ok (some values) =>
    decidable_of_iff (type.key d.name values = key) (by simp [IndexDef.Asks, atRecord])

namespace Generation

/-- The ids of the records of a batch that definitions ask for under a key, in load order. -/
def asked (type : RecordType) (ds : List IndexDef) (batch : List Record) (key : String) :
    List RecordId :=
  (batch.filter fun r => ∃ d ∈ ds, d.Asks type r key).map Record.id

variable {type : RecordType} {ds es : List IndexDef} {g next : Generation} {r : Record}
  {batch : List Record} {key : String} {id : RecordId}

theorem asked_cons (type : RecordType) (ds : List IndexDef) (r : Record) (batch : List Record)
    (key : String) : asked type ds (r :: batch) key =
      (if ∃ d ∈ ds, d.Asks type r key then [r.id] else []) ++ asked type ds batch key := by
  by_cases asks : ∃ d ∈ ds, d.Asks type r key
  · simp [asked, asks]
  · simp [asked, asks]

/-- An id is among those asked for if it is that of a record for which some definition asks. -/
theorem mem_asked : id ∈ asked type ds batch key ↔
    ∃ r ∈ batch, r.id = id ∧ ∃ d ∈ ds, d.Asks type r key := by
  simp only [asked, List.mem_map, List.mem_filter, decide_eq_true_eq]
  constructor
  · rintro ⟨r, ⟨inBatch, asks⟩, same⟩
    exact ⟨r, inBatch, same, asks⟩
  · rintro ⟨r, inBatch, same, asks⟩
    exact ⟨r, ⟨inBatch, asks⟩, same⟩

theorem asked_sublist (type : RecordType) (ds : List IndexDef) (batch : List Record)
    (key : String) : (asked type ds batch key).Sublist (batch.map Record.id) :=
  List.filter_sublist.map Record.id

/-- Some definition asks for some record of a batch under a key. -/
def Wanted (type : RecordType) (ds : List IndexDef) (batch : List Record) (key : String) : Prop :=
  ∃ r ∈ batch, ∃ d ∈ ds, d.Asks type r key

instance (type : RecordType) (ds : List IndexDef) (batch : List Record) (key : String) :
    Decidable (Wanted type ds batch key) :=
  inferInstanceAs (Decidable (∃ r ∈ batch, ∃ d ∈ ds, d.Asks type r key))

theorem asked_eq_nil_iff : asked type ds batch key = [] ↔ ¬Wanted type ds batch key := by
  rw [asked, List.map_eq_nil_iff, List.filter_eq_nil_iff]
  simp [Wanted]

/-- Definitions that ask for nothing make no difference. -/
theorem asked_append_left (nothing : ¬Wanted type es batch key) :
    asked type (ds ++ es) batch key = asked type ds batch key := by
  refine congrArg (List.map Record.id) (List.filter_congr fun r inBatch => ?_)
  have others : ¬∃ e ∈ es, e.Asks type r key := fun asks => nothing ⟨r, inBatch, asks⟩
  simp only [List.mem_append, or_and_right, exists_or, others, or_false]

theorem asked_append_right (nothing : ¬Wanted type ds batch key) :
    asked type (ds ++ es) batch key = asked type es batch key := by
  refine congrArg (List.map Record.id) (List.filter_congr fun r inBatch => ?_)
  have others : ¬∃ d ∈ ds, d.Asks type r key := fun asks => nothing ⟨r, inBatch, asks⟩
  simp only [List.mem_append, or_and_right, exists_or, others, false_or]

/-- Which records are asked for depends on the definitions, not on their order. -/
theorem asked_congr (same : ∀ d, d ∈ ds ↔ d ∈ es) :
    asked type ds batch key = asked type es batch key := by
  simp only [asked, same]

/-- The definitions list a record once under each of its keys, behind what stood there. -/
theorem ids_listRecord {table last : IndexTable RecordId}
    (run : listRecord type r table ds = .done last) (key : String) :
    last.ids key = if r.id ∉ table.ids key ∧ ∃ d ∈ ds, d.Asks type r key then
      table.ids key ++ [r.id] else table.ids key := by
  induction ds generalizing table with
  | nil =>
    obtain rfl := Outcome.done.inj run
    simp
  | cons d rest ih =>
    cases atRecord : d.valuesFor r with
    | error fault => simp [listRecord, atRecord] at run
    | ok given =>
      cases given with
      | none =>
        have skipped : ¬d.Asks type r key := by simp [IndexDef.Asks, atRecord]
        simp only [listRecord, atRecord] at run
        simp only [ih run, List.mem_cons, exists_eq_or_imp, skipped, false_or]
      | some values =>
        simp only [listRecord, atRecord] at run
        have later := ih run
        rw [IndexTable.ids_insert] at later
        by_cases here : key = type.key d.name values
        · -- The first definition has listed the record, so the others find it there.
          have asks : d.Asks type r key := (IndexDef.asks_iff atRecord).mpr here
          subst here
          by_cases listed : r.id ∈ table.ids (type.key d.name values)
          · simpa [listed] using later
          · simpa [listed, asks] using later
        · have others : ¬d.Asks type r key :=
            fun asks => here ((IndexDef.asks_iff atRecord).mp asks)
          simp only [here, if_false] at later
          simp only [later, List.mem_cons, exists_eq_or_imp, others, false_or]

/-- Taking in more records lists behind what stood there what is asked for on them. No earlier id
can be in the way, as all ids that are listed are those of earlier records. -/
theorem ids_foldlM_extend {batch : List Record}
    (run : batch.foldlM (extend type ds) g = .done next)
    (own : ∀ key, g.index.ids key ⊆ g.records.map Record.id) (key : String) :
    next.index.ids key = g.index.ids key ++ asked type ds batch key := by
  induction batch generalizing g with
  | nil =>
    obtain rfl := Outcome.done.inj run
    simp [asked]
  | cons r rest ih =>
    rw [List.foldlM_cons] at run
    cases first : extend type ds g r with
    | failed e => simp [first] at run
    | faulted fault => simp [first] at run
    | done taken =>
      obtain ⟨new, index, listed, rfl⟩ := extend_done first
      -- All that is listed so far are ids of earlier records, and this one has a new id.
      have fresh := get?_eq_none_iff.mp new
      have added (k : String) := ids_listRecord listed k
      have absent (k : String) : r.id ∉ g.index.ids k := fun old => fresh (own k old)
      simp only [absent, not_false_eq_true, true_and] at added
      have own' (k : String) : index.ids k ⊆ (g.records ++ [r]).map Record.id := by
        intro id member
        rw [added k] at member
        rw [List.map_append]
        split at member
        · rcases List.mem_append.mp member with old | new
          · exact List.mem_append_left _ (own k old)
          · exact List.mem_append_right _ new
        · exact List.mem_append_left _ (own k member)
      rw [first, Outcome.bind_done] at run
      rw [ih run own', index_add, added key, asked_cons]
      by_cases asks : ∃ d ∈ ds, d.Asks type r key
      · simp [asks]
      · simp [asks]

/-- A build lists, under every key, the ids of the records that some definition asks for there, in
load order and each of them once. -/
theorem ids_build {batch : List Record} (run : build type batch ds = .done next) (key : String) :
    next.index.ids key = asked type ds batch key := by
  have own (k : String) : empty.index.ids k ⊆ empty.records.map Record.id := List.nil_subset _
  exact (ids_foldlM_extend run own key).trans (List.nil_append _)

end Generation

end LiveTables
