import LiveTables.Proofs.BuiltTable

namespace LiveTables.Generation

variable {type : RecordType} {d : IndexDef} {ds es : List IndexDef} {batch rest : List Record}
  {table : IndexTable RecordId} {g next : Generation} {key : String}

/-- A later application lists what is missing at the ends of the lists, in load order. -/
theorem ids_listAll (distinct : (batch.map Record.id).Nodup)
    (whole : (listAll type d table batch).2 = none) (key : String) :
    (listAll type d table batch).1.ids key = table.ids key ++
      (asked type [d] batch key).filter fun id => id ∉ table.ids key := by
  induction batch generalizing table with
  | nil => exact (List.append_nil _).symm
  | cons r rest ih =>
    obtain ⟨fresh, distinct⟩ := List.nodup_cons.mp distinct
    have later (id : RecordId) (member : id ∈ asked type [d] rest key) : id ≠ r.id := by
      rintro rfl
      exact fresh ((asked_sublist _ _ _ _).mem member)
    rw [asked_cons]
    cases atRecord : d.valuesFor r with
    | error fault => simp [listAll, atRecord] at whole
    | ok given =>
      cases given with
      | none =>
        have skipped : ¬d.Asks type r key := by simp [IndexDef.Asks, atRecord]
        simp only [listAll, atRecord] at whole ⊢
        simpa [skipped] using ih distinct whole
      | some values =>
        simp only [listAll, atRecord] at whole ⊢
        rw [ih distinct whole, IndexTable.ids_insert]
        by_cases here : key = type.key d.name values
        · have asks : d.Asks type r key := (IndexDef.asks_iff atRecord).mpr here
          by_cases listed : r.id ∈ table.ids key
          · simp [← here, asks, listed]
          · -- No later record has the id that is inserted here, so the filter sees no difference.
            have missing :
                (asked type [d] rest key).filter (fun id => id ∉ table.ids key ++ [r.id]) =
                  (asked type [d] rest key).filter fun id => id ∉ table.ids key :=
              List.filter_congr fun id member => by simp [later id member]
            rw [if_pos here, ← here, if_neg listed, missing]
            simp [asks, listed]
        · have others : ¬d.Asks type r key :=
            fun asks => here ((IndexDef.asks_iff atRecord).mp asks)
          simp [here, others]

/-- The definitions that ask for anything under a key ask for the same records. -/
def Agreed (type : RecordType) (ds : List IndexDef) (batch : List Record) (key : String) : Prop :=
  ∀ d ∈ ds, ∀ e ∈ ds, ∀ r ∈ batch, ∀ q ∈ batch, d.Asks type r key → e.Asks type q key →
    d.Asks type q key

theorem Agreed.mono (agreed : Agreed type es batch key) (some : ds ⊆ es) :
    Agreed type ds batch key :=
  fun d member e member' => agreed d (some member) e (some member')

/-- Under such a key one more definition lists nothing new or all that is listed. -/
theorem Agreed.asked_append (agreed : Agreed type (ds ++ [d]) batch key) :
    asked type (ds ++ [d]) batch key = asked type ds batch key ++
      (asked type [d] batch key).filter fun id => id ∉ asked type ds batch key := by
  by_cases some : Wanted type ds batch key
  · -- An earlier definition asks here, so it asks for whatever the last one asks for.
    obtain ⟨r, inBatch, e, member, asks⟩ := some
    have also (q : Record) (inBatch' : q ∈ batch) (more : d.Asks type q key) :
        ∃ e ∈ ds, e.Asks type q key :=
      ⟨e, member, agreed e (List.mem_append_left _ member) d (by simp) r inBatch q inBatch' asks
        more⟩
    have nothing :
        (asked type [d] batch key).filter (fun id => id ∉ asked type ds batch key) = [] := by
      refine List.filter_eq_nil_iff.mpr fun id member => ?_
      obtain ⟨q, inBatch, same, f, member, more⟩ := mem_asked.mp member
      obtain rfl := List.mem_singleton.mp member
      simpa using mem_asked.mpr ⟨q, inBatch, same, also q inBatch more⟩
    rw [nothing, List.append_nil]
    refine congrArg (List.map Record.id) (List.filter_congr fun q inBatch => ?_)
    rw [decide_eq_decide]
    constructor
    · rintro ⟨f, member, more⟩
      rcases List.mem_append.mp member with old | new
      · exact ⟨f, old, more⟩
      · obtain rfl := List.mem_singleton.mp new
        exact also q inBatch more
    · rintro ⟨f, old, more⟩
      exact ⟨f, List.mem_append_left _ old, more⟩
  · rw [asked_append_right some, asked_eq_nil_iff.mpr some, List.nil_append]
    exact (List.filter_eq_self.mpr fun _ _ => by simp).symm

/-- A table lists under every key what definitions ask for on a batch. Where those that ask at all
agree, the list stands in load order. -/
structure Lists (type : RecordType) (ds : List IndexDef) (batch : List Record)
    (table : IndexTable RecordId) : Prop where
  members : ∀ key id, id ∈ table.ids key ↔ id ∈ asked type ds batch key
  ordered : ∀ key, Agreed type ds batch key → table.ids key = asked type ds batch key

theorem Lists.congr (lists : Lists type ds batch table) (same : ∀ d, d ∈ ds ↔ d ∈ es) :
    Lists type es batch table where
  members key id := by
    rw [lists.members, asked_congr same]
  ordered key agreed := by
    rw [lists.ordered key (agreed.mono fun d => (same d).mp), asked_congr same]

/-- A build lists the records under a key in load order, whichever definitions ask for them. -/
theorem lists_build (run : build type batch ds = .done next) : Lists type ds batch next.index where
  members key id := by rw [ids_build run]
  ordered key _ := ids_build run key

/-- One more definition is applied to the whole batch. -/
theorem Lists.listAll (lists : Lists type ds batch table) (distinct : (batch.map Record.id).Nodup)
    (whole : (listAll type d table batch).2 = none) :
    Lists type (ds ++ [d]) batch (Generation.listAll type d table batch).1 where
  members key id := by
    have added : Adds type [d] batch table (Generation.listAll type d table batch).1 := by
      rcases listAll_cases type d table batch with ⟨_, _, added⟩ | ⟨_, faulted, _⟩
      · exact added
      · rw [whole] at faulted
        cases faulted
    rw [added, lists.members, mem_asked, mem_asked]
    simp only [List.mem_append, or_and_right, exists_or, and_or_left]
  ordered key agreed := by
    have earlier := lists.ordered key (agreed.mono (List.subset_append_left ds [d]))
    rw [ids_listAll distinct whole, earlier, agreed.asked_append]

theorem Lists.applyIndexes (g : Generation) (lists : Lists type ds g.records g.index)
    (applied : g.applyIndexes type es = .done next) :
    Lists type (ds ++ es) g.records next.index := by
  induction es generalizing g ds with
  | nil =>
    obtain rfl := Outcome.done.inj applied
    rwa [List.append_nil]
  | cons d rest ih =>
    unfold Generation.applyIndexes at applied
    split at applied
    · rename_i first atFirst
      obtain ⟨rfl, whole⟩ := Prod.mk.inj atFirst
      have more := ih (g.applyIndex type d).1 (lists.listAll g.distinct whole) applied
      rwa [List.append_assoc] at more
    · contradiction

end LiveTables.Generation
