import Mathlib.Data.List.Nodup
import LiveTables.Proofs.Conclusion

namespace LiveTables

namespace IndexTable

/-- A table comes from another one by insertions, one after another. Whatever lists ids in a table
does so in this way. -/
inductive Filled (t : IndexTable RecordId) : IndexTable RecordId → Prop
  | start : Filled t t
  | insert {next : IndexTable RecordId} (key : String) (id : RecordId) :
      Filled t next → Filled t (next.insert key id)

variable {t next last other : IndexTable RecordId}

theorem Filled.trans (first : t.Filled next) (second : next.Filled last) : t.Filled last := by
  induction second with
  | start => exact first
  | insert key id _ ih => exact ih.insert key id

/-- Lists only grow, and only at their ends. -/
theorem Filled.ids_prefix (filled : t.Filled next) (key : String) :
    t.ids key <+: next.ids key := by
  induction filled with
  | start => exact List.prefix_refl _
  | @insert next k id _ ih => exact ih.trans (next.ids_prefix_insert k key id)

/-- No key disappears. -/
theorem Filled.containsKey (filled : t.Filled next) {key : String}
    (used : t.containsKey key = true) : next.containsKey key = true := by
  induction filled with
  | start => exact used
  | insert k id _ ih => rw [containsKey_insert, ih, Bool.or_true]

/-- No id stands twice under a key if none did so before. -/
theorem Filled.nodup (filled : t.Filled next) (once : ∀ key, (t.ids key).Nodup) (key : String) :
    (next.ids key).Nodup := by
  induction filled generalizing key with
  | start => exact once key
  | @insert next k id _ ih =>
    rw [ids_insert]
    by_cases same : key = k
    · rw [if_pos same]
      split
      · exact ih k
      · rename_i absent
        exact List.concat_eq_append ▸ (ih k).concat absent
    · rw [if_neg same]
      exact ih key

/-- Every key of a table stands there once and lists something. -/
structure Proper (t : IndexTable RecordId) : Prop where
  once : t.keys.Nodup
  used : ∀ key, t.containsKey key = true ↔ t.ids key ≠ []

theorem Filled.proper (filled : t.Filled next) (proper : t.Proper) : next.Proper := by
  induction filled with
  | start => exact proper
  | @insert next k id _ ih =>
    refine ⟨?_, fun key => ?_⟩
    · rw [keys_insert]
      split
      · exact ih.once
      · rename_i new
        exact List.concat_eq_append ▸ ih.once.concat new
    · rw [containsKey_insert, ids_insert]
      by_cases same : key = k
      · subst same
        by_cases listed : id ∈ next.ids key
        · simp [listed, List.ne_nil_of_mem listed]
        · simp [listed]
      · simpa [same] using ih.used key

theorem proper_empty : ({} : IndexTable RecordId).Proper :=
  ⟨List.nodup_nil, fun _ => ⟨nofun, fun some => absurd rfl some⟩⟩

/-- Tables that list the same ids under every key, in whatever order, have the same keys. -/
theorem Proper.same_keys (proper : t.Proper) (otherProper : other.Proper)
    (listed : ∀ key id, id ∈ other.ids key ↔ id ∈ t.ids key) :
    (∀ key, other.containsKey key = t.containsKey key) ∧ other.size = t.size := by
  have same (key : String) : other.containsKey key = t.containsKey key := by
    have none : other.ids key = [] ↔ t.ids key = [] := by
      simp only [List.eq_nil_iff_forall_not_mem, listed key]
    rw [Bool.eq_iff_iff, otherProper.used, proper.used, ne_eq, ne_eq, none]
  have keys : other.keys.Perm t.keys := by
    refine (List.perm_ext_iff_of_nodup otherProper.once proper.once).mpr fun key => ?_
    rw [← containsKey_iff, ← containsKey_iff, same]
  refine ⟨same, ?_⟩
  simpa [IndexTable.keys, size] using keys.length_eq

end IndexTable

namespace Generation

variable {type : RecordType} {ds : List IndexDef} {r : Record} {g next : Generation}

theorem filled_listRecord {table last : IndexTable RecordId}
    (run : listRecord type r table ds = .done last) : table.Filled last := by
  induction ds generalizing table with
  | nil =>
    obtain rfl := Outcome.done.inj run
    exact .start
  | cons d rest ih =>
    unfold listRecord at run
    split at run
    · contradiction
    · exact ih run
    · exact (IndexTable.Filled.start.insert _ _).trans (ih run)

theorem filled_extend (run : extend type ds g r = .done next) : g.index.Filled next.index := by
  obtain ⟨new, index, listed, rfl⟩ := extend_done run
  exact filled_listRecord listed

theorem filled_foldlM_extend {batch : List Record}
    (run : batch.foldlM (extend type ds) g = .done next) : g.index.Filled next.index := by
  induction batch generalizing g with
  | nil =>
    obtain rfl := Outcome.done.inj run
    exact .start
  | cons r rest ih =>
    rw [List.foldlM_cons] at run
    cases first : extend type ds g r with
    | failed e => simp [first] at run
    | faulted fault => simp [first] at run
    | done taken =>
      rw [first, Outcome.bind_done] at run
      exact (filled_extend first).trans (ih run)

/-- Applying a definition inserts, also up to where it ends abruptly. -/
theorem filled_listAll (type : RecordType) (d : IndexDef) (table : IndexTable RecordId)
    (rs : List Record) : table.Filled (listAll type d table rs).1 := by
  induction rs generalizing table with
  | nil => exact .start
  | cons r rest ih =>
    unfold listAll
    split
    · exact .start
    · exact ih table
    · exact (IndexTable.Filled.start.insert _ _).trans (ih _)

theorem filled_applyIndexes (run : applyIndexes type g ds = .done next) :
    g.index.Filled next.index := by
  induction ds generalizing g with
  | nil =>
    obtain rfl := Outcome.done.inj run
    exact .start
  | cons d rest ih =>
    unfold applyIndexes at run
    split at run
    · rename_i applied atFirst
      have first := filled_listAll type d g.index g.records
      have same : (listAll type d g.index g.records).1 = applied.index :=
        congrArg (·.1.index) atFirst
      exact (same ▸ first).trans (ih run)
    · contradiction

/-- A generation has been added to by insertions into its table. Its number, its records and the
look-up of records by their ids are as they were. -/
structure Gains (g next : Generation) : Prop where
  number : next.number = g.number
  records : next.records = g.records
  index : g.index.Filled next.index

theorem Gains.refl (g : Generation) : g.Gains g := ⟨rfl, rfl, .start⟩

theorem Gains.trans {last : Generation} (first : g.Gains next) (second : next.Gains last) :
    g.Gains last where
  number := second.number.trans first.number
  records := second.records.trans first.records
  index := first.index.trans second.index

/-- Lists only grow, and only at their ends. -/
theorem Gains.ids_prefix (gains : g.Gains next) (key : String) :
    g.index.ids key <+: next.index.ids key := gains.index.ids_prefix key

theorem Gains.get?_eq (gains : g.Gains next) (id : RecordId) : next.get? id = g.get? id := by
  rw [get?_eq_find?, get?_eq_find?, gains.records]

/-- A change to the generation of a number, seen from any generation. -/
theorem Gains.atNumber {change : Generation → Generation}
    (gains : ∀ g : Generation, g.Gains (change g)) (number : Nat) (g : Generation) :
    g.Gains (if g.number = number then change g else g) := by
  split
  · exact gains g
  · exact .refl g

theorem gains_insertKey (g : Generation) (key : String) (id : RecordId) :
    g.Gains (g.insertKey key id).1 := ⟨rfl, rfl, IndexTable.Filled.start.insert key id⟩

theorem gains_applyIndex (g : Generation) (type : RecordType) (d : IndexDef) :
    g.Gains (g.applyIndex type d).1 := ⟨rfl, rfl, filled_listAll type d g.index g.records⟩

end Generation

/-- What a reload publishes is filled from an empty table. -/
theorem Store.filled_conclude {it next : Store} {plan : Plan} {outcome : Outcome (List Record)}
    {n : Nat} (published : it.conclude plan outcome = (next, .done n)) :
    ({} : IndexTable RecordId).Filled next.current.index := by
  unfold conclude at published
  split at published
  · rename_i built whole
    obtain ⟨batch, _, run⟩ : ∃ batch, outcome = .done batch ∧
        Generation.build it.recordType batch plan.indexes = .done built := by
      cases outcome with
      | done batch => exact ⟨batch, rfl, whole⟩
      | failed e => cases whole
      | faulted fault => cases whole
    have filled : ({} : IndexTable RecordId).Filled built.index :=
      Generation.filled_foldlM_extend run
    unfold publish at published
    dsimp only at published
    split at published
    · rename_i last applied
      obtain rfl := (Prod.mk.inj published).1
      split at applied
      · obtain rfl := Outcome.done.inj applied
        exact filled
      · have late := Generation.filled_applyIndexes applied
        exact filled.trans late
    · cases published
    · cases published
  · cases published
  · cases published

end LiveTables
