import Mathlib.Data.Set.Card
import LiveTables.IndexDef.Fields
import LiveTables.Proofs.BuiltTable
import LiveTables.Proofs.Filling

namespace LiveTables

namespace IndexTable

variable {t : IndexTable RecordId}

/-- A table has as many keys as there are keys that list something. -/
theorem Proper.size_eq_ncard (proper : t.Proper) : t.size = {key | t.ids key ≠ []}.ncard := by
  have keys : {key | t.ids key ≠ []} = ↑t.keys.toFinset := by
    ext key
    rw [Set.mem_ofPred_eq, ← proper.used, containsKey_iff]
    simp
  rw [keys, Set.ncard_coe_finset, List.toFinset_card_of_nodup proper.once]
  exact (List.length_map _).symm

end IndexTable

namespace Generation

variable {type : RecordType} {ds : List IndexDef} {batch : List Record} {g : Generation}

/-- A build over distinct ids and definitions that answer succeeds. -/
theorem build_of_answers (type : RecordType) (distinct : (batch.map Record.id).Nodup)
    (answers : ∀ d ∈ ds, ∀ r ∈ batch, d.Answers r) :
    ∃ index, build type batch ds = .done (.ofRecords 0 batch index distinct) := by
  rcases build_cases type batch ds with
    ⟨index, _, built, _⟩ | ⟨before, r, after, _, rfl, again⟩ |
      ⟨fault, _, d, member, r, inBatch, faulted⟩
  · exact ⟨index, built⟩
  · rw [List.map_append, List.map_cons, List.nodup_append] at distinct
    exact absurd rfl (distinct.2.2 _ again _ List.mem_cons_self)
  · exact absurd faulted ((answers d member r inBatch).ne_error fault)

theorem proper_build (built : build type batch ds = .done g) : g.index.Proper :=
  (filled_foldlM_extend built).proper IndexTable.proper_empty

theorem nodup_asked (distinct : (batch.map Record.id).Nodup) (key : String) :
    (asked type ds batch key).Nodup := (asked_sublist type ds batch key).nodup distinct

/-- The table of a build is settled by what the definitions ask for. Under each key stand the ids of
the records that some definition asks for there, in load order and each once, and there are no other
keys than those that are asked for. -/
theorem build_exact (type : RecordType) (distinct : (batch.map Record.id).Nodup)
    (answers : ∀ d ∈ ds, ∀ r ∈ batch, d.Answers r) :
    ∃ index, build type batch ds = .done (.ofRecords 0 batch index distinct) ∧
      (∀ key, index.ids key =
        (batch.filter fun r => ∃ d ∈ ds, d.Asks type r key).map Record.id) ∧
      (∀ key, (index.ids key).Nodup) ∧
      (∀ key, key ∈ index.keys ↔ index.ids key ≠ []) ∧
      (∀ key, index.containsKey key = true ↔ Wanted type ds batch key) ∧
      index.keys.Nodup ∧ index.size = {key | Wanted type ds batch key}.ncard := by
  obtain ⟨index, built⟩ := build_of_answers type distinct answers
  have listed (key : String) : index.ids key = asked type ds batch key := ids_build built key
  have proper : index.Proper := proper_build built
  have some (key : String) : index.ids key ≠ [] ↔ Wanted type ds batch key := by
    rw [listed, ne_eq, asked_eq_nil_iff, not_not]
  refine ⟨index, built, listed, ?_, ?_, ?_, proper.once, ?_⟩
  · intro key
    rw [listed]
    exact nodup_asked distinct key
  · intro key
    rw [← IndexTable.containsKey_iff, proper.used]
  · intro key
    rw [proper.used, some]
  · rw [proper.size_eq_ncard]
    simp only [some]

/-- Two definitions whose names and values can run into one another. -/
def crossed : List IndexDef := [.byField "kind#x" "b", .byField "kind" "c"]

/-- Under one key the first record is asked for twice, the others once each. -/
def crossedItems : List Record :=
  [⟨.number 3, [("b", .text "y"), ("c", .text "x#y")]⟩,
    ⟨.number 1, [("b", .text "z"), ("c", .text "x#y")]⟩, ⟨.number 2, [("b", .text "y")]⟩]

theorem crossed_listed : ∃ index,
    build ⟨0, "Item", "", .number, []⟩ crossedItems crossed =
        .done (.ofRecords 0 crossedItems index (by decide)) ∧
      index.ids "Item&kind#x#y" = [.number 3, .number 1, .number 2] ∧
      index.containsKey "Item&kind#null" = true ∧ index.containsKey "Item&kind#y" = false := by
  have answers : ∀ d ∈ crossed, ∀ r ∈ crossedItems, d.Answers r := by
    intro d member r _
    rcases List.mem_cons.mp member with rfl | member
    · exact ⟨_, rfl⟩
    · obtain rfl := List.mem_singleton.mp member
      exact ⟨_, rfl⟩
  obtain ⟨index, built, listed, _, _, keys, _⟩ :=
    build_exact ⟨0, "Item", "", .number, []⟩ (by decide) answers
  refine ⟨index, built, (listed _).trans (by decide), (keys _).mpr (by decide), ?_⟩
  rw [Bool.eq_false_iff]
  exact fun used => absurd ((keys _).mp used) (by decide)

end Generation

end LiveTables
