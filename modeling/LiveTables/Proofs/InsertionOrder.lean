import Mathlib.Data.Finset.Card
import LiveTables.IndexTable
import LiveTables.Proofs.FirstOccurrences

namespace LiveTables.IndexTable

variable {Id : Type} [DecidableEq Id]

/-- Insertions in turn, each with its answer. -/
def insertAll (t : IndexTable Id) : List (String × Id) → IndexTable Id × List Bool
  | [] => (t, [])
  | (key, id) :: rest =>
    let (next, isNew) := t.insertIfNew key id
    let (last, answers) := next.insertAll rest
    (last, isNew :: answers)

/-- The ids that insertions put under a key, repetitions included. -/
def under (key : String) (steps : List (String × Id)) : List Id :=
  (steps.filter fun step => step.1 = key).map Prod.snd

omit [DecidableEq Id] in
theorem mem_under {key : String} {steps : List (String × Id)} {id : Id} :
    id ∈ under key steps ↔ (key, id) ∈ steps := by
  simp only [under, List.mem_map, List.mem_filter, decide_eq_true_eq]
  constructor
  · rintro ⟨⟨_, _⟩, ⟨made, rfl⟩, rfl⟩
    exact made
  · intro made
    exact ⟨(key, id), ⟨made, rfl⟩, rfl⟩

/-- A table is what some insertions have made of a new one. One more insertion keeps this up. -/
structure Collects (past : List (String × Id)) (t : IndexTable Id) : Prop where
  ids : ∀ key, t.ids key = (under key past).eraseDups
  keys : t.keys = (past.map Prod.fst).eraseDups

theorem collects_empty : Collects [] ({} : IndexTable Id) := ⟨fun _ => rfl, rfl⟩

variable {past steps : List (String × Id)} {t : IndexTable Id} {key : String} {id : Id}

theorem Collects.mem_ids (collects : Collects past t) : id ∈ t.ids key ↔ (key, id) ∈ past := by
  rw [collects.ids, List.mem_eraseDups, mem_under]

theorem Collects.mem_keys (collects : Collects past t) :
    key ∈ t.keys ↔ ∃ id, (key, id) ∈ past := by
  rw [collects.keys, List.mem_eraseDups, List.mem_map]
  constructor
  · rintro ⟨⟨_, id⟩, made, rfl⟩
    exact ⟨id, made⟩
  · rintro ⟨id, made⟩
    exact ⟨(key, id), made, rfl⟩

theorem Collects.insert (collects : Collects past t) (key : String) (id : Id) :
    Collects (past ++ [(key, id)]) (t.insert key id) := by
  constructor
  · intro k
    rw [ids_insert]
    by_cases same : k = key
    · subst same
      have added : under k (past ++ [(k, id)]) = under k past ++ [id] := by simp [under]
      rw [if_pos rfl, added, eraseDups_concat_eq, collects.ids]
      simp only [List.mem_eraseDups]
    · -- Under other keys the insertion is not counted.
      have others : under k (past ++ [(key, id)]) = under k past := by simp [under, Ne.symm same]
      rw [if_neg same, others, collects.ids]
  · rw [keys_insert, List.map_append, List.map_singleton, eraseDups_concat_eq, collects.keys]
    simp only [List.mem_eraseDups]

theorem Collects.insertAll (collects : Collects past t) (steps : List (String × Id)) :
    Collects (past ++ steps) (t.insertAll steps).1 := by
  induction steps generalizing past t with
  | nil => simpa [IndexTable.insertAll] using collects
  | cons step rest ih =>
    have later := ih (collects.insert step.1 step.2)
    rw [List.append_assoc] at later
    exact later

theorem length_insertAll (t : IndexTable Id) (steps : List (String × Id)) :
    (t.insertAll steps).2.length = steps.length := by
  induction steps generalizing t with
  | nil => rfl
  | cons step rest ih => exact congrArg (· + 1) (ih (t.insert step.1 step.2))

/-- An insertion is answered by whether none before it was the same. -/
theorem Collects.answer (collects : Collects past t) {i : Nat} {step : String × Id}
    (made : steps[i]? = some step) :
    (t.insertAll steps).2[i]? = some (decide (step ∉ past ++ steps.take i)) := by
  induction steps generalizing past t i with
  | nil => simp at made
  | cons first rest ih =>
    -- What the answers of the rest look back at is `past` and the first insertion.
    cases i with
    | zero =>
      obtain rfl := Option.some.inj made
      simp only [IndexTable.insertAll, insertIfNew_snd, lists, List.getElem?_cons_zero,
        collects.mem_ids, List.take_zero, List.append_nil, decide_not]
    | succ i =>
      have later := ih (collects.insert first.1 first.2) made
      rw [List.append_assoc] at later
      exact later

omit [DecidableEq Id] in
/-- Where no key has two entries, each entry is the list of its key. -/
theorem ids_of_entry {entry : String × List Id} (once : t.keys.Nodup) (stored : entry ∈ t.entries) :
    t.ids entry.1 = entry.2 := by
  obtain ⟨before, after, split⟩ := List.append_of_mem stored
  rw [keys, split, List.map_append, List.map_cons, List.nodup_append] at once
  have absent : ∀ other ∈ before, (entry.1 != other.1) = true := by
    intro other member
    have apart := once.2.2 other.1 (List.mem_map_of_mem member) entry.1 List.mem_cons_self
    simpa using Ne.symm apart
  have found : t.entries.lookup entry.1 = some entry.2 :=
    List.lookup_eq_some_iff.mpr ⟨before, after, split, absent⟩
  rw [ids, found, Option.getD_some]

theorem Collects.nodup_keys (collects : Collects past t) : t.keys.Nodup :=
  collects.keys ▸ nodup_eraseDups _

theorem Collects.nodup_ids (collects : Collects past t) (key : String) : (t.ids key).Nodup :=
  collects.ids key ▸ nodup_eraseDups _

theorem Collects.ids_ne_nil (collects : Collects past t) (used : key ∈ t.keys) :
    t.ids key ≠ [] := by
  obtain ⟨id, made⟩ := collects.mem_keys.mp used
  exact List.ne_nil_of_mem (collects.mem_ids.mpr made)

theorem Collects.size (collects : Collects past t) :
    t.size = (past.map Prod.fst).toFinset.card := by
  have keys : t.keys.toFinset = (past.map Prod.fst).toFinset := by
    ext key
    rw [collects.keys, List.mem_toFinset, List.mem_toFinset, List.mem_eraseDups]
  rw [← keys, List.toFinset_card_of_nodup collects.nodup_keys]
  exact (List.length_map _).symm

/-- Insertions into a new table, of whatever keys and ids in whatever order, leave under each key
the ids inserted there in the order of their first insertions, and an insertion is answered by
whether it was the first of its key and id. All lists that are stored have an id and none twice, the
keys are those of the insertions, each of them once, and one more insertion leaves the lists of
other keys as they are. -/
theorem insertAll_exact (steps : List (String × Id)) {t : IndexTable Id} {answers : List Bool}
    (run : ({} : IndexTable Id).insertAll steps = (t, answers)) :
    (∀ key, t.ids key = (under key steps).eraseDups) ∧
    answers.length = steps.length ∧
    (∀ i step, steps[i]? = some step → answers[i]? = some (decide (step ∉ steps.take i))) ∧
    (∀ entry ∈ t.entries, entry.2 ≠ [] ∧ entry.2.Nodup) ∧
    (∀ key, (t.containsKey key = true ↔ ∃ id, (key, id) ∈ steps) ∧
      (key ∈ t.keys ↔ ∃ id, (key, id) ∈ steps)) ∧
    t.keys.Nodup ∧ t.size = (steps.map Prod.fst).toFinset.card ∧
    ∀ key id other, other ≠ key → (t.insert key id).ids other = t.ids other := by
  have collects : Collects steps t := by
    have after := collects_empty.insertAll steps
    rwa [run] at after
  refine ⟨collects.ids, ?_, fun i step made => ?_, fun entry stored => ?_, fun key => ?_,
    collects.nodup_keys, collects.size, fun key id other apart => ?_⟩
  · have length := length_insertAll ({} : IndexTable Id) steps
    rwa [run] at length
  · have answer := collects_empty.answer made
    rwa [run] at answer
  · have list := ids_of_entry collects.nodup_keys stored
    rw [← list]
    exact ⟨collects.ids_ne_nil (List.mem_map_of_mem stored), collects.nodup_ids entry.1⟩
  · exact ⟨(t.containsKey_iff key).trans collects.mem_keys, collects.mem_keys⟩
  · rw [ids_insert, if_neg apart]

/-- Two keys by turns, with one insertion that is made again. -/
theorem repeated_insertion_answered :
    ({} : IndexTable Nat).insertAll [("a", 9), ("b", 3), ("a", 3), ("a", 9)] =
      (⟨[("a", [9, 3]), ("b", [3])]⟩, [true, true, true, false]) ∧
    (⟨[("a", [9, 3]), ("b", [3])]⟩ : IndexTable Nat).size = 2 := by
  have run : ({} : IndexTable Nat).insertAll [("a", 9), ("b", 3), ("a", 3), ("a", 9)] =
      (⟨[("a", [9, 3]), ("b", [3])]⟩, [true, true, true, false]) := by rfl
  obtain ⟨_, _, _, _, _, _, size, _⟩ := insertAll_exact _ run
  exact ⟨run, size.trans (by decide)⟩

end LiveTables.IndexTable
