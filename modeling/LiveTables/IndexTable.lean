namespace LiveTables

/-- A table that lists ids under keys. Under each key the ids stand in the order of their first
insertion, and keys keep the order of their first use. -/
structure IndexTable (Id : Type) where
  entries : List (String × List Id) := []
deriving Inhabited, Repr

namespace IndexTable

variable {Id : Type} [DecidableEq Id]

def ids (t : IndexTable Id) (key : String) : List Id := (t.entries.lookup key).getD []

def lists (t : IndexTable Id) (key : String) (id : Id) : Bool := id ∈ t.ids key

/-- Adds an id at the end of a key's list, in a new last entry if the key has none, and answers
whether the id is new there. -/
def insertEntry (key : String) (id : Id) :
    List (String × List Id) → List (String × List Id) × Bool
  | [] => ([(key, [id])], true)
  | (k, ids) :: rest =>
    if key = k then
      if id ∈ ids then ((k, ids) :: rest, false) else ((k, ids ++ [id]) :: rest, true)
    else
      let (rest, isNew) := insertEntry key id rest
      ((k, ids) :: rest, isNew)

/-- Lists an id under a key, unless it is already listed there, and answers whether it was new. -/
def insertIfNew (t : IndexTable Id) (key : String) (id : Id) : IndexTable Id × Bool :=
  let (entries, isNew) := insertEntry key id t.entries
  (⟨entries⟩, isNew)

/-- The table after an insertion whose answer is not asked for. -/
def insert (t : IndexTable Id) (key : String) (id : Id) : IndexTable Id := (t.insertIfNew key id).1

def containsKey (t : IndexTable Id) (key : String) : Bool := (t.entries.lookup key).isSome

def keys (t : IndexTable Id) : List String := t.entries.map Prod.fst

def size (t : IndexTable Id) : Nat := t.entries.length

def isEmpty (t : IndexTable Id) : Bool := t.entries.isEmpty

theorem lookup_insertEntry (key k : String) (id : Id) (entries : List (String × List Id)) :
    (insertEntry key id entries).1.lookup k =
      if k = key then
        some (match entries.lookup key with
          | none => [id]
          | some ids => if id ∈ ids then ids else ids ++ [id])
      else entries.lookup k := by
  induction entries with
  | nil => by_cases same : k = key <;> simp [insertEntry, List.lookup_cons, same, beq_false_of_ne]
  | cons entry rest ih =>
    obtain ⟨k', ids⟩ := entry
    by_cases here : key = k'
    · subst here
      by_cases listed : id ∈ ids <;> by_cases same : k = key <;>
        simp [insertEntry, List.lookup_cons, listed, same, beq_false_of_ne]
    · by_cases same : k = k'
      · subst same
        have other : ¬k = key := fun h => here h.symm
        simp [insertEntry, here, other]
      · simp [insertEntry, here, List.lookup_cons, beq_false_of_ne here, beq_false_of_ne same, ih]

/-- An id is new under a key exactly if it is not listed there. -/
theorem insertEntry_snd (key : String) (id : Id) (entries : List (String × List Id)) :
    (insertEntry key id entries).2 = !decide (id ∈ (entries.lookup key).getD []) := by
  induction entries with
  | nil => simp [insertEntry]
  | cons entry rest ih =>
    obtain ⟨k, ids⟩ := entry
    by_cases here : key = k
    · subst here
      by_cases listed : id ∈ ids <;> simp [insertEntry, listed]
    · simp [insertEntry, here, List.lookup_cons, beq_false_of_ne here, ih]

theorem insertIfNew_snd (t : IndexTable Id) (key : String) (id : Id) :
    (t.insertIfNew key id).2 = !t.lists key id := insertEntry_snd key id t.entries

/-- An insertion changes one list, and that one only at its end. -/
theorem ids_insert (t : IndexTable Id) (key k : String) (id : Id) :
    (t.insert key id).ids k =
      if k = key then (if id ∈ t.ids key then t.ids key else t.ids key ++ [id])
      else t.ids k := by
  unfold ids insert insertIfNew
  rw [lookup_insertEntry]
  by_cases same : k = key
  · cases atKey : t.entries.lookup key <;> simp [same]
  · simp [same]

theorem insertEntry_of_listed {key : String} {id : Id} {entries : List (String × List Id)}
    (listed : id ∈ (entries.lookup key).getD []) : (insertEntry key id entries).1 = entries := by
  induction entries with
  | nil => cases listed
  | cons entry rest ih =>
    obtain ⟨k, ids⟩ := entry
    by_cases here : key = k
    · subst here
      have inside : id ∈ ids := by simpa [List.lookup_cons] using listed
      simp [insertEntry, inside]
    · have later : id ∈ (rest.lookup key).getD [] := by
        simpa [List.lookup_cons, beq_false_of_ne here] using listed
      simp [insertEntry, here, ih later]

/-- An id that is listed already is not listed again. -/
theorem insert_of_listed {t : IndexTable Id} {key : String} {id : Id} (listed : id ∈ t.ids key) :
    t.insert key id = t := by
  have same := insertEntry_of_listed listed
  simp only [insert, insertIfNew, same]

/-- A key is used from its first insertion on. -/
theorem containsKey_insert (t : IndexTable Id) (key k : String) (id : Id) :
    (t.insert key id).containsKey k = (k = key || t.containsKey k) := by
  unfold containsKey insert insertIfNew
  rw [lookup_insertEntry]
  by_cases same : k = key <;> simp [same]

omit [DecidableEq Id] in
theorem containsKey_iff (t : IndexTable Id) (key : String) :
    t.containsKey key = true ↔ key ∈ t.keys := by
  rw [containsKey, keys, List.lookup_isSome_iff, List.mem_map]
  simp only [beq_iff_eq, eq_comm (a := key)]

theorem keys_insert (t : IndexTable Id) (key : String) (id : Id) :
    (t.insert key id).keys = if key ∈ t.keys then t.keys else t.keys ++ [key] := by
  unfold keys insert insertIfNew
  dsimp only
  induction t.entries with
  | nil => rfl
  | cons entry rest ih =>
    obtain ⟨k, ids⟩ := entry
    by_cases same : key = k
    · by_cases listed : id ∈ ids <;> simp [insertEntry, same, listed]
    · simp only [insertEntry, same, if_false, List.map_cons, ih, List.mem_cons, false_or]
      split <;> rfl

end IndexTable

end LiveTables
