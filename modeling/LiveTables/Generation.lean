import LiveTables.IndexTable
import LiveTables.Record

namespace LiveTables

/-- A numbered batch of records in load order, the records by their ids, and the ids listed under
index keys. The records of a generation never change; its index table can still grow. -/
structure Generation where
  number : Nat := 0
  records : List Record := []
  byId : List (RecordId × Record) := []
  index : IndexTable RecordId := {}
  byId_eq : byId = records.map fun r => (r.id, r) := by rfl
  distinct : (records.map Record.id).Nodup := by exact List.nodup_nil

instance : Inhabited Generation := ⟨{}⟩

namespace Generation

def empty : Generation := {}

def get? (g : Generation) (id : RecordId) : Option Record := g.byId.lookup id

/-- What is found by its id is the record that has the id. -/
theorem get?_eq_find? (g : Generation) (id : RecordId) :
    g.get? id = g.records.find? (·.id = id) := by
  rw [get?, g.byId_eq]
  induction g.records with
  | nil => rfl
  | cons r rest ih =>
    rw [List.map_cons, List.lookup_cons, List.find?_cons, ih]
    by_cases same : id = r.id
    · simp [same]
    · simp [beq_false_of_ne same, Ne.symm same]

theorem get?_eq_none_iff {g : Generation} {id : RecordId} :
    g.get? id = none ↔ id ∉ g.records.map Record.id := by
  simp [get?_eq_find?]

theorem mem_of_get? {g : Generation} {id : RecordId} {r : Record} (found : g.get? id = some r) :
    r ∈ g.records ∧ r.id = id := by
  rw [get?_eq_find?] at found
  exact ⟨List.mem_of_find?_eq_some found, by simpa using List.find?_some found⟩

/-- The generation of some records under a number. -/
def ofRecords (number : Nat) (records : List Record) (index : IndexTable RecordId)
    (distinct : (records.map Record.id).Nodup) : Generation where
  number
  records
  byId := records.map fun r => (r.id, r)
  index
  distinct

section

variable (number : Nat) (records : List Record) (index : IndexTable RecordId)
  (distinct : (records.map Record.id).Nodup)

@[simp] theorem number_ofRecords : (ofRecords number records index distinct).number = number := rfl

@[simp] theorem records_ofRecords :
    (ofRecords number records index distinct).records = records := rfl

@[simp] theorem index_ofRecords : (ofRecords number records index distinct).index = index := rfl

end

/-- The records settle what is found by its id. -/
theorem eq_ofRecords {g : Generation} {number : Nat} {records : List Record}
    (numbered : g.number = number) (whole : g.records = records) :
    ∃ distinct, g = ofRecords number records g.index distinct := by
  obtain ⟨_, _, byId, index, rfl, distinct⟩ := g
  obtain rfl := numbered
  obtain rfl := whole
  exact ⟨distinct, rfl⟩

def size (g : Generation) : Nat := g.records.length

def isEmpty (g : Generation) : Bool := g.records.isEmpty

/-- Lists an id under a key of the index table, and answers whether it was new there. -/
def insertKey (g : Generation) (key : String) (id : RecordId) : Generation × Bool :=
  let (index, isNew) := g.index.insertIfNew key id
  ({ g with index }, isNew)

/-- The records that resolve the ids listed under a key. -/
def resolve (g : Generation) (key : String) : List Record := (g.index.ids key).filterMap g.get?

/-- Lists a record in a table as each definition in turn asks. -/
def listRecord (type : RecordType) (r : Record) (table : IndexTable RecordId) :
    List IndexDef → Outcome (IndexTable RecordId)
  | [] => .done table
  | d :: rest =>
    match d.valuesFor r with
    | .error fault => .faulted fault
    | .ok none => listRecord type r table rest
    | .ok (some values) => listRecord type r (table.insert (type.key d.name values) r.id) rest

/-- A generation with one more record, whose id is new. -/
def add (g : Generation) (r : Record) (index : IndexTable RecordId) (new : g.get? r.id = none) :
    Generation where
  number := g.number
  records := g.records ++ [r]
  byId := g.byId ++ [(r.id, r)]
  index
  byId_eq := by rw [g.byId_eq, List.map_append, List.map_singleton]
  distinct := by
    rw [List.map_append, List.map_singleton]
    refine List.nodup_append.mpr ⟨g.distinct, by simp, ?_⟩
    rintro id old _ single rfl
    rw [List.mem_singleton.mp single] at old
    exact get?_eq_none_iff.mp new old

@[simp] theorem index_add (g : Generation) (r : Record) (index : IndexTable RecordId)
    (new : g.get? r.id = none) : (g.add r index new).index = index := rfl

/-- Takes in one more record of a batch. An id that an earlier record has is refused before any
definition sees the record. -/
def extend (type : RecordType) (indexes : List IndexDef) (g : Generation) (r : Record) :
    Outcome Generation :=
  match known : g.get? r.id with
  | some _ => .failed (.duplicateId type.name r.id.describe)
  | none => do
    let index ← listRecord type r g.index indexes
    return g.add r index known

theorem extend_known {type : RecordType} {indexes : List IndexDef} {g : Generation}
    {r earlier : Record} (known : g.get? r.id = some earlier) :
    extend type indexes g r = .failed (.duplicateId type.name r.id.describe) := by
  unfold extend
  split
  · rfl
  · rename_i new
    rw [known] at new
    cases new

theorem extend_new {type : RecordType} {indexes : List IndexDef} {g : Generation} {r : Record}
    (new : g.get? r.id = none) : extend type indexes g r =
      (listRecord type r g.index indexes).bind fun index => .done (g.add r index new) := by
  unfold extend
  split
  · rename_i known
    rw [new] at known
    cases known
  · rfl

/-- The generation of a batch under the given definitions. -/
def build (type : RecordType) (batch : List Record) (indexes : List IndexDef) :
    Outcome Generation :=
  batch.foldlM (extend type indexes) empty

/-- Lists records in a table as one definition asks. A fault ends the work and leaves what was
listed before it. -/
def listAll (type : RecordType) (d : IndexDef) (table : IndexTable RecordId) :
    List Record → IndexTable RecordId × Option Fault
  | [] => (table, none)
  | r :: rest =>
    match d.valuesFor r with
    | .error fault => (table, some fault)
    | .ok none => listAll type d table rest
    | .ok (some values) => listAll type d (table.insert (type.key d.name values) r.id) rest

/-- Lists all records of a generation as a definition asks. -/
def applyIndex (type : RecordType) (d : IndexDef) (g : Generation) : Generation × Option Fault :=
  let (index, fault) := listAll type d g.index g.records
  ({ g with index }, fault)

theorem insertKey_snd (g : Generation) (key : String) (id : RecordId) :
    (g.insertKey key id).2 = !g.index.lists key id := g.index.insertIfNew_snd key id

@[simp] theorem records_applyIndex (type : RecordType) (d : IndexDef) (g : Generation) :
    (g.applyIndex type d).1.records = g.records := rfl

@[simp] theorem number_applyIndex (type : RecordType) (d : IndexDef) (g : Generation) :
    (g.applyIndex type d).1.number = g.number := rfl

/-- Applies definitions in turn, up to the first fault. -/
def applyIndexes (type : RecordType) (g : Generation) : List IndexDef → Outcome Generation
  | [] => .done g
  | d :: rest =>
    match g.applyIndex type d with
    | (g, none) => applyIndexes type g rest
    | (_, some fault) => .faulted fault

/-- Definitions add to the index table and leave the records alone. -/
theorem records_applyIndexes {type : RecordType} {g next : Generation} {ds : List IndexDef}
    (applied : applyIndexes type g ds = .done next) :
    next.records = g.records ∧ next.number = g.number := by
  induction ds generalizing g with
  | nil =>
    obtain rfl := Outcome.done.inj applied
    exact ⟨rfl, rfl⟩
  | cons d rest ih =>
    unfold applyIndexes at applied
    split at applied
    · rename_i atFirst
      have kept := ih applied
      rw [← records_applyIndex type d g, ← number_applyIndex type d g, atFirst]
      exact kept
    · contradiction

end Generation

end LiveTables
