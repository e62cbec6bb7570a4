import LiveTables.Generation
import LiveTables.Location

namespace LiveTables

/-- A loader, by its number. Several stores can share one. -/
abbrev LoaderId := Nat

/-- The table of one record type. -/
structure Store where
  recordType : RecordType
  location : Location
  loader : LoaderId
  /-- The generation that lookups see. -/
  current : Generation := .empty
  /-- Earlier generations, the latest first. They can still be held as snapshots. -/
  retired : List Generation := []
  /-- The definitions registered with the store, one a name, beyond those of the record type. -/
  dynamic : List IndexDef := []
  /-- Counts registrations. -/
  epoch : Nat := 0
  reloads : Nat := 0
  failedReloads : Nat := 0
deriving Inhabited

structure StoreStats where
  typeName : String
  generation : Nat
  records : Nat
  indexKeys : Nat
  reloads : Nat
  failedReloads : Nat
deriving DecidableEq, Repr

/-- The definitions that a reload builds with, and the epoch they were taken in. They are fixed
before its loader runs, and by the time the loader has ended the store can have changed in any way,
also by further reloads. -/
structure Plan where
  indexes : List IndexDef
  epoch : Nat
deriving Inhabited

namespace Store

def fresh (type : RecordType) (location : Location) (loader : LoaderId) : Store where
  recordType := type
  location := location
  loader := loader

def get? (s : Store) (id : RecordId) : Option Record := s.current.get? id

/-- The ids listed for an index name and values, resolved or not. -/
def indexIds (s : Store) (index : String) (values : List Value) : List RecordId :=
  s.current.index.ids (s.recordType.key index values)

/-- The records listed for an index name and values. Ids without a record are passed over. -/
def findByIndex (s : Store) (index : String) (values : List Value) : List Record :=
  s.current.resolve (s.recordType.key index values)

/-- The first record listed for an index name and values. Whether it is the only one is not
checked. -/
def findUnique (s : Store) (index : String) (values : List Value) : Option Record :=
  (s.findByIndex index values).head?

def all (s : Store) : List Record := s.current.records

def stats (s : Store) : StoreStats where
  typeName := s.recordType.name
  generation := s.current.number
  records := s.current.size
  indexKeys := s.current.index.size
  reloads := s.reloads
  failedReloads := s.failedReloads

def describe (s : Store) : String :=
  "IndexedStore \x7b type_name: " ++ Text.quote s.recordType.name ++
    ", location: " ++ s.location.describe ++
    ", generation: " ++ toString s.current.number ++
    ", records: " ++ toString s.current.size ++ " \x7d"

/-- A generation that is or was current, by its number. -/
def generation? (s : Store) (number : Nat) : Option Generation :=
  (s.current :: s.retired).find? (·.number = number)

/-- Changes the generation of a number wherever it stands. -/
def updateGeneration (s : Store) (number : Nat) (change : Generation → Generation) : Store :=
  let update (g : Generation) := if g.number = number then change g else g
  { s with current := update s.current, retired := s.retired.map update }

/-- Appends an id to an index of the current generation, and answers whether it was new there. -/
def append (s : Store) (index : String) (id : RecordId) (values : List Value) : Store × Bool :=
  let (current, isNew) := s.current.insertKey (s.recordType.key index values) id
  ({ s with current }, isNew)

theorem append_snd (s : Store) (index : String) (id : RecordId) (values : List Value) :
    (s.append index id values).2 = !s.current.index.lists (s.recordType.key index values) id :=
  s.current.insertKey_snd _ id

/-- Puts a definition in the place of the one of its name, or last. -/
def replaceDef (d : IndexDef) : List IndexDef → List IndexDef
  | [] => [d]
  | e :: rest => if e.name = d.name then d :: rest else e :: replaceDef d rest

/-- Registers a definition and applies it to the current generation. It stays registered when its
rule ends abruptly on some record, and the records before that one stay listed. -/
def registerIndex (s : Store) (d : IndexDef) : Store × Option Fault :=
  let (current, fault) := s.current.applyIndex s.recordType d
  ({ s with dynamic := replaceDef d s.dynamic, epoch := s.epoch + 1, current }, fault)

/-- What a reload that begins now will build with: the type's definitions, then those
registered. -/
def plan (s : Store) : Plan := ⟨s.recordType.indexes ++ s.dynamic, s.epoch⟩

/-- Makes a built generation the current one under the next number. If definitions were registered
since the build was planned, all of them are applied to it first, and a fault in one leaves the
store as it is. -/
def publish (s : Store) (built : Generation) (epoch : Nat) : Store × Outcome Nat :=
  let numbered := { built with number := s.current.number + 1 }
  let applied :=
    if s.epoch = epoch then .done numbered
    else numbered.applyIndexes s.recordType s.dynamic
  match applied with
  | .done next =>
    ({ s with current := next, retired := s.current :: s.retired, reloads := s.reloads + 1 },
      .done next.size)
  | .failed e => (s, .failed e)
  | .faulted f => (s, .faulted f)

/-- The second half of a reload: what the loader gave is built and published. A refusal is
counted; an abrupt end leaves no trace at all. -/
def conclude (s : Store) (plan : Plan) (loaded : Outcome (List Record)) : Store × Outcome Nat :=
  match loaded.bind fun batch => Generation.build s.recordType batch plan.indexes with
  | .done built => s.publish built plan.epoch
  | .failed e => ({ s with failedReloads := s.failedReloads + 1 }, .failed e)
  | .faulted f => (s, .faulted f)

end Store

end LiveTables
