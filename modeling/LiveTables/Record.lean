import LiveTables.Error
import LiveTables.Key
import LiveTables.RecordId

namespace LiveTables

structure Record where
  id : RecordId
  fields : List (String × Value)
deriving DecidableEq, Inhabited, Repr

/-- The value of a field, if the record has it. -/
def Record.field? (r : Record) (name : String) : Option Value := r.fields.lookup name

/-- A named rule that extracts the values a record is looked up by. The rule may leave a record
out, and it may end abruptly. -/
structure IndexDef where
  name : String
  valuesFor : Record → Except Fault (Option (List Value))
deriving Inhabited

def IndexDef.describe (d : IndexDef) : String :=
  "IndexDef \x7b name: " ++ Text.quote d.name ++ " \x7d"

/-- An identity with a name. Two types may share every name and are still different types. -/
structure RecordType where
  /-- Types are the same exactly when their identities are. -/
  identity : Nat
  name : String
  /-- The dotted name of the group that the type belongs to. -/
  qualifier : String
  idKind : IdKind
  /-- The definitions that every table of the type has. -/
  indexes : List IndexDef
deriving Inhabited

namespace RecordType

instance : BEq RecordType := ⟨fun a b => a.identity == b.identity⟩

theorem beq_iff {a b : RecordType} : (a == b) = true ↔ a.identity = b.identity := by
  simp [BEq.beq]

instance : EquivBEq RecordType where
  rfl := beq_iff.mpr rfl
  symm same := beq_iff.mpr (beq_iff.mp same).symm
  trans first second := beq_iff.mpr ((beq_iff.mp first).trans (beq_iff.mp second))

def qualifiedName (t : RecordType) : String :=
  if t.qualifier.isEmpty then t.name else t.qualifier ++ "." ++ t.name

/-- The key under which an index of the type lists the ids of records with the given values. -/
def key (t : RecordType) (index : String) (values : List Value) : String :=
  Key.build (some t.name) (some index) values

end RecordType

end LiveTables
