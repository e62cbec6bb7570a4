import LiveTables.Record
import LiveTables.Value.Integer

namespace LiveTables.IndexDef

/-- The values of the named fields in order. The visit ends at a field that the record lacks,
and ends abruptly at a value whose text is rejected. -/
def visitFields (r : Record) (rejected : Option String) :
    List String → Except Fault (Option (List Value))
  | [] => .ok (some [])
  | name :: rest =>
    match r.field? name with
    | none => .ok none
    | some v =>
      if rejected = some v.render then .error (.text ("extractor rejected " ++ v.render))
      else (visitFields r rejected rest).map (Option.map (v :: ·))

/-- Records that have all the fields, by their values. -/
def byFields (name : String) (fields : List String) (rejected : Option String) : IndexDef :=
  ⟨name, fun r => visitFields r rejected fields⟩

/-- All records, by the fields' values or null. -/
def byNullableFields (name : String) (fields : List String) : IndexDef :=
  ⟨name, fun r => .ok (some (fields.map fun field => Value.ofOption (r.field? field)))⟩

def single (name : String) (value : Record → Value) : IndexDef :=
  ⟨name, fun r => .ok (some [value r])⟩

def byField (name field : String) : IndexDef :=
  single name fun r => Value.ofOption (r.field? field)

/-- All records, under fixed values. -/
def constant (name : String) (values : List Value) : IndexDef :=
  ⟨name, fun _ => .ok (some values)⟩

def never (name : String) : IndexDef := ⟨name, fun _ => .ok none⟩

end LiveTables.IndexDef
