import LiveTables.Text.Parts
import LiveTables.Value

namespace LiveTables.Key

/-- Closes the type name. -/
def typeDelimiter : Char := '&'

/-- Closes the index name. -/
def nameDelimiter : Char := '#'

/-- Stands between two values. -/
def valueDelimiter : Char := '^'

def isDelimiter (c : Char) : Bool :=
  c = typeDelimiter || c = nameDelimiter || c = valueDelimiter

def joinValues (texts : List String) : String :=
  String.ofList (Text.join valueDelimiter (texts.map String.toList))

def typePart : Option String → String
  | none => ""
  | some name => name ++ String.singleton typeDelimiter

/-- The part of a key that names the index. Without a name it is still closed when values
follow. -/
def namePart (name : Option String) (hasValues : Bool) : String :=
  match name with
  | some name => name ++ String.singleton nameDelimiter
  | none => if hasValues then String.singleton nameDelimiter else ""

/-- The key of an optional type name, an optional index name and values, each part closed or
separated by a delimiter of its own. Nothing is escaped, so parts that contain a delimiter can make
two different requests share a key. -/
def build (typeName indexName : Option String) (values : List Value) : String :=
  typePart typeName ++ namePart indexName (!values.isEmpty) ++
    joinValues (values.map Value.render)

def hasDelimiter (s : String) : Bool := s.toList.any isDelimiter

/-- Whether a value can make keys collide. Only texts can: no other kind is rendered with a
delimiter. -/
def containsDelimiter : Value → Bool
  | .text s => hasDelimiter s
  | _ => false

end LiveTables.Key
