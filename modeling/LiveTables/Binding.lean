import LiveTables.Scope
import LiveTables.Store

namespace LiveTables

/-- Ties a record type to the loader for its tables. Only a managed binding is loaded by an initial
load. -/
structure Binding where
  recordType : RecordType
  loader : LoaderId
  managed : Bool := true
deriving Inhabited

namespace Binding

def unmarked (b : Binding) : Binding := { b with managed := false }

/-- A new table of the type. All tables of a binding share its loader. -/
def createStore (b : Binding) (location : Location) : Store :=
  .fresh b.recordType location b.loader

def describe (b : Binding) : String :=
  "RecordBinding \x7b record_type: " ++ Text.quote b.recordType.qualifiedName ++
    ", managed: " ++ toString b.managed ++ " \x7d"

end Binding

/-- The bindings that are offered for discovery. -/
structure Catalog where
  bindings : List Binding := []
deriving Inhabited

namespace Catalog

/-- The bindings whose types a scope selects, in catalog order. -/
def discover (c : Catalog) (scope : String) : List Binding :=
  c.bindings.filter fun b => Scope.selects scope b.recordType.qualifier

def describe (c : Catalog) : String :=
  "StaticCatalog \x7b bindings: [" ++
    String.intercalate ", " (c.bindings.map Binding.describe) ++ "] \x7d"

end Catalog

/-- How a coordinator finds bindings: in a catalog, or by asking outside code of the given
number. -/
inductive Discovery where
  | catalog (c : Catalog)
  | outside (number : Nat)
deriving Inhabited

end LiveTables
