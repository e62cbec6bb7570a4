import LiveTables.Binding

namespace LiveTables

/-- A store, by its number. -/
abbrev StoreId := Nat

/-- The stores of all record types that were ever asked for. They are found by the identities of
their types; the types themselves are kept in the order of their installation, which passes and
reports follow. New stores read from its location. -/
structure Registry where
  location : Location
  /-- The store of each type, under the identity of the type. -/
  stores : List (Nat × StoreId) := []
  /-- The types in the order of their installation. -/
  types : List RecordType := []
deriving Inhabited

namespace Registry

def store? (r : Registry) (type : RecordType) : Option StoreId := r.stores.lookup type.identity

def contains (r : Registry) (type : RecordType) : Bool := (r.store? type).isSome

def size (r : Registry) : Nat := r.stores.length

def isEmpty (r : Registry) : Bool := r.stores.isEmpty

def install (r : Registry) (type : RecordType) (store : StoreId) : Registry :=
  { r with stores := (type.identity, store) :: r.stores, types := r.types ++ [type] }

/-- An installation changes what one type finds. -/
theorem store?_install (r : Registry) (type other : RecordType) (store : StoreId) :
    (r.install type store).store? other =
      if other == type then some store else r.store? other := by
  unfold store? install
  rw [List.lookup_cons]
  by_cases same : other.identity = type.identity
  · simp [BEq.beq, same]
  · simp [BEq.beq, same]

def describe (r : Registry) : String :=
  "StoreRegistry \x7b location: " ++ r.location.describe ++
    ", types: " ++ Text.quoteList (r.types.map RecordType.name) ++ " \x7d"

end Registry

end LiveTables
