namespace LiveTables

/-- A type that was loaded, with the size of its new batch. -/
structure LoadedType where
  typeName : String
  records : Nat
deriving DecidableEq, Repr

/-- A type that kept its earlier generation, and why. -/
structure FailedType where
  typeName : String
  error : String
deriving DecidableEq, Repr

/-- A listener that did not take the news, and why. -/
structure ListenerFailure where
  name : String
  reason : String
deriving DecidableEq, Repr

/-- What a reload pass did. Each list is in the order of the events. -/
structure Report where
  loaded : List LoadedType := []
  failed : List FailedType := []
  listenerFailures : List ListenerFailure := []
deriving DecidableEq, Repr, Inhabited

namespace Report

def isClean (r : Report) : Bool := r.failed.isEmpty && r.listenerFailures.isEmpty

def totalRecords (r : Report) : Nat := r.loaded.foldl (fun n t => n + t.records) 0

def hasFailed (r : Report) (typeName : String) : Bool :=
  r.failed.any (·.typeName = typeName)

def addLoaded (r : Report) (typeName : String) (records : Nat) : Report :=
  { r with loaded := r.loaded ++ [⟨typeName, records⟩] }

def addFailed (r : Report) (typeName error : String) : Report :=
  { r with failed := r.failed ++ [⟨typeName, error⟩] }

end Report

end LiveTables
