import LiveTables.Text.Parts

namespace LiveTables.Scope

def segments (s : String) : List String := (Text.cut '.' s.toList).map String.ofList

/-- The segments of a group's name. The empty name has none. -/
def nameSegments (s : String) : List String := if s.isEmpty then [] else segments s

/-- What can be left of a sequence after its first segments are taken. -/
def remainders : List String → List (List String)
  | [] => [[]]
  | part :: name => (part :: name) :: remainders name

theorem mem_remainders {rest name : List String} : rest ∈ remainders name ↔ rest <:+ name := by
  induction name with
  | nil => simp [remainders]
  | cons part name ih => simp [remainders, List.suffix_cons_iff, ih]

/-- Whether a sequence of segments fits a pattern. `**` stands for any run of segments, `*` for any
one segment, and every other segment for itself. -/
def fits : List String → List String → Bool
  | [], name => name.isEmpty
  | segment :: pattern, name =>
    if segment = "**" then (remainders name).any (fits pattern)
    else
      match name with
      | [] => false
      | part :: name => (segment = "*" || segment = part) && fits pattern name

/-- Whether a scope selects the group of a given name. The empty scope selects everything. -/
def selects (scope name : String) : Bool :=
  scope.isEmpty || fits (segments scope) (nameSegments name)

end LiveTables.Scope
