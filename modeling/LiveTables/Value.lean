import LiveTables.Double.Shortest
import LiveTables.Text.Quoted

namespace LiveTables

/-- What records are looked up by. Values with the same text are the same to every lookup, whatever
their kinds, so the texts of integers agree between the signed and the unsigned kind. -/
inductive Value where
  | null
  | bool (b : Bool)
  | int (n : Int64)
  | uint (n : UInt64)
  | float (x : Double)
  | text (s : String)
deriving DecidableEq, Inhabited, Repr

namespace Value

/-- Floating-point numbers are written positionally from a ten-thousandth to just under ten to
the sixteenth, exponents have a sign only below zero, and a tie between two shortest texts goes to
the upper one. -/
def floatLayout : Double.Layout := ⟨-4, 15, false, .upper⟩

/-- The text by which a value is looked up. -/
def render : Value → String
  | null => "null"
  | bool b => if b then "true" else "false"
  | int n => toString n.toInt
  | uint n => toString n.toNat
  | float x => floatLayout.text x
  | text s => s

def kindName : Value → String
  | null => "Null"
  | bool _ => "Bool"
  | int _ => "Int"
  | uint _ => "UInt"
  | float _ => "Float"
  | text _ => "Str"

def describe (v : Value) : String :=
  match v with
  | null => v.kindName
  | text s => v.kindName ++ "(" ++ Text.quote s ++ ")"
  | _ => v.kindName ++ "(" ++ v.render ++ ")"

/-- Equality of values: within one kind, and on numbers by the equality of their format. -/
def equal : Value → Value → Bool
  | float x, float y => x.equal y
  | v, w => v = w

end Value

end LiveTables
