import LiveTables.Text.Hexadecimal
import LiveTables.Value

namespace LiveTables.Value.Json

/-- JSON writes numbers positionally from a hundred-thousandth to just under ten to the sixteenth,
exponents always have a sign, and a tie between two shortest texts goes to the even one. -/
def floatLayout : Double.Layout := ⟨-5, 15, true, .even⟩

def escape (c : Char) : List Char :=
  match c with
  | '"' => ['\\', '"']
  | '\\' => ['\\', '\\']
  | '\n' => ['\\', 'n']
  | '\r' => ['\\', 'r']
  | '\t' => ['\\', 't']
  | '\x08' => ['\\', 'b']
  | '\x0c' => ['\\', 'f']
  | c => if c.toNat < 0x20 then '\\' :: 'u' :: Text.fourHexDigits c.toNat else [c]

def string (s : String) : String :=
  "\"" ++ String.ofList (s.toList.flatMap escape) ++ "\""

def object (name content : String) : String :=
  "\x7b" ++ string name ++ ":" ++ content ++ "\x7d"

/-- A number that JSON can spell, and null for NaN and the infinities. -/
def number (x : Double) : String :=
  if x.isNaN || x.isInfinite then "null" else floatLayout.text x

/-- A value as an object with one member, named for its kind. Null is the bare name of its kind. -/
def write (v : Value) : String :=
  match v with
  | .null => string v.kindName
  | .float x => object v.kindName (number x)
  | .text s => object v.kindName (string s)
  | .bool _ | .int _ | .uint _ => object v.kindName v.render

end LiveTables.Value.Json
