import LiveTables.Text.Hexadecimal
import LiveTables.Value

namespace LiveTables.Value.Json

def isBlank (c : Char) : Bool := c = ' ' || c = '\n' || c = '\t' || c = '\r'

def skipBlanks (s : List Char) : List Char := s.dropWhile isBlank

/-- Removes `c` after blanks. -/
def expect (c : Char) (s : List Char) : Option (List Char) :=
  match skipBlanks s with
  | d :: rest => if d = c then some rest else none
  | [] => none

def expectWord : List Char → List Char → Option (List Char)
  | [], s => some s
  | c :: word, d :: rest => if c = d then expectWord word rest else none
  | _ :: _, [] => none

def readUnit : List Char → Option (Nat × List Char)
  | a :: b :: c :: d :: rest => (Text.hexNumber? [a, b, c, d]).map (·, rest)
  | _ => none

/-- The character after an escaping backslash and `u`: one unit, or two that form a pair. -/
def readCodePoint (s : List Char) : Option (Char × List Char) := do
  let (unit, rest) ← readUnit s
  if 0xD800 ≤ unit ∧ unit < 0xDC00 then
    match rest with
    | '\\' :: 'u' :: rest =>
      let (low, rest) ← readUnit rest
      if 0xDC00 ≤ low ∧ low < 0xE000 then
        return (Char.ofNat (0x10000 + (unit - 0xD800) * 0x400 + (low - 0xDC00)), rest)
      else none
    | _ => none
  else if 0xDC00 ≤ unit ∧ unit < 0xE000 then none
  else return (Char.ofNat unit, rest)

def simpleEscape? : Char → Option Char
  | '"' => some '"'
  | '\\' => some '\\'
  | '/' => some '/'
  | 'b' => some '\x08'
  | 'f' => some '\x0c'
  | 'n' => some '\n'
  | 'r' => some '\r'
  | 't' => some '\t'
  | _ => none

/-- The rest of a string after its opening quote. The count bounds the characters still to be
read. -/
def readStringBody : Nat → List Char → List Char → Option (String × List Char)
  | 0, _, _ => none
  | _ + 1, _, [] => none
  | _ + 1, read, '"' :: rest => some (String.ofList read.reverse, rest)
  | bound + 1, read, '\\' :: 'u' :: rest => do
    let (c, rest) ← readCodePoint rest
    readStringBody bound (c :: read) rest
  | bound + 1, read, '\\' :: c :: rest => do
    let c ← simpleEscape? c
    readStringBody bound (c :: read) rest
  | bound + 1, read, c :: rest =>
    if c = '\\' ∨ c.toNat < 0x20 then none else readStringBody bound (c :: read) rest

def readString (s : List Char) : Option (String × List Char) := do
  let rest ← expect '"' s
  readStringBody (rest.length + 1) [] rest

inductive Number where
  | integer (n : Int)
  | float (x : Double)

/-- The digits after a point, or none without one. A point needs a digit after it. -/
def readFraction : List Char → Option (Option (List Char) × List Char)
  | '.' :: rest =>
    let digits := rest.takeWhile Char.isDigit
    if digits.isEmpty then none else some (some digits, rest.dropWhile Char.isDigit)
  | s => some (none, s)

/-- The exponent after a mark, or none without one. A mark needs a digit after it. -/
def readExponent : List Char → Option (Option Int × List Char)
  | 'e' :: s | 'E' :: s =>
    let (down, s) := match s with
      | '+' :: rest => (false, rest)
      | '-' :: rest => (true, rest)
      | s => (false, s)
    let digits := s.takeWhile Char.isDigit
    let n : Int := Nat.ofDigitChars 10 digits 0
    if digits.isEmpty then none
    else some (some (if down then -n else n), s.dropWhile Char.isDigit)
  | s => some (none, s)

/-- A number without point and exponent. It is a floating-point number if it has more than 64 bits,
or if it is a negative zero or has more than 63 bits under a negative sign. -/
def ofInteger (negative : Bool) (n : Nat) : Option Number :=
  if negative then
    if 0 < n && n ≤ 0x8000000000000000 then some (.integer (-n))
    else (Double.ofDecimal? n 0).map (.float ·.negate)
  else if n < 0x10000000000000000 then some (.integer n)
  else (Double.ofDecimal? n 0).map .float

/-- A number after blanks. Its integer part has no leading zeros, and it must be finite. -/
def readNumber (s : List Char) : Option (Number × List Char) := do
  let (negative, s) := match skipBlanks s with
    | '-' :: rest => (true, rest)
    | s => (false, s)
  let whole := s.takeWhile Char.isDigit
  if whole.isEmpty || (whole.head? = some '0' && 1 < whole.length) then none
  else
    let (fraction, s) ← readFraction (s.dropWhile Char.isDigit)
    let (power, rest) ← readExponent s
    match fraction, power with
    | none, none =>
      let number ← ofInteger negative (Nat.ofDigitChars 10 whole 0)
      return (number, rest)
    | _, _ =>
      let fraction := fraction.getD []
      let significand := Nat.ofDigitChars 10 (whole ++ fraction) 0
      let x ← Double.ofDecimal? significand (power.getD 0 - fraction.length)
      return (.float (if negative then x.negate else x), rest)

def readContent (kind : String) (s : List Char) : Option (Value × List Char) := do
  match kind with
  | "Null" =>
    let rest ← expectWord "null".toList (skipBlanks s)
    return (.null, rest)
  | "Bool" =>
    let s := skipBlanks s
    match expectWord "true".toList s with
    | some rest => return (.bool true, rest)
    | none =>
      let rest ← expectWord "false".toList s
      return (.bool false, rest)
  | "Int" =>
    let (.integer n, rest) ← readNumber s | none
    if -0x8000000000000000 ≤ n ∧ n < 0x8000000000000000 then
      return (.int (Int64.ofInt n), rest)
    else none
  | "UInt" =>
    let (.integer n, rest) ← readNumber s | none
    if 0 ≤ n ∧ n < 0x10000000000000000 then return (.uint (UInt64.ofNat n.toNat), rest) else none
  | "Float" =>
    match ← readNumber s with
    | (.integer n, rest) => return (.float (Double.ofInt n), rest)
    | (.float x, rest) => return (.float x, rest)
  | "Str" =>
    let (content, rest) ← readString s
    return (.text content, rest)
  | _ => none

/-- A value after blanks, with the rest. Null is read in both forms. -/
def readValue (s : List Char) : Option (Value × List Char) := do
  match skipBlanks s with
  | '{' :: rest =>
    let (kind, rest) ← readString rest
    let rest ← expect ':' rest
    let (value, rest) ← readContent kind rest
    let rest ← expect '}' rest
    return (value, rest)
  | s =>
    let (kind, rest) ← readString s
    if kind = "Null" then return (.null, rest) else none

/-- A text that is one value with blanks around it and nothing else. -/
def read? (text : String) : Option Value := do
  let (value, rest) ← readValue text.toList
  if (skipBlanks rest).isEmpty then return value else none

end LiveTables.Value.Json
