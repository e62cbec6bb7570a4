import LiveTables.Double
import LiveTables.Text.Hexadecimal
import LiveTables.Toml.Node

namespace LiveTables.Toml

/-- The rest of a run of digits in which single underscores stand between digits. -/
def digitsEnd? (isDigit : Char → Bool) : List Char → Option (List Char)
  | '_' :: c :: rest => if isDigit c then digitsEnd? isDigit rest else none
  | c :: rest => if isDigit c then digitsEnd? isDigit rest else some (c :: rest)
  | [] => some []

/-- The rest after a run of at least one digit. -/
def dropDigits? (isDigit : Char → Bool) : List Char → Option (List Char)
  | c :: rest => if isDigit c then digitsEnd? isDigit rest else none
  | [] => none

/-- The value of the digits in a run, in a base of at most sixteen. -/
def digitsValue (base : Nat) (s : List Char) : Nat :=
  (s.filter (· ≠ '_')).foldl (fun n c => n * base + (Text.hexValue? c).getD 0) 0

def isHexDigit (c : Char) : Bool := (Text.hexValue? c).isSome

def isOctalDigit (c : Char) : Bool := '0' ≤ c && c ≤ '7'

def isBinaryDigit (c : Char) : Bool := c = '0' || c = '1'

def takeSign : List Char → Bool × List Char
  | '-' :: rest => (true, rest)
  | '+' :: rest => (false, rest)
  | s => (false, s)

/-- The rest after the digits of a decimal integer, which has no leading zeros. -/
def dropDecimal? : List Char → Option (List Char)
  | '0' :: rest => some rest
  | s => dropDigits? Char.isDigit s

def inRange? (n : Int) : Option Node :=
  if -0x8000000000000000 ≤ n ∧ n < 0x8000000000000000 then some (.integer n) else none

def readBased? (base : Nat) (isDigit : Char → Bool) (digits : List Char) : Option Node :=
  if dropDigits? isDigit digits = some [] then inRange? (digitsValue base digits) else none

def readInteger? : List Char → Option Node
  | '0' :: 'x' :: digits => readBased? 16 isHexDigit digits
  | '0' :: 'o' :: digits => readBased? 8 isOctalDigit digits
  | '0' :: 'b' :: digits => readBased? 2 isBinaryDigit digits
  | word =>
    let (negative, digits) := takeSign word
    if dropDecimal? digits = some [] then
      let n : Int := digitsValue 10 digits
      inRange? (if negative then -n else n)
    else none

/-- The rest after an optional fraction, and the fraction's digits. -/
def dropFraction? : List Char → Option (List Char × List Char)
  | '.' :: rest => do
    let after ← dropDigits? Char.isDigit rest
    return (after, rest.take (rest.length - after.length))
  | s => some (s, [])

/-- The power of ten of an optional exponent that ends the word. -/
def readExponent? : List Char → Option Int
  | [] => some 0
  | 'e' :: rest | 'E' :: rest =>
    let (negative, digits) := takeSign rest
    if dropDigits? Char.isDigit digits = some [] then
      let n : Int := digitsValue 10 digits
      some (if negative then -n else n)
    else none
  | _ => none

/-- A float. One that rounds to positive infinity is refused. -/
def readFloat? (word : List Char) : Option Node := do
  let (negative, s) := takeSign word
  let node := Node.float (String.ofList word)
  if s = ['i', 'n', 'f'] ∨ s = ['n', 'a', 'n'] then return node
  else
    let afterWhole ← dropDecimal? s
    let (afterFraction, fraction) ← dropFraction? afterWhole
    let power ← readExponent? afterFraction
    let significand := digitsValue 10 (s.take (s.length - afterWhole.length) ++ fraction)
    let places := (fraction.filter (· ≠ '_')).length
    if afterWhole.isEmpty then none
    else if negative || (Double.ofDecimal? significand (power - places)).isSome then return node
    else none

def takeNumber? (count : Nat) (s : List Char) : Option (Nat × List Char) :=
  let digits := s.take count
  if digits.length = count && digits.all Char.isDigit then
    some (digitsValue 10 digits, s.drop count)
  else none

/-- A number of two digits between bounds. -/
def takePair? (least greatest : Nat) (s : List Char) : Option (Nat × List Char) := do
  let (n, rest) ← takeNumber? 2 s
  if least ≤ n ∧ n ≤ greatest then return (n, rest) else none

def takeMark? (c : Char) : List Char → Option (List Char)
  | d :: rest => if d = c then some rest else none
  | [] => none

def isLeapYear (year : Nat) : Bool := year % 4 = 0 && (year % 100 ≠ 0 || year % 400 = 0)

def daysInMonth (year month : Nat) : Nat :=
  if month = 2 then if isLeapYear year then 29 else 28
  else if month = 4 ∨ month = 6 ∨ month = 9 ∨ month = 11 then 30
  else 31

/-- The rest after a date. -/
def dropDate? (s : List Char) : Option (List Char) := do
  let (year, s) ← takeNumber? 4 s
  let s ← takeMark? '-' s
  let (month, s) ← takePair? 1 12 s
  let s ← takeMark? '-' s
  let (_, rest) ← takePair? 1 (daysInMonth year month) s
  return rest

/-- The rest after a time of day, which may have a fraction of a second. -/
def dropTime? (s : List Char) : Option (List Char) := do
  let (_, s) ← takePair? 0 23 s
  let s ← takeMark? ':' s
  let (_, s) ← takePair? 0 59 s
  let s ← takeMark? ':' s
  let (_, s) ← takePair? 0 60 s
  match s with
  | '.' :: c :: rest => if c.isDigit then return rest.dropWhile Char.isDigit else none
  | s => return s

/-- Whether a word is an offset from universal time, or nothing. -/
def isOffset : List Char → Bool
  | [] | ['Z'] | ['z'] => true
  | c :: s =>
    (c = '+' || c = '-') && ((do
      let (_, s) ← takePair? 0 23 s
      let s ← takeMark? ':' s
      let (_, s) ← takePair? 0 59 s
      return s.isEmpty).getD false)

/-- Whether a word is a time with an optional offset. -/
def isTimed (s : List Char) : Bool := ((dropTime? s).map isOffset).getD false

def isDate (word : List Char) : Bool := dropDate? word = some []

/-- Whether a word is a moment: a date, a time of day, or both with an optional offset. -/
def isMoment (word : List Char) : Bool :=
  match dropDate? word with
  | some [] => true
  | some ('T' :: rest) | some ('t' :: rest) | some (' ' :: rest) => isTimed rest
  | some _ => false
  | none => dropTime? word = some []

/-- Reads a boolean, an integer, a float or a moment that is a whole word. A word that only starts
like one is no scalar. -/
def readWord? (word : List Char) : Option Node :=
  if word = "true".toList then some (.boolean true)
  else if word = "false".toList then some (.boolean false)
  else if isMoment word then some (.moment (String.ofList word))
  else (readFloat? word).or (readInteger? word)

def endsWord (c : Char) : Bool :=
  c = ',' || c = ']' || c = '}' || c = '#' || c = '\n' || c = '\r' || c = ' ' || c = '\t'

/-- A word and the rest. A date goes on over one blank when a digit follows it. -/
def takeWord (s : List Char) : List Char × List Char :=
  let word := s.takeWhile (!endsWord ·)
  let rest := s.dropWhile (!endsWord ·)
  match rest with
  | ' ' :: c :: more =>
    if isDate word && c.isDigit then
      (word ++ ' ' :: c :: more.takeWhile (!endsWord ·), more.dropWhile (!endsWord ·))
    else (word, rest)
  | _ => (word, rest)

def readScalar (s : List Char) : Except Error (Node × List Char) :=
  let (word, rest) := takeWord s
  match readWord? word with
  | some node => .ok (node, rest)
  | none => .error (.unexpected (String.ofList s))

end LiveTables.Toml
