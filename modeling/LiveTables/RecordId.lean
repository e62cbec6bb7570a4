import LiveTables.Text.Quoted

namespace LiveTables

inductive RecordId where
  | number (n : UInt32)
  | text (s : String)
  | pair (first second : Int32)
  | long (n : Int64)
  | optional (n : Option UInt8)
  | char (c : Char)
deriving DecidableEq, Inhabited, Repr

def RecordId.describe : RecordId → String
  | number n => toString n.toNat
  | text s => Text.quote s
  | pair a b => "(" ++ toString a.toInt ++ ", " ++ toString b.toInt ++ ")"
  | long n => toString n.toInt
  | optional none => "None"
  | optional (some n) => "Some(" ++ toString n.toNat ++ ")"
  | char c => Text.quoteChar c

/-- An id as written down, before the type of its record is known. -/
inductive IdLiteral where
  | absent
  | number (n : Int)
  | text (s : String)
  | pair (first second : Int)
deriving DecidableEq, Inhabited, Repr

/-- The kind of the ids of a record type. All of its ids are of one kind. -/
inductive IdKind where
  | number
  | text
  | pair
  | long
  | optional
  | char
deriving DecidableEq, Inhabited, Repr

namespace IdKind

def readDecimal? (s : List Char) : Option Int :=
  let (negative, digits) := match s with
    | '-' :: rest => (true, rest)
    | '+' :: rest => (false, rest)
    | s => (false, s)
  if digits.isEmpty || !digits.all Char.isDigit then none
  else
    let n : Int := Nat.ofDigitChars 10 digits 0
    some (if negative then -n else n)

/-- The id that a literal stands for, if it has the kind's form and range. -/
def read? : IdKind → IdLiteral → Option RecordId
  | number, .number n => if 0 ≤ n ∧ n < 0x100000000 then some (.number (.ofNat n.toNat)) else none
  | text, .text s => some (.text s)
  | pair, .pair a b =>
    if (-0x80000000 ≤ a ∧ a < 0x80000000) ∧ (-0x80000000 ≤ b ∧ b < 0x80000000) then
      some (.pair (.ofInt a) (.ofInt b))
    else none
  | long, .text s =>
    match readDecimal? s.toList with
    | some n =>
      if -0x8000000000000000 ≤ n ∧ n < 0x8000000000000000 then some (.long (.ofInt n)) else none
    | none => none
  | optional, .absent => some (.optional none)
  | optional, .number n =>
    if 0 ≤ n ∧ n < 0x100 then some (.optional (some (.ofNat n.toNat))) else none
  | char, .text s =>
    match s.toList with
    | [c] => some (.char c)
    | _ => none
  | _, _ => none

end IdKind

end LiveTables
