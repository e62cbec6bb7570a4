import LiveTables.Text.Hexadecimal
import LiveTables.Toml.Node

namespace LiveTables.Toml

/-- Characters that may stand in a document outside of escapes: tabs and all but controls. -/
def isPlain (c : Char) : Bool := c = '\t' || (0x20 ≤ c.toNat && c.toNat ≠ 0x7f)

/-- The character whose code point is written in hexadecimal. Surrogates and numbers beyond the
last character are refused. -/
def ofHex? (digits : List Char) : Option Char := do
  let n ← Text.hexNumber? digits
  if n < 0xD800 ∨ (0xDFFF < n ∧ n < 0x110000) then return Char.ofNat n else none

def letterEscape? : Char → Option Char
  | 'b' => some '\x08'
  | 'f' => some '\x0c'
  | 'n' => some '\n'
  | 'r' => some '\r'
  | 't' => some '\t'
  | '\\' => some '\\'
  | '"' => some '"'
  | _ => none

/-- Puts a character before the text that a reader goes on with. -/
def prepend (c : Char) (rest : Except Error (List Char × List Char)) :
    Except Error (List Char × List Char) :=
  rest.map fun (text, rest) => (c :: text, rest)

/-- Puts an escaped character before the text that a reader goes on with. -/
def prependEscape (c : Option Char) (written : List Char)
    (rest : Except Error (List Char × List Char)) : Except Error (List Char × List Char) :=
  match c with
  | some c => prepend c rest
  | none => .error (.outOfRange (String.ofList written))

def readBasic : List Char → Except Error (List Char × List Char)
  | '"' :: rest => .ok ([], rest)
  | '\\' :: 'u' :: a :: b :: c :: d :: rest =>
    prependEscape (ofHex? [a, b, c, d]) [a, b, c, d] (readBasic rest)
  | '\\' :: 'U' :: a :: b :: c :: d :: e :: f :: g :: h :: rest =>
    prependEscape (ofHex? [a, b, c, d, e, f, g, h]) [a, b, c, d, e, f, g, h] (readBasic rest)
  | '\\' :: c :: rest => prependEscape (letterEscape? c) ['\\', c] (readBasic rest)
  | c :: rest =>
    if isPlain c then prepend c (readBasic rest)
    else .error (.unexpected (String.ofList (c :: rest)))
  | [] => .error (.unexpected "")

def readLiteral : List Char → Except Error (List Char × List Char)
  | '\'' :: rest => .ok ([], rest)
  | c :: rest =>
    if isPlain c then prepend c (readLiteral rest)
    else .error (.unexpected (String.ofList (c :: rest)))
  | [] => .error (.unexpected "")

/-- Up to two more quotes that stand directly before the closing ones belong to the text. The
result is what follows the first three quotes of a run. -/
def closeQuotes (quote : Char) : List Char → List Char × List Char
  | c :: d :: rest =>
    if c = quote then if d = quote then ([quote, quote], rest) else ([quote], d :: rest)
    else ([], c :: d :: rest)
  | [c] => if c = quote then ([quote], []) else ([], [c])
  | [] => ([], [])

/-- Whether only blanks stand before the end of the line. -/
def lineEnds : List Char → Bool
  | '\n' :: _ | '\r' :: '\n' :: _ => true
  | c :: rest => (c = ' ' || c = '\t') && lineEnds rest
  | [] => false

/-- A basic text of several lines. A backslash at the end of a line takes all blanks and newlines
that follow out of the text; `trimming` is set while that goes on. -/
def readLongBasic (trimming : Bool) : List Char → Except Error (List Char × List Char)
  | '"' :: '"' :: '"' :: rest => .ok (closeQuotes '"' rest)
  | '\\' :: 'u' :: a :: b :: c :: d :: rest =>
    prependEscape (ofHex? [a, b, c, d]) [a, b, c, d] (readLongBasic false rest)
  | '\\' :: 'U' :: a :: b :: c :: d :: e :: f :: g :: h :: rest =>
    prependEscape (ofHex? [a, b, c, d, e, f, g, h]) [a, b, c, d, e, f, g, h]
      (readLongBasic false rest)
  | '\\' :: c :: rest =>
    if lineEnds (c :: rest) then readLongBasic true (c :: rest)
    else prependEscape (letterEscape? c) ['\\', c] (readLongBasic false rest)
  | '\r' :: '\n' :: rest =>
    if trimming then readLongBasic true rest else prepend '\n' (readLongBasic false rest)
  | c :: rest =>
    if trimming && (c = '\n' || c = ' ' || c = '\t') then readLongBasic true rest
    else if c = '\n' || isPlain c then prepend c (readLongBasic false rest)
    else .error (.unexpected (String.ofList (c :: rest)))
  | [] => .error (.unexpected "")

def readLongLiteral : List Char → Except Error (List Char × List Char)
  | '\'' :: '\'' :: '\'' :: rest => .ok (closeQuotes '\'' rest)
  | '\r' :: '\n' :: rest => prepend '\n' (readLongLiteral rest)
  | c :: rest =>
    if c = '\n' || isPlain c then prepend c (readLongLiteral rest)
    else .error (.unexpected (String.ofList (c :: rest)))
  | [] => .error (.unexpected "")

/-- Takes away the newline that may follow opening quotes. -/
def skipFirstNewline : List Char → List Char
  | '\n' :: rest | '\r' :: '\n' :: rest => rest
  | s => s

/-- A text in one of four forms, with its opening quotes; `none` where no quote stands. A basic text
is closed by double quotes and has escapes, a literal one by single quotes and has none. Written
with three quotes either may hold newlines, and one right after the opening is not part of it. -/
def readText? : List Char → Option (Except Error (List Char × List Char))
  | '"' :: '"' :: '"' :: rest => some (readLongBasic false (skipFirstNewline rest))
  | '"' :: rest => some (readBasic rest)
  | '\'' :: '\'' :: '\'' :: rest => some (readLongLiteral (skipFirstNewline rest))
  | '\'' :: rest => some (readLiteral rest)
  | _ => none

end LiveTables.Toml
