import LiveTables.Toml.Scalar
import LiveTables.Toml.Text

namespace LiveTables.Toml

/-- The deepest nesting of brackets and the longest dotted key lie below this. -/
def depthLimit : Nat := 80

def isBlank (c : Char) : Bool := c = ' ' || c = '\t'

def skipBlanks (s : List Char) : List Char := s.dropWhile isBlank

def newline? : List Char → Option (List Char)
  | '\n' :: rest | '\r' :: '\n' :: rest => some rest
  | _ => none

/-- The rest after a comment, if one stands here. -/
def skipComment (s : List Char) : List Char :=
  match s with
  | '#' :: rest => rest.dropWhile isPlain
  | s => s

/-- The rest after the end of a line: blanks, a comment, and a newline or the end of the text. -/
def endLine (s : List Char) : Except Error (List Char) :=
  match skipComment (skipBlanks s) with
  | [] => .ok []
  | s =>
    match newline? s with
    | some rest => .ok rest
    | none => .error (.unexpected (String.ofList s))

/-- The rest after blanks, newlines and comments. The flag is set inside a comment. -/
def skipGaps : Bool → List Char → List Char
  | _, '\n' :: rest => skipGaps false rest
  | _, '\r' :: '\n' :: rest => skipGaps false rest
  | true, c :: rest => if isPlain c then skipGaps true rest else c :: rest
  | false, '#' :: rest => skipGaps true rest
  | false, c :: rest => if isBlank c then skipGaps false rest else c :: rest
  | _, [] => []

def isBareKey (c : Char) : Bool := c.isAlphanum || c = '_' || c = '-'

def readKeyPart (s : List Char) : Except Error (String × List Char) :=
  let finish (read : Except Error (List Char × List Char)) :=
    read.map fun (text, rest) => (String.ofList text, rest)
  match s with
  | '"' :: rest => finish (readBasic rest)
  | '\'' :: rest => finish (readLiteral rest)
  | s =>
    let bare := s.takeWhile isBareKey
    if bare.isEmpty then .error (.unexpected (String.ofList s))
    else .ok (String.ofList bare, s.dropWhile isBareKey)

/-- A key as the parts before the last, the last one, and the rest. Blanks may stand around each
part. The count bounds the parts. -/
def readKeyParts : Nat → List Char → Except Error (List String × String × List Char)
  | 0, _ => .error .tooDeep
  | bound + 1, s => do
    let (part, rest) ← readKeyPart (skipBlanks s)
    match skipBlanks rest with
    | '.' :: rest =>
      let (path, last, rest) ← readKeyParts bound rest
      return (part :: path, last, rest)
    | rest => return ([], part, rest)

/-- A key that is not too long. -/
def readKey (s : List Char) : Except Error (List String × String × List Char) :=
  readKeyParts (depthLimit - 1) s

def expect (c : Char) : List Char → Except Error (List Char)
  | d :: rest => if d = c then .ok rest else .error (.unexpected (String.ofList (d :: rest)))
  | [] => .error (.unexpected "")

mutual

/-- A value. The first count bounds the work, the second is the depth of the brackets around. -/
def readValue : Nat → Nat → List Char → Except Error (Node × List Char)
  | 0, _, _ => .error .tooDeep
  | bound + 1, depth, s =>
    match readText? s with
    | some read => read.map fun (text, rest) => (.text (String.ofList text), rest)
    | none =>
      match s with
      | '[' :: rest =>
        if depthLimit ≤ depth + 1 then .error .tooDeep
        else readItems bound (depth + 1) [] (skipGaps false rest)
      | '{' :: rest =>
        if depthLimit ≤ depth + 1 then .error .tooDeep
        else
          match skipBlanks rest with
          | '}' :: rest => .ok (.inlineTable [], rest)
          | rest => readEntries bound (depth + 1) [] rest
      | s => readScalar s

/-- The items of an array up to its closing bracket, with the items before them. -/
def readItems : Nat → Nat → List Node → List Char → Except Error (Node × List Char)
  | 0, _, _, _ => .error .tooDeep
  | _ + 1, _, items, ']' :: rest => .ok (.array items, rest)
  | bound + 1, depth, items, s => do
    let (item, rest) ← readValue bound depth s
    match skipGaps false rest with
    | ',' :: rest => readItems bound depth (items ++ [item]) (skipGaps false rest)
    | rest =>
      let rest ← expect ']' rest
      return (.array (items ++ [item]), rest)

/-- The entries of an inline table up to its closing brace, with the entries before them. -/
def readEntries : Nat → Nat → Entries → List Char → Except Error (Node × List Char)
  | 0, _, _, _ => .error .tooDeep
  | bound + 1, depth, entries, s => do
    let (path, last, rest) ← readKey s
    let rest ← expect '=' rest
    let (node, rest) ← readValue bound depth (skipBlanks rest)
    let entries ← entries.addValue path last node
    match skipBlanks rest with
    | ',' :: rest => readEntries bound depth entries rest
    | rest =>
      let rest ← expect '}' rest
      return (.inlineTable entries, rest)

end

/-- A document that has been read in part: its tree, and the header that is open. -/
structure Draft where
  entries : Entries := []
  header : List String := []

namespace Draft

def addValue (d : Draft) (path : List String) (last : String) (node : Node) :
    Except Error Draft := do
  let entries ← d.entries.updateHeader (fun _ table => table.addValue path last node) .header
    d.header
  return { d with entries }

/-- Opens a table by its header, a single or a double one. -/
def openHeader (d : Draft) (double : Bool) (path : List String) (last : String) :
    Except Error Draft := do
  let openLast (_ : Origin) (parent : Entries) :=
    if double then parent.openTables last else parent.openTable last
  let entries ← d.entries.updateHeader openLast .header path
  return { entries, header := path ++ [last] }

end Draft

/-- A header behind its opening brackets, with the end of its line. -/
def readHeader (d : Draft) (double : Bool) (s : List Char) :
    Except Error (Draft × List Char) := do
  let (path, last, rest) ← readKey s
  let rest ← expect ']' rest
  let rest ← if double then expect ']' rest else .ok rest
  let rest ← endLine rest
  let d ← d.openHeader double path last
  return (d, rest)

/-- A key with its value and the end of the line. -/
def readLine (d : Draft) (s : List Char) : Except Error (Draft × List Char) := do
  let (path, last, rest) ← readKey s
  let rest ← expect '=' rest
  let (node, rest) ← readValue (2 * rest.length + 2) 0 (skipBlanks rest)
  let rest ← endLine rest
  let d ← d.addValue path last node
  return (d, rest)

/-- The lines of a document. The count bounds their number. -/
def readLines : Nat → Draft → List Char → Except Error Draft
  | 0, _, _ => .error .tooDeep
  | bound + 1, d, s =>
    match skipBlanks s with
    | [] => .ok d
    | '[' :: '[' :: rest => do
      let (d, rest) ← readHeader d true rest
      readLines bound d rest
    | '[' :: rest => do
      let (d, rest) ← readHeader d false rest
      readLines bound d rest
    | '#' :: rest => do
      let rest ← endLine ('#' :: rest)
      readLines bound d rest
    | s =>
      match newline? s with
      | some rest => readLines bound d rest
      | none => do
        let (d, rest) ← readLine d s
        readLines bound d rest

/-- A mark of the byte order may stand before a document. -/
def skipByteOrderMark : List Char → List Char
  | '\ufeff' :: rest => rest
  | s => s

/-- Reads a document: blanks and comments, headers, and values under keys, line by line. Each reader
takes the rest of the document and gives what it read with what is left. -/
def parse (text : String) : Except Error Entries := do
  let s := skipByteOrderMark text.toList
  let d ← readLines (s.length + 1) {} s
  return d.entries

end LiveTables.Toml
