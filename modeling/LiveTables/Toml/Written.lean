import LiveTables.Toml.Text

namespace LiveTables.Toml

def longestRun (c : Char) (s : List Char) : Nat :=
  (s.foldl (fun (longest, here) d =>
    if d = c then (max longest (here + 1), here + 1) else (longest, 0)) (0, 0)).1

/-- Controls that no form holds unescaped. -/
def isControl (c : Char) : Bool := c ≠ '\t' && c ≠ '\n' && !isPlain c

/-- The form in which a text is quoted. -/
inductive Form where
  | basic
  | literal
  | longBasic
  | longLiteral
deriving DecidableEq, Repr

/-- The first form that holds a text without escapes. A text that none holds is escaped, on
several lines if it has a newline. Tabs are escaped in the basic forms and choose no form. -/
def Form.choose (s : List Char) : Form :=
  let hasControl := s.any isControl
  let hasBackslash := s.contains '\\'
  let hasNewline := s.contains '\n'
  let doubles := longestRun '"' s
  let singles := longestRun '\'' s
  if !hasControl && !hasBackslash && doubles = 0 && !hasNewline then .basic
  else if !hasControl && singles = 0 && !hasNewline then .literal
  else if !hasControl && !hasBackslash && doubles ≤ 2 then .longBasic
  else if !hasControl && singles ≤ 2 then .longLiteral
  else if hasNewline then .longBasic
  else .basic

/-- A character as it stands in a basic text. Newlines stand for themselves if `long`. -/
def escapeBasic (long : Bool) (c : Char) : List Char :=
  match c with
  | '\x08' => ['\\', 'b']
  | '\t' => ['\\', 't']
  | '\n' => if long then ['\n'] else ['\\', 'n']
  | '\x0c' => ['\\', 'f']
  | '\r' => ['\\', 'r']
  | '\\' => ['\\', '\\']
  | c => if isPlain c then [c] else '\\' :: 'u' :: (Text.fourHexDigits c.toNat).map Char.toUpper

/-- The inside of a basic text. At most `allowed` quotes stand together unescaped; `run` of them
stand directly before. -/
def escapeText (long : Bool) (allowed run : Nat) : List Char → List Char
  | [] => []
  | '"' :: rest =>
    if run < allowed then '"' :: escapeText long allowed (run + 1) rest
    else '\\' :: '"' :: escapeText long allowed 0 rest
  | c :: rest => escapeBasic long c ++ escapeText long allowed 0 rest

/-- The newline that stands before the first line of a text that has several. -/
def firstNewline (s : List Char) : List Char := if s.contains '\n' then ['\n'] else []

def Form.write (form : Form) (s : List Char) : List Char :=
  match form with
  | .basic => '"' :: (escapeText false 0 0 s ++ ['"'])
  | .literal => '\'' :: (s ++ ['\''])
  | .longBasic =>
    ['"', '"', '"'] ++ firstNewline s ++ escapeText true 2 0 s ++ ['"', '"', '"']
  | .longLiteral => ['\'', '\'', '\''] ++ firstNewline s ++ s ++ ['\'', '\'', '\'']

/-- A text as a writer quotes it: in the plainest form that can hold it. -/
def writeText (s : String) : String :=
  String.ofList ((Form.choose s.toList).write s.toList)

end LiveTables.Toml
