import LiveTables.Text.CombiningMark
import LiveTables.Text.Unprintable

namespace LiveTables.Text

def codePointEscape (c : Char) : List Char :=
  '\\' :: 'u' :: '{' :: (Nat.toDigits 16 c.toNat ++ ['}'])

/-- One character as it stands inside quotes of the given kind. Of the two kinds of quotes only the
surrounding one is escaped. -/
def escape (mark c : Char) : List Char :=
  match c with
  | '\x00' => ['\\', '0']
  | '\t' => ['\\', 't']
  | '\r' => ['\\', 'r']
  | '\n' => ['\\', 'n']
  | '\\' => ['\\', '\\']
  | _ =>
    if c = mark then ['\\', c]
    else if isCombiningMark c || isUnprintable c then codePointEscape c
    else [c]

def quote (s : String) : String :=
  "\"" ++ String.ofList (s.toList.flatMap (escape '"')) ++ "\""

def quoteChar (c : Char) : String := "'" ++ String.ofList (escape '\'' c) ++ "'"

def quoteList (texts : List String) : String :=
  "[" ++ String.intercalate ", " (texts.map quote) ++ "]"

end LiveTables.Text
