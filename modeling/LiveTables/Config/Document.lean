import LiveTables.Config
import LiveTables.Toml.Document
import LiveTables.Toml.Written

namespace LiveTables.Config

inductive ReadError where
  | malformed (error : Toml.Error)
  | wrongKind (key : String)
  | emptyLocation
deriving DecidableEq, Repr

def describeToml : Toml.Error → String
  | .unexpected rest => "unexpected " ++ Text.quote rest
  | .outOfRange written => "out of range: " ++ written
  | .duplicateKey key => "duplicate key " ++ Text.quote key
  | .tooDeep => "nested too deeply"

def ReadError.reason : ReadError → String
  | malformed error => "Failed to parse config: " ++ describeToml error
  | wrongKind key => "Failed to parse config: wrong kind of value for " ++ key
  | emptyLocation => "location must not be empty"

/-- A text entry, or its default where it is missing. An entry of another kind is an error. -/
def textEntry (entries : Toml.Entries) (key default : String) : Except ReadError String :=
  match entries.lookup key with
  | none => .ok default
  | some (.text s) => .ok s
  | some _ => .error (.wrongKind key)

def booleanEntry (entries : Toml.Entries) (key : String) (default : Bool) :
    Except ReadError Bool :=
  match entries.lookup key with
  | none => .ok default
  | some (.boolean b) => .ok b
  | some _ => .error (.wrongKind key)

/-- A configuration whose location is not empty. -/
def validate (c : Config) : Except ReadError Unit :=
  if c.location.isEmpty then .error .emptyLocation else .ok ()

def ofEntries (entries : Toml.Entries) : Except ReadError Config := do
  let location ← textEntry entries "location" "res_db"
  let recordScope ← textEntry entries "record_scope" "**"
  let reloadOnRefresh ← booleanEntry entries "reload_on_refresh" false
  return { location := .text location, recordScope, reloadOnRefresh }

/-- Reads a document. It is read as a whole before any entry is looked at, and entries under other
keys are ignored. -/
def parse (text : String) : Except ReadError Config :=
  match Toml.parse text with
  | .error error => .error (.malformed error)
  | .ok entries => do
    let c ← ofEntries entries
    c.validate
    return c

/-- A configuration as a document, if its location has a text. -/
def write? (c : Config) : Option String :=
  match c.location with
  | .raw _ => none
  | .text location =>
    some ("location = " ++ Toml.writeText location ++ "\nrecord_scope = " ++
      Toml.writeText c.recordScope ++ "\nreload_on_refresh = " ++ toString c.reloadOnRefresh ++
      "\n")

def fileName : String := "basedb.toml"

/-- A document that gives the default configuration and explains it. -/
def defaultDocument : String :=
  String.intercalate "\n"
    ["# basedb registry configuration",
      "#",
      "# Base directory handed to record loaders",
      "location = \"res_db\"",
      "",
      "# Namespace scope for type discovery",
      "#   \"*\"  matches one namespace segment",
      "#   \"**\" matches any number of segments",
      "record_scope = \"**\"",
      "",
      "# Re-run initialization on every host refresh signal (default: false).",
      "# When false, only the first signal loads data; use reload_all() afterwards.",
      "reload_on_refresh = false",
      ""]

end LiveTables.Config
