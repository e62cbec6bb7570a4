import LiveTables.Config.Document
import LiveTables.Error
import LiveTables.Files

namespace LiveTables.Config

/-- What goes wrong with a configuration in a file is a configuration error that names the file. -/
def fileError (deed path reason : String) : Error :=
  .config ("Failed to " ++ deed ++ " '" ++ path ++ "': " ++ reason)

def ofText (text : String) : Except Error Config :=
  (parse text).mapError fun e => .config e.reason

def ofFile (files : Files) (path : String) : Except Error Config :=
  match files.readText path with
  | .error e => .error (fileError "read config file" path e.message)
  | .ok text =>
    (parse text).mapError fun e => .config (e.reason ++ " (in '" ++ path ++ "')")

/-- Writes a document to a file, and answers what stopped it. Then no file has changed. -/
def putDocument (files : Files) (deed path document : String) : Files × Option Error :=
  match files.write path document.toUTF8 with
  | .ok written => (written, none)
  | .error e => (files, some (fileError deed path e.message))

def writeDefaultIfMissing (files : Files) (path : String) : Files × Option Error :=
  if files.exists? path then (files, none)
  else putDocument files "write default config file" path defaultDocument

/-- Writes a configuration to a file. Nothing is written if its location has no text. -/
def toFile (c : Config) (files : Files) (path : String) : Files × Option Error :=
  match c.write? with
  | none =>
    (files,
      some (.config "Failed to serialize config: path contains invalid UTF-8 characters"))
  | some document => putDocument files "write config file" path document

end LiveTables.Config
