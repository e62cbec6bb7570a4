import LiveTables.Location

namespace LiveTables

/-- Where loaders read, which types are loaded, and whether a repeated initial load runs again. -/
structure Config where
  location : Location := .text "res_db"
  recordScope : String := "**"
  reloadOnRefresh : Bool := false
deriving DecidableEq, Inhabited

def Config.describe (c : Config) : String :=
  "RegistryConfig \x7b location: " ++ c.location.describe ++
    ", record_scope: " ++ Text.quote c.recordScope ++
    ", reload_on_refresh: " ++ toString c.reloadOnRefresh ++ " \x7d"

end LiveTables
