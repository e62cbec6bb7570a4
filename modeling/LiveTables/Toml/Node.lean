namespace LiveTables.Toml

inductive Error where
  | unexpected (rest : String)
  | outOfRange (written : String)
  | duplicateKey (key : String)
  | tooDeep
deriving DecidableEq, Repr

/-- How a table came to be, which decides what may still be added to it. A table that was only
implied by a longer header can be given a header of its own once, one that dotted keys made can only
grow by dotted keys, and one with a header is closed to dotted keys. -/
inductive Origin where
  | header
  | implied
  | dotted
deriving DecidableEq, Inhabited, Repr

/-- A value in a document. Numbers with a point and moments are kept as written. -/
inductive Node where
  | text (s : String)
  | integer (n : Int)
  | float (written : String)
  | boolean (b : Bool)
  | moment (written : String)
  | array (items : List Node)
  /-- A table in braces, which nothing can be added to. -/
  | inlineTable (entries : List (String × Node))
  | table (origin : Origin) (entries : List (String × Node))
  /-- The tables of one doubly bracketed header. -/
  | tables (items : List (List (String × Node)))
deriving Inhabited

/-- The entries of a table, in the order of their keys' first use. -/
abbrev Entries := List (String × Node)

namespace Entries

/-- Sets a key, in its place if it has one. -/
def put (key : String) (node : Node) : Entries → Entries
  | [] => [(key, node)]
  | (k, old) :: rest =>
    if k = key then (key, node) :: rest else (k, old) :: put key node rest

def add (key : String) (node : Node) (entries : Entries) : Except Error Entries :=
  match entries.lookup key with
  | some _ => .error (.duplicateKey key)
  | none => .ok (entries ++ [(key, node)])

/-- Changes the table at a path of headers. Missing tables on the way are implied; of the tables
of a doubly bracketed header the last is meant. -/
def updateHeader (change : Origin → Entries → Except Error Entries) (origin : Origin) :
    List String → Entries → Except Error Entries
  | [], entries => change origin entries
  | key :: path, entries =>
    match entries.lookup key with
    | none => do
      let child ← updateHeader change .implied path []
      return entries.put key (.table .implied child)
    | some (.table origin child) => do
      let child ← updateHeader change origin path child
      return entries.put key (.table origin child)
    | some (.tables items) => do
      let child ← updateHeader change .header path (items.getLast?.getD [])
      return entries.put key (.tables (items.dropLast ++ [child]))
    | some _ => .error (.duplicateKey key)

/-- Adds a value under a dotted key. The tables on the way have no header of their own, and the
one that gets the value was made by dotted keys. -/
def addDotted (origin : Origin) (key : String) (node : Node) :
    List String → Entries → Except Error Entries
  | [], entries => if origin = .dotted then entries.add key node else .error (.duplicateKey key)
  | part :: path, entries =>
    match entries.lookup part with
    | none => do
      let child ← addDotted .dotted key node path []
      return entries.put part (.table .dotted child)
    | some (.table .header _) => .error (.duplicateKey part)
    | some (.table origin child) => do
      let child ← addDotted origin key node path child
      return entries.put part (.table origin child)
    | some (.tables items) => do
      let child ← addDotted .header key node path (items.getLast?.getD [])
      return entries.put part (.tables (items.dropLast ++ [child]))
    | some _ => .error (.duplicateKey part)

/-- Adds a value under a key, dotted or plain, to the table of a header or a pair of braces. -/
def addValue (path : List String) (key : String) (node : Node) (entries : Entries) :
    Except Error Entries :=
  if path.isEmpty then entries.add key node else entries.addDotted .header key node path

/-- Opens the table of a header below its parent. -/
def openTable (key : String) (entries : Entries) : Except Error Entries :=
  match entries.lookup key with
  | none => .ok (entries ++ [(key, .table .header [])])
  | some (.table .implied child) => .ok (entries.put key (.table .header child))
  | some _ => .error (.duplicateKey key)

/-- Opens one more table of a doubly bracketed header below its parent. -/
def openTables (key : String) (entries : Entries) : Except Error Entries :=
  match entries.lookup key with
  | none => .ok (entries ++ [(key, .tables [[]])])
  | some (.tables items) => .ok (entries.put key (.tables (items ++ [[]])))
  | some _ => .error (.duplicateKey key)

end Entries

end LiveTables.Toml
