import LiveTables.Text.Parts

namespace LiveTables

-- Contents are compared by this instance whatever libraries are imported.
local instance decEqContent : DecidableEq ByteArray := ByteArray.instDecidableEq

/-- What a path can lead to. -/
inductive FileEntry where
  | file (content : ByteArray)
  | folder
deriving DecidableEq, Inhabited

inductive FileError where
  | notFound
  | alreadyExists
  | notFolder
  | isFolder
  | nameTooLong
  | nameHasNul
  | notText
deriving DecidableEq, Repr

def FileError.message : FileError → String
  | notFound => "No such file or directory (os error 2)"
  | alreadyExists => "File exists (os error 17)"
  | notFolder => "Not a directory (os error 20)"
  | isFolder => "Is a directory (os error 21)"
  | nameTooLong => "File name too long (os error 36)"
  | nameHasNul => "file name contained an unexpected NUL byte"
  | notText => "stream did not contain valid UTF-8"

/-- The entries below the topmost folder, by the names that lead to them. -/
structure Files where
  entries : List (List String × FileEntry) := []
deriving Inhabited

namespace Files

/-- The entry at a place. The topmost folder is always there. -/
def find? (files : Files) (place : List String) : Option FileEntry :=
  if place.isEmpty then some .folder else files.entries.lookup place

theorem ne_nil_of_not_folder {files : Files} {place : List String}
    (free : files.find? place ≠ some .folder) : place ≠ [] := by
  rintro rfl
  exact free rfl

def put (files : Files) (place : List String) (entry : FileEntry) : Files :=
  ⟨(place, entry) :: files.entries.filter (·.1 ≠ place)⟩

theorem lookup_filter_ne {place other : List String} (apart : other ≠ place)
    (entries : List (List String × FileEntry)) :
    (entries.filter (·.1 ≠ place)).lookup other = entries.lookup other := by
  induction entries with
  | nil => rfl
  | cons entry rest ih =>
    obtain ⟨key, content⟩ := entry
    by_cases dropped : key = place
    · subst dropped
      simpa [List.lookup_cons, beq_false_of_ne apart] using ih
    · simp only [List.filter_cons, ne_eq, dropped, not_false_eq_true, decide_true, ↓reduceIte,
        List.lookup_cons]
      rw [← ih]

/-- Setting an entry changes that one only. -/
theorem find?_put (files : Files) {place : List String} (below : place ≠ []) (entry : FileEntry)
    (other : List String) :
    (files.put place entry).find? other =
      if other = place then some entry else files.find? other := by
  by_cases same : other = place
  · subst same
    simp [find?, put, below]
  · by_cases top : other = []
    · simp [find?, top, Ne.symm below]
    · have kept := lookup_filter_ne same files.entries
      simpa [find?, put, top, same, List.lookup_cons, beq_false_of_ne same] using kept

/-- The names on the way that a path describes. Slashes can be repeated. -/
def pathNames (path : String) : List String :=
  ((Text.cut '/' path.toList).map String.ofList).filter (· ≠ "")

/-- Whether a path ends in a slash, so that it can only lead to a folder. -/
def endsAsFolder (path : String) : Bool := path.toList.getLast? = some '/'

/-- The longest name in bytes. -/
def nameLimit : Nat := 255

/-- Paths are shorter than this in bytes. -/
def pathLimit : Nat := 4096

/-- Follows names from a place. A single dot leads to the same place, and two dots to the folder
above, which for the topmost one is itself. Every place on the way must be a folder; the last need
not exist. -/
def follow (files : Files) (here : List String) : List String → Except FileError (List String)
  | [] => .ok here
  | name :: rest =>
    match files.find? here with
    | none => .error .notFound
    | some (.file _) => .error .notFolder
    | some .folder =>
      if name = "." then files.follow here rest
      else if name = ".." then files.follow here.dropLast rest
      else if nameLimit < name.utf8ByteSize then .error .nameTooLong
      else files.follow (here ++ [name]) rest

/-- A way can be followed in two parts. -/
theorem follow_append (files : Files) (here : List String) (names rest : List String) :
    files.follow here (names ++ rest) =
      (files.follow here names).bind fun place => files.follow place rest := by
  induction names generalizing here with
  | nil => rfl
  | cons name names ih =>
    simp only [List.cons_append, follow]
    split
    · rfl
    · rfl
    · split
      · exact ih _
      · split
        · exact ih _
        · split
          · rfl
          · exact ih _

/-- What is put where no folder is does not change where a way leads. -/
theorem follow_put {files : Files} {changed : List String}
    (free : files.find? changed ≠ some .folder) (entry : FileEntry) {here names place : List String}
    (leads : files.follow here names = .ok place) :
    (files.put changed entry).follow here names = .ok place := by
  have below := ne_nil_of_not_folder free
  induction names generalizing here with
  | nil => exact leads
  | cons name names ih =>
    unfold follow at leads ⊢
    split at leads
    · contradiction
    · contradiction
    · rename_i atHere
      -- A way leads through folders only, and where the entry is put is none.
      have other : here ≠ changed := by
        rintro rfl
        exact free atHere
      simp only [find?_put files below entry here, other, ↓reduceIte, atHere]
      split at leads
      · rename_i stays
        rw [if_pos stays]
        exact ih leads
      · rename_i moves
        split at leads
        · rename_i up
          rw [if_neg moves, if_pos up]
          exact ih leads
        · rename_i down
          split at leads
          · contradiction
          · rename_i short
            rw [if_neg moves, if_neg down, if_neg short]
            exact ih leads

/-- The names of a path that a file operation takes. -/
def takenNames (path : String) : Except FileError (List String) :=
  if path.toList.contains '\x00' then .error .nameHasNul
  else if pathLimit ≤ path.utf8ByteSize then .error .nameTooLong
  else .ok (pathNames path)

def place? (files : Files) (path : String) : Except FileError (List String) :=
  if path.isEmpty then .error .notFound
  else do
    let names ← takenNames path
    files.follow [] names

/-- The folder in which the last name of a way stands. -/
def folderAbove (files : Files) (names : List String) : Except FileError (List String) := do
  let above ← files.follow [] names.dropLast
  match files.find? above with
  | none => .error .notFound
  | some (.file _) => .error .notFolder
  | some .folder => .ok above

theorem folderAbove_ok {files : Files} {names above : List String}
    (ok : files.folderAbove names = .ok above) :
    files.follow [] names.dropLast = .ok above ∧ files.find? above = some .folder := by
  simp only [folderAbove, bind, Except.bind] at ok
  split at ok
  · contradiction
  · rename_i place leads
    split at ok
    · contradiction
    · contradiction
    · rename_i isThere
      cases ok
      exact ⟨leads, isThere⟩

def read (files : Files) (path : String) : Except FileError ByteArray := do
  let place ← files.place? path
  match files.find? place with
  | none => .error .notFound
  | some .folder => .error .isFolder
  | some (.file content) => if endsAsFolder path then .error .notFolder else .ok content

def readText (files : Files) (path : String) : Except FileError String := do
  let content ← files.read path
  match String.fromUTF8? content with
  | some text => .ok text
  | none => .error .notText

/-- Writes a file anew. A path that can only lead to a folder is refused whatever its last name. -/
def write (files : Files) (path : String) (content : ByteArray) : Except FileError Files :=
  if path.isEmpty then .error .notFound
  else do
    let names ← takenNames path
    let above ← files.folderAbove names
    if endsAsFolder path then .error .isFolder
    else
      let place ← files.follow above names.getLast?.toList
      if files.find? place = some .folder then .error .isFolder
      else .ok (files.put place (.file content))

theorem dropLast_append_last (names : List String) :
    names.dropLast ++ names.getLast?.toList = names := by
  by_cases empty : names = []
  · simp [empty]
  · rw [List.getLast?_eq_some_getLast empty]
    exact List.dropLast_concat_getLast empty

/-- What was written is what is read. -/
theorem read_write {files written : Files} {path : String} {content : ByteArray}
    (ok : files.write path content = .ok written) : written.read path = .ok content := by
  unfold write at ok
  split at ok
  · contradiction
  · rename_i given
    simp only [bind, Except.bind] at ok
    split at ok
    · contradiction
    · rename_i names taken
      split at ok
      · contradiction
      · rename_i above atAbove
        split at ok
        · contradiction
        · rename_i notFolder
          split at ok
          · contradiction
          · rename_i place atPlace
            split at ok
            · contradiction
            · rename_i free
              cases ok
              have leads : files.follow [] names = .ok place := by
                have whole := follow_append files [] names.dropLast names.getLast?.toList
                rw [(folderAbove_ok atAbove).1, dropLast_append_last] at whole
                exact whole.trans atPlace
              have below := ne_nil_of_not_folder free
              simp [read, place?, given, taken, notFolder, bind, Except.bind,
                follow_put free (.file content) leads, find?_put files below]

def exists? (files : Files) (path : String) : Bool :=
  match files.place? path with
  | .error _ => false
  | .ok place =>
    match files.find? place with
    | none => false
    | some .folder => true
    | some (.file _) => !endsAsFolder path

def isFolder (files : Files) (names : List String) : Bool :=
  match files.follow [] names with
  | .ok place => files.find? place = some .folder
  | .error _ => false

/-- Makes one folder. The one that it stands in must be there, and nothing in its own place. -/
def makeOne (files : Files) (names : List String) : Except FileError Files := do
  let above ← files.folderAbove names
  match names.getLast? with
  | none | some "." | some ".." => .error .alreadyExists
  | some name =>
    let place := above ++ [name]
    if nameLimit < name.utf8ByteSize then .error .nameTooLong
    else if (files.find? place).isSome then .error .alreadyExists
    else .ok (files.put place .folder)

def makeIfMissing (files : Files) (names : List String) : Files × Option FileError :=
  match files.makeOne names with
  | .ok made => (made, none)
  | .error e => (files, if files.isFolder names then none else some e)

/-- Makes the first folder of a list, for which those after it are made first if they are missing.
What was made stays when a later one fails. -/
def makeFirst (files : Files) : List (List String) → Files × Option FileError
  | [] => (files, none)
  | names :: above =>
    match files.makeIfMissing names with
    | (_, some .notFound) =>
      match files.makeFirst above with
      | (made, none) => made.makeIfMissing names
      | failed => failed
    | result => result

/-- The names on a way that lead on: a single dot does so only at the start. -/
def leadingNames : List String → List String
  | [] => []
  | first :: rest => first :: rest.filter (· ≠ ".")

/-- The ways above the last name of a way, the longest first. -/
def waysAbove (names : List String) : List (List String) :=
  let names := leadingNames names
  ((List.range names.length).drop 1).reverse.map names.take

/-- Makes a folder and those above it, with what stopped it. A way that ends in a single dot does
not make the folder that the dot stands in: that folder is the way itself, not one above it. -/
def makeFolder (files : Files) (path : String) : Files × Option FileError :=
  match takenNames path with
  | .error e => (files, some e)
  | .ok names => files.makeFirst (names :: waysAbove names)

end Files

end LiveTables
