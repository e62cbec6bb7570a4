import LiveTables.Config.File
import LiveTables.Proofs.QuotedText

namespace LiveTables

namespace Toml

variable {key value rest : List Char} {node : Node} {c : Char}

/-- A character of a bare key is no blank, no quote and no bracket, and it starts no comment and
ends no line. -/
theorem ne_of_isBareKey (bare : isBareKey c = true) : isBlank c = false ∧ c ≠ '"' ∧ c ≠ '\'' ∧
    c ≠ '[' ∧ c ≠ '#' ∧ c ≠ '\n' ∧ c ≠ '\r' := by
  have ne {d : Char} (other : isBareKey d = false) : c ≠ d := by
    rintro rfl
    rw [bare] at other
    contradiction
  have blank : isBlank c = false := by
    simp [isBlank, ne (d := ' ') rfl, ne (d := '\t') rfl]
  exact ⟨blank, ne rfl, ne rfl, ne rfl, ne rfl, ne rfl, ne rfl⟩

theorem skipBlanks_cons (notBlank : isBlank c = false) (s : List Char) :
    skipBlanks (c :: s) = c :: s := List.dropWhile_cons_of_neg (by simp [notBlank])

theorem readKey_bare (bare : ∀ c ∈ key, isBareKey c = true) (given : key ≠ [])
    (rest : List Char) :
    readKey (key ++ ' ' :: '=' :: rest) = .ok ([], String.ofList key, '=' :: rest) := by
  obtain ⟨c, more, rfl⟩ := List.exists_cons_of_ne_nil given
  obtain ⟨notBlank, notDouble, notSingle, _⟩ := ne_of_isBareKey (bare c List.mem_cons_self)
  have part : readKeyPart (c :: more ++ ' ' :: '=' :: rest) =
      .ok (String.ofList (c :: more), ' ' :: '=' :: rest) := by
    have taken : (c :: more ++ ' ' :: '=' :: rest).takeWhile isBareKey = c :: more :=
      (List.takeWhile_append_of_pos bare).trans (List.append_nil _)
    have left : (c :: more ++ ' ' :: '=' :: rest).dropWhile isBareKey = ' ' :: '=' :: rest :=
      List.dropWhile_append_of_pos bare
    rw [readKeyPart]
    · simp only [taken, left]
      rfl
    · rintro x same
      exact notDouble (List.cons.inj same).1
    · rintro x same
      exact notSingle (List.cons.inj same).1
  have start : skipBlanks (c :: more ++ ' ' :: '=' :: rest) = c :: more ++ ' ' :: '=' :: rest :=
    skipBlanks_cons notBlank _
  rw [readKey, show depthLimit - 1 = 78 + 1 from rfl, readKeyParts, start, part]
  rfl

/-- What is read as a value where it stands at the end of a line. -/
structure ReadsAs (value : List Char) (node : Node) : Prop where
  first : ∀ rest, skipBlanks (value ++ rest) = value ++ rest
  read : ∀ bound depth rest,
    readValue (bound + 1) depth (value ++ '\n' :: rest) = .ok (node, '\n' :: rest)

theorem Form.write_opens (form : Form) (s : List Char) :
    ∃ mark ∈ ['"', '\''], ∃ more, form.write s = mark :: more := by
  cases form <;> exact ⟨_, by simp, _, rfl⟩

theorem readsAs_writeText (s : String) : ReadsAs (writeText s).toList (.text s) := by
  obtain ⟨mark, quote, more, opens⟩ : ∃ mark ∈ ['"', '\''], ∃ more,
      (writeText s).toList = mark :: more := by
    rw [writeText, String.toList_ofList]
    exact Form.write_opens _ _
  have others : ∀ mark ∈ ['"', '\''], isBlank mark = false ∧ mark ≠ '[' ∧ mark ≠ '{' :=
    List.forall_mem_cons.mpr ⟨by decide, List.forall_mem_singleton.mpr (by decide)⟩
  obtain ⟨notBlank, notBracket, notBrace⟩ := others mark quote
  refine ⟨fun rest => ?_, fun bound depth rest => ?_⟩
  · rw [opens]
    exact skipBlanks_cons notBlank _
  · have free : ∀ mark ∈ ['"', '\''], ('\n' :: rest).head? ≠ some mark := by simp
    have read := readText?_writeText s free
    rw [opens] at read ⊢
    rw [readValue, read]
    · simp [Except.map]
    · rintro _ same
      exact notBracket (List.cons.inj same).1
    · rintro _ same
      exact notBrace (List.cons.inj same).1

theorem readsAs_toString (b : Bool) : ReadsAs (toString b).toList (.boolean b) := by
  refine ⟨fun rest => ?_, fun bound depth rest => ?_⟩
  · cases b <;> exact skipBlanks_cons rfl _
  · cases b
    · show readValue _ _ ('f' :: 'a' :: 'l' :: 's' :: 'e' :: '\n' :: rest) = _
      rw [readValue]
      · simp [readText?, readScalar, takeWord, endsWord, readWord?]
      all_goals simp
    · show readValue _ _ ('t' :: 'r' :: 'u' :: 'e' :: '\n' :: rest) = _
      rw [readValue]
      · simp [readText?, readScalar, takeWord, endsWord, readWord?]
      all_goals simp

/-- A line that gives a value under a key. -/
def line (key : String) (value : List Char) : List Char :=
  key.toList ++ ' ' :: '=' :: ' ' :: (value ++ ['\n'])

theorem readLine_line {key : String} (bare : ∀ c ∈ key.toList, isBareKey c = true)
    (given : key ≠ "") (reads : ReadsAs value node) {d : Draft} (top : d.header = [])
    (fresh : d.entries.lookup key = none) (rest : List Char) :
    readLine d (line key value ++ rest) =
      .ok ({ d with entries := d.entries ++ [(key, node)] }, rest) := by
  have whole : line key value ++ rest =
      key.toList ++ ' ' :: '=' :: (' ' :: (value ++ '\n' :: rest)) := by simp [line]
  have givenList : key.toList ≠ [] := by simpa using given
  have blank : skipBlanks (' ' :: (value ++ '\n' :: rest)) = value ++ '\n' :: rest := reads.first _
  rw [whole, readLine, readKey_bare bare givenList]
  simp only [bind, Except.bind, expect, if_true, blank]
  rw [reads.read]
  simp [endLine, skipBlanks, isBlank, skipComment, newline?, Draft.addValue, top,
    Entries.updateHeader, Entries.addValue, Entries.add, fresh, bind, Except.bind, pure,
    Except.pure]

/-- A line under a new bare key adds its entry to a draft without headers. -/
theorem readLines_line {key : String} (bare : key.toList.all isBareKey = true)
    (given : key ≠ "") (reads : ReadsAs value node) {entries : Entries}
    (fresh : entries.lookup key = none) (bound : Nat) (rest : List Char) :
    readLines (bound + 1) { entries } (line key value ++ rest) =
      readLines bound { entries := entries ++ [(key, node)] } rest := by
  have bare := List.all_eq_true.mp bare
  have read := readLine_line bare given reads (d := { entries }) rfl fresh rest
  obtain ⟨c, more, whole⟩ : ∃ c more, key.toList = c :: more :=
    List.exists_cons_of_ne_nil (by simpa using given)
  obtain ⟨notBlank, _, _, notBracket, notComment, notNewline, notReturn⟩ :=
    ne_of_isBareKey (bare c (whole ▸ List.mem_cons_self))
  obtain ⟨tail, start⟩ : ∃ tail, line key value ++ rest = c :: tail := by
    rw [line, whole]
    exact ⟨_, rfl⟩
  rw [start] at read ⊢
  rw [readLines, skipBlanks_cons notBlank]
  simp [newline?, notBracket, notComment, notNewline, notReturn, read, bind, Except.bind]

end Toml

namespace Config

open Toml

theorem write?_text (location recordScope : String) (reloadOnRefresh : Bool) :
    (Config.mk (.text location) recordScope reloadOnRefresh).write?.map String.toList =
      some (line "location" (writeText location).toList ++
        (line "record_scope" (writeText recordScope).toList ++
          (line "reload_on_refresh" (toString reloadOnRefresh).toList ++ []))) := by
  simp [write?, line]

/-- A written document is read back as the entries it was written from: each of its three lines
gives one, since a value ends where its line ends. -/
theorem parse_write {location recordScope document : String} {reloadOnRefresh : Bool}
    (written : (Config.mk (.text location) recordScope reloadOnRefresh).write? = some document) :
    Toml.parse document = .ok [("location", .text location), ("record_scope", .text recordScope),
      ("reload_on_refresh", .boolean reloadOnRefresh)] := by
  have lines := write?_text location recordScope reloadOnRefresh
  rw [written, Option.map_some, Option.some.injEq] at lines
  obtain ⟨bound, enough⟩ : ∃ bound, document.toList.length + 1 = bound + 1 + 1 + 1 + 1 := by
    refine ⟨document.toList.length - 3, ?_⟩
    have : 3 ≤ document.toList.length := by
      rw [lines]
      simp [line]
    omega
  have first : skipByteOrderMark document.toList = document.toList := by
    rw [lines]
    rfl
  rw [Toml.parse, first, enough, lines]
  rw [readLines_line (by decide) (by decide) (readsAs_writeText location) rfl]
  rw [readLines_line (by decide) (by decide) (readsAs_writeText recordScope) rfl]
  rw [readLines_line (by decide) (by decide) (readsAs_toString reloadOnRefresh) rfl]
  rfl

theorem parse_written {location recordScope document : String} {reloadOnRefresh : Bool}
    (written : (Config.mk (.text location) recordScope reloadOnRefresh).write? = some document) :
    Config.parse document =
      if location = "" then .error .emptyLocation
      else .ok ⟨.text location, recordScope, reloadOnRefresh⟩ := by
  have entries : ofEntries [("location", .text location), ("record_scope", .text recordScope),
      ("reload_on_refresh", .boolean reloadOnRefresh)] =
        .ok ⟨.text location, recordScope, reloadOnRefresh⟩ := rfl
  rw [Config.parse, parse_write written]
  by_cases empty : location = ""
  · subst empty
    rfl
  · have given : location.isEmpty = false := by simpa using empty
    simp [entries, validate, Location.isEmpty, given, empty, bind, Except.bind, pure, Except.pure]

end Config

/-- Whether a file can be written does not depend on what is written. -/
theorem Files.write_other {files written : Files} {path : String} {content : ByteArray}
    (ok : files.write path content = .ok written) (other : ByteArray) :
    ∃ otherwise, files.write path other = .ok otherwise := by
  unfold write at ok ⊢
  split at ok
  · contradiction
  · rename_i given
    rw [if_neg given]
    simp only [bind, Except.bind] at ok ⊢
    split at ok
    · contradiction
    · split at ok
      · contradiction
      · split at ok
        · contradiction
        · rename_i notFolder
          rw [if_neg notFolder]
          split at ok
          · contradiction
          · split at ok
            · contradiction
            · rename_i free
              simp [free]

namespace Config

variable {files written : Files} {path location recordScope : String} {reloadOnRefresh : Bool}

theorem toFile_text (document : String) {c : Config} (text : c.write? = some document) :
    c.toFile files path = putDocument files "write config file" path document := by
  rw [toFile, text]

/-- A file that a configuration was written to gives it back, or is refused for the location. -/
theorem ofFile_written (ok : (Config.mk (.text location) recordScope reloadOnRefresh).toFile files
    path = (written, none)) : ofFile written path =
      if location = "" then
        .error (.config ("location must not be empty" ++ " (in '" ++ path ++ "')"))
      else .ok ⟨.text location, recordScope, reloadOnRefresh⟩ := by
  obtain ⟨document, text⟩ :
      ∃ document, (Config.mk (.text location) recordScope reloadOnRefresh).write? =
        some document := ⟨_, rfl⟩
  rw [toFile_text document text, putDocument] at ok
  cases stored : files.write path document.toUTF8 with
  | error e =>
    rw [stored] at ok
    cases ok
  | ok =>
    rw [stored] at ok
    cases ok
    have bytes := Files.read_write stored
    have decoded : String.fromUTF8? document.toUTF8 = some document := dif_pos document.isValidUTF8
    have read : written.readText path = .ok document := by
      simp only [Files.readText, bytes, bind, Except.bind, decoded]
    rw [ofFile, read]
    simp only [parse_written text]
    split <;> rfl

/-- A configuration is read back from the file that it was written to, whatever its texts are, and
it can be written wherever a file can. With an empty location it is written too, but no reader
takes it; with one that spells no text it is not written, and nothing changes. -/
theorem ofFile_toFile (files : Files) (path : String) (bytes : ByteArray)
    (recordScope : String) (reloadOnRefresh : Bool) :
    let c : Config := ⟨.ofBytes bytes, recordScope, reloadOnRefresh⟩
    (bytes.IsValidUTF8 →
      (∀ content other, files.write path content = .ok other →
        ∃ written, c.toFile files path = (written, none)) ∧
      ∀ written, c.toFile files path = (written, none) →
        (bytes ≠ .empty → ofFile written path = .ok c) ∧
        (bytes = .empty → ofFile written path =
          .error (.config ("location must not be empty" ++ " (in '" ++ path ++ "')")))) ∧
    (¬bytes.IsValidUTF8 → c.toFile files path = (files, some
      (.config "Failed to serialize config: path contains invalid UTF-8 characters"))) := by
  refine ⟨fun valid => ?_, fun invalid => ?_⟩
  · have name : Location.ofBytes bytes = .text (String.fromUTF8 bytes valid) := by
      simp only [Location.ofBytes, String.fromUTF8?, dif_pos valid]
    rw [name]
    refine ⟨fun content other ok => ?_, fun written ok => ?_⟩
    · obtain ⟨document, text⟩ : ∃ document,
          (Config.mk (.text (String.fromUTF8 bytes valid)) recordScope reloadOnRefresh).write? =
            some document := ⟨_, rfl⟩
      obtain ⟨written, stored⟩ := Files.write_other ok document.toUTF8
      exact ⟨written, by rw [toFile_text document text, putDocument, stored]⟩
    · have empty : String.fromUTF8 bytes valid = "" ↔ bytes = .empty := by
        rw [← String.toByteArray_inj]
        rfl
      rw [ofFile_written ok]
      simp only [empty]
      exact ⟨fun given => if_neg given, fun none => if_pos none⟩
  · have name : Location.ofBytes bytes = .raw bytes := by
      simp only [Location.ofBytes, String.fromUTF8?, dif_neg invalid]
    rw [name]
    rfl

/-- Quotes, backslashes, controls and line ends of every kind come back. -/
theorem quotes_and_controls_read_back :
    let c : Config := ⟨.text "a\\b'''", " \"\"\"\"'''\r\n\x00\t\x7f\\ \n", true⟩
    ∃ written, c.toFile {} "basedb.toml" = (written, none) ∧
      ofFile written "basedb.toml" = .ok c := by
  have name : Location.ofBytes "a\\b'''".toUTF8 = .text "a\\b'''" := rfl
  obtain ⟨reads, _⟩ := ofFile_toFile {} "basedb.toml" "a\\b'''".toUTF8
    " \"\"\"\"'''\r\n\x00\t\x7f\\ \n" true
  rw [name] at reads
  obtain ⟨writes, reads⟩ := reads (String.isValidUTF8 _)
  obtain ⟨written, ok⟩ := writes .empty _ rfl
  exact ⟨written, ok, (reads written ok).1 (by decide)⟩

end Config

end LiveTables
