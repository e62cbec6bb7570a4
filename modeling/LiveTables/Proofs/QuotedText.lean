import LiveTables.Toml.Written

namespace LiveTables.Toml

variable {c mark : Char} {s written tail : List Char}

theorem prepend_ok (c : Char) (text rest : List Char) :
    prepend c (.ok (text, rest)) = .ok (c :: text, rest) := rfl

/-- Characters that are put before a text one by one stand there in their order. -/
theorem foldr_prepend (before text rest : List Char) :
    before.foldr prepend (.ok (text, rest)) = .ok (before ++ text, rest) := by
  induction before with
  | nil => rfl
  | cons c before ih => rw [List.foldr_cons, ih, prepend_ok, List.cons_append]

/-- The ways in which one character is spelled inside a basic text. -/
inductive Spelling (c : Char) : List Char → Prop
  | plain : isPlain c = true → c ≠ '\\' → c ≠ '"' → Spelling c [c]
  | letter {l : Char} : letterEscape? l = some c → Spelling c ['\\', l]
  | code {a b d e : Char} : ofHex? [a, b, d, e] = some c → Spelling c ['\\', 'u', a, b, d, e]

theorem ne_return_of_isPlain (plain : isPlain c = true) : c ≠ '\r' := by
  rintro rfl
  contradiction

/-- A letter that stands for an escaped character opens no code and ends no line. -/
theorem letter_ne {l : Char} (escaped : letterEscape? l = some c) :
    l ≠ 'u' ∧ l ≠ 'U' ∧ ∀ rest, lineEnds (l :: rest) = false := by
  have ne {d : Char} (none : letterEscape? d = none) : l ≠ d := by
    rintro rfl
    rw [none] at escaped
    cases escaped
  refine ⟨ne rfl, ne rfl, fun rest => ?_⟩
  simp [lineEnds, ne (d := '\n') rfl, ne (d := '\r') rfl, ne (d := ' ') rfl, ne (d := '\t') rfl]

namespace Spelling

theorem readBasic (spelling : Spelling c written) (rest : List Char) :
    Toml.readBasic (written ++ rest) = prepend c (Toml.readBasic rest) := by
  cases spelling with
  | plain plain notBackslash _ => simp [Toml.readBasic, plain, notBackslash]
  | letter escaped =>
    obtain ⟨notCode, notLong, _⟩ := letter_ne escaped
    simp [Toml.readBasic, notCode, notLong, escaped, prependEscape]
  | code coded => simp [Toml.readBasic, coded, prependEscape]

theorem readLongBasic (spelling : Spelling c written) (rest : List Char) :
    Toml.readLongBasic false (written ++ rest) = prepend c (Toml.readLongBasic false rest) := by
  cases spelling with
  | plain plain notBackslash notQuote =>
    simp [Toml.readLongBasic, plain, notBackslash, notQuote, ne_return_of_isPlain plain]
  | letter escaped =>
    obtain ⟨notCode, notLong, within⟩ := letter_ne escaped
    simp [Toml.readLongBasic, notCode, notLong, within, escaped, prependEscape]
  | code coded => simp [Toml.readLongBasic, coded, prependEscape]

theorem head_ne_quote (spelling : Spelling c written) (rest : List Char) :
    (written ++ rest).head? ≠ some '"' := by
  cases spelling with
  | plain _ _ notQuote => simpa using notQuote
  | letter _ => simp
  | code _ => simp

theorem head_isPlain (spelling : Spelling c written) (rest : List Char) :
    ∃ first more, written ++ rest = first :: more ∧ isPlain first = true := by
  cases spelling with
  | plain plain _ _ => exact ⟨_, _, rfl, plain⟩
  | letter _ => exact ⟨_, _, rfl, by decide⟩
  | code _ => exact ⟨_, _, rfl, by decide⟩

theorem escapedQuote : Spelling '"' ['\\', '"'] := .letter rfl

end Spelling

theorem codes_read : ∀ n < 0x80, isPlain (Char.ofNat n) = false →
    ((Text.fourHexDigits n).map Char.toUpper).length = 4 ∧
      ofHex? ((Text.fourHexDigits n).map Char.toUpper) = some (Char.ofNat n) := by
  decide

/-- Every character that may not stand for itself has a code of four digits. -/
theorem spelling_code (notPlain : isPlain c = false) :
    Spelling c ('\\' :: 'u' :: (Text.fourHexDigits c.toNat).map Char.toUpper) := by
  have low : c.toNat < 0x80 := by
    simp [isPlain] at notPlain
    omega
  have read := codes_read c.toNat low
  rw [Char.ofNat_toNat] at read
  generalize (Text.fourHexDigits c.toNat).map Char.toUpper = digits at read
  match digits, read notPlain with
  | [a, b, d, e], ⟨_, read⟩ => exact .code read

theorem escapeBasic_spells (long : Bool) (notQuote : c ≠ '"') :
    (long = true ∧ c = '\n' ∧ escapeBasic long c = ['\n']) ∨ Spelling c (escapeBasic long c) := by
  unfold escapeBasic
  split
  · exact Or.inr (.letter rfl)
  · exact Or.inr (.letter rfl)
  · cases long with
    | true => exact Or.inl ⟨rfl, rfl, rfl⟩
    | false => exact Or.inr (.letter rfl)
  · exact Or.inr (.letter rfl)
  · exact Or.inr (.letter rfl)
  · exact Or.inr (.letter rfl)
  · rename_i notBackslash
    cases plain : isPlain c with
    | true => exact Or.inr (.plain plain notBackslash notQuote)
    | false => exact Or.inr (spelling_code plain)

/-- A quote stands for itself while few enough stand together, and is escaped after that. -/
theorem escapeText_quote (long : Bool) (allowed run : Nat) (rest : List Char) :
    escapeText long allowed run ('"' :: rest) =
      if run < allowed then '"' :: escapeText long allowed (run + 1) rest
      else ['\\', '"'] ++ escapeText long allowed 0 rest := rfl

theorem escapeText_cons (long : Bool) (allowed run : Nat) (notQuote : c ≠ '"')
    (rest : List Char) : escapeText long allowed run (c :: rest) =
      escapeBasic long c ++ escapeText long allowed 0 rest := by
  rw [escapeText]
  exact notQuote

/-- On one line every character is spelled, quotes too. -/
theorem escapeText_line (c : Char) (s : List Char) : ∃ written, Spelling c written ∧
    escapeText false 0 0 (c :: s) = written ++ escapeText false 0 0 s := by
  by_cases quote : c = '"'
  · subst quote
    exact ⟨_, .escapedQuote, escapeText_quote false 0 0 s⟩
  · rcases escapeBasic_spells false quote with ⟨long, _⟩ | spelling
    · cases long
    · exact ⟨_, spelling, escapeText_cons false 0 0 quote s⟩

/-- A text is read back from between two double quotes. -/
theorem readBasic_escapeText (s tail : List Char) :
    readBasic (escapeText false 0 0 s ++ '"' :: tail) = .ok (s, tail) := by
  induction s with
  | nil => rfl
  | cons c s ih =>
    obtain ⟨written, spelling, whole⟩ := escapeText_line c s
    rw [whole, List.append_assoc, spelling.readBasic, ih, prepend_ok]

theorem readLiteral_self (holds : ∀ c ∈ s, isPlain c = true ∧ c ≠ '\'') (tail : List Char) :
    readLiteral (s ++ '\'' :: tail) = .ok (s, tail) := by
  induction s with
  | nil => rfl
  | cons c s ih =>
    obtain ⟨⟨plain, notQuote⟩, later⟩ := List.forall_mem_cons.mp holds
    rw [List.cons_append, readLiteral, if_pos plain, ih later, prepend_ok]
    exact notQuote

/-- A reader of texts that three quotes close: fewer quotes belong to the text. -/
structure ClosedByThree (mark : Char)
    (read : List Char → Except Error (List Char × List Char)) : Prop where
  closes : ∀ rest, read (mark :: mark :: mark :: rest) = .ok (closeQuotes mark rest)
  takes : ∀ rest, ¬[mark, mark] <+: rest → read (mark :: rest) = prepend mark (read rest)

theorem closedByThree_readLongBasic : ClosedByThree '"' (readLongBasic false) where
  closes _ := by rw [readLongBasic]
  takes rest goesOn := by
    rw [readLongBasic]
    · simp [isPlain]
    · rintro more _ rfl
      exact goesOn ⟨more, rfl⟩
    all_goals simp

theorem closedByThree_readLongLiteral : ClosedByThree '\'' readLongLiteral where
  closes _ := by rw [readLongLiteral]
  takes rest goesOn := by
    rw [readLongLiteral]
    · simp [isPlain]
    · rintro more _ rfl
      exact goesOn ⟨more, rfl⟩
    all_goals simp

/-- What stands between three quotes for a text, after so many quotes that stand directly before.
Quotes stand for themselves up to two together, and everything else is read one by one. -/
inductive Inside (mark : Char) (read : List Char → Except Error (List Char × List Char)) :
    Nat → List Char → List Char → Prop
  | nil {run : Nat} : Inside mark read run [] []
  | quote {run : Nat} {text written : List Char} : run < 2 →
      Inside mark read (run + 1) text written →
      Inside mark read run (mark :: text) (mark :: written)
  | spelled {run : Nat} {c : Char} {spelling text written : List Char} :
      (∀ rest, (spelling ++ rest).head? ≠ some mark ∧
        read (spelling ++ rest) = prepend c (read rest)) →
      Inside mark read 0 text written →
      Inside mark read run (c :: text) (spelling ++ written)

/-- Quotes right behind the closing ones belong to the text, as long as there are two at most. -/
theorem closeQuotes_run (free : tail.head? ≠ some mark) {run : Nat} (short : run ≤ 2) :
    closeQuotes mark (List.replicate run mark ++ tail) = (List.replicate run mark, tail) := by
  match run, short with
  | 0, _ =>
    match tail with
    | [] => rfl
    | [c] =>
      have other : c ≠ mark := by simpa using free
      simp [closeQuotes, other]
    | c :: d :: rest =>
      have other : c ≠ mark := by simpa using free
      simp [closeQuotes, other]
  | 1, _ =>
    match tail with
    | [] => simp [closeQuotes]
    | c :: rest =>
      have other : c ≠ mark := by simpa using free
      simp [closeQuotes, other]
  | 2, _ => simp [closeQuotes, List.replicate]

namespace ClosedByThree

variable {read : List Char → Except Error (List Char × List Char)} {run : Nat}

/-- The closing quotes are found behind quotes that belong to the text. -/
theorem close (closed : ClosedByThree mark read) (free : tail.head? ≠ some mark)
    (short : run ≤ 2) : read (List.replicate run mark ++ mark :: mark :: mark :: tail) =
      .ok (List.replicate run mark, tail) := by
  have three (x : List Char) : List.replicate run mark ++ mark :: x =
      mark :: (List.replicate run mark ++ x) := by
    rw [← List.singleton_append, ← List.append_assoc, ← List.replicate_succ', List.replicate_succ,
      List.cons_append]
  rw [three, three, three, closed.closes, closeQuotes_run free short]

/-- Two quotes at most that stand before something else are read one by one. -/
theorem takes_run (closed : ClosedByThree mark read) (free : tail.head? ≠ some mark)
    (short : run ≤ 2) : read (List.replicate run mark ++ tail) =
      (List.replicate run mark).foldr prepend (read tail) := by
  have apart (rest : List Char) : ¬mark :: rest <+: tail := by
    rintro ⟨_, rfl⟩
    exact free rfl
  match run, short with
  | 0, _ => rfl
  | 1, _ => exact closed.takes tail (apart _)
  | 2, _ =>
    have second : ¬[mark, mark] <+: mark :: tail :=
      fun both => apart [] (List.cons_prefix_cons.mp both).2
    have first := closed.takes (mark :: tail) second
    rw [closed.takes tail (apart _)] at first
    exact first

/-- The quotes that stand directly before are read together with the text. -/
theorem inside (closed : ClosedByThree mark read) (free : tail.head? ≠ some mark)
    (short : run ≤ 2) (inside : Inside mark read run s written) :
    read (List.replicate run mark ++ (written ++ mark :: mark :: mark :: tail)) =
      .ok (List.replicate run mark ++ s, tail) := by
  induction inside with
  | nil => simpa using closed.close free short
  | quote more _ ih =>
    have goesOn := ih more
    rw [List.replicate_succ', List.append_assoc, List.append_assoc] at goesOn
    exact goesOn
  | spelled spells _ ih =>
    have later := ih (Nat.zero_le 2)
    rw [List.replicate_zero, List.nil_append, List.nil_append] at later
    rw [List.append_assoc, closed.takes_run (spells _).1 short, (spells _).2, later, prepend_ok,
      foldr_prepend]

end ClosedByThree

/-- An escaped text is what stands between three quotes for it. -/
theorem inside_escapeText (s : List Char) (run : Nat) :
    Inside '"' (readLongBasic false) run s (escapeText true 2 run s) := by
  induction s generalizing run with
  | nil => exact .nil
  | cons c s ih =>
    by_cases quote : c = '"'
    · subst quote
      rw [escapeText_quote]
      split
      · rename_i more
        exact .quote more (ih _)
      · exact .spelled (fun rest => ⟨Spelling.escapedQuote.head_ne_quote rest,
          Spelling.escapedQuote.readLongBasic rest⟩) (ih 0)
    · rw [escapeText_cons true 2 run quote]
      refine .spelled (fun rest => ?_) (ih 0)
      rcases escapeBasic_spells true quote with ⟨_, rfl, newline⟩ | spelling
      · rw [newline]
        exact ⟨by simp, by simp [readLongBasic]⟩
      · exact ⟨spelling.head_ne_quote rest, spelling.readLongBasic rest⟩

/-- Of a text no more quotes stand together than a bound allows, those that stand directly before
it included. -/
def RunsWithin (bound : Nat) (mark : Char) : Nat → List Char → Prop
  | _, [] => True
  | run, c :: rest =>
    if c = mark then run < bound ∧ RunsWithin bound mark (run + 1) rest
    else RunsWithin bound mark 0 rest

/-- A text without runs of quotes stands between three single quotes as it is. -/
theorem inside_self (holds : ∀ c ∈ s, c = '\n' ∨ isPlain c = true) {run : Nat}
    (within : RunsWithin 2 '\'' run s) : Inside '\'' readLongLiteral run s s := by
  induction s generalizing run with
  | nil => exact .nil
  | cons c s ih =>
    obtain ⟨plain, later⟩ := List.forall_mem_cons.mp holds
    unfold RunsWithin at within
    split at within
    · rename_i quote
      subst quote
      exact .quote within.1 (ih later within.2)
    · rename_i other
      have notReturn : c ≠ '\r' := by
        rintro rfl
        revert plain
        decide
      have spells (rest : List Char) : ([c] ++ rest).head? ≠ some '\'' ∧
          readLongLiteral ([c] ++ rest) = prepend c (readLongLiteral rest) :=
        ⟨by simpa using other, by simp [readLongLiteral, other, notReturn, plain]⟩
      exact .spelled spells (ih later within)

theorem runsWithin_of_foldl {bound longest here : Nat}
    (within : (s.foldl (fun (longest, here) d =>
      if d = mark then (max longest (here + 1), here + 1) else (longest, 0)) (longest, here)).1 ≤
        bound) : longest ≤ bound ∧ RunsWithin bound mark here s := by
  induction s generalizing longest here with
  | nil => exact ⟨within, trivial⟩
  | cons c s ih =>
    rw [List.foldl_cons] at within
    unfold RunsWithin
    by_cases same : c = mark
    · simp only [same, if_true] at within ⊢
      obtain ⟨le, later⟩ := ih within
      exact ⟨by omega, by omega, later⟩
    · simp only [same, if_false] at within ⊢
      exact ih within

theorem runsWithin_of_longestRun {bound : Nat} (within : longestRun mark s ≤ bound) :
    RunsWithin bound mark 0 s := (runsWithin_of_foldl within).2

theorem RunsWithin.notMem {run : Nat} (within : RunsWithin 0 mark run s) : mark ∉ s := by
  induction s generalizing run with
  | nil => exact List.not_mem_nil
  | cons c s ih =>
    unfold RunsWithin at within
    split at within
    · exact absurd within.1 (Nat.not_lt_zero _)
    · rename_i other
      exact fun member => (List.mem_cons.mp member).elim (Ne.symm other) (ih within)

/-- A form can hold a text. The basic forms hold every text, since they have escapes. -/
def Form.Holds (s : List Char) : Form → Prop
  | .basic | .longBasic => True
  | .literal => ∀ c ∈ s, isPlain c = true ∧ c ≠ '\''
  | .longLiteral => (∀ c ∈ s, c = '\n' ∨ isPlain c = true) ∧ RunsWithin 2 '\'' 0 s

/-- The form that is chosen can hold the text. -/
theorem Form.holds_choose (s : List Char) : (Form.choose s).Holds s := by
  have plain (free : s.any isControl = false) : ∀ c ∈ s, c = '\n' ∨ isPlain c = true := by
    intro c member
    have notControl := List.any_eq_false.mp free c member
    by_cases tab : c = '\t'
    · exact Or.inr (by rw [tab]; rfl)
    · by_cases newline : c = '\n'
      · exact Or.inl newline
      · simpa [isControl, tab, newline] using notControl
  unfold Form.choose
  dsimp only
  split
  · trivial
  · split
    · rename_i chosen
      simp only [Bool.and_eq_true, Bool.not_eq_true', decide_eq_true_eq] at chosen
      obtain ⟨⟨free, none⟩, line⟩ := chosen
      intro c member
      refine ⟨(plain free c member).resolve_left ?_, ?_⟩
      · rintro rfl
        simp [member] at line
      · rintro rfl
        exact (runsWithin_of_longestRun (Nat.le_of_eq none)).notMem member
    · split
      · trivial
      · split
        · rename_i chosen
          simp only [Bool.and_eq_true, Bool.not_eq_true', decide_eq_true_eq] at chosen
          exact ⟨plain chosen.1, runsWithin_of_longestRun chosen.2⟩
        · split <;> trivial

theorem readText?_basic (opens : ¬['"', '"'] <+: s) :
    readText? ('"' :: s) = some (readBasic s) := by
  rw [readText?]
  rintro rest rfl
  exact opens ⟨rest, rfl⟩

theorem readText?_literal (opens : ¬['\'', '\''] <+: s) :
    readText? ('\'' :: s) = some (readLiteral s) := by
  rw [readText?]
  rintro rest rfl
  exact opens ⟨rest, rfl⟩

/-- What stands on one line between two quotes does not begin like a text between three. -/
theorem not_three (free : tail.head? ≠ some mark)
    (others : written ≠ [] → (written ++ mark :: tail).head? ≠ some mark) :
    ¬[mark, mark] <+: written ++ mark :: tail := by
  rintro ⟨rest, same⟩
  cases written with
  | nil =>
    obtain ⟨_, rfl⟩ := List.cons.inj same
    exact free rfl
  | cons first more =>
    rw [← same] at others
    exact others (List.cons_ne_nil _ _) rfl

theorem skipFirstNewline_of_plain (plain : ∀ c, s.head? = some c → isPlain c = true) :
    skipFirstNewline s = s := by
  rw [skipFirstNewline]
  · rintro rest rfl
    exact absurd (plain '\n' rfl) (by decide)
  · rintro rest rfl
    exact absurd (plain '\r' rfl) (by decide)

/-- The newline that is put before the first of several lines is taken away again, and none else. -/
theorem skipFirstNewline_firstNewline (s written : List Char)
    (plain : '\n' ∉ s → ∀ c, written.head? = some c → isPlain c = true) :
    skipFirstNewline (firstNewline s ++ written) = written := by
  unfold firstNewline
  by_cases several : '\n' ∈ s
  · simp [several, skipFirstNewline]
  · simpa [several] using skipFirstNewline_of_plain (plain several)

theorem escapeText_head_isPlain (line : '\n' ∉ s) (tail : List Char) (c : Char)
    (first : (escapeText true 2 0 s ++ '"' :: tail).head? = some c) : isPlain c = true := by
  cases s with
  | nil =>
    obtain rfl := Option.some.inj first
    rfl
  | cons d s =>
    by_cases quote : d = '"'
    · subst quote
      obtain rfl := Option.some.inj first
      rfl
    · rw [escapeText_cons true 2 0 quote, List.append_assoc] at first
      rcases escapeBasic_spells true quote with ⟨_, rfl, _⟩ | spelling
      · exact absurd List.mem_cons_self line
      · obtain ⟨d, more, whole, plain⟩ :=
          spelling.head_isPlain (escapeText true 2 0 s ++ '"' :: tail)
        rw [whole] at first
        exact Option.some.inj first ▸ plain

theorem readText?_writeBasic (noDouble : tail.head? ≠ some '"') :
    readText? (Form.basic.write s ++ tail) = some (.ok (s, tail)) := by
  have opens : ¬['"', '"'] <+: escapeText false 0 0 s ++ '"' :: tail := by
    refine not_three noDouble fun some => ?_
    cases s with
    | nil => exact absurd rfl some
    | cons c s =>
      obtain ⟨written, spelling, whole⟩ := escapeText_line c s
      rw [whole, List.append_assoc]
      exact spelling.head_ne_quote _
  have read := readText?_basic opens
  rw [readBasic_escapeText] at read
  simpa [Form.write] using read

theorem readText?_writeLiteral (holds : Form.literal.Holds s) (noSingle : tail.head? ≠ some '\'') :
    readText? (Form.literal.write s ++ tail) = some (.ok (s, tail)) := by
  have opens : ¬['\'', '\''] <+: s ++ '\'' :: tail := by
    refine not_three noSingle fun some => ?_
    cases s with
    | nil => exact absurd rfl some
    | cons c s => simpa using (holds c List.mem_cons_self).2
  have read := readText?_literal opens
  rw [readLiteral_self holds] at read
  simpa [Form.write] using read

theorem readText?_writeLongBasic (noDouble : tail.head? ≠ some '"') :
    readText? (Form.longBasic.write s ++ tail) = some (.ok (s, tail)) := by
  have inside := closedByThree_readLongBasic.inside noDouble (Nat.zero_le 2)
    (inside_escapeText s 0)
  have skipped := skipFirstNewline_firstNewline s
    (escapeText true 2 0 s ++ '"' :: '"' :: '"' :: tail)
    fun line => escapeText_head_isPlain line _
  simp only [List.replicate_zero, List.nil_append] at inside
  simp [Form.write, readText?, skipped, inside]

theorem readText?_writeLongLiteral (holds : Form.longLiteral.Holds s)
    (noSingle : tail.head? ≠ some '\'') :
    readText? (Form.longLiteral.write s ++ tail) = some (.ok (s, tail)) := by
  obtain ⟨plain, within⟩ := holds
  have inside := closedByThree_readLongLiteral.inside noSingle (Nat.zero_le 2)
    (inside_self plain within)
  have skipped : skipFirstNewline (firstNewline s ++ (s ++ '\'' :: '\'' :: '\'' :: tail)) =
      s ++ '\'' :: '\'' :: '\'' :: tail := by
    refine skipFirstNewline_firstNewline s _ fun line c first => ?_
    -- A text without newlines begins with one of its own characters, or with a closing quote.
    cases s with
    | nil =>
      obtain rfl := Option.some.inj first
      rfl
    | cons d s =>
      obtain rfl := Option.some.inj first
      refine (plain d List.mem_cons_self).resolve_left ?_
      rintro rfl
      exact line List.mem_cons_self
  simp only [List.replicate_zero, List.nil_append] at inside
  simp [Form.write, readText?, skipped, inside]

/-- In whichever form a text is quoted, it is read back with what stands behind it: no quote of the
text closes it, no escape is taken for another one, and the newline that is put before several lines
is dropped again. -/
theorem readText?_write {form : Form} (holds : form.Holds s)
    (free : ∀ mark ∈ ['"', '\''], tail.head? ≠ some mark) :
    readText? (form.write s ++ tail) = some (.ok (s, tail)) := by
  have noDouble : tail.head? ≠ some '"' := free '"' (by simp)
  have noSingle : tail.head? ≠ some '\'' := free '\'' (by simp)
  cases form with
  | basic => exact readText?_writeBasic noDouble
  | literal => exact readText?_writeLiteral holds noSingle
  | longBasic => exact readText?_writeLongBasic noDouble
  | longLiteral => exact readText?_writeLongLiteral holds noSingle

/-- A writer's quoted texts are read back whole, whatever their characters are. -/
theorem readText?_writeText (s : String) (free : ∀ mark ∈ ['"', '\''], tail.head? ≠ some mark) :
    readText? ((writeText s).toList ++ tail) = some (.ok (s.toList, tail)) := by
  rw [writeText, String.toList_ofList]
  exact readText?_write (Form.holds_choose s.toList) free

end LiveTables.Toml
