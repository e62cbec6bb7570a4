import LiveTables.Record

namespace LiveTables

namespace Key

/-- A text without delimiters. -/
def Plain (text : List Char) : Prop := ∀ c ∈ text, isDelimiter c = false

theorem hasDelimiter_eq_false_iff {s : String} : hasDelimiter s = false ↔ Plain s.toList := by
  simp [hasDelimiter, Plain]

theorem Plain.append {s t : List Char} (first : Plain s) (second : Plain t) : Plain (s ++ t) := by
  intro c member
  rcases List.mem_append.mp member with early | late
  · exact first c early
  · exact second c late

theorem Plain.cons {c : Char} {text : List Char} (plain : isDelimiter c = false)
    (rest : Plain text) : Plain (c :: text) := List.forall_mem_cons.mpr ⟨plain, rest⟩

theorem Plain.of_subset {s t : List Char} (plain : Plain t) (within : s ⊆ t) : Plain s :=
  fun c member => plain c (within member)

theorem plain_nil : Plain [] := List.forall_mem_nil _

theorem plain_replicate {c : Char} (n : Nat) (plain : isDelimiter c = false) :
    Plain (List.replicate n c) := by
  intro d member
  rw [List.eq_of_mem_replicate member, plain]

theorem Plain.notMem {text : List Char} (plain : Plain text) {mark : Char}
    (delimiter : isDelimiter mark = true) : mark ∉ text := by
  intro member
  rw [plain mark member] at delimiter
  contradiction

theorem isDelimiter_of_isDigit {c : Char} (digit : c.isDigit = true) : isDelimiter c = false := by
  simp only [isDelimiter, Bool.or_eq_false_iff, decide_eq_false_iff_not]
  refine ⟨⟨?_, ?_⟩, ?_⟩
  all_goals
    rintro rfl
    exact absurd digit (by decide)

theorem plain_toDigits (n : Nat) : Plain (Nat.toDigits 10 n) := fun _ member =>
  isDelimiter_of_isDigit (Nat.isDigit_of_mem_toDigits (by decide) (by decide) member)

theorem plain_nat (n : Nat) : Plain (toString n).toList := by
  rw [Nat.toString_eq_ofList_toDigits, String.toList_ofList]
  exact plain_toDigits n

theorem toList_negSucc (n : Nat) :
    (toString (Int.negSucc n)).toList = '-' :: (toString (n + 1)).toList := String.toList_append

/-- An integer is written with digits and a minus sign. -/
theorem plain_int (n : Int) : Plain (toString n).toList := by
  cases n with
  | ofNat n => exact plain_nat n
  | negSucc n =>
    rw [toList_negSucc]
    exact (plain_nat (n + 1)).cons (by decide)

end Key

namespace Double

open Key (Plain plain_nil plain_replicate)

variable {digits : List Char}

/-- Setting out digits adds zeros, a point and, in scientific notation, a mark and a sign. -/
theorem plain_positional (plain : Plain digits) (order : Int) :
    Plain (positional digits order) := by
  have zero : Key.isDelimiter '0' = false := by decide
  have point : Key.isDelimiter '.' = false := by decide
  unfold positional
  split
  · have zeros := plain_replicate (-order - 1).toNat zero
    exact ((zeros.append plain).cons point).cons zero
  · have whole := plain.of_subset (List.take_subset (order.toNat + 1) digits)
    have fraction := plain.of_subset (List.drop_subset (order.toNat + 1) digits)
    have filled := plain_replicate (order.toNat + 1 - digits.length) zero
    refine (whole.append filled).append (Plain.cons point ?_)
    split
    · exact plain_nil.cons zero
    · exact fraction

theorem plain_scientific (plain : Plain digits) (signedExponent : Bool) (order : Int) :
    Plain (scientific signedExponent digits order) := by
  have leading := plain.of_subset (List.take_subset 1 digits)
  have fraction := plain.of_subset (List.drop_subset 1 digits)
  have point : Key.isDelimiter '.' = false := by decide
  have plus : Key.isDelimiter '+' = false := by decide
  unfold scientific
  refine (leading.append ?_).append (Plain.cons (by decide) (Plain.append ?_ (Key.plain_int order)))
  · split
    · exact plain_nil
    · exact fraction.cons point
  · split
    · exact plain_nil.cons plus
    · exact plain_nil

theorem dropTrailingZeros_subset (digits : List Char) : dropTrailingZeros digits ⊆ digits := by
  intro c member
  have kept := (List.dropWhile_sublist _).mem (List.mem_reverse.mp member)
  exact List.mem_reverse.mp kept

theorem Layout.plain_magnitude (layout : Layout) (x : Double) : Plain (layout.magnitude x) := by
  have written := Key.plain_toDigits (x.shortest layout.tie).digits
  have digits := written.of_subset (dropTrailingZeros_subset _)
  unfold magnitude
  dsimp only
  split
  · exact plain_positional digits _
  · exact plain_scientific digits _ _

/-- No number is written with a delimiter, in whatever layout. -/
theorem Layout.plain_text (layout : Layout) (x : Double) : Plain (layout.text x).toList := by
  have magnitude : Plain (if x.isInfinite then "inf" else if x.isZero then "0.0"
      else String.ofList (layout.magnitude x)).toList := by
    split
    · exact Key.hasDelimiter_eq_false_iff.mp (by decide)
    · split
      · exact Key.hasDelimiter_eq_false_iff.mp (by decide)
      · rw [String.toList_ofList]
        exact layout.plain_magnitude x
  unfold text
  split
  · exact Key.hasDelimiter_eq_false_iff.mp (by decide)
  · dsimp only
    split
    · rw [String.toList_append]
      exact Plain.append (Key.hasDelimiter_eq_false_iff.mp (by decide)) magnitude
    · exact magnitude

end Double

namespace Key

/-- A value is reported exactly if its text has a delimiter. -/
theorem hasDelimiter_render (v : Value) : hasDelimiter v.render = containsDelimiter v := by
  cases v with
  | null => decide
  | bool b => cases b <;> decide
  | int n => exact hasDelimiter_eq_false_iff.mpr (plain_int n.toInt)
  | uint n => exact hasDelimiter_eq_false_iff.mpr (plain_nat n.toNat)
  | float x => exact hasDelimiter_eq_false_iff.mpr (Value.floatLayout.plain_text x)
  | text s => rfl

/-- The texts that a key keeps of a list of values: no value at all is kept as one empty text. -/
def texts (values : List Value) : List String :=
  if values.isEmpty then [""] else values.map Value.render

/-- No value at all and one empty text look the same in a key. -/
theorem joinValues_texts (values : List Value) :
    joinValues (texts values) = joinValues (values.map Value.render) := by
  cases values <;> rfl

/-- The values part of a key, cut at its delimiters, gives back the texts. -/
theorem cut_joinValues {values : List Value}
    (free : ∀ v ∈ values, containsDelimiter v = false) :
    Text.cut valueDelimiter (joinValues (values.map Value.render)).toList =
      (texts values).map String.toList := by
  rw [← joinValues_texts, joinValues, String.toList_ofList]
  have apart : ∀ part ∈ (texts values).map String.toList, valueDelimiter ∉ part := by
    intro part member
    obtain ⟨text, inTexts, rfl⟩ := List.mem_map.mp member
    cases values with
    | nil =>
      obtain rfl := List.mem_singleton.mp inTexts
      exact List.not_mem_nil
    | cons v rest =>
      obtain ⟨w, inValues, rfl⟩ := List.mem_map.mp inTexts
      have plain := (hasDelimiter_render w).trans (free w inValues)
      exact (hasDelimiter_eq_false_iff.mp plain).notMem (by decide)
  cases values with
  | nil => exact Text.cut_join apart
  | cons v rest => exact Text.cut_join apart

theorem joinValues_eq_intercalate (texts : List String) :
    joinValues texts = "^".intercalate texts := by
  rw [← String.toList_inj, String.toList_intercalate, joinValues, String.toList_ofList]
  exact Text.join_eq_intercalate valueDelimiter _

/-- A value is reported exactly if the text that a key has of it holds a delimiter. The values part
of a key is the texts with a mark between each two, and if no value is reported then it is cut at
its marks into just these texts, where no value at all gives one empty text. -/
theorem containsDelimiter_exact :
    (∀ v : Value, containsDelimiter v = true ↔ ∃ c ∈ v.render.toList, c = '&' ∨ c = '#' ∨ c = '^') ∧
    (∀ (typeName indexName : Option String) (values : List Value),
      build typeName indexName values = typePart typeName ++ namePart indexName (!values.isEmpty) ++
        "^".intercalate (values.map Value.render)) ∧
    ∀ values : List Value, (∀ v ∈ values, containsDelimiter v = false) →
      (Text.cut '^' ("^".intercalate (values.map Value.render)).toList).map String.ofList =
        if values.isEmpty then [""] else values.map Value.render := by
  refine ⟨fun v => ?_, fun typeName indexName values => ?_, fun values free => ?_⟩
  · rw [← hasDelimiter_render, hasDelimiter, List.any_eq_true]
    simp only [isDelimiter, Bool.or_eq_true, decide_eq_true_eq, or_assoc]
    rfl
  · rw [build, joinValues_eq_intercalate]
  · have parts := congrArg (List.map String.ofList) (cut_joinValues free)
    rw [joinValues_eq_intercalate, List.map_map] at parts
    exact parts.trans (by simp [texts])

/-- A missing value, an empty text and the least integer between texts. -/
theorem mixed_texts_read_back :
    (Text.cut '^' "fire^^null^-9223372036854775808".toList).map String.ofList =
      ["fire", "", "null", "-9223372036854775808"] :=
  containsDelimiter_exact.2.2
    [.text "fire", .text "", .null, .int Int64.minValue] (by decide)

/-- What stands before the first mark and what follows it are told apart by any mark that the
former does not hold. -/
theorem append_mark_inj {mark : Char} {s t rest other : List Char} (freeLeft : mark ∉ s)
    (freeRight : mark ∉ t) (same : s ++ mark :: rest = t ++ mark :: other) :
    s = t ∧ rest = other := by
  have left := Text.cut_append freeLeft (Text.cut_mark mark rest)
  have right := Text.cut_append freeRight (Text.cut_mark mark other)
  rw [same, right] at left
  obtain ⟨first, others⟩ := List.cons.inj left
  have whole := congrArg (Text.join mark) others
  rw [Text.join_cut, Text.join_cut] at whole
  rw [List.append_nil, List.append_nil] at first
  exact ⟨first.symm, whole.symm⟩

/-- What follows the type in a key tells the name and the kept texts. -/
theorem named_eq_iff {name other : String} {values others : List Value}
    (freeName : hasDelimiter name = false) (freeOther : hasDelimiter other = false)
    (free : ∀ v ∈ values, containsDelimiter v = false)
    (freeOthers : ∀ v ∈ others, containsDelimiter v = false) :
    name.toList ++ nameDelimiter :: (joinValues (values.map Value.render)).toList =
        other.toList ++ nameDelimiter :: (joinValues (others.map Value.render)).toList ↔
      name = other ∧ texts values = texts others := by
  have atName : nameDelimiter ∉ name.toList :=
    (hasDelimiter_eq_false_iff.mp freeName).notMem (by decide)
  have atOther : nameDelimiter ∉ other.toList :=
    (hasDelimiter_eq_false_iff.mp freeOther).notMem (by decide)
  constructor
  · intro same
    obtain ⟨names, parts⟩ := append_mark_inj atName atOther same
    have cuts := congrArg (Text.cut valueDelimiter) parts
    rw [cut_joinValues free, cut_joinValues freeOthers] at cuts
    exact ⟨String.toList_inj.mp names,
      (List.map_inj_right fun _ _ => String.toList_inj.mp).mp cuts⟩
  · rintro ⟨rfl, same⟩
    rw [← joinValues_texts, ← joinValues_texts, same]

end Key

theorem RecordType.toList_key (type : RecordType) (name : String) (values : List Value) :
    (type.key name values).toList = type.name.toList ++ Key.typeDelimiter ::
      (name.toList ++ Key.nameDelimiter ::
        (Key.joinValues (values.map Value.render)).toList) := by
  simp [key, Key.build, Key.typePart, Key.namePart]

/-- Keys of one type agree exactly if the names and the kept texts do. -/
theorem RecordType.key_eq_key_iff (type : RecordType) {name other : String}
    {values others : List Value} (freeName : Key.hasDelimiter name = false)
    (freeOther : Key.hasDelimiter other = false)
    (free : ∀ v ∈ values, Key.containsDelimiter v = false)
    (freeOthers : ∀ v ∈ others, Key.containsDelimiter v = false) :
    type.key name values = type.key other others ↔
      name = other ∧ Key.texts values = Key.texts others := by
  rw [← String.toList_inj, toList_key, toList_key, List.append_cancel_left_eq, List.cons.injEq,
    Key.named_eq_iff freeName freeOther free freeOthers]
  exact and_iff_right rfl

end LiveTables
