import LiveTables.Proofs.KeyText

namespace LiveTables.Key

/-- No part of a request holds a delimiter. -/
structure Free (typeName indexName : Option String) (values : List Value) : Prop where
  type : ∀ name ∈ typeName, hasDelimiter name = false
  name : ∀ name ∈ indexName, hasDelimiter name = false
  values : ∀ v ∈ values, containsDelimiter v = false

/-- A request has neither an index name nor values, so its key ends with the type. -/
def Bare (indexName : Option String) (values : List Value) : Prop := indexName = none ∧ values = []

instance (indexName : Option String) (values : List Value) : Decidable (Bare indexName values) :=
  inferInstanceAs (Decidable (indexName = none ∧ values = []))

/-- What stands in a key behind the type. -/
def subject (indexName : Option String) (values : List Value) : String :=
  namePart indexName (!values.isEmpty) ++ joinValues (values.map Value.render)

variable {typeName otherType indexName otherName : Option String} {values others : List Value}

theorem build_eq_subject (typeName indexName : Option String) (values : List Value) :
    build typeName indexName values = typePart typeName ++ subject indexName values :=
  String.append_assoc

/-- Requests for one value each, under the same names, share a key if the values share their
text. -/
theorem build_single (typeName indexName : Option String) (v w : Value) :
    build typeName indexName [v] = build typeName indexName [w] ↔ v.render = w.render := by
  have text (u : Value) : (joinValues [u.render]).toList = u.render.toList := by
    rw [joinValues, String.toList_ofList]
    rfl
  rw [← String.toList_inj, ← String.toList_inj]
  simp only [build, List.isEmpty_cons, List.map_cons, List.map_nil, String.toList_append, text,
    List.append_cancel_left_eq]

/-- A request that stops behind the type adds nothing to it. -/
theorem subject_of_bare (bare : Bare indexName values) :
    (subject indexName values).toList = [] := by
  obtain ⟨rfl, rfl⟩ := bare
  rfl

/-- An absent name is written as the empty one. -/
theorem subject_of_not_bare (notBare : ¬Bare indexName values) :
    (subject indexName values).toList = (indexName.getD "").toList ++ nameDelimiter ::
      (joinValues (values.map Value.render)).toList := by
  cases indexName with
  | some name => simp [subject, namePart]
  | none =>
    have some : values.isEmpty = false := by
      rw [List.isEmpty_eq_false_iff]
      exact fun none => notBare ⟨rfl, none⟩
    simp [subject, namePart, some]

/-- The mark that closes a type does not come again behind it. -/
theorem Free.typeDelimiter_notMem (free : Free typeName indexName values) :
    typeDelimiter ∉ (subject indexName values).toList := by
  intro member
  by_cases bare : Bare indexName values
  · rw [subject_of_bare bare] at member
    cases member
  · rw [subject_of_not_bare bare] at member
    rcases List.mem_append.mp member with inName | later
    · cases indexName with
      | none => cases inName
      | some name =>
        have plain := hasDelimiter_eq_false_iff.mp (free.name name rfl)
        exact plain.notMem (by decide) inName
    · rcases List.mem_cons.mp later with close | inValues
      · exact absurd close (by decide)
      · rw [joinValues, String.toList_ofList] at inValues
        rcases Text.mem_join inValues with between | ⟨part, inside, within⟩
        · exact absurd between (by decide)
        · obtain ⟨text, rendered, rfl⟩ := List.mem_map.mp inside
          obtain ⟨v, given, rfl⟩ := List.mem_map.mp rendered
          have plain := (hasDelimiter_render v).trans (free.values v given)
          exact (hasDelimiter_eq_false_iff.mp plain).notMem (by decide) within

theorem typeDelimiter_mem (name : String) (rest : List Char) :
    typeDelimiter ∈ (typePart (some name)).toList ++ rest := by
  simp [typePart]

/-- A type that is given is closed by a mark that comes nowhere else. -/
theorem build_eq_build_types (free : Free typeName indexName values)
    (freeOther : Free otherType otherName others) :
    build typeName indexName values = build otherType otherName others ↔
      typeName = otherType ∧ subject indexName values = subject otherName others := by
  rw [build_eq_subject, build_eq_subject, ← String.toList_inj, ← String.toList_inj,
    String.toList_append, String.toList_append]
  cases typeName with
  | none =>
    cases otherType with
    | none => simp [typePart]
    | some other =>
      -- The mark that closes the other type would have to stand in this key too.
      refine ⟨fun same => absurd ?_ free.typeDelimiter_notMem,
        fun both => absurd both.1 (by simp)⟩
      have whole : (subject indexName values).toList = _ := same
      rw [whole]
      exact typeDelimiter_mem other _
  | some name =>
    cases otherType with
    | none =>
      refine ⟨fun same => absurd ?_ freeOther.typeDelimiter_notMem,
        fun both => absurd both.1 (by simp)⟩
      have whole : _ = (subject otherName others).toList := same
      rw [← whole]
      exact typeDelimiter_mem name _
    | some other =>
      have closed : typeDelimiter ∉ name.toList :=
        (hasDelimiter_eq_false_iff.mp (free.type name rfl)).notMem (by decide)
      have closedOther : typeDelimiter ∉ other.toList :=
        (hasDelimiter_eq_false_iff.mp (freeOther.type other rfl)).notMem (by decide)
      simp only [typePart, String.toList_append, String.toList_singleton, List.append_assoc,
        List.singleton_append, Option.some.injEq]
      constructor
      · intro same
        obtain ⟨types, rest⟩ := append_mark_inj closed closedOther same
        exact ⟨String.toList_inj.mp types, rest⟩
      · rintro ⟨rfl, rest⟩
        rw [rest]

/-- Behind the type a key tells the index name and the texts of the values in their order, but not
an absent name from an empty one, as long as a value follows, nor no value at all from one empty
text. -/
theorem subject_eq_subject_iff (free : Free typeName indexName values)
    (freeOther : Free otherType otherName others) :
    subject indexName values = subject otherName others ↔
      (Bare indexName values ∧ Bare otherName others) ∨
      ¬Bare indexName values ∧ ¬Bare otherName others ∧
        indexName.getD "" = otherName.getD "" ∧ texts values = texts others := by
  have freeName {name : Option String} (plain : ∀ s ∈ name, hasDelimiter s = false) :
      hasDelimiter (name.getD "") = false := by
    cases name with
    | none => decide
    | some s => exact plain s rfl
  rw [← String.toList_inj]
  by_cases bare : Bare indexName values
  · by_cases bareOther : Bare otherName others
    · simp [bare, bareOther, subject_of_bare]
    · simp [bare, bareOther, subject_of_bare, subject_of_not_bare]
  · by_cases bareOther : Bare otherName others
    · simp [bare, bareOther, subject_of_bare, subject_of_not_bare]
    · rw [subject_of_not_bare bare, subject_of_not_bare bareOther,
        named_eq_iff (freeName free.name) (freeName freeOther.name) free.values freeOther.values]
      simp [bare, bareOther]

/-- Requests without delimiters share a key exactly if they ask for the same type, or both for none,
and either both stop there, or neither does and the names and the texts of the values agree, where
no name counts as the empty one and no value at all as one empty text. -/
theorem build_eq_build_iff (free : Free typeName indexName values)
    (freeOther : Free otherType otherName others) :
    build typeName indexName values = build otherType otherName others ↔ typeName = otherType ∧
      ((Bare indexName values ∧ Bare otherName others) ∨
        ¬Bare indexName values ∧ ¬Bare otherName others ∧
          indexName.getD "" = otherName.getD "" ∧ texts values = texts others) := by
  rw [build_eq_build_types free freeOther, subject_eq_subject_iff free freeOther]

/-- An index without a name asked for an empty text, and one with an empty name asked for nothing,
share a key; a request that stops behind the type does not. -/
theorem nameless_shares_key :
    build (some "") none [.text ""] = build (some "") (some "") [] ∧
      build (some "") none [] ≠ build (some "") (some "") [] ∧
      build none none [.int (-1), .bool true] ≠ build (some "") none [.int (-1), .bool true] := by
  have nameless : Free (some "") none [.text ""] := ⟨by decide, by decide, by decide⟩
  have named : Free (some "") (some "") [] := ⟨by decide, by decide, by decide⟩
  have bare : Free (some "") none [] := ⟨by decide, by decide, by decide⟩
  have untyped : Free none none [.int (-1), .bool true] := ⟨by decide, by decide, by decide⟩
  have typed : Free (some "") none [.int (-1), .bool true] := ⟨by decide, by decide, by decide⟩
  refine ⟨(build_eq_build_iff nameless named).mpr (by decide), ?_, ?_⟩
  · intro same
    exact absurd ((build_eq_build_iff bare named).mp same) (by decide)
  · intro same
    exact absurd ((build_eq_build_iff untyped typed).mp same).1 (by decide)

end LiveTables.Key
