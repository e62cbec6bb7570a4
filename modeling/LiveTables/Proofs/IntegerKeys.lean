import LiveTables.Value.Integer
import LiveTables.Proofs.ExactTable
import LiveTables.Proofs.KeyCollisions

namespace LiveTables

/-- The decimal digits of a natural number, without a zero before another digit. -/
structure Numeral (n : Nat) (digits : List Char) : Prop where
  nonempty : digits ≠ []
  decimal : ∀ c ∈ digits, c.isDigit = true
  leading : digits.head? = some '0' → digits = ['0']
  value : Nat.ofDigitChars 10 digits 0 = n

/-- A text is an integer in decimal: a minus sign for a negative one, then its magnitude. -/
def IsDecimal (text : String) (n : Int) : Prop :=
  ∃ digits, Numeral n.natAbs digits ∧ text.toList = (if n < 0 then ['-'] else []) ++ digits

/-- The digits of a positive number do not begin with a zero. -/
theorem head?_toDigits_ne_zero {n : Nat} (positive : 0 < n) :
    (Nat.toDigits 10 n).head? ≠ some '0' := by
  induction n using Nat.strong_induction_on with
  | _ n ih =>
    rw [Nat.toDigits_eq_if (by decide)]
    by_cases single : n < 10
    · rw [if_pos single]
      intro zero
      have value := Nat.ofDigitChars_ten_toDigits (n := n)
      rw [Nat.toDigits_of_lt_base single, Option.some.inj zero] at value
      exact absurd value positive.ne
    · -- The first digit is that of the tenth part, which is not zero either.
      have front := ih (n / 10) (by omega) (by omega)
      rw [if_neg single, List.head?_append_of_ne_nil _ Nat.toDigits_ne_nil]
      exact front

theorem numeral_toDigits (n : Nat) : Numeral n (Nat.toDigits 10 n) where
  nonempty := Nat.toDigits_ne_nil
  decimal _ member := Nat.isDigit_of_mem_toDigits (by decide) (by decide) member
  leading zero := by
    rcases n.eq_zero_or_pos with rfl | positive
    · exact Nat.toDigits_zero 10
    · exact absurd zero (head?_toDigits_ne_zero positive)
  value := Nat.ofDigitChars_ten_toDigits

/-- An integer is written in decimal. -/
theorem isDecimal_toString (n : Int) : IsDecimal (toString n) n := by
  refine ⟨Nat.toDigits 10 n.natAbs, numeral_toDigits _, ?_⟩
  cases n with
  | ofNat n =>
    have unsigned : (toString (Int.ofNat n)).toList = (toString n).toList := rfl
    rw [unsigned, Nat.toString_eq_ofList_toDigits, String.toList_ofList]
    rfl
  | negSucc n =>
    rw [Key.toList_negSucc, Nat.toString_eq_ofList_toDigits, String.toList_ofList,
      if_pos (Int.negSucc_lt_zero n)]
    rfl

theorem Numeral.minus_notMem {n : Nat} {digits : List Char} (numeral : Numeral n digits) :
    '-' ∉ digits := fun member => absurd (numeral.decimal '-' member) (by decide)

/-- A text is one integer only in decimal. -/
theorem IsDecimal.unique {text : String} {m n : Int} (first : IsDecimal text m)
    (second : IsDecimal text n) : m = n := by
  obtain ⟨digits, numeral, written⟩ := first
  obtain ⟨others, numeral', written'⟩ := second
  have same := written.symm.trans written'
  have magnitudes (equal : digits = others) : m.natAbs = n.natAbs := by
    rw [← numeral.value, ← numeral'.value, equal]
  split_ifs at same with below below' below'
  · have magnitude := magnitudes (List.append_cancel_left same)
    omega
  · have signed : '-' :: digits = others := same
    exact absurd (signed ▸ List.mem_cons_self) numeral'.minus_notMem
  · have signed : digits = '-' :: others := same
    exact absurd (signed ▸ List.mem_cons_self) numeral.minus_notMem
  · have magnitude := magnitudes (List.append_cancel_left same)
    omega

namespace Integer

/-- The text of an integer as a value is that of the number, whatever the width. -/
theorem render_toValue (a : Integer) : a.toValue.render = toString a.toInt := by
  cases a with
  | int8 n => exact congrArg toString n.toInt_toInt64
  | int16 n => exact congrArg toString n.toInt_toInt64
  | int32 n => exact congrArg toString n.toInt_toInt64
  | int64 n => rfl
  | intWord n => rfl
  | uint8 n => exact congrArg toString n.toNat_toUInt64
  | uint16 n => exact congrArg toString n.toNat_toUInt64
  | uint32 n => exact congrArg toString n.toNat_toUInt64
  | uint64 n => rfl
  | uintWord n => rfl

theorem isDecimal_render (a : Integer) : IsDecimal a.toValue.render a.toInt :=
  a.render_toValue ▸ isDecimal_toString a.toInt

variable {a b : Integer}

/-- Integers share a key exactly if they are the same number. -/
theorem build_eq_build (typeName indexName : Option String) :
    Key.build typeName indexName [a.toValue] = Key.build typeName indexName [b.toValue] ↔
      a.toInt = b.toInt := by
  rw [Key.build_single]
  constructor
  · intro same
    exact (same ▸ a.isDecimal_render).unique b.isDecimal_render
  · intro same
    rw [render_toValue, render_toValue, same]

/-- A definition that gives a record an integer, if anything, asks for it under that number. -/
theorem asks_integer {d : IndexDef} {type : RecordType} {r : Record} {given : Option Integer}
    (extracted : d.valuesFor r = .ok (given.map fun a => [a.toValue])) (b : Integer) :
    d.Asks type r (type.key d.name [b.toValue]) ↔ ∃ a ∈ given, a.toInt = b.toInt := by
  cases given with
  | none => simp [IndexDef.Asks, extracted]
  | some a =>
    have agree := build_eq_build (a := b) (b := a) (some type.name) (some d.name)
    rw [IndexDef.asks_iff extracted]
    exact agree.trans (by simp [eq_comm])

/-- Integers of all widths are one kind of value to a key. The keys of two of them, under the same
type and index names, agree exactly if the numbers do, and their text is that number in decimal. So
an index that gives records integers, of whatever widths, lists under an integer of any width the
records of just this number. -/
theorem one_key_per_number :
    (∀ (a b : Integer) (typeName indexName : Option String),
      Key.build typeName indexName [a.toValue] = Key.build typeName indexName [b.toValue] ↔
        a.toInt = b.toInt) ∧
    (∀ a : Integer, IsDecimal a.toValue.render a.toInt) ∧
    ∀ (type : RecordType) (d : IndexDef) (batch : List Record) (given : Record → Option Integer),
      (batch.map Record.id).Nodup →
      (∀ r ∈ batch, d.valuesFor r = .ok ((given r).map fun a => [a.toValue])) →
      ∃ g, Generation.build type batch [d] = .done g ∧
        ∀ b : Integer, g.index.ids (type.key d.name [b.toValue]) =
          (batch.filter fun r => ∃ a ∈ given r, a.toInt = b.toInt).map Record.id := by
  refine ⟨fun a b => build_eq_build, isDecimal_render, ?_⟩
  intro type d batch given distinct extracted
  have answers : ∀ e ∈ [d], ∀ r ∈ batch, e.Answers r := by
    intro e member r inBatch
    obtain rfl := List.mem_singleton.mp member
    exact ⟨_, extracted r inBatch⟩
  obtain ⟨index, built⟩ := Generation.build_of_answers type distinct answers
  refine ⟨_, built, fun b => (Generation.ids_build built _).trans ?_⟩
  refine congrArg (List.map Record.id) (List.filter_congr fun r inBatch => ?_)
  simp only [List.mem_singleton, exists_eq_left, asks_integer (extracted r inBatch)]

/-- Levels that the records of one type give in three widths, where they have one. -/
def level? (r : Record) : Option Integer :=
  if r.id = .number 1 then some (.uint8 7)
  else if r.id = .number 2 then some (.int64 (-7))
  else if r.id = .number 3 then some (.uintWord 7)
  else none

/-- A lookup in a fourth width finds the two sevens and passes the negative one over. -/
theorem seven_found : ∃ g,
    Generation.build ⟨0, "Item", "", .number, []⟩
      [⟨.number 1, []⟩, ⟨.number 2, []⟩, ⟨.number 3, []⟩, ⟨.number 4, []⟩]
      [⟨"lvl", fun r => .ok ((level? r).map fun a => [a.toValue])⟩] = .done g ∧
    g.index.ids (Key.build (some "Item") (some "lvl") [(int8 7).toValue]) =
      [.number 1, .number 3] := by
  obtain ⟨g, built, listed⟩ := one_key_per_number.2.2 ⟨0, "Item", "", .number, []⟩
    ⟨"lvl", fun r => .ok ((level? r).map fun a => [a.toValue])⟩
    [⟨.number 1, []⟩, ⟨.number 2, []⟩, ⟨.number 3, []⟩, ⟨.number 4, []⟩] level? (by decide)
    fun _ _ => rfl
  exact ⟨g, built, (listed (int8 7)).trans (by decide)⟩

end Integer

end LiveTables
