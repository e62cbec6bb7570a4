import Mathlib.Data.List.Forall2
import LiveTables.Scope

namespace LiveTables

namespace Scope

/-- The segments of a text: they hold no dot, and dots between them make up the text. -/
structure Spells (parts : List String) (s : String) : Prop where
  nonempty : parts ≠ []
  free : ∀ part ∈ parts, '.' ∉ part.toList
  joined : ".".intercalate parts = s

/-- Every text has segments, and has them in one way only. -/
theorem spells_iff {parts : List String} {s : String} : Spells parts s ↔ parts = segments s := by
  constructor
  · rintro ⟨nonempty, free, rfl⟩
    obtain ⟨part, rest, rfl⟩ := List.exists_cons_of_ne_nil nonempty
    have apart : ∀ p ∈ (part :: rest).map String.toList, '.' ∉ p := by
      intro p member
      obtain ⟨text, inParts, rfl⟩ := List.mem_map.mp member
      exact free text inParts
    have cut : Text.cut '.' (".".intercalate (part :: rest)).toList =
        (part :: rest).map String.toList := by
      rw [String.toList_intercalate]
      exact (congrArg _ (Text.join_eq_intercalate '.' _).symm).trans (Text.cut_join apart)
    rw [segments, cut, List.map_map]
    simp
  · rintro rfl
    refine ⟨?_, ?_, ?_⟩
    · simpa [segments] using Text.cut_ne_nil '.' s.toList
    · intro part member
      obtain ⟨letters, inCut, rfl⟩ := List.mem_map.mp member
      rw [String.toList_ofList]
      exact Text.notMem_of_mem_cut inCut
    · have letters : (segments s).map String.toList = Text.cut '.' s.toList := by
        simp [segments, Function.comp_def]
      rw [← String.toList_inj, String.toList_intercalate, letters]
      exact (Text.join_eq_intercalate '.' _).symm.trans (Text.join_cut '.' s.toList)

/-- The pieces that a segment of a scope stands for. -/
inductive Takes : String → List String → Prop
  | anyRun (piece : List String) : Takes "**" piece
  | anyPart (part : String) : Takes "*" [part]
  | itself {segment : String} : segment ≠ "**" → segment ≠ "*" → Takes segment [segment]

theorem takes_iff {segment : String} (single : segment ≠ "**") {piece : List String} :
    Takes segment piece ↔ ∃ part, piece = [part] ∧ (segment = "*" ∨ segment = part) := by
  constructor
  · rintro (_ | part | ⟨_, _⟩)
    · exact absurd rfl single
    · exact ⟨part, rfl, Or.inl rfl⟩
    · exact ⟨segment, rfl, Or.inr rfl⟩
  · rintro ⟨part, rfl, rfl | rfl⟩
    · exact .anyPart part
    · by_cases star : segment = "*"
      · subst star
        exact .anyPart "*"
      · exact .itself single star

/-- Pieces that a pattern stands for, segment by segment, make up exactly the sequences that fit
it. -/
theorem fits_iff {pattern name : List String} : fits pattern name = true ↔
    ∃ pieces, List.Forall₂ Takes pattern pieces ∧ pieces.flatten = name := by
  induction pattern generalizing name with
  | nil =>
    rw [fits, List.isEmpty_iff]
    simp only [List.forall₂_nil_left_iff, exists_eq_left, List.flatten_nil]
    exact eq_comm
  | cons segment pattern ih =>
    by_cases any : segment = "**"
    · -- The run that `**` takes is what comes before one of the remainders.
      subst any
      simp only [fits, if_true, List.any_eq_true, mem_remainders, ih]
      constructor
      · rintro ⟨rest, ⟨run, rfl⟩, pieces, taken, rfl⟩
        exact ⟨run :: pieces, .cons (.anyRun run) taken, rfl⟩
      · rintro ⟨_, taken, rfl⟩
        obtain ⟨run, pieces, _, others, rfl⟩ := List.forall₂_cons_left_iff.mp taken
        exact ⟨pieces.flatten, ⟨run, rfl⟩, pieces, others, rfl⟩
    · -- Any other segment takes exactly the first one of the name.
      constructor
      · intro fitted
        cases name with
        | nil => simp [fits, any] at fitted
        | cons part name =>
          simp only [fits, any, if_false, Bool.and_eq_true, Bool.or_eq_true,
            decide_eq_true_eq] at fitted
          obtain ⟨pieces, taken, rfl⟩ := ih.mp fitted.2
          exact ⟨[part] :: pieces, .cons ((takes_iff any).mpr ⟨part, rfl, fitted.1⟩) taken, rfl⟩
      · rintro ⟨_, taken, rfl⟩
        obtain ⟨piece, pieces, first, others, rfl⟩ := List.forall₂_cons_left_iff.mp taken
        obtain ⟨part, rfl, same⟩ := (takes_iff any).mp first
        simp only [List.flatten_cons, List.singleton_append, fits, any, if_false,
          Bool.and_eq_true, Bool.or_eq_true, decide_eq_true_eq]
        exact ⟨same, ih.mpr ⟨pieces, others, rfl⟩⟩

/-- The empty scope selects every name. Any other scope selects the names whose segments can be cut
into consecutive pieces, one for each of its own segments in order: any run of segments for `**`,
any one segment for `*`, and the segment itself for every other. The empty name has no segments. -/
theorem selects_iff (scope name : String) : selects scope name = true ↔
    scope = "" ∨ ∃ pattern parts pieces, Spells pattern scope ∧
      (name = "" ∧ parts = [] ∨ name ≠ "" ∧ Spells parts name) ∧
      List.Forall₂ Takes pattern pieces ∧ pieces.flatten = parts := by
  have named (parts : List String) :
      (name = "" ∧ parts = [] ∨ name ≠ "" ∧ Spells parts name) ↔ parts = nameSegments name := by
    by_cases empty : name = ""
    · simp [nameSegments, empty]
    · simp [nameSegments, empty, spells_iff]
  rw [selects, Bool.or_eq_true, String.isEmpty_iff, fits_iff]
  simp only [named]
  simp only [spells_iff, exists_and_left, exists_eq_left]

/-- Two runs of any length with a segment between them that they hold as well. -/
example : selects "**.a.**.a" "a.b.a.a" = true ∧ selects "**.a.**.a" "a" = false := by decide

end Scope

end LiveTables
