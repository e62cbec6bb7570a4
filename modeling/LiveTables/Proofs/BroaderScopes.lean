import Mathlib.Data.List.Forall2
import Mathlib.Logic.Relation
import LiveTables.Binding
import LiveTables.Proofs.SelectedNames

namespace LiveTables

namespace Scope

/-- A sequence fits two patterns one behind the other if it can be cut in two that fit them. -/
theorem fits_append {front rest name : List String} : fits (front ++ rest) name = true ↔
    ∃ early late, early ++ late = name ∧ fits front early = true ∧ fits rest late = true := by
  constructor
  · intro fitted
    obtain ⟨pieces, taken, rfl⟩ := fits_iff.mp fitted
    -- There is one piece for each segment of the pattern, so the name is cut where the pattern is.
    have first := List.forall₂_take front.length taken
    have second := List.forall₂_drop front.length taken
    rw [List.take_left] at first
    rw [List.drop_left] at second
    refine ⟨(pieces.take front.length).flatten, (pieces.drop front.length).flatten, ?_,
      fits_iff.mpr ⟨_, first, rfl⟩, fits_iff.mpr ⟨_, second, rfl⟩⟩
    rw [← List.flatten_append, List.take_append_drop]
  · rintro ⟨_, _, rfl, first, second⟩
    obtain ⟨pieces, taken, rfl⟩ := fits_iff.mp first
    obtain ⟨others, taken', rfl⟩ := fits_iff.mp second
    exact fits_iff.mpr ⟨pieces ++ others, List.rel_append taken taken', List.flatten_append⟩

/-- One place of a pattern can be given to anything that takes as much. -/
theorem fits_in_place {front place wider rest name : List String}
    (asMuch : ∀ piece, fits place piece = true → fits wider piece = true)
    (fitted : fits (front ++ place ++ rest) name = true) :
    fits (front ++ wider ++ rest) name = true := by
  obtain ⟨_, late, rfl, before, atRest⟩ := fits_append.mp fitted
  obtain ⟨early, piece, rfl, atFront, atPlace⟩ := fits_append.mp before
  have inPlace := fits_append.mpr ⟨early, piece, rfl, atFront, asMuch piece atPlace⟩
  exact fits_append.mpr ⟨early ++ piece, late, rfl, inPlace, atRest⟩

/-- A sequence fits itself, with its wildcards taken for segments like any other. -/
theorem fits_self (pattern : List String) : fits pattern pattern = true := by
  have itself (segment : String) : Takes segment [segment] := by
    by_cases run : segment = "**"
    · exact run ▸ .anyRun [segment]
    · exact (takes_iff run).mpr ⟨segment, rfl, Or.inr rfl⟩
  have taken : List.Forall₂ Takes pattern (pattern.map fun segment => [segment]) :=
    List.forall₂_map_right_iff.mpr (List.forall₂_same.mpr fun segment _ => itself segment)
  exact fits_iff.mpr ⟨_, taken, List.flatMap_singleton' pattern⟩

/-- Nothing at all is taken by runs alone. -/
theorem fits_nil_iff {pattern : List String} :
    fits pattern [] = true ↔ ∀ segment ∈ pattern, segment = "**" := by
  induction pattern with
  | nil => simp [fits]
  | cons segment pattern ih =>
    by_cases run : segment = "**"
    · simp [fits, run, remainders, ih]
    · simp [fits, run]

theorem fits_run (name : List String) : fits ["**"] name = true :=
  fits_iff.mpr ⟨[name], .cons (.anyRun name) .nil, by simp⟩

/-- Runs alone take everything, if there is one. -/
theorem fits_runs {pattern : List String} (some : pattern ≠ [])
    (runs : ∀ segment ∈ pattern, segment = "**") (name : List String) :
    fits pattern name = true := by
  obtain ⟨segment, rest, rfl⟩ := List.exists_cons_of_ne_nil some
  obtain ⟨rfl, others⟩ := List.forall_mem_cons.mp runs
  exact fits_append.mpr ⟨name, [], List.append_nil name, fits_run name, fits_nil_iff.mpr others⟩

/-- Runs next to one another take no more than one of them. -/
theorem fits_collapse (front : List String) (n : Nat) (rest name : List String) :
    fits (front ++ ["**"] ++ rest) name =
      fits (front ++ List.replicate (n + 1) "**" ++ rest) name := by
  have some : List.replicate (n + 1) "**" ≠ [] := by simp
  have runs : ∀ segment ∈ List.replicate (n + 1) "**", segment = "**" :=
    fun _ member => List.eq_of_mem_replicate member
  rw [Bool.eq_iff_iff]
  constructor
  · exact fits_in_place fun piece _ => fits_runs some runs piece
  · exact fits_in_place fun piece _ => fits_run piece

/-- A pattern is made broader in one place: a segment other than `**` gives way to `*`, or a run of
segments to `**`. At an empty run `**` is put in between. -/
inductive Broadens : List String → List String → Prop
  | anyPart (front : List String) {segment : String} (rest : List String)
      (single : segment ≠ "**") : Broadens (front ++ [segment] ++ rest) (front ++ ["*"] ++ rest)
  | anyRun (front run rest : List String) :
      Broadens (front ++ run ++ rest) (front ++ ["**"] ++ rest)

variable {pattern wider name : List String} {scope : String}

/-- Nothing is lost when a pattern is made broader in one place. -/
theorem Broadens.fits (broadens : Broadens pattern wider)
    (fitted : Scope.fits pattern name = true) : Scope.fits wider name = true := by
  cases broadens with
  | anyPart front rest single =>
    refine fits_in_place (fun piece atPlace => ?_) fitted
    obtain ⟨pieces, taken, rfl⟩ := fits_iff.mp atPlace
    obtain ⟨piece, _, first, others, rfl⟩ := List.forall₂_cons_left_iff.mp taken
    obtain rfl := List.forall₂_nil_left_iff.mp others
    obtain ⟨part, rfl, _⟩ := (takes_iff single).mp first
    exact fits_iff.mpr ⟨[[part]], .cons (.anyPart part) .nil, rfl⟩
  | anyRun front run rest => exact fits_in_place (fun piece _ => fits_run piece) fitted

/-- Nothing is lost in any number of places. -/
theorem fits_of_broader (broadens : Relation.ReflTransGen Broadens pattern wider)
    (fitted : fits pattern name = true) : fits wider name = true := by
  induction broadens with
  | refl => exact fitted
  | tail _ last ih => exact last.fits ih

theorem Broadens.ne_nil (broadens : Broadens pattern wider) : wider ≠ [] := by
  cases broadens <;> simp

/-- A broader pattern has no other segments than the old ones and the two wildcards. -/
theorem Broadens.mem (broadens : Broadens pattern wider) {segment : String}
    (member : segment ∈ wider) : segment ∈ pattern ∨ segment = "*" ∨ segment = "**" := by
  cases broadens <;>
  · simp only [List.mem_append, List.mem_singleton] at member ⊢
    tauto

/-- The scope written for a broader pattern has that pattern as its segments. -/
theorem Spells.broader (spelled : Spells pattern scope)
    (broadens : Relation.ReflTransGen Broadens pattern wider) :
    Spells wider (".".intercalate wider) := by
  induction broadens with
  | refl => exact ⟨spelled.nonempty, spelled.free, rfl⟩
  | tail _ last ih =>
    refine ⟨last.ne_nil, fun part member => ?_, rfl⟩
    rcases last.mem member with old | rfl | rfl
    · exact ih.free part old
    · decide
    · decide

theorem selects_of_spells (spelled : Spells pattern scope) (name : String) :
    selects scope name = (scope.isEmpty || fits pattern (nameSegments name)) := by
  rw [selects, spells_iff.mp spelled]

theorem selects_of_ne_empty (spelled : Spells pattern scope) (some : scope ≠ "") (name : String) :
    selects scope name = fits pattern (nameSegments name) := by
  rw [selects_of_spells spelled, String.isEmpty_eq_false_iff.mpr some, Bool.false_or]

/-- The only segment of the empty scope is the empty text. -/
theorem Spells.ne_empty (spelled : Spells pattern scope) (run : "**" ∈ pattern) : scope ≠ "" := by
  rintro rfl
  rw [spells_iff.mp spelled] at run
  exact absurd run (by decide)

theorem selects_self (name : String) : selects name name = true := by
  by_cases empty : name = ""
  · simp [selects, empty]
  · simp [selects, nameSegments, empty, fits_self]

/-- The scope of a broader pattern selects what the old scope did. -/
theorem selects_of_broader (spelled : Spells pattern scope) (some : scope ≠ "")
    (broadens : Relation.ReflTransGen Broadens pattern wider) {name : String}
    (selected : selects scope name = true) : selects (".".intercalate wider) name = true := by
  rw [selects_of_ne_empty spelled some] at selected
  rw [selects_of_spells (spelled.broader broadens), fits_of_broader broadens selected,
    Bool.or_true]

theorem selects_collapse {front rest : List String} {n : Nat}
    (spelled : Spells (front ++ List.replicate (n + 1) "**" ++ rest) scope) (name : String) :
    selects (".".intercalate (front ++ ["**"] ++ rest)) name = selects scope name := by
  have run : "**" ∈ front ++ List.replicate (n + 1) "**" ++ rest := by simp
  have kept : Spells (front ++ ["**"] ++ rest) (".".intercalate (front ++ ["**"] ++ rest)) := by
    refine ⟨by simp, fun part member => spelled.free part ?_, rfl⟩
    simp only [List.mem_append, List.mem_singleton, List.mem_replicate] at member ⊢
    tauto
  rw [selects_of_ne_empty spelled (spelled.ne_empty run),
    selects_of_ne_empty kept (kept.ne_empty (by simp)), fits_collapse]

/-- A scope selects the empty name exactly if it is empty or made of runs alone, and such a scope
selects every name. -/
theorem selects_empty_iff (scope : String) : selects scope "" = true ↔
    scope = "" ∨ ∃ pattern, Spells pattern scope ∧ ∀ segment ∈ pattern, segment = "**" := by
  have spelled : Spells (segments scope) scope := spells_iff.mpr rfl
  have unnamed : nameSegments "" = [] := rfl
  rw [selects_of_spells spelled, Bool.or_eq_true, String.isEmpty_iff, unnamed, fits_nil_iff]
  simp only [spells_iff, exists_eq_left]

theorem selects_of_selects_empty (all : selects scope "" = true) (name : String) :
    selects scope name = true := by
  rcases (selects_empty_iff scope).mp all with rfl | ⟨pattern, spelled, runs⟩
  · rfl
  · rw [selects_of_spells spelled, fits_runs spelled.nonempty runs, Bool.or_true]

/-- No name is lost to a broader scope. Every name selects itself as a scope. If segments of a scope
give way to `*`, or runs of segments to `**`, in any number of places one after the other, then the
new scope selects all that the old one did, and a catalog offers the old bindings in their order
among the new ones. Runs next to one another count as one. And a scope selects every name exactly if
it selects the empty one, which is exactly if it is empty or made of runs alone. -/
theorem selects_broader :
    (∀ name, selects name name = true) ∧
    (∀ scope pattern wider, scope ≠ "" → Spells pattern scope →
      Relation.ReflTransGen Broadens pattern wider →
      (∀ name, selects scope name = true → selects (".".intercalate wider) name = true) ∧
      ∀ c : Catalog, (c.discover scope).Sublist (c.discover (".".intercalate wider))) ∧
    (∀ front n rest scope, Spells (front ++ List.replicate (n + 1) "**" ++ rest) scope →
      ∀ name, selects (".".intercalate (front ++ ["**"] ++ rest)) name = selects scope name) ∧
    ∀ scope, ((∀ name, selects scope name = true) ↔ selects scope "" = true) ∧
      (selects scope "" = true ↔
        scope = "" ∨ ∃ pattern, Spells pattern scope ∧ ∀ segment ∈ pattern, segment = "**") := by
  refine ⟨selects_self, fun scope pattern wider some spelled broadens => ?_,
    fun _ _ _ _ spelled => selects_collapse spelled, fun scope => ?_⟩
  · have kept (name : String) (selected : selects scope name = true) :=
      selects_of_broader spelled some broadens selected
    exact ⟨kept,
      fun c => List.monotone_filter_right c.bindings fun b => kept b.recordType.qualifier⟩
  · exact ⟨⟨fun all => all "", selects_of_selects_empty⟩, selects_empty_iff scope⟩

/-- From one scope to a broader one in three places, with a segment that reads like a wildcard in
the name. -/
theorem widened_selects : selects "game.*.**.model" "game.**.model" = true ∧
    selects "*.*.**" "game.**.model" = true := by
  have spelled : Spells ["game", "*", "**", "model"] "game.*.**.model" := spells_iff.mpr (by decide)
  have broadens : Relation.ReflTransGen Broadens ["game", "*", "**", "model"] ["*", "*", "**"] :=
    .tail (.single (.anyPart [] ["*", "**", "model"] (by decide)))
      (.anyRun ["*", "*"] ["**", "model"] [])
  have selected : selects "game.*.**.model" "game.**.model" = true := by decide
  have wider := (selects_broader.2.1 _ _ _ (by decide) spelled broadens).1 _ selected
  exact ⟨selected, wider⟩

end Scope

end LiveTables
