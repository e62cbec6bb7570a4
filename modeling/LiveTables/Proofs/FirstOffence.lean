import Mathlib.Data.List.Induction
import LiveTables.IndexDef.Fields
import LiveTables.Proofs.ExactTable

namespace LiveTables

namespace IndexDef

/-- The fault of the first of some definitions that ends abruptly on a record. -/
inductive FirstFault (r : Record) (fault : Fault) : List IndexDef → Prop
  | here {d : IndexDef} {ds : List IndexDef} :
      d.valuesFor r = .error fault → FirstFault r fault (d :: ds)
  | later {d : IndexDef} {ds : List IndexDef} :
      d.Answers r → FirstFault r fault ds → FirstFault r fault (d :: ds)

theorem exists_firstFault {ds : List IndexDef} {r : Record} (some : ∃ d ∈ ds, ¬d.Answers r) :
    ∃ fault, FirstFault r fault ds := by
  induction ds with
  | nil =>
    obtain ⟨d, member, _⟩ := some
    cases member
  | cons d rest ih =>
    cases atRecord : d.valuesFor r with
    | error fault => exact ⟨fault, .here atRecord⟩
    | ok values =>
      have answers : d.Answers r := ⟨values, atRecord⟩
      obtain ⟨e, member, silent⟩ := some
      rcases List.mem_cons.mp member with rfl | inRest
      · exact absurd answers silent
      · obtain ⟨fault, first⟩ := ih ⟨e, inRest, silent⟩
        exact ⟨fault, .later answers first⟩

end IndexDef

namespace Generation

variable {type : RecordType} {ds : List IndexDef} {batch before after : List Record} {r : Record}

/-- A record offends after some others if one of them has its id or a definition ends abruptly on
it. -/
def Offends (ds : List IndexDef) (before : List Record) (r : Record) : Prop :=
  r.id ∈ before.map Record.id ∨ ∃ d ∈ ds, ¬d.Answers r

/-- No record of a batch offends after those before it. -/
def Clean (ds : List IndexDef) (batch : List Record) : Prop :=
  ∀ before r after, batch = before ++ r :: after → ¬Offends ds before r

/-- The first record of a batch that offends, with what comes before and after it. -/
structure FirstOffence (ds : List IndexDef) (batch before : List Record) (r : Record)
    (after : List Record) : Prop where
  place : batch = before ++ r :: after
  offends : Offends ds before r
  clean : Clean ds before

theorem clean_concat : Clean ds (before ++ [r]) ↔ Clean ds before ∧ ¬Offends ds before r := by
  constructor
  · intro clean
    refine ⟨fun first q rest place => clean first q (rest ++ [r]) ?_, clean before r [] rfl⟩
    rw [place, List.append_assoc, List.cons_append]
  · rintro ⟨clean, good⟩ first q rest place
    rcases List.eq_nil_or_concat rest with rfl | ⟨rest, last, rfl⟩
    · obtain ⟨rfl, same⟩ := List.append_inj' place rfl
      obtain rfl := List.singleton_inj.mp same
      exact good
    · rw [List.concat_eq_append, ← List.cons_append, ← List.append_assoc] at place
      exact clean first q rest (List.append_inj' place rfl).1

/-- The records of a clean batch are distinct, and every definition answers on them. -/
theorem clean_iff : Clean ds batch ↔
    (batch.map Record.id).Nodup ∧ ∀ d ∈ ds, ∀ r ∈ batch, d.Answers r := by
  -- From the end: whether a record offends depends on the records before it.
  induction batch using List.reverseRecOn with
  | nil => simp [Clean]
  | append_singleton before r ih =>
    have good : ¬Offends ds before r ↔
        r.id ∉ before.map Record.id ∧ ∀ d ∈ ds, d.Answers r := by
      simp [Offends]
    rw [clean_concat, ih, good, List.map_append, List.map_singleton, List.nodup_append]
    simp only [List.mem_append, List.mem_singleton, or_imp, forall_and, forall_eq]
    constructor
    · rintro ⟨⟨distinct, answers⟩, fresh, answered⟩
      refine ⟨⟨distinct, List.pairwise_singleton _ _, ?_⟩, answers, answered⟩
      rintro id member rfl
      exact fresh member
    · rintro ⟨⟨distinct, _, apart⟩, answers, answered⟩
      exact ⟨⟨distinct, answers⟩, fun member => apart _ member rfl, answered⟩

/-- A batch that is not clean has a first record that offends. -/
theorem clean_or_firstOffence (ds : List IndexDef) (batch : List Record) :
    Clean ds batch ∨ ∃ before r after, FirstOffence ds batch before r after := by
  induction batch using List.reverseRecOn with
  | nil => exact Or.inl (clean_iff.mpr ⟨List.nodup_nil, by simp⟩)
  | append_singleton batch r ih =>
    rcases ih with clean | ⟨before, q, after, place, offends, clean⟩
    · by_cases offends : Offends ds batch r
      · exact Or.inr ⟨batch, r, [], rfl, offends, clean⟩
      · exact Or.inl (clean_concat.mpr ⟨clean, offends⟩)
    · refine Or.inr ⟨before, q, after ++ [r], ?_, offends, clean⟩
      rw [place, List.append_assoc, List.cons_append]

theorem listRecord_of_firstFault {fault : Fault} (first : IndexDef.FirstFault r fault ds)
    (table : IndexTable RecordId) : listRecord type r table ds = .faulted fault := by
  induction first generalizing table with
  | here atRecord => simp [listRecord, atRecord]
  | later answers _ ih =>
    obtain ⟨given, atRecord⟩ := answers
    cases given with
    | none => simpa [listRecord, atRecord] using ih table
    | some values => simpa [listRecord, atRecord] using ih _

/-- A build comes to a record with all before it taken in, if these are clean. -/
theorem build_to (type : RecordType) (clean : Clean ds before) (rest : List Record) :
    ∃ g : Generation, g.records = before ∧ build type (before ++ rest) ds =
      rest.foldlM (extend type ds) g := by
  obtain ⟨distinct, answers⟩ := clean_iff.mp clean
  obtain ⟨index, built⟩ := build_of_answers type distinct answers
  refine ⟨.ofRecords 0 before index distinct, rfl, ?_⟩
  rw [build, List.foldlM_append]
  exact congrArg (Outcome.bind · _) built

/-- A repeated id ends the build before any definition sees the record. -/
theorem build_of_repeated (type : RecordType) (clean : Clean ds before)
    (again : r.id ∈ before.map Record.id) : build type (before ++ r :: after) ds =
      .failed (.duplicateId type.name r.id.describe) := by
  obtain ⟨g, rfl, run⟩ := build_to type clean (r :: after)
  have known : g.get? r.id ≠ none := fun absent => get?_eq_none_iff.mp absent again
  obtain ⟨q, found⟩ := Option.ne_none_iff_exists'.mp known
  rw [run, List.foldlM_cons, extend_known found]
  rfl

/-- On a record with a new id the first definition that ends abruptly ends the build. -/
theorem build_of_firstFault (type : RecordType) (clean : Clean ds before)
    (new : r.id ∉ before.map Record.id) {fault : Fault} (first : IndexDef.FirstFault r fault ds) :
    build type (before ++ r :: after) ds = .faulted fault := by
  obtain ⟨g, rfl, run⟩ := build_to type clean (r :: after)
  rw [run, List.foldlM_cons, extend_new (get?_eq_none_iff.mpr new), listRecord_of_firstFault first]
  rfl

/-- The first record that offends decides how a build ends. -/
theorem FirstOffence.build_eq (first : FirstOffence ds batch before r after) (type : RecordType) :
    (r.id ∈ before.map Record.id ∧
      build type batch ds = .failed (.duplicateId type.name r.id.describe)) ∨
    r.id ∉ before.map Record.id ∧
      ∃ fault, IndexDef.FirstFault r fault ds ∧ build type batch ds = .faulted fault := by
  obtain ⟨rfl, offends, clean⟩ := first
  by_cases again : r.id ∈ before.map Record.id
  · exact Or.inl ⟨again, build_of_repeated type clean again⟩
  · obtain ⟨fault, faulted⟩ := IndexDef.exists_firstFault (offends.resolve_left again)
    exact Or.inr ⟨again, fault, faulted, build_of_firstFault type clean again faulted⟩

theorem build_of_clean (type : RecordType) (clean : Clean ds batch) :
    ∃ index distinct, build type batch ds = .done (.ofRecords 0 batch index distinct) := by
  obtain ⟨distinct, answers⟩ := clean_iff.mp clean
  obtain ⟨index, built⟩ := build_of_answers type distinct answers
  exact ⟨index, distinct, built⟩

/-- A batch without offences is built. Otherwise its first offending record decides: if its id
repeats an earlier one, that id is refused, whatever definitions would do on this record or on later
ones; if not, the build ends with the fault of the first definition that ends abruptly on it. So a
build that succeeds has distinct ids, and an id that is refused is repeated. -/
theorem build_decided (type : RecordType) (ds : List IndexDef) (batch : List Record) :
    (Clean ds batch →
      ∃ index distinct, build type batch ds = .done (.ofRecords 0 batch index distinct)) ∧
    (∀ before r after, FirstOffence ds batch before r after →
      (r.id ∈ before.map Record.id →
        build type batch ds = .failed (.duplicateId type.name r.id.describe)) ∧
      (r.id ∉ before.map Record.id →
        ∃ fault, IndexDef.FirstFault r fault ds ∧ build type batch ds = .faulted fault)) ∧
    (∀ g, build type batch ds = .done g → (batch.map Record.id).Nodup) ∧
    ∀ e, build type batch ds = .failed e → ∃ before r after, batch = before ++ r :: after ∧
      r.id ∈ before.map Record.id ∧ e = .duplicateId type.name r.id.describe := by
  refine ⟨build_of_clean type, fun before r after first => ?_, fun _ => nodup_of_build,
    fun e refused => ?_⟩
  · rcases first.build_eq type with ⟨again, refused⟩ | ⟨new, faulted⟩
    · exact ⟨fun _ => refused, fun new => absurd again new⟩
    · exact ⟨fun again => absurd again new, fun _ => faulted⟩
  · rcases clean_or_firstOffence ds batch with clean | ⟨before, r, after, first⟩
    · obtain ⟨_, _, built⟩ := build_of_clean type clean
      cases refused.symm.trans built
    · rcases first.build_eq type with ⟨again, refused'⟩ | ⟨_, fault, _, faulted⟩
      · exact ⟨before, r, after, first.place, again,
          Outcome.failed.inj (refused.symm.trans refused')⟩
      · cases refused.symm.trans faulted

/-- Two definitions that end abruptly on some records. -/
def choosy : List IndexDef :=
  [.byFields "kind" ["kind"] (some "none"), .byFields "side" ["side"] (some "left")]

def chosen : Record := ⟨.number 1, [("kind", .text "axe"), ("side", .text "right")]⟩

/-- Neither definition answers on this record. -/
def declined (n : UInt32) : Record :=
  ⟨.number n, [("kind", .text "none"), ("side", .text "left")]⟩

/-- A record on which no definition answers is refused for its id if that is not new, and for the
first of the definitions if it is. -/
theorem declined_refused :
    build ⟨0, "Item", "", .number, []⟩ [chosen, declined 1, declined 2] choosy =
        .failed (.duplicateId "Item" "1") ∧
      build ⟨0, "Item", "", .number, []⟩ [chosen, declined 2, declined 1] choosy =
        .faulted (.text "extractor rejected none") := by
  have clean : Clean choosy [chosen] := clean_iff.mpr (by decide)
  have repeats : FirstOffence choosy [chosen, declined 1, declined 2] [chosen] (declined 1)
      [declined 2] := ⟨rfl, Or.inl (by decide), clean⟩
  have faults : FirstOffence choosy [chosen, declined 2, declined 1] [chosen] (declined 2)
      [declined 1] := ⟨rfl, Or.inr (by decide), clean⟩
  obtain ⟨_, first, _⟩ := build_decided ⟨0, "Item", "", .number, []⟩ choosy
    [chosen, declined 1, declined 2]
  obtain ⟨_, second, _⟩ := build_decided ⟨0, "Item", "", .number, []⟩ choosy
    [chosen, declined 2, declined 1]
  refine ⟨(first _ _ _ repeats).1 (by decide), ?_⟩
  obtain ⟨fault, faulted, run⟩ := (second _ _ _ faults).2 (by decide)
  rw [run]
  cases faulted with
  | here atRecord => exact congrArg Outcome.faulted (Except.error.inj atRecord).symm
  | later answers _ => exact absurd answers (by decide)

end Generation

end LiveTables
