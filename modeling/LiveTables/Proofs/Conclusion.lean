import LiveTables.Proofs.Listing
import LiveTables.Store

namespace LiveTables.Store

/-- The definitions that a published batch has gone through: those of its plan and, if any was
registered since the plan was made, all that are registered. -/
def publishing (it : Store) (plan : Plan) : List IndexDef :=
  plan.indexes ++ if it.epoch = plan.epoch then [] else it.dynamic

/-- A reload accepts a batch if no id repeats and every definition that it goes through answers
on every record. -/
structure Accepts (it : Store) (plan : Plan) (batch : List Record) : Prop where
  distinct : (batch.map Record.id).Nodup
  answered : ∀ d ∈ it.publishing plan, ∀ r ∈ batch, d.Answers r

/-- The ways in which a reload ends without a publication: what its loader gave, and how the
reload ends then. -/
inductive Refuses (it : Store) (plan : Plan) : Outcome (List Record) → Outcome Nat → Prop
  | loaderFailed (e : Error) : Refuses it plan (.failed e) (.failed e)
  | loaderFaulted (fault : Fault) : Refuses it plan (.faulted fault) (.faulted fault)
  | idRepeated {before after : List Record} {r : Record} : r.id ∈ before.map Record.id →
      Refuses it plan (.done (before ++ r :: after))
        (.failed (.duplicateId it.recordType.name r.id.describe))
  | buildFaulted {batch : List Record} {d : IndexDef} {r : Record} {fault : Fault} :
      d ∈ plan.indexes → r ∈ batch → d.valuesFor r = .error fault →
      Refuses it plan (.done batch) (.faulted fault)
  | applicationFaulted {batch : List Record} {d : IndexDef} {r : Record} {fault : Fault} :
      it.epoch ≠ plan.epoch → d ∈ it.dynamic → r ∈ batch → d.valuesFor r = .error fault →
      Refuses it plan (.done batch) (.faulted fault)

def replaceCurrent (it : Store) (next : Generation) : Store :=
  { it with current := next, retired := it.current :: it.retired, reloads := it.reloads + 1 }

def countFailure (it : Store) : Store := { it with failedReloads := it.failedReloads + 1 }

variable {it : Store} {plan : Plan} {loaded : Outcome (List Record)}

/-- No batch is both refused and accepted. -/
theorem Refuses.not_accepts {batch : List Record} {outcome : Outcome Nat}
    (refused : it.Refuses plan (.done batch) outcome) : ¬it.Accepts plan batch := by
  intro accepted
  have answered := accepted.answered
  cases refused with
  | @idRepeated before after r again =>
    have distinct := accepted.distinct
    rw [List.map_append, List.map_cons, List.nodup_append] at distinct
    exact distinct.2.2 _ again _ List.mem_cons_self rfl
  | buildFaulted member inBatch faulted =>
    exact (answered _ (List.mem_append_left _ member) _ inBatch).ne_error _ faulted
  | applicationFaulted moved member inBatch faulted =>
    rw [publishing, if_neg moved] at answered
    exact (answered _ (List.mem_append_right _ member) _ inBatch).ne_error _ faulted

/-- The publication of a built generation: it replaces the current one, or a definition that was
registered since the build was planned ends abruptly on one of its records. -/
theorem publish_cases (it : Store) {batch : List Record} (distinct : (batch.map Record.id).Nodup)
    (index : IndexTable RecordId) (plan : Plan) :
    (∃ next, it.publish (.ofRecords 0 batch index distinct) plan.epoch =
        (it.replaceCurrent (.ofRecords (it.current.number + 1) batch next distinct),
          .done batch.length) ∧
      (∀ d ∈ (if it.epoch = plan.epoch then [] else it.dynamic), ∀ r ∈ batch, d.Answers r) ∧
      Generation.Adds it.recordType (if it.epoch = plan.epoch then [] else it.dynamic) batch
        index next) ∨
    ∃ fault, it.publish (.ofRecords 0 batch index distinct) plan.epoch = (it, .faulted fault) ∧
      it.epoch ≠ plan.epoch ∧ ∃ d ∈ it.dynamic, ∃ r ∈ batch, d.valuesFor r = .error fault := by
  unfold publish
  by_cases same : it.epoch = plan.epoch
  · refine Or.inl ⟨index, ?_, by simp [same], ?_⟩
    · simp [same, replaceCurrent, Generation.size, Generation.ofRecords]
    · rw [if_pos same]
      exact .of_no_indexes _ _ _
  · simp only [if_neg same]
    rcases Generation.applyIndexes_cases it.recordType
        (.ofRecords (it.current.number + 1) batch index distinct) it.dynamic with
      ⟨next, applied, answers, added⟩ | ⟨fault, applied, faulted⟩
    · refine Or.inl ⟨next, ?_, answers, added⟩
      simp only [Generation.ofRecords] at applied ⊢
      simp [applied, replaceCurrent, Generation.size]
    · refine Or.inr ⟨fault, ?_, same, faulted⟩
      simp only [Generation.ofRecords] at applied ⊢
      simp [applied]

/-- A reload ends in one of three ways: it publishes its batch, it is refused with an error, which
is counted, or it ends abruptly and leaves the store alone. -/
theorem conclude_cases (it : Store) (plan : Plan) (loaded : Outcome (List Record)) :
    (∃ batch index, loaded = .done batch ∧ ∃ accepted : it.Accepts plan batch,
      Generation.Adds it.recordType (it.publishing plan) batch {} index ∧
      it.conclude plan loaded =
        (it.replaceCurrent (.ofRecords (it.current.number + 1) batch index accepted.distinct),
          .done batch.length)) ∨
    (∃ e, it.Refuses plan loaded (.failed e) ∧
      it.conclude plan loaded = (it.countFailure, .failed e)) ∨
    ∃ fault, it.Refuses plan loaded (.faulted fault) ∧
      it.conclude plan loaded = (it, .faulted fault) := by
  cases loaded with
  | failed e => exact Or.inr (Or.inl ⟨e, .loaderFailed e, rfl⟩)
  | faulted fault => exact Or.inr (Or.inr ⟨fault, .loaderFaulted fault, rfl⟩)
  | done batch =>
    rcases Generation.build_cases it.recordType batch plan.indexes with
      ⟨index, distinct, built, answers, added⟩ | ⟨before, r, after, refused, place, again⟩ |
      ⟨fault, refused, d, member, r, inBatch, faulted⟩
    · have begun : it.conclude plan (.done batch) =
          it.publish (.ofRecords 0 batch index distinct) plan.epoch := by
        simp [conclude, Outcome.bind, built]
      rcases it.publish_cases distinct index plan with
        ⟨next, published, applied, addedMore⟩ | ⟨fault, published, moved, d, member, r, inBatch,
          faulted⟩
      · refine Or.inl ⟨batch, next, rfl, ⟨distinct, ?_⟩, added.trans_indexes addedMore,
          begun.trans published⟩
        intro d member
        rcases List.mem_append.mp member with planned | late
        · exact answers d planned
        · exact applied d late
      · exact Or.inr (Or.inr ⟨fault, .applicationFaulted moved member inBatch faulted,
          begun.trans published⟩)
    · subst place
      refine Or.inr (Or.inl ⟨_, .idRepeated again, ?_⟩)
      simp [conclude, Outcome.bind, refused, countFailure]
    · refine Or.inr (Or.inr ⟨fault, .buildFaulted member inBatch faulted, ?_⟩)
      simp [conclude, Outcome.bind, refused]

/-- A reload publishes exactly the batches that it accepts, and answers with their sizes. -/
theorem conclude_done_iff {n : Nat} : (it.conclude plan loaded).2 = .done n ↔
    ∃ batch, loaded = .done batch ∧ it.Accepts plan batch ∧ n = batch.length := by
  constructor
  · intro published
    rcases it.conclude_cases plan loaded with
      ⟨batch, index, given, accepted, _, run⟩ | ⟨e, _, run⟩ | ⟨fault, _, run⟩
    · rw [run] at published
      exact ⟨batch, given, accepted, (Outcome.done.inj published).symm⟩
    · simp [run] at published
    · simp [run] at published
  · rintro ⟨batch, rfl, accepted, rfl⟩
    rcases it.conclude_cases plan (.done batch) with
      ⟨other, index, given, _, _, run⟩ | ⟨e, refused, _⟩ | ⟨fault, refused, _⟩
    · rw [run, Outcome.done.inj given]
    · exact absurd accepted refused.not_accepts
    · exact absurd accepted refused.not_accepts

theorem conclude_of_accepts {batch : List Record} (accepted : it.Accepts plan batch) :
    ∃ index, Generation.Adds it.recordType (it.publishing plan) batch {} index ∧
      it.conclude plan (.done batch) =
        (it.replaceCurrent (.ofRecords (it.current.number + 1) batch index accepted.distinct),
          .done batch.length) := by
  rcases it.conclude_cases plan (.done batch) with
    ⟨other, index, given, _, added, run⟩ | ⟨e, refused, _⟩ | ⟨fault, refused, _⟩
  · cases Outcome.done.inj given
    exact ⟨index, added, run⟩
  · exact absurd accepted refused.not_accepts
  · exact absurd accepted refused.not_accepts

/-- However a reload ends, the definitions of the store are as they were. -/
theorem conclude_keeps (it : Store) (plan : Plan) (outcome : Outcome (List Record)) :
    (it.conclude plan outcome).1.recordType = it.recordType ∧
      (it.conclude plan outcome).1.dynamic = it.dynamic ∧
      (it.conclude plan outcome).1.epoch = it.epoch := by
  rcases it.conclude_cases plan outcome with ⟨_, _, _, _, _, run⟩ | ⟨_, _, run⟩ | ⟨_, _, run⟩
  · rw [run]
    exact ⟨rfl, rfl, rfl⟩
  · rw [run]
    exact ⟨rfl, rfl, rfl⟩
  · rw [run]
    exact ⟨rfl, rfl, rfl⟩

end LiveTables.Store
