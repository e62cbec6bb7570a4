import LiveTables.Proofs.Publication

namespace LiveTables

namespace Store

variable {it : Store} {plan : Plan}

/-- What a reload without a publication makes of a store: an error is counted, and an abrupt end
leaves no trace. -/
def afterRefusal (it : Store) : Outcome Nat → Store
  | .failed _ => it.countFailure
  | _ => it

theorem current_afterRefusal (it : Store) (ending : Outcome Nat) :
    (it.afterRefusal ending).current = it.current := by
  cases ending <;> rfl

/-- A reload that does not publish is refused, and the store is left as it was but for the count. -/
theorem conclude_refused {outcome : Outcome (List Record)}
    (refused : ∀ n, (it.conclude plan outcome).2 ≠ .done n) :
    ∃ ending, it.Refuses plan outcome ending ∧
      it.conclude plan outcome = (it.afterRefusal ending, ending) := by
  rcases it.conclude_cases plan outcome with
    ⟨_, _, _, _, _, run⟩ | ⟨error, way, run⟩ | ⟨fault, way, run⟩
  · exact absurd (congrArg Prod.snd run) (refused _)
  · exact ⟨.failed error, way, run⟩
  · exact ⟨.faulted fault, way, run⟩

end Store

namespace Engine

variable {e : Engine} {past : List (Engine × Move)}

/-- An accepted batch is published under the next number. -/
theorem step_accepted (sound : e.Sound) {load : LoadWait} {rest : List Wait}
    (top : e.waits = .load load :: rest) {batch : List Record}
    (accepted : (e.world.store load.store).Accepts load.plan batch) :
    ((e.world.store load.store).conclude load.plan (.done batch)).2 = .done batch.length ∧
      ((e.step (.loaded (.done batch))).1.world.store load.store).all = batch ∧
      ((e.step (.loaded (.done batch))).1.world.store load.store).current.number =
        (e.world.store load.store).current.number + 1 := by
  obtain ⟨index, _, run⟩ := Store.conclude_of_accepts accepted
  rw [step_concludes sound top, run]
  exact ⟨rfl, rfl, rfl⟩

/-- A reload that is refused, in whichever of the five ways, changes no store, but for the count of
failures if it ends with an error. However the run goes on, each later reload that accepts its batch
publishes it under the next number, and no number is left out. -/
theorem Reach.refused_leaves_no_trace (reach : Reach {} e past) {load : LoadWait}
    {rest : List Wait} (top : e.waits = .load load :: rest) {outcome : Outcome (List Record)}
    (refused : ∀ n, ((e.world.store load.store).conclude load.plan outcome).2 ≠ .done n) :
    (∃ ending, (e.world.store load.store).Refuses load.plan outcome ending ∧
      ((e.world.store load.store).conclude load.plan outcome).2 = ending ∧
      (e.step (.loaded outcome)).1.world.store load.store =
        (e.world.store load.store).afterRefusal ending) ∧
    (∀ s, s < e.world.stores.length → s ≠ load.store →
      (e.step (.loaded outcome)).1.world.store s = e.world.store s) ∧
    ∀ later f next rest batch, Reach (e.step (.loaded outcome)).1 f later →
      f.waits = .load next :: rest → next.store = load.store →
      (f.world.store next.store).Accepts next.plan batch →
      ((f.world.store next.store).conclude next.plan (.done batch)).2 = .done batch.length ∧
        ((f.step (.loaded (.done batch))).1.world.store next.store).all = batch ∧
        ((f.step (.loaded (.done batch))).1.world.store next.store).current.number =
          (e.world.store load.store).current.number +
            (publications load.store later).length + 1 := by
  have sound := reach.sound
  have known := Move.known_loaded e.world outcome
  have within := sound.top_within top
  have after := step_concludes sound top outcome
  obtain ⟨ending, way, run⟩ := Store.conclude_refused refused
  rw [run] at after
  refine ⟨⟨ending, way, by rw [run], after⟩, ?_, ?_⟩
  · intro s inRange other
    rw [step_store sound known inRange, top]
    exact if_neg (Ne.symm other)
  · intro later f next rest batch goesOn above same accepted
    have sound' := step_sound sound known
    have inRange := Nat.lt_of_lt_of_le within.store (length_step_le sound known)
    obtain ⟨ends, all, number⟩ := step_accepted (goesOn.sound_of sound') above accepted
    refine ⟨ends, all, ?_⟩
    rw [number, same, goesOn.number_eq sound' inRange, after, Store.current_afterRefusal]

/-- The rule of this definition ends abruptly on some records. -/
def rejecting : IndexDef := .byFields "kind" ["kind"] (some "bad")

def badItem : Record := ⟨.number 1, [("kind", .text "bad")]⟩

def goodItem : Record := ⟨.number 2, [("kind", .text "good")]⟩

/-- A definition is registered while a loader runs that gives a record which it does not answer
on. -/
def rejectedAtPublication : List Move :=
  [.call (.makeStore itemType (.text "items") 0),
    .call (.append 0 "kind" (.number 7) [.text "axe"]), .call (.reload 0),
    .call (.registerIndex 0 rejecting)]

/-- The fault strikes when the definition is applied to the finished batch. The next reload gets
the number that this one would have had. -/
theorem rejected_forgotten :
    ((({} : Engine).run (rejectedAtPublication ++ [.loaded (.done [badItem]), .call (.reload 0),
      .loaded (.done [goodItem])])).world.store 0).current.number = 1 := by
  have plays : ({} : Engine).Plays rejectedAtPublication := by decide
  have top : (({} : Engine).run rejectedAtPublication).waits = .load ⟨0, ⟨[], 0⟩, .answer⟩ :: [] :=
    rfl
  have faulted : (((({} : Engine).run rejectedAtPublication).world.store 0).conclude ⟨[], 0⟩
      (.done [badItem])).2 = .faulted (.text "extractor rejected bad") := rfl
  have refused (n : Nat) : (((({} : Engine).run rejectedAtPublication).world.store 0).conclude
      ⟨[], 0⟩ (.done [badItem])).2 ≠ .done n := by
    rw [faulted]
    nofun
  obtain ⟨_, _, next⟩ := (reach_run plays).refused_leaves_no_trace top refused
  have playsOn : ((({} : Engine).run rejectedAtPublication).step
      (.loaded (.done [badItem]))).1.Plays [.call (.reload 0)] := by decide
  have accepted : ((({} : Engine).run (rejectedAtPublication ++ [.loaded (.done [badItem]),
      .call (.reload 0)])).world.store 0).Accepts ⟨[rejecting], 1⟩ [goodItem] := by
    refine ⟨by decide, ?_⟩
    intro d member r inBatch
    obtain rfl : d = rejecting := List.mem_singleton.mp member
    obtain rfl : r = goodItem := List.mem_singleton.mp inBatch
    exact ⟨some [.text "good"], rfl⟩
  have published :=
    next _ _ ⟨0, ⟨[rejecting], 1⟩, .answer⟩ [] _ (reach_run playsOn) rfl rfl accepted
  exact published.2.2

end Engine

end LiveTables
