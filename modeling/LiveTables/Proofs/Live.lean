import LiveTables.Proofs.Conclusion
import LiveTables.Proofs.StoreStep

namespace LiveTables

/-- A store with the plans of its reloads that are under way, the latest first. It is made, its
reloads begin and end, and in between definitions and ids are added to it. -/
inductive Store.Live : Store → List Plan → Prop
  | fresh {it : Store} : it.IsFresh → Live it []
  | begun {it : Store} {plans : List Plan} : Live it plans → Live it (it.plan :: plans)
  | concluded {it : Store} {plan : Plan} {plans : List Plan} (outcome : Outcome (List Record)) :
      Live it (plan :: plans) → Live (it.conclude plan outcome).1 plans
  | registered {it : Store} {plans : List Plan} (d : IndexDef) :
      Live it plans → Live (it.registerIndex d).1 plans
  | appended {it : Store} {plans : List Plan} (index : String) (id : RecordId)
      (values : List Value) : Live it plans → Live (it.append index id values).1 plans
  | applied {it : Store} {plans : List Plan} (number : Nat) (d : IndexDef) : Live it plans →
      Live (it.updateGeneration number fun g => (g.applyIndex it.recordType d).1) plans
  | listed {it : Store} {plans : List Plan} (number : Nat) (key : String) (id : RecordId) :
      Live it plans → Live (it.updateGeneration number fun g => (g.insertKey key id).1) plans

namespace Store

/-- What a store was made as. -/
def origin (it : Store) : Store := .fresh it.recordType it.location it.loader

/-- No reload changes what a store was made as. -/
theorem origin_conclude (it : Store) (plan : Plan) (outcome : Outcome (List Record)) :
    (it.conclude plan outcome).1.origin = it.origin := by
  rcases it.conclude_cases plan outcome with ⟨_, _, _, _, _, run⟩ | ⟨_, _, run⟩ | ⟨_, _, run⟩
  all_goals rw [run]
  all_goals rfl

theorem origin_call (s : StoreId) (it : Store) (c : Call) : (c.change s it).origin = it.origin := by
  rcases c.change_cases s it with
    same | ⟨_, same⟩ | ⟨_, _, _, same⟩ | ⟨_, _, same⟩ | ⟨_, _, _, same⟩
  all_goals rw [same]
  all_goals rfl

theorem origin_move (s : StoreId) (it : Store) (move : Move) (waits : List Wait) :
    (move.change s it waits).origin = it.origin := by
  rcases move.change_cases s it waits with same | ⟨c, change⟩ | ⟨load, _, outcome, _, _, _, change⟩
  · rw [same]
  · rw [change, origin_call]
  · rw [change, origin_conclude]

end Store

/-- The plan of a wait for a loader of the store of a number. -/
def Wait.planOf (s : StoreId) : Wait → Option Plan
  | .load wait => if wait.store = s then some wait.plan else none
  | _ => none

namespace Engine

/-- The plans of the reloads of a store that are under way, the latest first. -/
def inFlight (e : Engine) (s : StoreId) : List Plan := e.waits.filterMap (Wait.planOf s)

theorem live_call {s : StoreId} {it : Store} {plans : List Plan} (c : Call)
    (live : it.Live plans) : (c.change s it).Live plans := by
  rcases c.change_cases s it with same | ⟨d, change⟩ | ⟨index, id, values, change⟩ |
    ⟨number, d, change⟩ | ⟨number, key, id, change⟩
  · rw [same]
    exact live
  · rw [change]
    exact live.registered d
  · rw [change]
    exact live.appended index id values
  · rw [change]
    exact live.applied number d
  · rw [change]
    exact live.listed number key id

/-- A move takes a store one step further, besides what it may begin. -/
theorem live_change {s : StoreId} {it : Store} (move : Move) {waits : List Wait}
    (live : it.Live (waits.filterMap (Wait.planOf s))) :
    (move.change s it waits).Live ((move.left waits).filterMap (Wait.planOf s)) := by
  cases move with
  | call c => exact live_call c live
  | loaded outcome =>
    rcases waits with _ | ⟨load | listener | discovery, rest⟩
    · exact live
    · by_cases same : load.store = s
      · simp only [List.filterMap_cons, Wait.planOf, same, if_true] at live
        simpa only [Move.change, Move.left, same, if_true] using live.concluded outcome
      · simp only [List.filterMap_cons, Wait.planOf, same, if_false] at live
        simpa only [Move.change, Move.left, same, if_false] using live
    · exact live
    · exact live
  | heard outcome =>
    rcases waits with _ | ⟨load | listener | discovery, rest⟩ <;> exact live
  | found bindings =>
    rcases waits with _ | ⟨load | listener | discovery, rest⟩ <;> exact live

/-- Every store of every run is live, with the plans that wait in the run. So whatever the calls of
a run are, a store in it only ever goes through a few steps of its own. -/
theorem Reach.live {e : Engine} {past : List (Engine × Move)} (reach : Reach {} e past) {s : Nat}
    (inRange : s < e.world.stores.length) : (e.world.store s).Live (e.inFlight s) := by
  induction reach with
  | start => exact absurd inRange (Nat.not_lt_zero s)
  | @next e past move reach known ih =>
    have sound := reach.sound
    have settled : ((e.step move).1.world.store s).Live
        ((move.left e.waits).filterMap (Wait.planOf s)) := by
      by_cases old : s < e.world.stores.length
      · rw [step_store sound known old]
        exact live_change move (ih old)
      · -- A new store: no earlier wait can be for it.
        have none : (move.left e.waits).filterMap (Wait.planOf s) = [] := by
          refine List.filterMap_eq_nil_iff.mpr fun wait member => ?_
          cases wait with
          | load load =>
            have bound := (sound.waits load ((left_suffix move e.waits).mem member)).store
            exact if_neg (by rintro rfl; exact old bound)
          | listener _ => rfl
          | discovery _ => rfl
        rw [none]
        exact .fresh (step_new_store sound known inRange (Nat.le_of_not_lt old))
    rcases step_waits sound known with same | ⟨wait, above, begun⟩
    · rw [inFlight, same]
      exact settled
    · rw [inFlight, above, List.filterMap_cons]
      cases wait with
      | load load =>
        by_cases same : load.store = s
        · have plan := (begun load rfl).plan
          rw [same] at plan
          simp only [Wait.planOf, same, if_true, plan]
          exact settled.begun
        · simpa only [Wait.planOf, same, if_false] using settled
      | listener _ => exact settled
      | discovery _ => exact settled

theorem Reach.live_top {e : Engine} {past : List (Engine × Move)} (reach : Reach {} e past)
    {load : LoadWait} {rest : List Wait} (top : e.waits = .load load :: rest) :
    (e.world.store load.store).Live (load.plan :: rest.filterMap (Wait.planOf load.store)) := by
  have live := reach.live (reach.sound.top_within top).store
  rwa [inFlight, top, List.filterMap_cons, Wait.planOf, if_pos rfl] at live

theorem step_origin {e : Engine} {move : Move} (sound : e.Sound) (known : move.Known e.world)
    {s : Nat} (inRange : s < e.world.stores.length) :
    ((e.step move).1.world.store s).origin = (e.world.store s).origin := by
  rw [step_store sound known inRange, Store.origin_move]

/-- A store stays what it was made as. -/
theorem Reach.origin_eq {start e : Engine} {past : List (Engine × Move)}
    (reach : Reach start e past) (sound : start.Sound) {s : Nat}
    (inRange : s < start.world.stores.length) :
    (e.world.store s).origin = (start.world.store s).origin := by
  induction reach with
  | start => rfl
  | @next e past move reach known ih =>
    have bound := Nat.lt_of_lt_of_le inRange (reach.length_le sound)
    rw [step_origin (reach.sound_of sound) known bound, ih]

end Engine

end LiveTables
