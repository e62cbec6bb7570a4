import LiveTables.Proofs.Course
import LiveTables.Proofs.Settling

namespace LiveTables.Engine

/-- The listeners that the moves of a run let join a hub, the earliest first. -/
def joined (h : HubId) (past : List (Engine × Move)) : List Listener :=
  past.reverse.flatMap fun made => made.2.joining made.1.world h

/-- The listeners that the moves of a run queue for a coordinator, the earliest first. -/
def queuedIn (c : CoordinatorId) (past : List (Engine × Move)) : List Listener :=
  past.reverse.flatMap fun made => made.2.queued c

/-- The coordinators whose passes the moves of a run end, the latest first. -/
def passEnds (past : List (Engine × Move)) : List CoordinatorId :=
  past.filterMap fun made => made.1.passEnd? made.2

variable {start e f : Engine} {past later : List (Engine × Move)} {move : Move} {c : CoordinatorId}
  {h : HubId}

theorem joined_cons (h : HubId) (e : Engine) (move : Move) (past : List (Engine × Move)) :
    joined h ((e, move) :: past) = joined h past ++ move.joining e.world h := by
  simp [joined]

theorem joined_append (h : HubId) (later past : List (Engine × Move)) :
    joined h (later ++ past) = joined h past ++ joined h later := by
  simp [joined]

theorem queuedIn_cons (c : CoordinatorId) (e : Engine) (move : Move) (past : List (Engine × Move)) :
    queuedIn c ((e, move) :: past) = queuedIn c past ++ move.queued c := by
  simp [queuedIn]

/-- An initial load that is skipped changes nothing but what is noted. -/
theorem step_skipped (skips : (Call.initialLoad c).pass? e.world = none) :
    e.step (.call (.initialLoad c)) =
      (⟨e.world.note .alreadyInitialized, e.waits⟩, some .skipped) := by
  rw [step_call, World.begin, World.initialLoad_skipped skips]
  rfl

/-- Only coordinators that exist begin passes. -/
theorem pass?_lt {w : World} {k : Call} (known : k.Known w) (begins : k.pass? w = some c) :
    c < w.coordinators.length := by
  cases k with
  | initialLoad d =>
    rcases w.pass?_initialLoad d with skips | runs
    · rw [skips] at begins
      cases begins
    · obtain rfl := Option.some.inj (runs.symm.trans begins)
      exact known
  | refresh d =>
    cases begins
    exact known
  | _ => cases begins

theorem waits_of_reply {waits : List Wait} {next : World × Progress} {reply : Reply}
    (answered : (advance waits next).2 = some reply) : (advance waits next).1.waits = waits := by
  obtain ⟨w, progress⟩ := next
  cases progress with
  | done reply => rfl
  | waiting wait => cases answered

theorem step_hub_eq (known : move.Known e.world) (inRange : c < e.world.coordinators.length) :
    ((e.step move).1.world.coordinator c).hub = (e.world.coordinator c).hub := by
  have settings := congrArg Coordinator.hub ((step_latches known).settings c inRange)
  refine settings.trans ?_
  split <;> rfl

/-- A coordinator keeps its hub. -/
theorem Reach.hub_eq (reach : Reach start e past)
    (inRange : c < start.world.coordinators.length) :
    (e.world.coordinator c).hub = (start.world.coordinator c).hub := by
  induction reach with
  | start => rfl
  | next reach known ih =>
    have bound := Nat.lt_of_lt_of_le inRange reach.length_coordinators_le
    exact (step_hub_eq known bound).trans ih

/-- Every coordinator has a hub, and none has that of another one. -/
structure OwnHubs (w : World) : Prop where
  inRange : ∀ c, c < w.coordinators.length → (w.coordinator c).hub < w.hubs.length
  apart : ∀ c d, c < w.coordinators.length → d < w.coordinators.length →
    (w.coordinator c).hub = (w.coordinator d).hub → c = d

theorem step_ownHubs (own : OwnHubs e.world) (known : move.Known e.world) :
    OwnHubs (e.step move).1.world := by
  have settles := step_settles known
  have new {c : CoordinatorId} (beyond : ¬c < e.world.coordinators.length)
      (inRange : c < (e.step move).1.world.coordinators.length) :=
    settles.new c (Nat.le_of_not_lt beyond) inRange
  refine ⟨fun c inRange => ?_, fun c d inRange inRange' same => ?_⟩
  · by_cases old : c < e.world.coordinators.length
    · rw [step_hub_eq known old]
      exact Nat.lt_of_lt_of_le (own.inRange c old) settles.hubs_le
    · exact (new old inRange).2.2.2.2
  · by_cases old : c < e.world.coordinators.length
    · by_cases old' : d < e.world.coordinators.length
      · rw [step_hub_eq known old, step_hub_eq known old'] at same
        exact own.apart c d old old' same
      · have below := own.inRange c old
        rw [← step_hub_eq known old, same] at below
        exact absurd below (Nat.not_lt_of_le (new old' inRange').2.2.2.1)
    · by_cases old' : d < e.world.coordinators.length
      · have below := own.inRange d old'
        rw [← step_hub_eq known old', ← same] at below
        exact absurd below (Nat.not_lt_of_le (new old inRange).2.2.2.1)
      · -- A move makes one coordinator at most.
        exact (new old inRange).1.trans (new old' inRange').1.symm

/-- In every run each coordinator has a hub to itself. -/
theorem Reach.ownHubs (reach : Reach {} e past) : OwnHubs e.world := by
  induction reach with
  | start => exact ⟨fun _ known => absurd known (Nat.not_lt_zero _),
      fun _ _ known => absurd known (Nat.not_lt_zero _)⟩
  | next _ known ih => exact step_ownHubs ih known

/-- Nobody joins a hub that is not there. -/
theorem joining_of_beyond (own : OwnHubs e.world) (known : move.Known e.world)
    (beyond : e.world.hubs.length ≤ h) : move.joining e.world h = [] := by
  have collected (c : CoordinatorId) (bound : c < e.world.coordinators.length) :
      (e.world.coordinator c).hub ≠ h :=
    Nat.ne_of_lt (Nat.lt_of_lt_of_le (own.inRange c bound) beyond)
  unfold Move.joining
  split
  · rename_i g l
    have inRange : g < e.world.hubs.length := known
    exact if_neg (Nat.ne_of_lt (Nat.lt_of_lt_of_le inRange beyond))
  · split
    · rename_i c begins
      cases move with
      | call k => exact if_neg (collected c (pass?_lt known begins))
      | loaded | heard | found => cases begins
    · rfl

theorem Reach.joined_of_beyond (reach : Reach {} e past) (beyond : e.world.hubs.length ≤ h) :
    joined h past = [] := by
  induction reach with
  | start => rfl
  | next reach known ih =>
    have before := Nat.le_trans (step_settles known).hubs_le beyond
    rw [joined_cons, ih before, joining_of_beyond reach.ownHubs known before]
    rfl

/-- A hub is what those who were let in make of an empty one. -/
theorem Reach.hub_joined (reach : Reach {} e past) (h : HubId) :
    e.world.hub h = ({} : Hub).join (joined h past) := by
  by_cases inRange : h < e.world.hubs.length
  · induction reach with
    | start => exact absurd inRange (Nat.not_lt_zero h)
    | @next e past move reach known ih =>
      have settles := step_settles known
      rw [joined_cons, Hub.join_append]
      by_cases old : h < e.world.hubs.length
      · rw [settles.hub h old, ih old]
      · have beyond := Nat.le_of_not_lt old
        rw [settles.newHub h beyond, reach.joined_of_beyond beyond,
          joining_of_beyond reach.ownHubs known beyond]
        rfl
  · have beyond := Nat.le_of_not_lt inRange
    rw [World.hub_of_le beyond, reach.joined_of_beyond beyond]
    rfl

/-- Later a hub has those who were let in since at its end. -/
theorem Reach.hub_later (reach : Reach {} e past) (goesOn : Reach e f later) (h : HubId) :
    f.world.hub h = (e.world.hub h).join (joined h later) := by
  rw [(reach.trans goesOn).hub_joined, reach.hub_joined, joined_append, Hub.join_append]

/-- A listener joins a hub because it is registered there or with the queue of a coordinator. -/
theorem joining_cases {w : World} {l : Listener} (joins : l ∈ move.joining w h) :
    move = .call (.register h l) ∨
      ∃ d, move.pass? w = some d ∧ (w.coordinator d).hub = h := by
  unfold Move.joining at joins
  split at joins
  · split at joins
    · rename_i here
      rw [here, List.mem_singleton.mp joins]
      exact Or.inl rfl
    · cases joins
  · split at joins
    · rename_i d begins
      split at joins
      · rename_i here
        exact Or.inr ⟨d, begins, here⟩
      · cases joins
    · cases joins

theorem queued_eq {l : Listener} (asked : l ∈ move.queued c) : move = .call (.queue c l) := by
  unfold Move.queued at asked
  split at asked
  · split at asked
    · rename_i same
      rw [same, List.mem_singleton.mp asked]
    · cases asked
  · cases asked

/-- A listener is in the queue of a coordinator, or it has joined its hub. -/
def Kept (w : World) (c : CoordinatorId) (l : Listener) : Prop :=
  l ∈ (w.coordinator c).pending ∨ l.number ∈ (w.hub (w.coordinator c).hub).numbers

/-- When a pass begins, nobody is left in the queue. -/
theorem step_kept (own : OwnHubs e.world) (known : move.Known e.world)
    (inRange : c < e.world.coordinators.length) {l : Listener}
    (kept : Kept e.world c l ∨ l ∈ move.queued c) : Kept (e.step move).1.world c l := by
  have settles := step_settles known
  rw [Kept, step_hub_eq known inRange, settles.hub _ (own.inRange c inRange),
    settles.pending c inRange, Hub.mem_numbers_join, World.leftQueued]
  rcases kept with (waiting | joined) | asked
  -- Who waits in the queue stays there, until a pass begins and moves the queue into the hub.
  · by_cases begins : move.pass? e.world = some c
    · cases move with
      | call k =>
        rw [World.joining_pass begins, if_pos rfl]
        exact Or.inr (Or.inr (List.mem_map_of_mem waiting))
      | loaded | heard | found => cases begins
    · rw [if_neg begins]
      exact Or.inl (List.mem_append_left _ waiting)
  · exact Or.inr (Or.inl joined)
  · obtain rfl := queued_eq asked
    exact Or.inl (List.mem_append_right _ asked)

/-- No listener that was queued is lost. -/
theorem Reach.queued_kept (reach : Reach {} e past) {l : Listener} (asked : l ∈ queuedIn c past) :
    c < e.world.coordinators.length ∧ Kept e.world c l := by
  induction reach with
  | start => cases asked
  | next reach known ih =>
    rw [queuedIn_cons, List.mem_append] at asked
    rcases asked with earlier | now
    · obtain ⟨inRange, kept⟩ := ih earlier
      exact ⟨Nat.lt_of_lt_of_le inRange (step_latches known).length_le,
        step_kept reach.ownHubs known inRange (Or.inl kept)⟩
    · obtain rfl := queued_eq now
      exact ⟨Nat.lt_of_lt_of_le known (step_latches known).length_le,
        step_kept reach.ownHubs known known (Or.inr now)⟩

/-- A wait of a call that is a pass is for this pass. -/
theorem Course.serves {k : Call} (course : Course e k f past) {above : List Wait} {own : Wait}
    (waits : f.waits = above ++ own :: e.waits) : own.coordinator? = k.pass? e.world := by
  obtain ⟨progress, serves, stands⟩ := course.stands
    (P := fun _ progress => ∀ wait, progress = .waiting wait → wait.coordinator? = k.pass? e.world)
    (fun _ waits => e.world.begin_serves k waits)
    (fun _ serves _ goes wait waits =>
      ((World.works_goes goes).waits wait waits).trans (serves _ rfl))
    (fun _ serves _ _ => serves)
  exact serves own (stands.own waits)

/-- Only coordinators that exist have passes under way. -/
theorem Reach.serves_lt (reach : Reach {} e past) {wait : Wait} (member : wait ∈ e.waits)
    (serves : wait.coordinator? = some c) : c < e.world.coordinators.length := by
  obtain ⟨above, base, waits⟩ := List.append_of_mem member
  obtain ⟨b, k, mine, prior, _, _, course, rfl⟩ := reach.course_of_wait waits
  have begins := (course.serves waits).symm.trans serves
  exact Nat.lt_of_lt_of_le (pass?_lt course.known begins) course.reach.length_coordinators_le

/-- A move that ends a pass is the last one in the course of the pass. -/
theorem Reach.passEnd_course (reach : Reach {} e past) (known : move.Known e.world)
    (ends : e.passEnd? move = some c) : ∃ b k mine prior, past = mine ++ prior ∧
      Reach {} b prior ∧ Course b k (e.step move).1 ((e, move) :: mine) ∧
      (e.step move).1.waits = b.waits ∧ k.pass? b.world = some c := by
  unfold passEnd? at ends
  split at ends
  · rename_i replied
    obtain ⟨reply, answered⟩ := Option.isSome_iff_exists.mp replied
    -- The pass was called by this very move, or by the one that the top of the stack belongs to.
    rcases e.step_forms move with ⟨k, rfl⟩ | ⟨own, rest, next, top, goes, run⟩ | ⟨_, run⟩
    · refine ⟨e, k, [], past, rfl, reach, .begun known, ?_, ends⟩
      rw [step_call] at answered ⊢
      exact waits_of_reply answered
    · have place : e.waits = [] ++ own :: rest := top
      obtain ⟨b, k, mine, prior, rfl, first, course, rfl⟩ := reach.course_of_wait place
      refine ⟨b, k, mine, prior, rfl, first, course.next ?_ known, ?_, ?_⟩
      · rw [top]
        exact Nat.lt_succ_self _
      · rw [run] at answered ⊢
        exact waits_of_reply answered
      · rw [← course.serves place, ← ends, serves?_of_goes top goes]
    · rw [run] at answered
      cases answered
  · cases ends

theorem passEnds_cons (e : Engine) (move : Move) (past : List (Engine × Move)) :
    passEnds ((e, move) :: past) = (e.passEnd? move).toList ++ passEnds past := by
  cases ends : e.passEnd? move with
  | none => simp [passEnds, ends]
  | some c => simp [passEnds, ends]

theorem Reach.passEnd_lt (reach : Reach {} e past) (known : move.Known e.world)
    (ends : e.passEnd? move = some c) : c < e.world.coordinators.length := by
  unfold passEnd? at ends
  split at ends
  · unfold serves? at ends
    split at ends
    · exact pass?_lt known ends
    · rename_i _ _ _ top _
      exact reach.serves_lt (top ▸ List.mem_cons_self) ends
    · cases ends
  · cases ends

theorem Reach.passEnds_lt (reach : Reach {} e past) (ended : c ∈ passEnds past) :
    c < e.world.coordinators.length := by
  induction reach with
  | start => cases ended
  | next reach known ih =>
    refine Nat.lt_of_lt_of_le ?_ (step_latches known).length_le
    rw [passEnds_cons, List.mem_append] at ended
    rcases ended with now | earlier
    · exact reach.passEnd_lt known (Option.mem_toList.mp now)
    · exact ih earlier

/-- A coordinator counts its passes that have returned. -/
theorem Reach.cycles_eq (reach : Reach {} e past) (inRange : c < e.world.coordinators.length) :
    (e.world.coordinator c).cycles = (passEnds past).count c := by
  induction reach with
  | start => exact absurd inRange (Nat.not_lt_zero c)
  | @next e past move reach known ih =>
    have settles := step_settles known
    rw [passEnds_cons, List.count_append]
    by_cases old : c < e.world.coordinators.length
    · rw [settles.cycles c old, ih old, Nat.add_comm]
      cases e.passEnd? move <;> simp [List.count_singleton]
    · -- A coordinator that this move makes: no pass of it can have ended.
      obtain ⟨_, _, none, _⟩ := settles.new c (Nat.le_of_not_lt old) inRange
      have now : c ∉ (e.passEnd? move).toList := fun ended =>
        old (reach.passEnd_lt known (Option.mem_toList.mp ended))
      have earlier : c ∉ passEnds past := fun ended => old (reach.passEnds_lt ended)
      rw [none, List.count_eq_zero.mpr now, List.count_eq_zero.mpr earlier]

end LiveTables.Engine
