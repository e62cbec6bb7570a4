import LiveTables.Proofs.ToldListeners

namespace LiveTables.Engine

variable {e f g : Engine} {k : Call} {before past : List (Engine × Move)} {c : CoordinatorId}
  {h : HubId} {l : Listener}

/-- Whoever was in a coordinator's hub is there later. -/
theorem Reach.listeners_later (reach : Reach {} e before)
    (inRange : c < e.world.coordinators.length) (goesOn : Reach e f past) :
    e.world.listeners c <+: f.world.listeners c := by
  rw [World.listeners, World.listeners, goesOn.hub_eq inRange, reach.hub_later goesOn]
  exact Hub.listeners_prefix_join _ _

/-- A pass that begins moves the whole queue into the hub. -/
theorem step_gathers (own : OwnHubs e.world) (known : k.Known e.world)
    (begins : k.pass? e.world = some c) (same : (e.world.coordinator c).hub = h) :
    (e.step (.call k)).1.world.hub h = (e.world.hub h).join (e.world.coordinator c).pending ∧
      ((e.step (.call k)).1.world.coordinator c).pending = [] := by
  have inRange := pass?_lt known begins
  have called : (Move.call k).Known e.world := known
  have settles := step_settles called
  constructor
  · rw [settles.hub h (same ▸ own.inRange c inRange), World.joining_pass begins, if_pos same]
  · rw [settles.pending c inRange]
    exact if_pos begins

/-- A queued listener stands last in the queue. -/
theorem step_queue_pending (inRange : c < e.world.coordinators.length) (l : Listener) :
    ((e.step (.call (.queue c l))).1.world.coordinator c).pending =
      (e.world.coordinator c).pending ++ [l] := by
  have known : (Move.call (.queue c l)).Known e.world := inRange
  have settles := step_settles known
  have noPass : (Move.call (.queue c l)).pass? e.world ≠ some c := (Option.some_ne_none c).symm
  rw [settles.pending c inRange, World.leftQueued, if_neg noPass, Move.queued, if_pos rfl]

/-- Whom a pass has told, or is telling, was in the hub when its round began. -/
theorem Course.told_from_hub (course : Course e k f past) (begins : k.pass? e.world = some c) :
    (roundCalls e.waits.length past = [] ∧ ¬Hears e.waits f) ∨
    ∃ moment, RoundBegan e.waits moment past ∧
      (∀ it ∈ roundCalls e.waits.length past, it.listener ∈ moment.world.listeners c) ∧
      ∀ wait : ListenerWait, .listener wait :: e.waits <:+ f.waits →
        wait.listener ∈ moment.world.listeners c := by
  rcases course.round_order begins with
    ⟨unheard, quiet, _⟩ | ⟨moment, todo, began, listeners, ended, next⟩
  · exact Or.inl ⟨unheard.calls, quiet⟩
  · refine Or.inr ⟨moment, began, fun it member => ?_, fun wait suffix => ?_⟩
    · rw [listeners]
      exact List.mem_append_left _ (List.mem_map_of_mem member)
    · cases todo with
      | nil =>
        have longer := suffix.length_le
        rw [ended.mp rfl, List.length_cons] at longer
        exact absurd longer (Nat.not_succ_le_self _)
      | cons l rest =>
        obtain ⟨own, ⟨above, waits⟩, rfl⟩ := next l rest rfl
        obtain rfl := Wait.listener.inj (own_of_suffix waits.symm suffix)
        rw [listeners]
        exact List.mem_append_right _ List.mem_cons_self

/-- Whoever is in the hub when a pass has begun is told by it before it returns, once. -/
theorem Reach.called_once (reach : Reach {} e before) (course : Course e k f past)
    (begins : k.pass? e.world = some c) (back : f.waits = e.waits) {n : Nat}
    (there : n ∈ ((e.step (.call k)).1.world.listeners c).map Listener.number) :
    ((roundCalls e.waits.length past).map fun it => it.listener.number).count n = 1 := by
  have once := reach.round_once course begins
  rcases course.round_order begins with ⟨_, _, away⟩ | ⟨moment, todo, began, listeners, ended, _⟩
  · exact absurd back away
  · obtain rfl := ended.mpr back
    obtain ⟨mine, toMoment, _⟩ := began.course course
    obtain ⟨later, _, goesOn⟩ := toMoment.since
    have inRange := pass?_lt course.known begins
    have known : (Move.call k).Known e.world := course.known
    have inRange' := Nat.lt_of_lt_of_le inRange (step_latches known).length_le
    have stays := (reach.next known).listeners_later inRange' goesOn
    rw [listeners, List.append_nil] at stays
    have told := stays.subset
    rw [once.count]
    refine if_pos ?_
    obtain ⟨l, member, rfl⟩ := List.mem_map.mp there
    obtain ⟨it, called, same⟩ := List.mem_map.mp (told member)
    exact List.mem_map.mpr ⟨it, called, congrArg Listener.number same⟩

/-- A hub takes nobody in while no pass collects a listener and nobody registers it. -/
theorem Reach.not_joined (reach : Reach {} e before) (inRange : c < e.world.coordinators.length)
    (goesOn : Reach e f past) {n : Nat}
    (quiet : ∀ made ∈ past, made.2.pass? made.1.world ≠ some c ∧
      ∀ l, made.2 = .call (.register (e.world.coordinator c).hub l) → l.number ≠ n)
    (absent : n ∉ (e.world.hub (e.world.coordinator c).hub).numbers) :
    n ∉ (f.world.hub (e.world.coordinator c).hub).numbers := by
  rw [reach.hub_later goesOn, Hub.mem_numbers_join]
  rintro (old | new)
  · exact absent old
  · obtain ⟨l, member, rfl⟩ := List.mem_map.mp new
    obtain ⟨made, inPast, joins⟩ := List.mem_flatMap.mp member
    have inPast := List.mem_reverse.mp inPast
    obtain ⟨nobody, others⟩ := quiet made inPast
    obtain ⟨known, prior, first⟩ := goesOn.of_mem inPast
    rcases joining_cases joins with registered | ⟨d, begins, same⟩
    · exact others l registered rfl
    · -- No other coordinator collects into this hub.
      have inRange' := Nat.lt_of_lt_of_le inRange first.length_coordinators_le
      have known' : d < made.1.world.coordinators.length := by
        cases move : made.2 with
        | call k =>
          rw [move] at begins known
          exact pass?_lt known begins
        | loaded | heard | found =>
          rw [move] at begins
          cases begins
      rw [← first.hub_eq inRange] at same
      obtain rfl := (reach.trans first).ownHubs.apart d c known' inRange' same
      exact nobody begins

/-- The round of a pass in which a listener was queued is without this listener, unless it was in
the hub already or was let in afterwards. -/
theorem Reach.not_told (reach : Reach {} e before) {after prior : List (Engine × Move)}
    (course : Course e k f (after ++ (g, .call (.queue c l)) :: prior))
    (begins : k.pass? e.world = some c)
    (absent : l.number ∉ (g.world.hub (e.world.coordinator c).hub).numbers)
    (quiet : ∀ made ∈ after, made.2.pass? made.1.world ≠ some c ∧
      ∀ other, made.2 = .call (.register (e.world.coordinator c).hub other) →
        other.number ≠ l.number) {moment : Engine}
    (began : RoundBegan e.waits moment (after ++ (g, .call (.queue c l)) :: prior)) :
    l.number ∉ (moment.world.listeners c).map Listener.number := by
  have inRange := pass?_lt course.known begins
  obtain ⟨toQueue, known⟩ := course.reach.before_move
  have hub := toQueue.hub_eq inRange
  obtain ⟨later, made, earlier, whole, _, rfl, _⟩ := began
  rcases course.reach.moves_order whole with ⟨between, goesOn⟩ | ⟨between, goesOn, within⟩
  · -- Nobody leaves the hub between the beginning of the round and the queuing.
    have toMoment := course.reach
    rw [whole] at toMoment
    have first := toMoment.after_move.1
    have bound := Nat.lt_of_lt_of_le inRange first.length_coordinators_le
    have stays := (reach.trans first).listeners_later bound goesOn
    simp only [World.listeners, hub] at stays
    exact fun there => absent ((stays.map Listener.number).subset there)
  · -- Nobody lets the listener in between the queuing and the beginning of the round.
    have reach' := (reach.trans toQueue).next known
    have inRange' := Nat.lt_of_lt_of_le known (step_latches known).length_le
    have hub' := (step_hub_eq known (c := c) known).trans hub
    have absent' : l.number ∉
        ((g.step (.call (.queue c l))).1.world.hub (e.world.coordinator c).hub).numbers := absent
    rw [World.listeners, goesOn.hub_eq inRange', hub']
    rw [← hub'] at absent' quiet ⊢
    exact reach'.not_joined inRange' goesOn
      (fun made member => quiet made (within.subset member)) absent'

/-- What becomes of the listeners of a coordinator that has the hub of a given number. -/
structure Gathered (e : Engine) (c : CoordinatorId) (h : HubId) (before : List (Engine × Move)) :
    Prop where
  once : (e.world.hub h).numbers.Nodup
  /-- Listeners stand in the order in which they were first let in, whatever their names. -/
  order : (e.world.hub h).numbers = ((joined h before).map Listener.number).eraseDups
  drawn : (e.world.hub h).listeners.Sublist (joined h before)
  /-- Nobody leaves. -/
  stays : ∀ f later, Reach e f later → (e.world.hub h).listeners <+: (f.world.hub h).listeners
  queues : ∀ l, (∀ g, (e.step (.call (.queue c l))).1.world.hub g = e.world.hub g) ∧
    ((e.step (.call (.queue c l))).1.world.coordinator c).pending =
      (e.world.coordinator c).pending ++ [l]
  /-- A pass that begins lets the whole queue in, but for those who are there already. -/
  gathers : ∀ k, k.Known e.world → k.pass? e.world = some c →
    ((e.step (.call k)).1.world.hub h).numbers = (e.world.hub h).numbers ++
      (((e.world.coordinator c).pending.map Listener.number).removeAll
        (e.world.hub h).numbers).eraseDups ∧
    ((e.step (.call k)).1.world.coordinator c).pending = []
  skips : (Call.initialLoad c).pass? e.world = none → e.step (.call (.initialLoad c)) =
    (⟨e.world.note .alreadyInitialized, e.waits⟩, some .skipped)
  kept : ∀ l ∈ queuedIn c before,
    l ∈ (e.world.coordinator c).pending ∨ l.number ∈ (e.world.hub h).numbers
  /-- Every pass that begins now tells, once, whoever was ever queued, before it returns. -/
  told : ∀ l ∈ queuedIn c before, ∀ k, k.pass? e.world = some c → ∀ f past, Course e k f past →
    f.waits = e.waits → ((roundCalls e.waits.length past).map
      fun it => it.listener.number).count l.number = 1
  /-- A listener that is queued while a pass is under way is not told by this pass, unless it was in
  the hub already, or another pass lets it in or it is registered there. -/
  untold : ∀ k, k.pass? e.world = some c → ∀ f past, Course e k f past → ∀ after g l prior,
    past = after ++ (g, .call (.queue c l)) :: prior → l.number ∉ (g.world.hub h).numbers →
    (∀ made ∈ after, made.2.pass? made.1.world ≠ some c ∧
      ∀ other, made.2 = .call (.register h other) → other.number ≠ l.number) →
    (∀ it ∈ roundCalls e.waits.length past, it.listener.number ≠ l.number) ∧
      ∀ wait : ListenerWait, .listener wait :: e.waits <:+ f.waits →
        wait.listener.number ≠ l.number

/-- No listener is lost or told twice, however passes nest. -/
theorem Reach.gathered (reach : Reach {} e before) (inRange : c < e.world.coordinators.length)
    (same : (e.world.coordinator c).hub = h) : e.Gathered c h before where
  once := by
    rw [reach.hub_joined]
    exact Hub.nodup_numbers_join (h := {}) List.nodup_nil _
  order := by
    rw [reach.hub_joined, Hub.numbers_join]
    simp [Hub.numbers]
  drawn := by
    rw [reach.hub_joined]
    have none : ({} : Hub).listeners.Sublist [] := List.Sublist.refl _
    exact Hub.listeners_join_sublist none _
  stays f later goesOn := by
    rw [reach.hub_later goesOn]
    exact Hub.listeners_prefix_join _ _
  queues l := ⟨fun _ => rfl, step_queue_pending inRange l⟩
  gathers k known begins := by
    obtain ⟨joins, empty⟩ := step_gathers reach.ownHubs known begins same
    rw [joins, Hub.numbers_join]
    exact ⟨rfl, empty⟩
  skips none := step_skipped none
  kept l asked := same ▸ (reach.queued_kept asked).2
  told l asked k begins f past course back := by
    have known : (Move.call k).Known e.world := course.known
    obtain ⟨bound, waiting | joined⟩ := (reach.next known).queued_kept (c := c) (l := l) (by
      rw [queuedIn_cons]
      exact List.mem_append_left _ asked)
    · rw [(step_gathers reach.ownHubs course.known begins same).2] at waiting
      cases waiting
    · exact reach.called_once course begins back joined
  untold k begins f past course after g l prior whole absent quiet := by
    subst whole same
    rcases course.told_from_hub begins with ⟨none, quiet⟩ | ⟨moment, began, calls, waits⟩
    · rw [none]
      exact ⟨List.forall_mem_nil _, fun wait suffix => absurd ⟨wait, suffix⟩ quiet⟩
    · have untold := reach.not_told course begins absent quiet began
      refine ⟨fun it member named => untold ?_, fun wait suffix named => untold ?_⟩
      · exact List.mem_map.mpr ⟨_, calls it member, named⟩
      · exact List.mem_map.mpr ⟨_, waits wait suffix, named⟩

/-- A first pass whose loader queues a listener of a name that others have, and a second one. -/
def firstPass : List Move :=
  [.call (.initialLoad 0), .call (.queue 0 ⟨4, "cache"⟩), .loaded (.done [goodItem]),
    .heard (.done ()), .heard (.failed (.listener "cache" "stale")), .heard (.done ())]

def secondPass : List Move :=
  [.call (.refresh 0), .loaded (.done [goodItem]), .heard (.done ()), .heard (.done ()),
    .heard (.done ()), .heard (.done ())]

/-- The fourth listener is told by the second pass, and not by the first one. -/
theorem queued_meanwhile_told :
    (∀ it ∈ roundCalls 0 ((({} : Engine).run queued).trail firstPass), it.listener.number ≠ 4) ∧
    ((roundCalls 0 (((({} : Engine).run queued).run firstPass).trail secondPass)).map
      fun it => it.listener.number).count 4 = 1 := by
  have plays : ({} : Engine).Plays queued := by decide
  have goesOn : (({} : Engine).run queued).Plays firstPass := by decide
  have before := (reach_run plays).gathered (c := 0) (h := 0) (by decide) rfl
  have between := ((reach_run plays).trans (reach_run goesOn)).gathered (c := 0) (h := 0)
    (by decide) rfl
  have first : Course (({} : Engine).run queued) (.initialLoad 0)
      ((({} : Engine).run queued).run firstPass) ((({} : Engine).run queued).trail firstPass) :=
    course_run (by decide) (by decide)
  have second : Course ((({} : Engine).run queued).run firstPass) (.refresh 0)
      (((({} : Engine).run queued).run firstPass).run secondPass)
      (((({} : Engine).run queued).run firstPass).trail secondPass) :=
    course_run (by decide) (by decide)
  constructor
  · refine (before.untold _ rfl _ _ first _ _ ⟨4, "cache"⟩ _ (trail_append _ [_, _] _) ?_ ?_).1
    · decide
    · intro made member
      have moved := mem_trail member
      simp only [List.mem_cons, List.not_mem_nil, or_false] at moved
      rcases moved with move | move | move | move
      all_goals
        rw [move]
        exact ⟨nofun, nofun⟩
  · exact between.told ⟨4, "cache"⟩ (by decide) _ rfl _ _ second rfl

end LiveTables.Engine
