import LiveTables.Proofs.CompletePass
import LiveTables.Proofs.Rounds

namespace LiveTables

theorem PassReload.failed?_eq_none {it : PassReload} :
    it.failed? = none ↔ ∃ n, it.ending = .done n := by
  unfold failed?
  cases it.ending <;> simp

theorem RoundCall.failure?_eq_none {it : RoundCall} : it.failure? = none ↔ it.given = .done () := by
  unfold failure?
  cases it.given <;> simp

namespace Engine

variable {start e f : Engine} {k : Call} {before past : List (Engine × Move)} {c : CoordinatorId}
  {level : Nat}

/-- A reload of a pass gives a result exactly if it publishes. -/
theorem Reach.done_iff_published (reach : Reach start f past) (sound : start.Sound)
    {it : PassReload} (member : it ∈ passReloads level past) : (∃ n, it.ending = .done n) ↔
      ∃ batch, it.state.published? it.load.store (.loaded it.given) = some batch := by
  obtain ⟨inPast, ⟨below, top⟩, _⟩ := mem_passReloads member
  obtain ⟨_, prior, first⟩ := reach.of_mem inPast
  have sound := first.sound_of sound
  constructor
  · rintro ⟨n, done⟩
    obtain ⟨batch, _, published, _⟩ := (ends_done_iff sound top).mp done
    exact ⟨batch, published⟩
  · rintro ⟨batch, published⟩
    have given : it.given = .done batch := by
      unfold published? at published
      split at published
      · rename_i other _ _ ended _
        split at published
        · obtain rfl := Option.some.inj published
          exact Move.loaded.inj ended
        · cases published
      · cases published
    exact ⟨_, (ends_done_iff sound top).mpr ⟨batch, given, published, rfl⟩⟩

/-- A report is clean exactly if all reloads have published and all listeners took the news. -/
theorem Reach.isClean_iff (reach : Reach start f past) (sound : start.Sound) {report : Report}
    (accounts : report.Accounts (passReloads level past)) {calls : List RoundCall} :
    ({ report with listenerFailures := calls.filterMap RoundCall.failure? } : Report).isClean =
        true ↔
      (∀ it ∈ passReloads level past,
        ∃ batch, it.state.published? it.load.store (.loaded it.given) = some batch) ∧
      ∀ it ∈ calls, it.given = .done () := by
  rw [Report.isClean, Bool.and_eq_true, List.isEmpty_iff, List.isEmpty_iff, accounts.failed,
    List.filterMap_eq_nil_iff, List.filterMap_eq_nil_iff]
  refine and_congr ?_ ?_
  · refine forall_congr' fun it => forall_congr' fun member => ?_
    rw [PassReload.failed?_eq_none, reach.done_iff_published sound member]
  · exact forall_congr' fun it => forall_congr' fun _ => RoundCall.failure?_eq_none

/-- The last move of a pass that has returned ends it. -/
theorem Course.passEnd {made : Engine × Move} (course : Course e k f (made :: past))
    (begins : k.pass? e.world = some c) (back : f.waits = e.waits) :
    made.1.passEnd? made.2 = some c := by
  obtain ⟨_, _, stands⟩ := course.tells begins
  obtain ⟨reply, _, last⟩ := stands.answer back
  have answered : (made.1.step made.2).2 = some reply := last
  rw [passEnd?, answered, Option.isSome_some, if_pos rfl]
  obtain ⟨rfl, ⟨_, rfl⟩ | ⟨course, waiting⟩⟩ := course.last
  · exact begins
  · rcases made.1.step_forms made.2 with
      ⟨other, called⟩ | ⟨own, rest, next, top, goes, run⟩ | ⟨_, run⟩
    · -- A call that answers leaves the waits as they are, so the pass would still wait.
      rw [called, step_call] at back answered
      have same := waits_of_reply answered
      rw [← same, back] at waiting
      exact absurd waiting (Nat.lt_irrefl _)
    · rw [run] at back answered
      have same := waits_of_reply answered
      rw [same] at back
      rw [back] at top
      have place : made.1.waits = [] ++ own :: e.waits := top
      rw [serves?_of_goes top goes, course.serves place, begins]
    · rw [run] at answered
      cases answered

/-- The moment in which a round began lies in the course of its pass. -/
theorem RoundBegan.course {base : List Wait} {moment : Engine} (began : RoundBegan base moment past)
    (course : Course e k f past) : ∃ mine, Course e k moment mine ∧ mine <:+ past := by
  obtain ⟨later, made, earlier, rfl, _, rfl, _⟩ := began
  exact ⟨_, course.cut, later, rfl⟩

/-- What a pass of a coordinator has done with its listeners since it was called. It tells whoever
is in the hub when its last reload has ended, whatever listeners return and whatever they register
meanwhile; its report lists those that failed, and the pass is one cycle of its coordinator. -/
structure Told (e : Engine) (c : CoordinatorId) (f : Engine) (past : List (Engine × Move)) :
    Prop where
  /-- Either reloads are still to come and nobody was called, or the round has begun. It is for
  those who were in the hub at this moment, in their order, and the pass waits for the next of
  them. -/
  order : (Unheard e.waits past ∧ ¬Hears e.waits f ∧ f.waits ≠ e.waits) ∨
    ∃ moment todo, RoundBegan e.waits moment past ∧
      moment.world.listeners c =
        (roundCalls e.waits.length past).map RoundCall.listener ++ todo ∧
      (todo = [] ↔ f.waits = e.waits) ∧
      ∀ l rest, todo = l :: rest → ∃ wait : ListenerWait,
        .listener wait :: e.waits <:+ f.waits ∧ wait.listener = l
  once : ((roundCalls e.waits.length past).map fun it => it.listener.number).Nodup
  /-- The answer reports the listeners that failed, and it is clean if everything went well. -/
  reported : f.waits = e.waits → ∃ reply report, lastReply past = some reply ∧
    reply.report? = some report ∧
    report.listenerFailures =
      (roundCalls e.waits.length past).filterMap RoundCall.failure? ∧
    (report.isClean = true ↔
      (∀ it ∈ passReloads e.waits.length past,
        ∃ batch, it.state.published? it.load.store (.loaded it.given) = some batch) ∧
      ∀ it ∈ roundCalls e.waits.length past, it.given = .done ())
  /-- The pass counts with its answer. Whatever was counted before has ended while it waited. -/
  counted : f.waits = e.waits → ∃ made earlier, past = made :: earlier ∧
    made.1.passEnd? made.2 = some c ∧
    (f.world.coordinator c).cycles = (made.1.world.coordinator c).cycles + 1 ∧
    ∀ other ∈ earlier, e.waits.length < (other.1.step other.2).1.waits.length

/-- No hub holds a listener twice. -/
theorem nodup_listeners (reach : Reach {} e past) (c : CoordinatorId) :
    ((e.world.listeners c).map Listener.number).Nodup := by
  have joined := Hub.nodup_numbers_join (h := {}) List.nodup_nil
    (joined (e.world.coordinator c).hub past)
  rwa [← reach.hub_joined] at joined

/-- How far the round of a pass has come, as far as its listeners can tell. -/
theorem Course.round_order (course : Course e k f past) (begins : k.pass? e.world = some c) :
    (Unheard e.waits past ∧ ¬Hears e.waits f ∧ f.waits ≠ e.waits) ∨
    ∃ moment todo, RoundBegan e.waits moment past ∧
      moment.world.listeners c =
        (roundCalls e.waits.length past).map RoundCall.listener ++ todo ∧
      (todo = [] ↔ f.waits = e.waits) ∧
      ∀ l rest, todo = l :: rest → ∃ wait : ListenerWait,
        .listener wait :: e.waits <:+ f.waits ∧ wait.listener = l := by
  obtain ⟨progress, stage, stands⟩ := course.tells begins
  cases stands with
  | @waiting above own waits =>
    have away := waits_ne waits
    cases stage with
    | discovering _ unheard _ => exact Or.inl ⟨unheard, not_hears waits nofun, away⟩
    | reloading _ _ unheard _ => exact Or.inl ⟨unheard, not_hears waits nofun, away⟩
    | @telling wait _ moment _ began _ listeners _ =>
      refine Or.inr ⟨moment, _, began, listeners, ⟨nofun, fun back => absurd back away⟩, ?_⟩
      rintro _ _ ⟨⟩
      exact ⟨wait, ⟨above, waits.symm⟩, rfl⟩
  | answered back _ =>
    cases stage with
    | @told _ _ moment _ began _ listeners =>
      exact Or.inr ⟨moment, [], began, by rw [List.append_nil, listeners],
        ⟨fun _ => back, fun _ => rfl⟩, nofun⟩

/-- No listener is called twice by a round. -/
theorem Reach.round_once (reach : Reach {} e before) (course : Course e k f past)
    (begins : k.pass? e.world = some c) :
    ((roundCalls e.waits.length past).map fun it => it.listener.number).Nodup := by
  rcases course.round_order begins with ⟨unheard, _⟩ | ⟨moment, todo, began, listeners, _⟩
  · rw [unheard.calls]
    exact List.nodup_nil
  · obtain ⟨mine, toMoment, _⟩ := began.course course
    have distinct := nodup_listeners (reach.trans toMoment.reach) c
    rw [listeners, List.map_append, List.map_map] at distinct
    exact (List.nodup_append.mp distinct).1

/-- Every pass of a coordinator, as far as it has come, has told its listeners so. -/
theorem Reach.told (reach : Reach {} e before) (course : Course e k f past)
    (begins : k.pass? e.world = some c) : Told e c f past where
  order := course.round_order begins
  once := reach.round_once course begins
  reported back := by
    obtain ⟨progress, stage, stands⟩ := course.tells begins
    obtain ⟨reply, rfl, last⟩ := stands.answer back
    cases stage with
    | told reported _ accounts _ =>
      exact ⟨reply, _, last, reported, rfl, course.reach.isClean_iff reach.sound accounts⟩
  counted back := by
    cases past with
    | nil => cases course
    | cons made earlier =>
      have ends := course.passEnd begins back
      obtain ⟨known, prior, first⟩ := course.reach.of_mem List.mem_cons_self
      have inRange := Nat.lt_of_lt_of_le (pass?_lt course.known begins) first.length_coordinators_le
      have cycles := (step_settles known).cycles c inRange
      obtain ⟨rfl, within⟩ := course.last
      rw [if_pos ends] at cycles
      refine ⟨made, earlier, rfl, ends, cycles, ?_⟩
      rcases within with ⟨rfl, _⟩ | ⟨course, waiting⟩
      · exact List.forall_mem_nil _
      · exact course.above waiting

/-- What a coordinator has to do with its passes, as far as a run has come. -/
structure TellsAll (e : Engine) (c : CoordinatorId) (before : List (Engine × Move)) : Prop where
  /-- It has counted those that have returned. -/
  cycles : (e.world.coordinator c).cycles = (passEnds before).count c
  returned : ∀ made prior, made :: prior <:+ before → made.1.passEnd? made.2 = some c →
    ∃ b k mine rest, prior = mine ++ rest ∧ Reach {} b rest ∧ k.pass? b.world = some c ∧
      Course b k (made.1.step made.2).1 (made :: mine) ∧ (made.1.step made.2).1.waits = b.waits
  told : ∀ k, k.pass? e.world = some c → ∀ f past, Course e k f past → Told e c f past

/-- Listeners are told after all reloads, each once, in order, and every pass is one cycle. -/
theorem Reach.tells_all (reach : Reach {} e before) (inRange : c < e.world.coordinators.length) :
    e.TellsAll c before where
  cycles := reach.cycles_eq inRange
  returned made prior suffix ends := by
    obtain ⟨later, rfl⟩ := suffix
    obtain ⟨_, first, _⟩ := reach.split
    cases first with
    | next first known =>
      obtain ⟨b, k, mine, rest, whole, begun, course, back, begins⟩ :=
        first.passEnd_course known ends
      exact ⟨b, k, mine, rest, whole, begun, begins, course, back⟩
  told k begins f past course := reach.told course begins

/-- A coordinator of one type, with three listeners in its queue. Two of them share a name. -/
def queued : List Move :=
  [.call (.makeCoordinator {} none (.catalog ⟨[⟨itemType, 0, true⟩]⟩)),
    .call (.queue 0 ⟨1, "cache"⟩), .call (.queue 0 ⟨2, "cache"⟩), .call (.queue 0 ⟨3, "search"⟩)]

/-- A first pass over them. The first listener registers a fourth one and fails; the second one
calls a whole pass of its own, with four listeners, and then ends abruptly. -/
def interrupted : List Move :=
  [.loaded (.done [goodItem]), .call (.register 0 ⟨4, "late"⟩),
    .heard (.failed (.listener "cache" "stale")), .call (.refresh 0), .loaded (.done [goodItem]),
    .heard (.done ()), .heard (.done ()), .heard (.done ()), .heard (.done ()),
    .heard (.faulted .unspoken), .heard (.done ())]

theorem interrupted_told :
    ((({} : Engine).run queued).run (.call (.initialLoad 0) :: interrupted)).waits = [] ∧
    ((roundCalls 0 ((({} : Engine).run queued).trail (.call (.initialLoad 0) :: interrupted))).map
      fun it => it.listener.number) = [1, 2, 3] ∧
    ∃ reply report, lastReply ((({} : Engine).run queued).trail
        (.call (.initialLoad 0) :: interrupted)) = some reply ∧ reply.report? = some report ∧
      report.listenerFailures = [⟨"cache", "Listener cache failed: stale"⟩,
        ⟨"cache", "panicked: (non-string panic)"⟩] ∧
      report.isClean = false := by
  have plays : ({} : Engine).Plays queued := by decide
  have all := (reach_run plays).tells_all (c := 0) (by decide)
  have course : Course (({} : Engine).run queued) (.initialLoad 0)
      ((({} : Engine).run queued).run (.call (.initialLoad 0) :: interrupted))
      ((({} : Engine).run queued).trail (.call (.initialLoad 0) :: interrupted)) :=
    course_run (by decide) (by decide)
  have told := all.told _ rfl _ _ course
  obtain ⟨reply, report, last, given, failures, clean⟩ := told.reported rfl
  refine ⟨rfl, rfl, reply, report, last, given, failures, ?_⟩
  rw [Bool.eq_false_iff]
  intro isClean
  have quiet := (clean.mp isClean).2 _ List.mem_cons_self
  cases quiet

end Engine

end LiveTables
