import Mathlib.Data.List.Forall2
import LiveTables.Proofs.PassNotices
import LiveTables.Proofs.ToldListeners

namespace LiveTables

namespace Engine

variable {e f : Engine} {k : Call} {before past : List (Engine × Move)} {level : Nat}

/-- A pass that is no coordinator's calls no listeners. -/
theorem Reach.reloadAll_unheard (reach : Reach {} e before) {r : RegistryId}
    (course : Course e (.reloadAll r) f past) : roundCalls e.waits.length past = [] := by
  refine List.filterMap_eq_nil_iff.mpr fun made member => ?_
  rcases course.of_mem (List.mem_reverse.mp member) with rfl | ⟨earlier, within, waiting⟩
  · rfl
  · unfold roundCall?
    split
    · rename_i given wait below _ top
      refine if_neg fun here => ?_
      obtain ⟨progress, stage, stands, _⟩ :=
        reach.registryPass_stages within within.known rfl (World.turn_nextReload _ _)
      cases stands with
      | answered back _ =>
        rw [back] at waiting
        exact absurd waiting (Nat.lt_irrefl _)
      | waiting waits =>
        -- A pass over a registry tells nobody.
        obtain ⟨_, rfl⟩ := top_eq top waits here
        cases stage with
        | telling round _ _ => cases round
    · rfl

/-- A pass that has returned reports the reloads that gave no result, and the listeners that did not
take the news. -/
theorem Reach.reported (reach : Reach {} e before) (course : Course e k f past)
    (begins : k.BeginsPass e.world) (back : f.waits = e.waits) :
    ∃ reply report, lastReply past = some reply ∧ reply.report? = some report ∧
      report.failed = (passReloads e.waits.length past).filterMap PassReload.failed? ∧
      report.listenerFailures =
        (roundCalls e.waits.length past).filterMap RoundCall.failure? := by
  rcases begins with ⟨r, rfl⟩ | runs
  · obtain ⟨⟨todo, _, finished, next⟩, _⟩ := reach.reloadAll_complete course
    cases todo with
    | nil =>
      obtain ⟨_, report, last, accounts, _⟩ := finished rfl
      refine ⟨_, report, last, rfl, accounts.failed, ?_⟩
      rw [reach.reloadAll_unheard course]
      exact accounts.listenerFailures
    | cons type rest =>
      obtain ⟨above, load, _, waits, _⟩ := next type rest rfl
      exact absurd back (waits_ne waits)
  · obtain ⟨c, runs⟩ := Option.isSome_iff_exists.mp runs
    obtain ⟨progress, stage, stands⟩ := course.tells runs
    obtain ⟨reply, rfl, last⟩ := stands.answer back
    cases stage with
    | told reported _ accounts _ => exact ⟨reply, _, last, reported, accounts.failed, rfl⟩

/-- The store that a pass reloads for a type was made for an offer of this type. -/
theorem Reach.passReload_offered (reach : Reach {} e past) {it : PassReload}
    (member : it ∈ passReloads level past) :
    ∃ o ∈ past.filterMap fun made => made.1.offer? made.2,
      (o.type == it.type) = true ∧ it.before.recordType = o.type := by
  obtain ⟨inPast, ⟨below, top⟩, pass, purpose⟩ := mem_passReloads member
  obtain ⟨later, earlier, rfl⟩ := List.append_of_mem inPast
  obtain ⟨first, _⟩ := reach.before_move
  have linked := first.linked.waits _ (top ▸ List.mem_cons_self)
  obtain ⟨inRange, found⟩ := linked.pass it.load it.type pass rfl purpose
  obtain ⟨o, chosen, origin⟩ := (first.holds inRange).made it.type it.load.store found
  obtain ⟨made, inside, offered⟩ := List.mem_filterMap.mp (List.mem_of_find?_eq_some chosen)
  have same := List.find?_some (p := fun o : Offer => o.type == it.type) chosen
  have inRun := List.mem_append_right later
    (List.mem_cons_of_mem (it.state, .loaded it.given) (List.mem_reverse.mp inside))
  exact ⟨o, List.mem_filterMap.mpr ⟨made, inRun, (Option.filter_eq_some_iff.mp offered).1⟩, same,
    congrArg Store.recordType origin⟩

/-- All offers of a type in a run give it the same name, as they do where the name is the type's
own. -/
def NamedAlike (past : List (Engine × Move)) (type : RecordType) : Prop :=
  ∀ o ∈ past.filterMap fun made => made.1.offer? made.2, (o.type == type) = true →
    o.type.name = type.name

instance (past : List (Engine × Move)) (type : RecordType) : Decidable (NamedAlike past type) :=
  inferInstanceAs (Decidable (∀ o ∈ _, _ → _))

end Engine

/-- A notice of a reload gives the reason that the report lists. -/
def Notice.GivesReason (n : Notice) (entry : FailedType) : Prop :=
  ("error", entry.error) ∈ n.details

/-- A notice of a reload gives the name that the report lists. -/
def Notice.GivesName (n : Notice) (entry : FailedType) : Prop :=
  ("type_name", entry.typeName) ∈ n.details

def ListenerFailure.notice (failure : ListenerFailure) : Notice :=
  .listenerFailed failure.name failure.reason

/-- The notices of the reloads of a pass stand against the entries of its report. -/
theorem PassReload.givesReason (reloads : List PassReload) :
    List.Forall₂ Notice.GivesReason (reloads.filterMap PassReload.error?)
      (reloads.filterMap PassReload.failed?) := by
  refine List.rel_filterMap (R := Eq) ?_ (List.forall₂_eq_eq_eq ▸ rfl)
  rintro it _ rfl
  unfold PassReload.error? PassReload.failed?
  cases it.ending with
  | done n => exact .none
  | failed e => exact .some (by simp [Notice.GivesReason, Notice.details])
  | faulted f => exact .some (by simp [Notice.GivesReason, Notice.details, Fault.reason])

theorem PassReload.givesName {reloads : List PassReload}
    (named : ∀ it ∈ reloads, it.before.recordType.name = it.type.name) :
    List.Forall₂ Notice.GivesName (reloads.filterMap PassReload.error?)
      (reloads.filterMap PassReload.failed?) := by
  have same : List.Forall₂ (fun it other => it = other ∧ it ∈ reloads) reloads reloads :=
    List.forall₂_same.mpr fun it member => ⟨rfl, member⟩
  refine List.rel_filterMap ?_ same
  rintro it _ ⟨rfl, member⟩
  unfold PassReload.error? PassReload.failed?
  cases it.ending with
  | done n => exact .none
  | failed e => exact .some (by simp [Notice.GivesName, Notice.details, named it member])
  | faulted f => exact .some (by simp [Notice.GivesName, Notice.details])

namespace Engine

/-- Finding nothing is noted each time. -/
theorem length_findVerdicts (w : World) (finds : List (CoordinatorId × List Binding)) :
    (finds.filterMap w.findVerdict?).length = finds.countP isBare := by
  rw [List.length_filterMap_eq_countP]
  exact List.countP_congr fun found _ => by rw [isSome_findVerdict?]

theorem map_notice (calls : List RoundCall) :
    (calls.filterMap RoundCall.failure?).map ListenerFailure.notice =
      calls.filterMap RoundCall.error? := List.map_filterMap

/-- The errors that a pass notes itself, whatever other calls note meanwhile. -/
structure NotesPass (e : Engine) (k : Call) (before : List (Engine × Move)) (f : Engine)
    (past : List (Engine × Move)) : Prop where
  errors : ownErrors e.waits.length past = passErrors e.world e.waits.length past
  /-- An initial load finds bindings once, and no other pass does. -/
  found : f.waits = e.waits → (ownFinds e.waits.length past).length = k.finds
  /-- When the pass returns there is one of them for each failure in its report, in the same order,
  and one more if an initial load has found nothing to load. -/
  reported : f.waits = e.waits → ∃ reply report refusals, lastReply past = some reply ∧
    reply.report? = some report ∧
    ownErrors e.waits.length past = (ownFinds e.waits.length past).filterMap e.world.findVerdict? ++
      refusals ++ report.listenerFailures.map ListenerFailure.notice ∧
    List.Forall₂ Notice.GivesReason refusals report.failed ∧
    ((∀ it ∈ passReloads e.waits.length past, NamedAlike (past ++ before) it.type) →
      List.Forall₂ Notice.GivesName refusals report.failed) ∧
    (ownErrors e.waits.length past).length = report.failed.length +
      report.listenerFailures.length + (ownFinds e.waits.length past).countP isBare

theorem Reach.notes_pass (reach : Reach {} e before) (course : Course e k f past)
    (begins : k.BeginsPass e.world) : NotesPass e k before f past where
  errors := by
    obtain ⟨_, notes, _⟩ := course.notes begins
    exact notes.errors
  found back := by
    obtain ⟨progress, notes, stands⟩ := course.notes begins
    obtain ⟨reply, rfl, _⟩ := stands.answer back
    cases notes with
    | telling _ once _ => exact once
  reported back := by
    obtain ⟨_, notes, _⟩ := course.notes begins
    obtain ⟨reply, report, last, given, failed, failures⟩ := reach.reported course begins back
    have reasons := PassReload.givesReason (passReloads e.waits.length past)
    have errors := notes.errors
    rw [passErrors, ← map_notice, ← failures] at errors
    rw [← failed] at reasons
    refine ⟨reply, report, _, last, given, errors, reasons, fun alike => ?_, ?_⟩
    · rw [failed]
      refine PassReload.givesName fun it member => ?_
      have inRun : it ∈ passReloads e.waits.length (past ++ before) := by
        rw [passReloads, List.reverse_append, List.filterMap_append]
        exact List.mem_append_right _ member
      obtain ⟨o, offered, same, type⟩ := (reach.trans course.reach).passReload_offered inRun
      rw [type]
      exact alike it member o offered same
    · rw [errors, List.length_append, List.length_append, List.length_map, length_findVerdicts,
        reasons.length_eq]
      omega

/-- The errors and the publications that a run has noted, and those of the passes that a call would
begin. -/
structure NotedOnce (e : Engine) (past : List (Engine × Move)) : Prop where
  /-- No move notes more than one error, and all that were noted are those of the moves. -/
  errors : e.world.notices.filter Notice.isError = past.filterMap error?
  /-- There is one for each reload that ended with an error, each abrupt end that a pass contained,
  each listener that failed and each initial load that kept no binding. -/
  count : e.world.notices.countP Notice.isError = past.countP refuses +
    past.countP containsFault + past.countP complains + past.countP keepsNothing
  /-- There is one notice for each publication, with the number of the new generation and its
  size. -/
  publications : e.world.notices.filter Notice.isPublication = past.filterMap announcement?
  published : ∀ made ∈ past, ∀ s batch, made.1.published? s made.2 = some batch →
    announcement? made = some (.storeReloaded (made.1.world.store s).recordType.name
      ((made.1.step made.2).1.world.store s).current.number batch.length)
  passes : ∀ k, k.BeginsPass e.world → ∀ f later, Course e k f later → NotesPass e k past f later

/-- Every failure is noted once, and nothing else is noted as an error. -/
theorem Reach.noted_once (reach : Reach {} e past) : NotedOnce e past where
  errors := reach.errors_eq
  count := by
    rw [List.countP_eq_length_filter, reach.errors_eq]
    exact length_errors past
  publications := reach.announcements_eq
  published made _ s batch published := announcement?_of_published published
  passes k begins f later course := reach.notes_pass course begins

/-- A coordinator of two types, with a listener in its queue. -/
def watched : List Move :=
  [.call (.makeCoordinator {} none (.catalog ⟨[⟨itemType, 0, true⟩,
      ⟨⟨1, "Bag", "", .number, []⟩, 1, true⟩]⟩)), .call (.queue 0 ⟨1, "cache"⟩)]

/-- An initial load in which everything fails. Within the first loader its table is reloaded, in
vain; within the listener another coordinator finds no bindings. -/
def mishaps : List Move :=
  [.call (.initialLoad 0), .call (.reload 0), .loaded (.failed (.io "gone")),
    .loaded (.faulted .unspoken), .loaded (.failed (.io "lost")),
    .call (.makeCoordinator {} (some 0) (.outside 7)), .call (.initialLoad 1), .found [],
    .heard (.failed (.listener "cache" "stale"))]

/-- Of the five errors of the run three are the pass's own, and its report lists these. -/
theorem mishaps_noted :
    (({} : Engine).run (watched ++ mishaps)).world.notices.countP Notice.isError = 5 ∧
    ownErrors 0 ((({} : Engine).run watched).trail mishaps) =
      [.reloadBroken "Item" "panicked: (non-string panic)",
        .reloadRefused "Bag" "res_db" "I/O error: lost",
        .listenerFailed "cache" "Listener cache failed: stale"] ∧
    ∃ reply report refusals, lastReply ((({} : Engine).run watched).trail mishaps) = some reply ∧
      reply.report? = some report ∧ ownErrors 0 ((({} : Engine).run watched).trail mishaps) =
        refusals ++ report.listenerFailures.map ListenerFailure.notice ∧
      List.Forall₂ Notice.GivesName refusals report.failed ∧
      report.failed.length + report.listenerFailures.length = 3 := by
  have whole : ({} : Engine).Plays (watched ++ mishaps) := by decide
  have plays : ({} : Engine).Plays watched := by decide
  have course : Course (({} : Engine).run watched) (.initialLoad 0)
      ((({} : Engine).run watched).run mishaps) ((({} : Engine).run watched).trail mishaps) :=
    course_run (by decide) (by decide)
  have count := (reach_run whole).noted_once.count
  have pass := (reach_run plays).noted_once.passes _ (Or.inr rfl) _ _ course
  obtain ⟨reply, report, refusals, last, given, errors, _, names, total⟩ := pass.reported rfl
  have all : 3 = report.failed.length + report.listenerFailures.length + 0 := total
  exact ⟨count.trans rfl, pass.errors.trans rfl, reply, report, refusals, last, given, errors,
    names (by decide), all.symm⟩

end Engine

end LiveTables
