import Mathlib.Data.List.Forall2
import LiveTables.Proofs.Agreement
import LiveTables.Proofs.Rounds

namespace LiveTables

variable {xs ys : List PassReload}

/-- Two reports account each for its own reloads. What they say of listeners is left open. -/
structure Report.Agree (xs ys : List PassReload) (first second : Report) : Prop where
  first : ({ first with listenerFailures := [] } : Report).Accounts xs
  second : ({ second with listenerFailures := [] } : Report).Accounts ys

namespace Report.Agree

variable {first second : Report}

theorem empty : Report.Agree [] [] {} {} := ⟨Engine.accounts_nil, Engine.accounts_nil⟩

/-- Both reports are taken further by one reload each. -/
theorem enter (agree : first.Agree xs ys second) (it it' : PassReload) :
    (first.enter it.type it.ending).Agree (xs ++ [it]) (ys ++ [it'])
      (second.enter it'.type it'.ending) := by
  have silent (report : Report) (type : RecordType) (ending : Outcome Nat) :
      ({ report.enter type ending with listenerFailures := [] } : Report) =
        ({ report with listenerFailures := [] } : Report).enter type ending := by
    cases ending <;> rfl
  constructor
  · rw [silent]
    exact agree.first.enter it
  · rw [silent]
    exact agree.second.enter it'

theorem told (agree : first.Agree xs ys second) (failures failures' : List ListenerFailure) :
    ({ first with listenerFailures := failures } : Report).Agree xs ys
      { second with listenerFailures := failures' } :=
  ⟨agree.first, agree.second⟩

end Report.Agree

inductive RoundPurpose.Agree (xs ys : List PassReload) : RoundPurpose → RoundPurpose → Prop
  | answer : Agree xs ys .answer .answer
  | refresh (c : CoordinatorId) {first second : Report} : first.Agree xs ys second →
      Agree xs ys (.refresh c first) (.refresh c second)
  | initialization (c : CoordinatorId) (types : Nat) {first second : Report} :
      first.Agree xs ys second →
      Agree xs ys (.initialization c types first) (.initialization c types second)

/-- Two calls wait for the same outside code after reloads of their own. The plans of the reloads
that they wait for can differ for one store. -/
inductive Wait.Agree (a : StoreId) (xs ys : List PassReload) : Wait → Wait → Prop
  | direct {s : StoreId} (other : s ≠ a) (plan : Plan) :
      Agree a xs ys (.load ⟨s, plan, .answer⟩) (.load ⟨s, plan, .answer⟩)
  | turn {s : StoreId} {plan plan' : Plan} (type : RecordType) {pass : Pass} {report : Report} :
      (s ≠ a → plan' = plan) → pass.report.Agree xs ys report →
      Agree a xs ys (.load ⟨s, plan, .pass type pass⟩)
        (.load ⟨s, plan', .pass type { pass with report }⟩)
  | listener (l : Listener) (todo : List Listener) {failures failures' : List ListenerFailure}
      {purpose purpose' : RoundPurpose} : purpose.Agree xs ys purpose' →
      Agree a xs ys (.listener ⟨l, todo, failures, purpose⟩)
        (.listener ⟨l, todo, failures', purpose'⟩)
  | discovery (wait : DiscoveryWait) : xs = [] → ys = [] →
      Agree a xs ys (.discovery wait) (.discovery wait)

/-- Two answers are the same, but for what they say of listeners, and their reports account each
for its own reloads. -/
inductive Reply.Agree (xs ys : List PassReload) : Reply → Reply → Prop
  | same {reply : Reply} : reply.report? = none → Agree xs ys reply reply
  | notified (failures failures' : List ListenerFailure) :
      Agree xs ys (.notified failures) (.notified failures')
  | passed {first second : Report} : first.Agree xs ys second →
      Agree xs ys (.passed first) (.passed second)
  | initialized {first second : Report} : first.Agree xs ys second →
      Agree xs ys (.initialized first) (.initialized second)

inductive Progress.Agree (a : StoreId) (xs ys : List PassReload) : Progress → Progress → Prop
  | done {reply reply' : Reply} : reply.Agree xs ys reply' →
      Agree a xs ys (.done reply) (.done reply')
  | waiting {wait wait' : Wait} : wait.Agree a xs ys wait' →
      Agree a xs ys (.waiting wait) (.waiting wait')

namespace World

/-- Two calls go on alike, in worlds that still agree: they wait for the same outside code or give
the same answer, but for what reports say of the reloads of one store and of listeners. -/
structure GoAlike (a : StoreId) (xs ys : List PassReload)
    (next next' : World × Progress) : Prop where
  world : next.1.Agree a next'.1
  progress : next.2.Agree a xs ys next'.2

namespace Agree

variable {a : StoreId} {w v : World}

theorem answers (agree : w.Agree a v) {reply reply' : Reply} (same : reply' = reply)
    (other : reply.report? = none) : GoAlike a xs ys (w, .done reply) (v, .done reply') := by
  subst same
  exact ⟨agree, .done (.same other)⟩

/-- A round calls the same listeners in both worlds, whatever failures it has met. -/
theorem nextListener (agree : w.Agree a v) (todo : List Listener)
    (failures failures' : List ListenerFailure) {purpose purpose' : RoundPurpose}
    (purposes : purpose.Agree xs ys purpose') :
    GoAlike a xs ys (w.nextListener todo failures purpose)
      (v.nextListener todo failures' purpose') := by
  cases todo with
  | cons l todo => exact ⟨agree, .waiting (.listener l todo purposes)⟩
  | nil =>
    cases purposes with
    | answer => exact ⟨agree, .done (.notified failures failures')⟩
    | refresh c reports => exact ⟨agree.endCycle c, .done (.passed (reports.told _ _))⟩
    | initialization c types reports =>
      exact ⟨(agree.endCycle c).note _ _, .done (.initialized (reports.told _ _))⟩

theorem notify (agree : w.Agree a v) (h : HubId) {purpose purpose' : RoundPurpose}
    (purposes : purpose.Agree xs ys purpose') :
    GoAlike a xs ys (w.notify h purpose) (v.notify h purpose') := by
  unfold World.notify
  rw [agree.hub h]
  exact agree.nextListener _ [] [] purposes

/-- What a listener did is noted, and the round goes on. -/
theorem of_heard (a : StoreId) (w : World) (wait : ListenerWait) (outcome : Outcome Unit) :
    ∃ v failures, w.Agree a v ∧
      w.heard wait outcome = v.nextListener wait.todo failures wait.purpose := by
  unfold World.heard
  split
  · exact ⟨w, _, refl a w, rfl⟩
  · exact ⟨_, _, of_note a w _, rfl⟩

theorem heard (agree : w.Agree a v) {wait wait' : ListenerWait}
    (waits : (Wait.listener wait).Agree a xs ys (.listener wait'))
    (outcome outcome' : Outcome Unit) :
    GoAlike a xs ys (w.heard wait outcome) (v.heard wait' outcome') := by
  obtain ⟨w', _, noted, run⟩ := of_heard a w wait outcome
  obtain ⟨v', _, noted', run'⟩ := of_heard a v wait' outcome'
  rw [run, run']
  cases waits with
  | listener l todo purposes =>
    exact ((noted.symm.trans agree).trans noted').nextListener todo _ _ purposes

/-- A pass ends its reloads alike, and goes on to the same listeners. -/
theorem endReloads (agree : w.Agree a v) {pass : Pass} {report : Report}
    (reports : pass.report.Agree xs ys report) :
    GoAlike a xs ys (w.endReloads pass) (v.endReloads { pass with report }) := by
  unfold World.endReloads
  dsimp only
  split
  · exact ⟨agree.note _ _, .done (.passed reports)⟩
  · rename_i c _
    rw [agree.coordinator c]
    exact (agree.note _ _).notify _ (.refresh c reports)
  · rename_i c types _
    rw [agree.coordinator c]
    exact agree.notify _ (.initialization c types reports)

theorem beginReload (agree : w.Agree a v) (pass : Pass) {report : Report}
    (reports : pass.report.Agree xs ys report) (type : RecordType) (s : StoreId) :
    GoAlike a xs ys (w.beginReload pass type s) (v.beginReload { pass with report } type s) where
  world := agree
  progress := .waiting (.turn type (fun other => by rw [agree.store s other]) reports)

/-- A pass begins the next reload on the same store, as the registries agree. -/
theorem reloadFirst (agree : w.Agree a v) {pass : Pass} {report : Report}
    (reports : pass.report.Agree xs ys report) (todo : List PassItem) :
    GoAlike a xs ys (w.reloadFirst pass todo) (v.reloadFirst { pass with report } todo) := by
  induction todo with
  | nil => exact agree.endReloads reports
  | cons item todo ih =>
    cases item with
    | installed type =>
      simp only [World.reloadFirst, agree.registry]
      split
      · exact agree.beginReload { pass with todo } reports type _
      · exact ih
    | bound b =>
      obtain ⟨installed, number⟩ := agree.install pass.registry b.recordType b.createStore
      simp only [World.reloadFirst, World.ensureBinding, number]
      exact installed.beginReload { pass with todo } reports b.recordType _

theorem nextReload (agree : w.Agree a v) (pass : Pass) {report : Report}
    (reports : pass.report.Agree xs ys report) :
    GoAlike a xs ys (w.nextReload pass) (v.nextReload { pass with report }) :=
  agree.reloadFirst reports pass.todo

theorem newPass (agree : w.Agree a v) {pass : Pass} (fresh : pass.report = {}) :
    GoAlike a [] [] (w.nextReload pass) (v.nextReload pass) := by
  have reports : pass.report.Agree [] [] pass.report := fresh ▸ Report.Agree.empty
  exact agree.nextReload pass reports

/-- A reload ends, and the call goes on alike: what the loaders gave may differ for the store in
question only. -/
theorem loaded {e f : Engine} (agree : e.world.Agree a f.world) {load load' : LoadWait}
    (waits : (Wait.load load).Agree a xs ys (.load load')) {given given' : Outcome (List Record)}
    (same : load.store ≠ a → given' = given) {xs' ys' : List PassReload}
    (first : ∀ type pass, load.purpose = .pass type pass →
      xs' = xs ++ [⟨e, type, load, given⟩])
    (second : ∀ type pass, load'.purpose = .pass type pass →
      ys' = ys ++ [⟨f, type, load', given'⟩]) :
    GoAlike a xs' ys' (e.world.loaded load given) (f.world.loaded load' given') := by
  cases waits with
  | @direct s other plan =>
    have concluded := agree.concludeReload (fun _ => (rfl : plan = plan)) same
    simp only [World.loaded, concludeReload_outcome]
    refine concluded.answers ?_ rfl
    rw [agree.store s other, same other]
  | @turn s plan plan' type pass report plans reports =>
    obtain rfl := first type pass rfl
    obtain rfl := second type { pass with report } rfl
    have concluded := agree.concludeReload plans same
    simp only [World.loaded, recordReload_report, concludeReload_outcome]
    exact (concluded.recordReload type _ _ _ _).nextReload
      { pass with report := pass.report.enter type _ } (reports.enter _ _)

/-- Discovery has found the same bindings. -/
theorem found (agree : w.Agree a v) (c : CoordinatorId) (bindings : List Binding) :
    GoAlike a [] [] (w.found c bindings) (v.found c bindings) := by
  unfold World.found
  rw [agree.coordinator c]
  dsimp only
  split
  · exact (agree.note _ _).newPass rfl
  · exact agree.newPass rfl

theorem initialLoad (agree : w.Agree a v) (c : CoordinatorId) :
    GoAlike a [] [] (w.initialLoad c) (v.initialLoad c) := by
  have collected := (agree.latch c).collectPending c
  unfold World.initialLoad
  rw [agree.coordinator c]
  dsimp only
  split
  · exact (agree.note _ _).answers rfl rfl
  · split
    · exact collected.found c _
    · exact ⟨collected, .waiting (.discovery _ rfl rfl)⟩

theorem refresh (agree : w.Agree a v) (c : CoordinatorId) :
    GoAlike a [] [] (w.refresh c) (v.refresh c) := by
  have collected := agree.collectPending c
  unfold World.refresh registryPass
  dsimp only
  rw [collected.coordinator c, collected.registry]
  exact collected.newPass rfl

end Agree

end World

/-- A call is a typed use of a store or a single reload of it. -/
def Call.isOn (a : StoreId) : Call → Bool
  | .reload s | .registerIndex s _ | .append s _ _ _ | .applyToGeneration s _ _
  | .listInGeneration s _ _ _ => s = a
  | _ => false

namespace World

variable {a : StoreId} {w v : World}

/-- A call that is not made on the one store begins alike. -/
theorem Agree.begin (agree : w.Agree a v) {c : Call} (beside : c.isOn a = false) :
    GoAlike a [] [] (w.begin c) (v.begin c) := by
  have apart {s : StoreId} (beside : decide (s = a) = false) : s ≠ a := of_decide_eq_false beside
  -- Each call reads nothing but what the worlds agree in, and makes the same change in both.
  cases c with
  | makeStore type location loader =>
    exact (agree.addStore _).answers (congrArg Reply.made agree.length) rfl
  | makeRegistry location =>
    refine (agree.addRegistry _).answers ?_ rfl
    exact congrArg (fun it => Reply.made it.length) agree.registries
  | makeHub =>
    refine (agree.addHub _).answers ?_ rfl
    exact congrArg (fun it => Reply.made it.length) agree.hubs
  | makeCoordinator config r discovery =>
    refine (agree.addCoordinator config r discovery).answers ?_ rfl
    cases r with
    | none => exact congrArg (fun it => Reply.made it.length) agree.coordinators
    | some r => exact congrArg (fun it => Reply.made it.length) agree.coordinators
  | makeBound b location => exact (agree.addStore _).answers (congrArg Reply.made agree.length) rfl
  | reload s =>
    have other := apart beside
    simp only [World.begin, agree.store s other]
    exact ⟨agree, .waiting (.direct other _)⟩
  | registerIndex s d =>
    obtain ⟨registered, same⟩ := agree.registerIndex (apart beside) d
    simp only [World.begin]
    generalize w.registerIndex s d = first, v.registerIndex s d = second at registered same ⊢
    obtain ⟨w, _⟩ := first
    obtain ⟨v, fault⟩ := second
    obtain rfl : fault = _ := same
    cases fault with
    | none => exact registered.answers rfl rfl
    | some fault => exact registered.answers rfl rfl
  | append s index id values =>
    simp only [World.begin, agree.store s (apart beside)]
    exact (agree.setStore (fun _ => rfl) rfl).answers rfl rfl
  | applyToGeneration s number d =>
    simp only [World.begin, agree.store s (apart beside)]
    have applied (it : Store) : (w.setStore s it).Agree a (v.setStore s it) :=
      agree.setStore (fun _ => rfl) rfl
    split
    · exact (applied _).answers rfl rfl
    · exact (applied _).answers rfl rfl
  | listInGeneration s number key id =>
    simp only [World.begin, agree.store s (apart beside)]
    exact (agree.setStore (fun _ => rfl) rfl).answers rfl rfl
  | ensure r type loader =>
    obtain ⟨ensured, same⟩ := agree.ensure r type loader
    simp only [World.begin]
    generalize w.ensure r type loader = first, v.ensure r type loader = second at ensured same ⊢
    obtain ⟨w, _⟩ := first
    obtain ⟨v, given⟩ := second
    obtain rfl : given = _ := same
    cases given with
    | ok s => exact ensured.answers rfl rfl
    | error e => exact ensured.answers rfl rfl
  | ensureBinding r b =>
    obtain ⟨installed, number⟩ := agree.install r b.recordType b.createStore
    exact installed.answers (congrArg Reply.made number) rfl
  | reloadAll r =>
    simp only [World.begin, registryPass, agree.registry]
    exact agree.newPass rfl
  | register h l =>
    simp only [World.begin, agree.hub]
    exact (agree.register h l).answers rfl rfl
  | notify h => exact agree.notify h .answer
  | queue c l => exact (agree.queue c l).answers rfl rfl
  | initialLoad c => exact agree.initialLoad c
  | refresh c => exact agree.refresh c

/-- A call on the one store is seen in this store only. It answers at once, or it waits for the
loader of the store. -/
theorem begin_isOn (w : World) {c : Call} (own : c.isOn a = true) :
    w.Agree a (w.begin c).1 ∧ ((∃ reply, (w.begin c).2 = .done reply) ∨
      ∃ plan, (w.begin c).2 = .waiting (.load ⟨a, plan, .answer⟩)) := by
  have here {s : StoreId} (own : decide (s = a) = true) : s = a := of_decide_eq_true own
  cases c with
  | reload s =>
    obtain rfl := here own
    exact ⟨.refl s w, Or.inr ⟨_, rfl⟩⟩
  | registerIndex s d =>
    obtain rfl := here own
    obtain ⟨reply, run⟩ := w.begin_registerIndex s d
    rw [run]
    refine ⟨?_, Or.inl ⟨reply, rfl⟩⟩
    unfold World.registerIndex
    split
    · rename_i registered
      have type := congrArg (fun next => next.1.recordType) registered
      exact (Agree.of_setStore w type.symm).trans (.of_note s _ _)
    · rename_i registered
      have type := congrArg (fun next => next.1.recordType) registered
      exact Agree.of_setStore w type.symm
  | append s index id values =>
    obtain rfl := here own
    exact ⟨.of_setStore w rfl, Or.inl ⟨_, rfl⟩⟩
  | applyToGeneration s number d =>
    obtain rfl := here own
    obtain ⟨reply, run⟩ := w.begin_applyToGeneration s number d
    rw [run]
    exact ⟨.of_setStore w rfl, Or.inl ⟨reply, rfl⟩⟩
  | listInGeneration s number key id =>
    obtain rfl := here own
    exact ⟨.of_setStore w rfl, Or.inl ⟨_, rfl⟩⟩
  | _ => cases own

end World

end LiveTables
