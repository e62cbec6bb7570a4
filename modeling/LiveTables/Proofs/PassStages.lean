import LiveTables.Proofs.Course
import LiveTables.Proofs.Links

namespace LiveTables

/-- A reload of a pass, in the state in which its loader ended. -/
structure PassReload where
  state : Engine
  type : RecordType
  load : LoadWait
  given : Outcome (List Record)

namespace PassReload

/-- The store as the loader left it. -/
def before (it : PassReload) : Store := it.state.world.store it.load.store

/-- The store after the reload. -/
def after (it : PassReload) : Store :=
  (it.state.step (.loaded it.given)).1.world.store it.load.store

def ending (it : PassReload) : Outcome Nat := (it.before.conclude it.load.plan it.given).2

def loaded? (it : PassReload) : Option LoadedType :=
  match it.ending with
  | .done n => some ⟨it.type.name, n⟩
  | _ => none

def failed? (it : PassReload) : Option FailedType :=
  match it.ending with
  | .done _ => none
  | .failed e => some ⟨it.type.name, e.message⟩
  | .faulted f => some ⟨it.type.name, "panicked: " ++ f.message⟩

end PassReload

/-- A report has one entry for each reload, in the order of the reloads: those that published stand
under `loaded` with the size of what they published, the others under `failed` with the reason. -/
structure Report.Accounts (report : Report) (reloads : List PassReload) : Prop where
  loaded : report.loaded = reloads.filterMap PassReload.loaded?
  failed : report.failed = reloads.filterMap PassReload.failed?
  entries : report.loaded.length + report.failed.length = reloads.length
  listenerFailures : report.listenerFailures = []

theorem Report.Accounts.enter {report : Report} {reloads : List PassReload}
    (accounts : report.Accounts reloads) (it : PassReload) :
    (report.enter it.type it.ending).Accounts (reloads ++ [it]) := by
  obtain ⟨loaded, failed, entries, listenerFailures⟩ := accounts
  cases ended : it.ending with
  | done n =>
    refine ⟨?_, ?_, ?_, listenerFailures⟩
    · simp [Report.enter, addLoaded, loaded, PassReload.loaded?, ended]
    · simp [Report.enter, addLoaded, failed, PassReload.failed?, ended]
    · simp only [Report.enter, addLoaded, List.length_append, List.length_singleton]
      omega
  | failed e =>
    refine ⟨?_, ?_, ?_, listenerFailures⟩
    · simp [Report.enter, addFailed, loaded, PassReload.loaded?, ended]
    · simp [Report.enter, addFailed, failed, PassReload.failed?, ended]
    · simp only [Report.enter, addFailed, List.length_append, List.length_singleton]
      omega
  | faulted f =>
    refine ⟨?_, ?_, ?_, listenerFailures⟩
    · simp [Report.enter, addFailed, loaded, PassReload.loaded?, ended]
    · simp [Report.enter, addFailed, failed, PassReload.failed?, ended, Fault.reason]
    · simp only [Report.enter, addFailed, List.length_append, List.length_singleton]
      omega

/-- The answer of a pass. -/
def PassEnd.reply (report : Report) (failures : List ListenerFailure) : PassEnd → Reply
  | .registry => .passed report
  | .refresh _ => .passed { report with listenerFailures := failures }
  | .initialization _ _ => .initialized { report with listenerFailures := failures }

theorem RoundPurpose.reply_eq {report : Report} {ending : PassEnd} {purpose : RoundPurpose}
    (round : ending.round? report = some purpose) (failures : List ListenerFailure) :
    purpose.reply failures = ending.reply report failures := by
  cases ending <;> cases round <;> rfl

/-- How far a pass has come when some of its reloads have ended. -/
inductive Pass.Stage (pass : Pass) (reloads : List PassReload) : Progress → Prop
  | reloading {load : LoadWait} {type : RecordType} {rest : List PassItem} {report : Report} :
      load.purpose = .pass type { pass with todo := rest, report } →
      pass.todo.map PassItem.type =
        reloads.map PassReload.type ++ type :: rest.map PassItem.type →
      rest <:+ pass.todo → report.Accounts reloads → Stage pass reloads (.waiting (.load load))
  | telling {wait : ListenerWait} {report : Report} :
      pass.ending.round? report = some wait.purpose →
      pass.todo.map PassItem.type = reloads.map PassReload.type → report.Accounts reloads →
      Stage pass reloads (.waiting (.listener wait))
  | answered {report : Report} {failures : List ListenerFailure} :
      pass.todo.map PassItem.type = reloads.map PassReload.type → report.Accounts reloads →
      Stage pass reloads (.done (pass.ending.reply report failures))

/-- The types that were reloaded so far are the first ones of the pass. -/
theorem Pass.Stage.types_before {pass : Pass} {reloads : List PassReload} {progress : Progress}
    (stage : pass.Stage reloads progress) :
    reloads.map PassReload.type <+: pass.todo.map PassItem.type := by
  cases stage with
  | reloading _ all _ _ => exact ⟨_, all.symm⟩
  | telling _ all _ => exact ⟨[], by rw [all, List.append_nil]⟩
  | answered all _ => exact ⟨[], by rw [all, List.append_nil]⟩

/-- The registry of a pass has the types that the pass expects there. -/
def Pass.Ready (pass : Pass) (w : World) : Prop :=
  ∀ type, .installed type ∈ pass.todo → (w.registry pass.registry).contains type = true

theorem Pass.Ready.of_same {pass : Pass} {w v : World} (ready : pass.Ready w)
    (same : v.registries = w.registries) : pass.Ready v := by
  intro type member
  rw [World.registry, same]
  exact ready type member

/-- Bindings expect nothing there. -/
theorem Pass.ready_of_bound {pass : Pass} {bindings : List Binding}
    (todo : pass.todo = bindings.map .bound) (w : World) : pass.Ready w := by
  intro type member
  rw [todo] at member
  obtain ⟨_, _, other⟩ := List.mem_map.mp member
  cases other

/-- What is left of a pass when some of its reloads have ended. -/
inductive Pass.Left (pass : Pass) (reloads : List PassReload) : Job → Prop
  | reloads {rest : List PassItem} {report : Report} :
      pass.todo.map PassItem.type = reloads.map PassReload.type ++ rest.map PassItem.type →
      rest <:+ pass.todo → report.Accounts reloads →
      Left pass reloads (.pass { pass with todo := rest, report })
  | round {todo : List Listener} {failures : List ListenerFailure} {purpose : RoundPurpose}
      {report : Report} : pass.ending.round? report = some purpose →
      pass.todo.map PassItem.type = reloads.map PassReload.type → report.Accounts reloads →
      Left pass reloads (.round todo failures purpose)
  | answer {report : Report} {failures : List ListenerFailure} :
      pass.todo.map PassItem.type = reloads.map PassReload.type → report.Accounts reloads →
      Left pass reloads (.answer (pass.ending.reply report failures))

namespace Pass

variable {pass : Pass} {reloads : List PassReload} {w : World}

/-- A pass that finds what it expects passes over nothing. -/
theorem Ready.skips_nothing (ready : pass.Ready w) {skipped rest : List PassItem}
    (suffix : skipped ++ rest <:+ pass.todo) (lacks : w.Lacks pass.registry skipped) :
    skipped = [] := by
  cases skipped with
  | nil => rfl
  | cons item later =>
    obtain ⟨type, rfl, missing⟩ := lacks item List.mem_cons_self
    have known := ready type (suffix.mem List.mem_cons_self)
    rw [Registry.contains, missing] at known
    cases known

theorem left_afterReloads (w : World) {report : Report}
    (all : pass.todo.map PassItem.type = reloads.map PassReload.type)
    (accounts : report.Accounts reloads) :
    pass.Left reloads (w.afterReloads { pass with todo := [], report }) := by
  obtain ⟨registry, todo, _, ending⟩ := pass
  cases ending with
  | registry => exact @Left.answer _ _ _ [] all accounts
  | refresh c => exact .round rfl all accounts
  | initialization c types => exact .round rfl all accounts

/-- With each turn a pass comes to its next stage. -/
theorem Left.stage {job : Job} (left : pass.Left reloads job) {next : World × Progress}
    (turn : w.Turn job next) (ready : pass.Ready w) : pass.Stage reloads next.2 := by
  induction turn with
  | answer => cases left with | answer all accounts => exact .answered all accounts
  | call => cases left with | round round all accounts => exact .telling round all accounts
  | roundOver w failures purpose =>
    cases left with
    | round round all accounts =>
      rw [RoundPurpose.reply_eq round]
      exact .answered all accounts
  | reload whole lacks provides =>
    cases left with
    | reloads all suffix accounts =>
      obtain rfl := whole
      obtain rfl := ready.skips_nothing suffix lacks
      exact .reloading rfl all ((List.suffix_cons _ _).trans suffix) accounts
  | reloaded lacks _ ih =>
    cases left with
    | @reloads rest report all suffix accounts =>
      have nothing : rest = [] := ready.skips_nothing ((List.append_nil rest).symm ▸ suffix) lacks
      subst nothing
      refine ih (left_afterReloads _ (by simpa using all) accounts) (ready.of_same ?_)
      exact (World.keeps_noteReloads _ _).registries

end Pass

/-- A reload of a pass that was called in a given state. -/
structure PassReload.Of (it : PassReload) (e : Engine) (pass : Pass) : Prop where
  top : it.state.waits = .load it.load :: e.waits
  purpose : ∃ rest report, it.load.purpose = .pass it.type { pass with todo := rest, report }
  reach : ∃ past, Engine.Reach e it.state past

namespace Engine

/-- The reload that a move ends, if it is one of a pass above so many waits. -/
def passReload? (level : Nat) (made : Engine × Move) : Option PassReload :=
  match made.2, made.1.waits with
  | .loaded given, .load load :: below =>
    match load.purpose with
    | .pass type _ => if below.length = level then some ⟨made.1, type, load, given⟩ else none
    | .answer => none
  | _, _ => none

/-- The reloads that have ended of a pass above so many waits, the earliest first. -/
def passReloads (level : Nat) (past : List (Engine × Move)) : List PassReload :=
  past.reverse.filterMap (passReload? level)

variable {e f : Engine} {c : Call} {past : List (Engine × Move)} {move : Move} {pass : Pass}

theorem passReloads_cons_of_none {level : Nat} (nothing : passReload? level (f, move) = none) :
    passReloads level ((f, move) :: past) = passReloads level past := by
  rw [passReloads, filterMap_reverse_cons, nothing, Option.toList_none, List.append_nil]
  rfl

theorem passReloads_cons_of_some {level : Nat} {it : PassReload}
    (ended : passReload? level (f, move) = some it) :
    passReloads level ((f, move) :: past) = passReloads level past ++ [it] := by
  rw [passReloads, filterMap_reverse_cons, ended]
  rfl

theorem passReload?_within {above base : List Wait} {own : Wait}
    (waits : f.waits = above ++ own :: base)
    (notOwn : above = [] → ∀ next, ¬own.Goes f.world move next) :
    passReload? base.length (f, move) = none := by
  unfold passReload?
  split
  · rename_i given load below ended top
    split
    · refine if_neg fun here => ?_
      obtain ⟨nothing, rfl⟩ := top_eq top waits here
      obtain rfl : move = .loaded given := ended
      exact notOwn nothing _ (.loaded load given)
    · rfl
  · rfl

theorem passReload?_of_top {load : LoadWait} {base : List Wait} {type : RecordType} {rest : Pass}
    (top : f.waits = .load load :: base) (purpose : load.purpose = .pass type rest)
    (given : Outcome (List Record)) :
    passReload? base.length (f, .loaded given) = some ⟨f, type, load, given⟩ := by
  simp only [passReload?, top, purpose, if_true]

theorem mem_passReloads {level : Nat} {it : PassReload} (member : it ∈ passReloads level past) :
    (it.state, .loaded it.given) ∈ past ∧ (∃ below, it.state.waits = .load it.load :: below) ∧
      ∃ rest, it.load.purpose = .pass it.type rest := by
  obtain ⟨made, inPast, found⟩ := List.mem_filterMap.mp member
  have inPast := List.mem_reverse.mp inPast
  obtain ⟨f, move⟩ := made
  unfold passReload? at found
  split at found
  · rename_i given load below ended top
    split at found
    · rename_i purpose
      split at found
      · obtain rfl := Option.some.inj found
        obtain rfl : move = .loaded given := ended
        exact ⟨inPast, ⟨below, top⟩, _, purpose⟩
      · cases found
    · cases found
  · cases found

/-- Installed types stay installed until their turn comes. -/
theorem Course.ready (course : Course e c f past)
    (inRange : pass.registry < e.world.registries.length) (ready : pass.Ready e.world) :
    pass.Ready f.world := by
  intro type member
  exact (course.reach.registry_grows inRange).contains (ready type member)

/-- A call that begins a pass goes through the stages of this pass, whatever happens meanwhile. -/
theorem Course.stages (course : Course e c f past) {v : World} (fresh : pass.report = {})
    (inRange : pass.registry < e.world.registries.length) (ready : pass.Ready e.world)
    (registries : v.registries = e.world.registries)
    (begun : v.Turn (.pass pass) (e.world.begin c)) :
    ∃ progress, (pass.Stage (passReloads e.waits.length past) progress ∧
      ∀ it ∈ passReloads e.waits.length past, it.Of e pass) ∧
      Stands e.waits f (lastReply past) progress := by
  refine course.stands (P := fun past progress =>
    pass.Stage (passReloads e.waits.length past) progress ∧
      ∀ it ∈ passReloads e.waits.length past, it.Of e pass) ?_ ?_ ?_
  · rw [passReloads_cons_of_none rfl]
    have nothing : ({} : Report).Accounts [] := ⟨rfl, rfl, rfl, rfl⟩
    have left : pass.Left [] (.pass { pass with report := {} }) :=
      .reloads rfl (List.suffix_refl _) nothing
    rw [← fresh] at left
    exact ⟨left.stage begun (ready.of_same registries), List.forall_mem_nil _⟩
  · rintro f past own move next course ⟨stage, ofPass⟩ top goes
    obtain ⟨v, job, ends, turn⟩ := goes.ends
    have ready := (course.ready inRange ready).of_same (World.keeps_ends ends).registries
    cases ends with
    | @entered load type rest given purpose =>
      cases stage with
      | @reloading _ _ _ report own all suffix accounts =>
        obtain ⟨rfl, rfl⟩ := ReloadPurpose.pass.inj (purpose.symm.trans own)
        -- The reload that has just ended is the next one for the report to account for.
        rw [passReloads_cons_of_some (passReload?_of_top top purpose given)]
        have entered := accounts.enter ⟨f, type, load, given⟩
        refine ⟨Pass.Left.stage (.reloads ?_ suffix entered) turn ready, ?_⟩
        · rw [all]
          simp
        · intro it member
          rcases List.mem_append.mp member with old | new
          · exact ofPass it old
          · obtain rfl := List.mem_singleton.mp new
            exact ⟨top, ⟨_, _, purpose⟩, ⟨past, course.reach⟩⟩
    | answered given purpose =>
      cases stage with
      | reloading own => cases purpose.symm.trans own
    | heard wait outcome =>
      rw [passReloads_cons_of_none rfl]
      cases stage with
      | telling round all accounts =>
        exact ⟨Pass.Left.stage (.round round all accounts) turn ready, ofPass⟩
    | found wait bindings => cases stage
  -- Nested calls stand higher up, so none of their reloads counts as one of the pass.
  · rintro f past own above move _ holds waits notOwn
    rw [passReloads_cons_of_none (passReload?_within waits notOwn)]
    exact holds

end Engine

end LiveTables
