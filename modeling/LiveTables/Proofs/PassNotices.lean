import LiveTables.Proofs.Failures
import LiveTables.Proofs.OtherCalls
import LiveTables.Proofs.Rounds

namespace LiveTables

theorem filterMap_toList {α β : Type} (f : α → Option β) (found : Option α) :
    found.toList.filterMap f = (found.bind f).toList := by
  cases found with
  | none => rfl
  | some x => cases given : f x <;> simp [given]

namespace Engine

/-- The notice of an error that a move gives, unless it is another call's while a call above so many
waits is under way. -/
def ownError? (level : Nat) (made : Engine × Move) : Option Notice :=
  if Nested level made then none else error? made

/-- The errors that a call above so many waits has noted itself, the earliest first. -/
def ownErrors (level : Nat) (past : List (Engine × Move)) : List Notice :=
  past.reverse.filterMap (ownError? level)

def ownFound? (level : Nat) (made : Engine × Move) : Option (CoordinatorId × List Binding) :=
  if Nested level made then none else found? made

/-- The bindings that an initial load above so many waits has found, with its coordinator. -/
def ownFinds (level : Nat) (past : List (Engine × Move)) : List (CoordinatorId × List Binding) :=
  past.reverse.filterMap (ownFound? level)

variable {e f : Engine} {k : Call} {past : List (Engine × Move)} {move : Move}
  {made : Engine × Move} {level : Nat} {base above : List Wait} {own : Wait}

theorem ownErrors_cons (level : Nat) (made : Engine × Move) (past : List (Engine × Move)) :
    ownErrors level (made :: past) = ownErrors level past ++ (ownError? level made).toList :=
  filterMap_reverse_cons _ _ _

theorem ownFinds_cons (level : Nat) (made : Engine × Move) (past : List (Engine × Move)) :
    ownFinds level (made :: past) = ownFinds level past ++ (ownFound? level made).toList :=
  filterMap_reverse_cons _ _ _

theorem ownErrors_cons_of_none (nothing : ownError? level made = none) :
    ownErrors level (made :: past) = ownErrors level past := by
  rw [ownErrors_cons, nothing]
  exact List.append_nil _

theorem ownFinds_cons_of_none (nothing : ownFound? level made = none) :
    ownFinds level (made :: past) = ownFinds level past := by
  rw [ownFinds_cons, nothing]
  exact List.append_nil _

theorem ownError?_within (waits : f.waits = above ++ own :: base)
    (notOwn : above = [] → ∀ next, ¬own.Goes f.world move next) :
    ownError? base.length (f, move) = none := by
  rcases nested_or_idle waits notOwn with nested | ⟨idle, _⟩
  · exact if_pos nested
  · rw [ownError?, error?, idle.verdict?]
    exact ite_self _

theorem ownFound?_within (waits : f.waits = above ++ own :: base)
    (notOwn : above = [] → ∀ next, ¬own.Goes f.world move next) :
    ownFound? base.length (f, move) = none := by
  rcases nested_or_idle waits notOwn with nested | ⟨idle, _⟩
  · exact if_pos nested
  · rw [ownFound?, idle.found?]
    exact ite_self _

theorem ownError?_goes {next : World × Progress} (top : f.waits = own :: base)
    (goes : own.Goes f.world move next) : ownError? base.length (f, move) = error? (f, move) :=
  if_neg (not_nested_goes top goes)

theorem ownFound?_goes {next : World × Progress} (top : f.waits = own :: base)
    (goes : own.Goes f.world move next) : ownFound? base.length (f, move) = found? (f, move) :=
  if_neg (not_nested_goes top goes)

end Engine

/-- What is noted of a reload of a pass, if it gave no result. -/
def PassReload.error? (it : PassReload) : Option Notice :=
  match it.ending with
  | .done _ => none
  | .failed e =>
    some (.reloadRefused it.before.recordType.name it.before.location.display e.message)
  | .faulted f => some (.reloadBroken it.type.name f.reason)

/-- What is noted of a listener, if it did not take the news. -/
def RoundCall.error? (it : RoundCall) : Option Notice :=
  it.failure?.map fun failure => .listenerFailed failure.name failure.reason

namespace Engine

theorem error?_loaded {load : LoadWait} {type : RecordType} {rest : Pass}
    (top : f.waits = .load load :: base) (purpose : load.purpose = .pass type rest)
    (given : Outcome (List Record)) :
    error? (f, .loaded given) = PassReload.error? ⟨f, type, load, given⟩ := by
  have ending : PassReload.ending ⟨f, type, load, given⟩ =
      ((f.world.store load.store).conclude load.plan given).2 := rfl
  simp only [error?, verdict?, top, LoadWait.verdict?, purpose, PassReload.error?, ending]
  cases ((f.world.store load.store).conclude load.plan given).2 <;> rfl

theorem error?_heard {wait : ListenerWait} (top : f.waits = .listener wait :: base)
    (given : Outcome Unit) :
    error? (f, .heard given) = RoundCall.error? ⟨f, wait.listener, given⟩ := by
  simp only [error?, verdict?, top, ListenerWait.verdict?]
  cases given <;> rfl

theorem error?_discovered {wait : DiscoveryWait} (top : f.waits = .discovery wait :: base)
    (bindings : List Binding) : error? (f, .found bindings) =
      f.world.findVerdict? (wait.coordinator, bindings) := by
  have found : found? (f, .found bindings) = some (wait.coordinator, bindings) := by
    simp only [found?, top]
  rw [error?, verdict?, found, error?_found, Option.bind_some]

/-- The errors of a pass, the earliest first: that it has found nothing to load, then those of its
reloads, then those of its listeners. -/
def passErrors (w : World) (level : Nat) (past : List (Engine × Move)) : List Notice :=
  (ownFinds level past).filterMap w.findVerdict? ++
    (passReloads level past).filterMap PassReload.error? ++
    (roundCalls level past).filterMap RoundCall.error?

theorem passErrors_of_unheard (w : World) (unheard : roundCalls level past = []) :
    passErrors w level past = (ownFinds level past).filterMap w.findVerdict? ++
      (passReloads level past).filterMap PassReload.error? := by
  rw [passErrors, unheard, List.filterMap_nil, List.append_nil]

/-- That nothing was found is the first error of an initial load. -/
theorem passErrors_discovered (w : World) {found : CoordinatorId × List Binding}
    (finds : ownFinds level past = [found]) (reloads : passReloads level past = [])
    (unheard : roundCalls level past = []) :
    passErrors w level past = (w.findVerdict? found).toList := by
  rw [passErrors_of_unheard w unheard, finds, reloads, List.filterMap_nil, List.append_nil]
  exact filterMap_toList w.findVerdict? (some found)

/-- The error of a reload comes after those of the reloads before it. -/
theorem passErrors_loaded (w : World) {load : LoadWait} {type : RecordType} {rest : Pass}
    (top : f.waits = .load load :: base) (purpose : load.purpose = .pass type rest)
    {given : Outcome (List Record)} (nothing : ownFound? base.length (f, .loaded given) = none)
    (unheard : roundCalls base.length past = []) :
    passErrors w base.length ((f, .loaded given) :: past) =
      passErrors w base.length past ++ (PassReload.error? ⟨f, type, load, given⟩).toList := by
  have stillUnheard : roundCalls base.length ((f, .loaded given) :: past) = [] :=
    (roundCalls_cons_of_none rfl).trans unheard
  rw [passErrors_of_unheard w unheard, passErrors_of_unheard w stillUnheard,
    ownFinds_cons_of_none nothing, passReloads_cons_of_some (passReload?_of_top top purpose given),
    List.filterMap_append, List.append_assoc]
  cases noted : PassReload.error? ⟨f, type, load, given⟩ <;> simp [noted]

/-- The error of a listener comes after all others. -/
theorem passErrors_heard (w : World) {wait : ListenerWait} (top : f.waits = .listener wait :: base)
    {given : Outcome Unit} (nothing : ownFound? base.length (f, .heard given) = none) :
    passErrors w base.length ((f, .heard given) :: past) =
      passErrors w base.length past ++ (RoundCall.error? ⟨f, wait.listener, given⟩).toList := by
  rw [passErrors, passErrors, ownFinds_cons_of_none nothing, passReloads_cons_of_none rfl,
    roundCalls_cons_of_some (roundCall?_of_top top given), List.filterMap_append,
    List.append_assoc _ _ (Option.toList _)]
  cases noted : RoundCall.error? ⟨f, wait.listener, given⟩ <;> simp [noted]

end Engine

/-- A call begins a pass: over a registry, or the pass of a coordinator. -/
def Call.BeginsPass (w : World) (k : Call) : Prop := (∃ r, k = .reloadAll r) ∨ (k.pass? w).isSome

/-- How often a call finds bindings. -/
def Call.finds : Call → Nat
  | .initialLoad _ => 1
  | _ => 0

namespace Engine

/-- How far a pass has come, and that it has noted the errors of what it has done until then. -/
inductive Notes (e : Engine) (k : Call) (past : List (Engine × Move)) : Progress → Prop
  | discovering {wait : DiscoveryWait} : k = .initialLoad wait.coordinator →
      ownFinds e.waits.length past = [] → ownErrors e.waits.length past = [] →
      passReloads e.waits.length past = [] → roundCalls e.waits.length past = [] →
      Notes e k past (.waiting (.discovery wait))
  | reloading {load : LoadWait} {type : RecordType} {rest : Pass} :
      load.purpose = .pass type rest → (ownFinds e.waits.length past).length = k.finds →
      ownErrors e.waits.length past = passErrors e.world e.waits.length past →
      roundCalls e.waits.length past = [] → Notes e k past (.waiting (.load load))
  | telling {progress : Progress} : progress.PastReloads →
      (ownFinds e.waits.length past).length = k.finds →
      ownErrors e.waits.length past = passErrors e.world e.waits.length past →
      Notes e k past progress

theorem Notes.errors {progress : Progress} (notes : Notes e k past progress) :
    ownErrors e.waits.length past = passErrors e.world e.waits.length past := by
  cases notes with
  | discovering _ finds errors reloads calls =>
    rw [passErrors, finds, errors, reloads, calls]
    rfl
  | reloading _ _ errors _ => exact errors
  | telling _ _ errors => exact errors

/-- Nothing is noted by a turn, whether it begins a reload or the reloads are over. -/
theorem notes_turn {job : Job} {w : World} {next : World × Progress} (turn : w.Turn job next)
    (once : (ownFinds e.waits.length past).length = k.finds)
    (errors : ownErrors e.waits.length past = passErrors e.world e.waits.length past)
    (unheard : ∀ pass, job = .pass pass → roundCalls e.waits.length past = []) :
    Notes e k past next.2 := by
  rcases turn.progress with ⟨load, type, rest, run, purpose, pass, same⟩ | finished
  · rw [run]
    exact .reloading purpose once errors (unheard pass same)
  · exact .telling finished once errors

theorem ownFinds_call (e : Engine) (k : Call) :
    ownFinds e.waits.length [(e, .call k)] = (k.found? e.world).toList := by
  rw [ownFinds_cons, ownFound?, if_neg (not_nested_call e k)]
  rfl

theorem ownErrors_call (e : Engine) (k : Call) : ownErrors e.waits.length [(e, .call k)] =
    passErrors e.world e.waits.length [(e, .call k)] := by
  rw [passErrors_of_unheard _ rfl, ownErrors_cons, ownError?, if_neg (not_nested_call e k),
    ownFinds_call, filterMap_toList, error?, verdict?_call, error?_found]
  exact (List.append_nil _).symm

theorem notes_begin (begins : k.BeginsPass e.world) :
    Notes e k [(e, .call k)] (e.world.begin k).2 := by
  have errors := ownErrors_call e k
  have finds := ownFinds_call e k
  have turned {w : World} {pass : Pass} {next : World × Progress} (turn : w.Turn (.pass pass) next)
      (once : (k.found? e.world).toList.length = k.finds) : Notes e k [(e, .call k)] next.2 :=
    notes_turn turn (finds ▸ once) errors fun _ _ => rfl
  cases k with
  | reloadAll r => exact turned (World.turn_nextReload _ _) rfl
  | refresh c => exact turned (World.turn_nextReload _ _) rfl
  | initialLoad c =>
    rcases e.world.pass?_initialLoad c with skips | runs
    · rcases begins with ⟨_, ⟨⟩⟩ | runs
      rw [skips] at runs
      cases runs
    · rw [World.begin, World.initialLoad_runs runs]
      cases given : (e.world.coordinator c).discovery with
      | catalog catalog =>
        refine turned (World.turn_found _ c _) ?_
        rw [Call.found?, if_pos runs, given]
        rfl
      | outside number =>
        have none : (Call.initialLoad c).found? e.world = none := by
          rw [Call.found?, if_pos runs, given]
        rw [none] at finds
        rw [passErrors, finds] at errors
        exact .discovering rfl finds errors rfl rfl
  | _ =>
    rcases begins with ⟨_, ⟨⟩⟩ | runs
    cases runs

/-- What has ended is noted before the pass goes on: that nothing was found, or a reload, or a
listener. -/
theorem Notes.goes (notes : Notes e k past (.waiting own)) (top : f.waits = own :: e.waits)
    (config : ∀ wait, own = .discovery wait → (f.world.coordinator wait.coordinator).config =
      (e.world.coordinator wait.coordinator).config) {next : World × Progress}
    (goes : own.Goes f.world move next) : Notes e k ((f, move) :: past) next.2 := by
  have error := ownError?_goes top goes
  have find := ownFound?_goes top goes
  obtain ⟨v, job, ends, turn⟩ := goes.ends
  cases ends with
  | answered given purpose =>
    cases notes with
    | telling finished _ _ => cases finished
    | reloading ofPass => cases purpose.symm.trans ofPass
  | @entered load type rest given purpose =>
    cases notes with
    | telling finished _ _ => cases finished
    | reloading _ once errors unheard =>
      have nothing : ownFound? e.waits.length (f, .loaded given) = none := find
      refine notes_turn turn ?_ ?_ fun _ _ => (roundCalls_cons_of_none rfl).trans unheard
      · rw [ownFinds_cons_of_none nothing, once]
      · rw [ownErrors_cons, error, error?_loaded top purpose, errors,
          passErrors_loaded _ top purpose nothing unheard]
  | heard wait given =>
    cases notes with
    | telling finished once errors =>
      have nothing : ownFound? e.waits.length (f, .heard given) = none := find
      refine notes_turn turn ?_ ?_ nofun
      · rw [ownFinds_cons_of_none nothing, once]
      · rw [ownErrors_cons, error, error?_heard top, errors, passErrors_heard _ top nothing]
  | found wait bindings =>
    cases notes with
    | telling finished _ _ => cases finished
    | discovering called nothing errors reloads calls =>
      have reloads : passReloads e.waits.length ((f, .found bindings) :: past) = [] :=
        (passReloads_cons_of_none rfl).trans reloads
      have unheard : roundCalls e.waits.length ((f, .found bindings) :: past) = [] :=
        (roundCalls_cons_of_none rfl).trans calls
      have finds : ownFinds e.waits.length ((f, .found bindings) :: past) =
          [(wait.coordinator, bindings)] := by
        rw [ownFinds_cons, find, nothing, found?, top]
        rfl
      -- The error names the configuration, which is that at the beginning of the call.
      have same : f.world.findVerdict? (wait.coordinator, bindings) =
          e.world.findVerdict? (wait.coordinator, bindings) := by
        simp only [World.findVerdict?, config wait rfl]
      refine notes_turn turn ?_ ?_ fun _ _ => unheard
      · rw [finds, called]
        rfl
      · rw [passErrors_discovered _ finds reloads unheard, ownErrors_cons, error,
          error?_discovered top, same, errors, List.nil_append]

/-- What other calls note while a pass waits is none of its own. -/
theorem Notes.within (notes : Notes e k past (.waiting own))
    (waits : f.waits = above ++ own :: e.waits)
    (notOwn : above = [] → ∀ next, ¬own.Goes f.world move next) :
    Notes e k ((f, move) :: past) (.waiting own) := by
  have finds : ownFinds e.waits.length ((f, move) :: past) = ownFinds e.waits.length past :=
    ownFinds_cons_of_none (ownFound?_within waits notOwn)
  have errors : ownErrors e.waits.length ((f, move) :: past) = ownErrors e.waits.length past :=
    ownErrors_cons_of_none (ownError?_within waits notOwn)
  have reloads : passReloads e.waits.length ((f, move) :: past) =
      passReloads e.waits.length past :=
    passReloads_cons_of_none (passReload?_within waits notOwn)
  have calls : roundCalls e.waits.length ((f, move) :: past) = roundCalls e.waits.length past :=
    roundCalls_cons_of_none (roundCall?_within waits notOwn)
  have same : passErrors e.world e.waits.length past =
      passErrors e.world e.waits.length ((f, move) :: past) := by
    rw [passErrors, passErrors, finds, reloads, calls]
  cases notes with
  | discovering called nothing none first unheard =>
    exact .discovering called (finds.trans nothing) (errors.trans none) (reloads.trans first)
      (calls.trans unheard)
  | reloading purpose once noted unheard =>
    exact .reloading purpose (finds ▸ once) (errors.trans (noted.trans same)) (calls.trans unheard)
  | telling finished once noted =>
    exact .telling finished (finds ▸ once) (errors.trans (noted.trans same))

theorem Course.notes (course : Course e k f past) (begins : k.BeginsPass e.world) :
    ∃ progress, Notes e k past progress ∧ Stands e.waits f (lastReply past) progress := by
  refine course.stands (P := Notes e k) (notes_begin begins) ?_
    fun _ notes waits notOwn => notes.within waits notOwn
  rintro f past own move next course notes top goes
  refine notes.goes top ?_ goes
  rintro wait rfl
  refine course.reach.config_eq ?_
  cases notes with
  | telling finished _ _ => cases finished
  | discovering called _ _ _ _ =>
    have known := course.known
    rw [called] at known
    exact known

end Engine

end LiveTables
