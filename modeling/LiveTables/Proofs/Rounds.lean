import LiveTables.Proofs.Gathering
import LiveTables.Proofs.PassStages

namespace LiveTables

/-- A call of a listener in a round, in the state in which the listener ended. -/
structure RoundCall where
  state : Engine
  listener : Listener
  given : Outcome Unit

/-- What is to be reported of a listener, if it did not take the news. -/
def RoundCall.failure? (it : RoundCall) : Option ListenerFailure :=
  match it.given with
  | .done _ => none
  | .failed e => some ⟨it.listener.name, e.message⟩
  | .faulted f => some ⟨it.listener.name, "panicked: " ++ f.message⟩

/-- The report in an answer. -/
def Reply.report? : Reply → Option Report
  | .passed report | .initialized report => some report
  | _ => none

namespace World

variable {w v : World} {c : CoordinatorId}

/-- Ending a cycle lets nobody into a hub. -/
theorem Cycles.listeners {ended : Option CoordinatorId} (cycles : w.Cycles v ended)
    (inRange : c < w.coordinators.length) : v.listeners c = w.listeners c := by
  rw [World.listeners, World.listeners, cycles.coordinator inRange, cycles.hub]

/-- A pass begins with discovery or with its first turn. -/
theorem begin_pass {k : Call} (begins : k.pass? w = some c) :
    (∃ wait : DiscoveryWait, wait.coordinator = c ∧
      (w.begin k).2 = .waiting (.discovery wait)) ∨
    ∃ (v : World) (pass : Pass), v.coordinators.length = w.coordinators.length ∧
      pass.ending.coordinator? = some c ∧ pass.report = {} ∧ v.Turn (.pass pass) (w.begin k) := by
  have collected (v : World) := (v.keeps_collectPending c).length_coordinators
  cases k with
  | initialLoad d =>
    rcases w.pass?_initialLoad d with skips | runs
    · rw [skips] at begins
      cases begins
    · obtain rfl := Option.some.inj (runs.symm.trans begins)
      rw [begin, initialLoad_runs runs]
      split
      · refine Or.inr ⟨_, _, ?_, rfl, rfl, turn_found _ d _⟩
        rw [(keeps_noteFound _ d _).length_coordinators, collected, latch, setCoordinator,
          List.length_set]
      · exact Or.inl ⟨_, rfl, rfl⟩
  | refresh d =>
    cases begins
    exact Or.inr ⟨_, _, collected w, rfl, rfl, turn_nextReload _ _⟩
  | _ => cases begins

end World

namespace Engine

/-- The call of a listener that a move ends, if it is one of a round above so many waits. -/
def roundCall? (level : Nat) (made : Engine × Move) : Option RoundCall :=
  match made.2, made.1.waits with
  | .heard given, .listener wait :: below =>
    if below.length = level then some ⟨made.1, wait.listener, given⟩ else none
  | _, _ => none

/-- The calls of listeners that have ended of a round above so many waits, the earliest first. -/
def roundCalls (level : Nat) (past : List (Engine × Move)) : List RoundCall :=
  past.reverse.filterMap (roundCall? level)

/-- The call above the waits of a base waits for a listener. -/
def Hears (base : List Wait) (e : Engine) : Prop :=
  ∃ wait : ListenerWait, .listener wait :: base <:+ e.waits

/-- The call above the waits of a base has called no listener in a run. -/
structure Unheard (base : List Wait) (past : List (Engine × Move)) : Prop where
  calls : roundCalls base.length past = []
  waits : ∀ made ∈ past, ¬Hears base made.1

/-- The round of the pass above the waits of a base begins with a move: the last reload of the pass
has ended, if there was any, and nobody was called before. -/
structure RoundBegins (base : List Wait) (made : Engine × Move)
    (earlier : List (Engine × Move)) : Prop extends Unheard base (made :: earlier) where
  reloads : (passReload? base.length made).isSome ∨ passReloads base.length (made :: earlier) = []

/-- In a run, a round has begun. Since this moment its pass has waited for listeners only, and no
reload of it has ended. -/
def RoundBegan (base : List Wait) (moment : Engine) (past : List (Engine × Move)) : Prop :=
  ∃ later made earlier, past = later ++ made :: earlier ∧ RoundBegins base made earlier ∧
    moment = (made.1.step made.2).1 ∧ (∀ other ∈ later, Hears base other.1) ∧
    passReloads base.length later = []

variable {e f moment : Engine} {k : Call} {past : List (Engine × Move)} {move : Move}
  {made : Engine × Move} {base above : List Wait} {own : Wait} {c : CoordinatorId}

/-- Above a base there is one wait only that lies next to it. -/
theorem own_of_suffix {other : Wait} (waits : f.waits = above ++ own :: base)
    (suffix : other :: base <:+ f.waits) : other = own := by
  obtain ⟨inner, whole⟩ := suffix
  obtain ⟨_, same⟩ := List.append_inj' (whole.trans waits) rfl
  exact (List.cons.inj same).1

theorem not_hears (waits : f.waits = above ++ own :: base) (other : ∀ l, own ≠ .listener l) :
    ¬Hears base f := by
  rintro ⟨wait, suffix⟩
  exact other wait (own_of_suffix waits suffix).symm

theorem roundCalls_cons_of_none {level : Nat} (nothing : roundCall? level made = none) :
    roundCalls level (made :: past) = roundCalls level past := by
  rw [roundCalls, filterMap_reverse_cons, nothing, Option.toList_none, List.append_nil]
  rfl

theorem roundCalls_cons_of_some {level : Nat} {it : RoundCall}
    (ended : roundCall? level made = some it) :
    roundCalls level (made :: past) = roundCalls level past ++ [it] := by
  rw [roundCalls, filterMap_reverse_cons, ended]
  rfl

theorem roundCall?_of_top {wait : ListenerWait} (top : f.waits = .listener wait :: base)
    (given : Outcome Unit) :
    roundCall? base.length (f, .heard given) = some ⟨f, wait.listener, given⟩ := by
  simp only [roundCall?, top, if_true]

theorem roundCall?_within (waits : f.waits = above ++ own :: base)
    (notOwn : above = [] → ∀ next, ¬own.Goes f.world move next) :
    roundCall? base.length (f, move) = none := by
  unfold roundCall?
  split
  · rename_i given wait below ended top
    refine if_neg fun here => ?_
    obtain ⟨nothing, rfl⟩ := top_eq top waits here
    obtain rfl : move = .heard given := ended
    exact notOwn nothing _ (.heard wait given)
  · rfl

theorem Unheard.cons (unheard : Unheard base past)
    (nothing : roundCall? base.length (f, move) = none)
    (waits : f.waits = above ++ own :: base) (other : ∀ l, own ≠ .listener l) :
    Unheard base ((f, move) :: past) where
  calls := (roundCalls_cons_of_none nothing).trans unheard.calls
  waits := List.forall_mem_cons.mpr ⟨not_hears waits other, unheard.waits⟩

theorem unheard_call (e : Engine) (k : Call) : Unheard e.waits [(e, .call k)] where
  calls := rfl
  waits := by
    rintro made member ⟨wait, suffix⟩
    obtain rfl := List.mem_singleton.mp member
    have longer := suffix.length_le
    exact Nat.not_succ_le_self _ longer

theorem RoundBegins.began (begins : RoundBegins base made past) :
    RoundBegan base (made.1.step made.2).1 (made :: past) :=
  ⟨[], made, past, rfl, begins, rfl, List.forall_mem_nil _, rfl⟩

theorem RoundBegan.cons (began : RoundBegan base moment past) (hears : Hears base f)
    (nothing : passReload? base.length (f, move) = none) :
    RoundBegan base moment ((f, move) :: past) := by
  obtain ⟨later, first, earlier, rfl, begins, same, hearing, reloads⟩ := began
  exact ⟨(f, move) :: later, first, earlier, rfl, begins, same,
    List.forall_mem_cons.mpr ⟨hears, hearing⟩, (passReloads_cons_of_none nothing).trans reloads⟩

/-- How far the pass of a coordinator has come that was called above the waits of a base. -/
inductive Tells (c : CoordinatorId) (base : List Wait) (past : List (Engine × Move)) :
    Progress → Prop
  | discovering {wait : DiscoveryWait} : wait.coordinator = c → Unheard base past →
      passReloads base.length past = [] → Tells c base past (.waiting (.discovery wait))
  | reloading {load : LoadWait} {type : RecordType} {rest : Pass} :
      load.purpose = .pass type rest → rest.ending.coordinator? = some c →
      Unheard base past → rest.report.Accounts (passReloads base.length past) →
      Tells c base past (.waiting (.load load))
  | telling {wait : ListenerWait} {report : Report} {moment : Engine} :
      wait.purpose.pass? = some (c, report) → RoundBegan base moment past →
      report.Accounts (passReloads base.length past) →
      moment.world.listeners c =
        (roundCalls base.length past).map RoundCall.listener ++ wait.listener :: wait.todo →
      wait.failures = (roundCalls base.length past).filterMap RoundCall.failure? →
      Tells c base past (.waiting (.listener wait))
  | told {reply : Reply} {report : Report} {moment : Engine} :
      reply.report? = some { report with listenerFailures :=
        (roundCalls base.length past).filterMap RoundCall.failure? } →
      RoundBegan base moment past → report.Accounts (passReloads base.length past) →
      moment.world.listeners c = (roundCalls base.length past).map RoundCall.listener →
      Tells c base past (.done reply)

/-- What a pass has left to do after the moves of a run, as far as its round is concerned. -/
inductive Left (c : CoordinatorId) (base : List Wait) (made : Engine × Move)
    (earlier : List (Engine × Move)) : Job → Prop
  | reloads {pass : Pass} : pass.ending.coordinator? = some c → RoundBegins base made earlier →
      pass.report.Accounts (passReloads base.length (made :: earlier)) →
      Left c base made earlier (.pass pass)
  | round {todo : List Listener} {purpose : RoundPurpose} {report : Report} {moment : Engine} :
      purpose.pass? = some (c, report) → RoundBegan base moment (made :: earlier) →
      report.Accounts (passReloads base.length (made :: earlier)) →
      moment.world.listeners c =
        (roundCalls base.length (made :: earlier)).map RoundCall.listener ++ todo →
      Left c base made earlier (.round todo
        ((roundCalls base.length (made :: earlier)).filterMap RoundCall.failure?) purpose)

theorem report?_reply {purpose : RoundPurpose} {report : Report}
    (ofPass : purpose.pass? = some (c, report)) (failures : List ListenerFailure) :
    (purpose.reply failures).report? = some { report with listenerFailures := failures } := by
  cases purpose <;> cases ofPass <;> rfl

/-- The round that follows the reloads of a pass is for those who are in the hub then. -/
theorem round_afterReloads (w : World) {pass : Pass} (ending : pass.ending.coordinator? = some c) :
    ∃ purpose, purpose.pass? = some (c, pass.report) ∧
      w.afterReloads pass = .round (w.listeners c) [] purpose := by
  unfold World.afterReloads
  split
  · rename_i none
    rw [none] at ending
    cases ending
  · rename_i d refresh
    rw [refresh] at ending
    cases ending
    exact ⟨_, rfl, rfl⟩
  · rename_i d types initialization
    rw [initialization] at ending
    cases ending
    exact ⟨_, rfl, rfl⟩

/-- With each turn a pass comes to its next stage. The round begins with the turn that finds no
reload left. -/
theorem Left.tells {job : Job} (left : Left c base made past job) {w : World}
    {next : World × Progress} (turn : w.Turn job next) (inRange : c < w.coordinators.length)
    (after : (made.1.step made.2).1.world = next.1) : Tells c base (made :: past) next.2 := by
  induction turn with
  | answer => cases left
  | call =>
    cases left with
    | round ofPass began accounts listeners => exact .telling ofPass began accounts listeners rfl
  | roundOver w failures purpose =>
    cases left with
    | round ofPass began accounts listeners =>
      rw [List.append_nil] at listeners
      exact .told (report?_reply ofPass _) began accounts listeners
  | reload whole lacks provides =>
    cases left with
    | reloads ending begins accounts => exact .reloading rfl ending begins.toUnheard accounts
  | @reloaded w pass next lacks turn ih =>
    cases left with
    | reloads ending begins accounts =>
      obtain ⟨purpose, ofPass, here⟩ := round_afterReloads w ending
      have whole := World.Turn.reloaded lacks turn
      have unmoved := (World.works_turn whole).cycles.listeners inRange
      have same := (w.keeps_noteReloads pass).length_coordinators
      refine ih ?_ (same.symm ▸ inRange) after
      have nobody : roundCalls base.length (made :: past) = [] := begins.calls
      have everyone : (made.1.step made.2).1.world.listeners c =
          (roundCalls base.length (made :: past)).map RoundCall.listener ++ w.listeners c := by
        rw [nobody, after, unmoved]
        rfl
      have round := Left.round ofPass begins.began accounts everyone
      rw [nobody] at round
      rw [here]
      exact round

theorem accounts_nil : ({} : Report).Accounts [] := ⟨rfl, rfl, rfl, rfl⟩

/-- A pass that begins has called nobody. -/
theorem tells_begin (known : k.Known e.world) (begins : k.pass? e.world = some c) :
    Tells c e.waits [(e, .call k)] (e.world.begin k).2 := by
  have unheard := unheard_call e k
  rcases World.begin_pass begins with ⟨wait, same, run⟩ | ⟨v, pass, same, ending, report, turn⟩
  · rw [run]
    exact .discovering same unheard rfl
  · have left : Left c e.waits (e, .call k) [] (.pass pass) :=
      .reloads ending ⟨unheard, Or.inr rfl⟩ (report.symm ▸ accounts_nil)
    exact left.tells turn (same ▸ pass?_lt known begins) (advance_world _ _)

/-- What a pass has left to do when the outside work that it waits for has ended. -/
theorem Tells.left (stage : Tells c base past (.waiting own)) (top : f.waits = own :: base)
    {v : World} {job : Job} (ends : own.Ends f.world move v job) :
    Left c base (f, move) past job := by
  cases ends with
  | answered given purpose =>
    cases stage with
    | reloading ofPass => cases purpose.symm.trans ofPass
  | @entered load type rest given purpose =>
    cases stage with
    | reloading ofPass ending unheard accounts =>
      obtain ⟨rfl, rfl⟩ := ReloadPurpose.pass.inj (purpose.symm.trans ofPass)
      have ended := passReload?_of_top top purpose given
      have place : f.waits = [] ++ .load load :: base := top
      have unheard : Unheard base ((f, .loaded given) :: past) := unheard.cons rfl place nofun
      refine .reloads ending ⟨unheard, Or.inl (ended ▸ rfl)⟩ ?_
      rw [passReloads_cons_of_some ended]
      exact accounts.enter ⟨f, type, load, given⟩
  | heard wait given =>
    cases stage with
    | telling ofPass began accounts listeners failed =>
      -- The listener that has ended is the next one of the round.
      have calls : roundCalls base.length ((f, .heard given) :: past) =
          roundCalls base.length past ++ [⟨f, wait.listener, given⟩] :=
        roundCalls_cons_of_some (roundCall?_of_top top given)
      have failures : wait.failures ++ (wait.failure? given).toList =
          (roundCalls base.length ((f, .heard given) :: past)).filterMap RoundCall.failure? := by
        rw [calls, failed, List.filterMap_append]
        cases given <;> rfl
      rw [failures]
      refine .round ofPass (began.cons ⟨wait, [], top.symm⟩ rfl) ?_ ?_
      · rw [passReloads_cons_of_none rfl]
        exact accounts
      · rw [calls, listeners]
        simp
  | found wait bindings =>
    cases stage with
    | discovering same unheard none =>
      have reloads : passReloads base.length ((f, .found bindings) :: past) = [] :=
        (passReloads_cons_of_none rfl).trans none
      have place : f.waits = [] ++ .discovery wait :: base := top
      refine .reloads (congrArg some same) ⟨unheard.cons rfl place nofun, Or.inr reloads⟩ ?_
      rw [reloads]
      exact accounts_nil

/-- Nested calls stand higher up, so what they hear or reload is not the pass's own. -/
theorem Tells.within (stage : Tells c base past (.waiting own))
    (waits : f.waits = above ++ own :: base)
    (notOwn : above = [] → ∀ next, ¬own.Goes f.world move next) :
    Tells c base ((f, move) :: past) (.waiting own) := by
  have none := passReload?_within waits notOwn
  have heard := roundCall?_within waits notOwn
  have reloads : passReloads base.length ((f, move) :: past) = passReloads base.length past :=
    passReloads_cons_of_none none
  have calls : roundCalls base.length ((f, move) :: past) = roundCalls base.length past :=
    roundCalls_cons_of_none heard
  cases stage with
  | discovering same unheard nothing =>
    exact .discovering same (unheard.cons heard waits nofun) (reloads.trans nothing)
  | reloading purpose ending unheard accounts =>
    exact .reloading purpose ending (unheard.cons heard waits nofun) (reloads ▸ accounts)
  | @telling wait report moment ofPass began accounts listeners failed =>
    exact .telling ofPass (began.cons ⟨wait, above, waits.symm⟩ none) (reloads ▸ accounts)
      (calls ▸ listeners) (calls ▸ failed)

/-- A pass of a coordinator goes through the stages of its round, whatever happens meanwhile. -/
theorem Course.tells (course : Course e k f past) (begins : k.pass? e.world = some c) :
    ∃ progress, Tells c e.waits past progress ∧ Stands e.waits f (lastReply past) progress := by
  refine course.stands (P := fun past progress => Tells c e.waits past progress)
    (tells_begin course.known begins) ?_ fun _ stage waits notOwn => stage.within waits notOwn
  rintro f past own move next course stage top goes
  have inRange := Nat.lt_of_lt_of_le (pass?_lt course.known begins)
    course.reach.length_coordinators_le
  obtain ⟨v, job, ends, turn⟩ := goes.ends
  refine (stage.left top ends).tells turn ?_ ?_
  · rwa [(World.keeps_ends ends).length_coordinators]
  · rw [step_goes top goes, advance_world]

end Engine

end LiveTables
