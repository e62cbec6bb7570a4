import LiveTables.Proofs.Latches

namespace LiveTables

/-- The coordinator whose listeners are told at the end of a pass. -/
def PassEnd.coordinator? : PassEnd → Option CoordinatorId
  | .registry => none
  | .refresh c | .initialization c _ => some c

def RoundPurpose.coordinator? (purpose : RoundPurpose) : Option CoordinatorId :=
  purpose.pass?.map Prod.fst

def ReloadPurpose.coordinator? : ReloadPurpose → Option CoordinatorId
  | .answer => none
  | .pass _ rest => rest.ending.coordinator?

/-- The coordinator whose pass a call works for with what it has left to do. -/
def Job.coordinator? : Job → Option CoordinatorId
  | .answer _ => none
  | .pass rest => rest.ending.coordinator?
  | .round _ _ purpose => purpose.coordinator?

/-- The coordinator whose pass waits. -/
def Wait.coordinator? : Wait → Option CoordinatorId
  | .load wait => wait.purpose.coordinator?
  | .listener wait => wait.purpose.coordinator?
  | .discovery wait => some wait.coordinator

/-- The coordinator whose pass a call begins. An initial load that is skipped is none. -/
def Call.pass? (w : World) : Call → Option CoordinatorId
  | .initialLoad c =>
    let it := w.coordinator c
    if it.initialized && !it.config.reloadOnRefresh then none else some c
  | .refresh c => some c
  | _ => none

/-- The coordinator whose pass a move begins. -/
def Move.pass? (w : World) : Move → Option CoordinatorId
  | .call c => c.pass? w
  | _ => none

namespace Engine

/-- The coordinator whose pass a move takes further. -/
def serves? (e : Engine) (move : Move) : Option CoordinatorId :=
  match move, e.waits with
  | .call c, _ => c.pass? e.world
  | _, own :: _ => own.coordinator?
  | _, [] => none

/-- The coordinator whose pass a move ends: the call that it completes is a pass. -/
def passEnd? (e : Engine) (move : Move) : Option CoordinatorId :=
  if (e.step move).2.isSome then e.serves? move else none

end Engine

namespace World

theorem pass?_initialLoad (w : World) (c : CoordinatorId) :
    (Call.initialLoad c).pass? w = none ∨ (Call.initialLoad c).pass? w = some c := by
  unfold Call.pass?
  dsimp only
  split
  · exact Or.inl rfl
  · exact Or.inr rfl

theorem runs_iff {w : World} {c : CoordinatorId} : (Call.initialLoad c).pass? w = some c ↔
    ¬((w.coordinator c).initialized && !(w.coordinator c).config.reloadOnRefresh) = true := by
  rw [Call.pass?]
  split
  · rename_i skips
    exact ⟨nofun, fun free => absurd skips free⟩
  · rename_i free
    exact ⟨fun _ => free, fun _ => rfl⟩

theorem initialLoad_skipped {w : World} {c : CoordinatorId}
    (skips : (Call.initialLoad c).pass? w = none) :
    w.initialLoad c = (w.note .alreadyInitialized, .done .skipped) := by
  rw [Call.pass?] at skips
  split at skips
  · rename_i set
    simp [initialLoad, set]
  · cases skips

/-- An initial load that runs sets the latch and lets the queue in before all else. -/
theorem initialLoad_runs {w : World} {c : CoordinatorId}
    (runs : (Call.initialLoad c).pass? w = some c) :
    w.initialLoad c = match (w.coordinator c).discovery with
      | .catalog catalog => ((w.latch c).collectPending c).found c
          (catalog.discover (w.coordinator c).config.recordScope)
      | .outside number => ((w.latch c).collectPending c,
          .waiting (.discovery ⟨c, number, (w.coordinator c).config.recordScope⟩)) := by
  rw [initialLoad]
  exact if_neg (runs_iff.mp runs)

/-- A later world has the hubs and the coordinators of an earlier one, but for a cycle that has
ended. -/
structure Cycles (w v : World) (ended : Option CoordinatorId) : Prop where
  hubs : v.hubs = w.hubs
  coordinators : v.coordinators = match ended with
    | none => w.coordinators
    | some c => (w.endCycle c).coordinators

variable {w v u : World}

theorem Cycles.refl (w : World) : w.Cycles w none := ⟨rfl, rfl⟩

theorem coordinators_endCycle (same : v.coordinators = w.coordinators) (c : CoordinatorId) :
    (v.endCycle c).coordinators = (w.endCycle c).coordinators := by
  simp only [endCycle, setCoordinator, coordinator, same]

theorem Cycles.trans {ended : Option CoordinatorId} (first : w.Cycles v none)
    (second : v.Cycles u ended) : w.Cycles u ended where
  hubs := second.hubs.trans first.hubs
  coordinators := by
    rw [second.coordinators]
    cases ended with
    | none => exact first.coordinators
    | some c => exact coordinators_endCycle first.coordinators c

theorem cycles_note (w : World) (n : Notice) : w.Cycles (w.note n) none := ⟨rfl, rfl⟩

theorem cycles_install (w : World) (r : RegistryId) (type : RecordType)
    (make : Location → Store) : w.Cycles (w.install r type make).1 none := by
  refine ⟨?_, w.coordinators_install r type make⟩
  unfold install
  dsimp only
  split <;> rfl

theorem cycles_concludeReload (w : World) (s : StoreId) (plan : Plan)
    (outcome : Outcome (List Record)) : w.Cycles (w.concludeReload s plan outcome).1 none := by
  unfold concludeReload
  dsimp only
  split <;> exact ⟨rfl, rfl⟩

theorem cycles_recordReload (w : World) (type : RecordType) (report : Report)
    (outcome : Outcome Nat) : w.Cycles (w.recordReload type report outcome).1 none := by
  cases outcome <;> exact ⟨rfl, rfl⟩

theorem cycles_registerIndex (w : World) (s : StoreId) (d : IndexDef) :
    w.Cycles (w.registerIndex s d).1 none := by
  unfold registerIndex
  split <;> exact ⟨rfl, rfl⟩

theorem cycles_noteFound (w : World) (c : CoordinatorId) (bindings : List Binding) :
    w.Cycles (w.noteFound c bindings) none := by
  unfold noteFound
  dsimp only
  split <;> exact ⟨rfl, rfl⟩

/-- The end of outside work is no concern of hubs, queues and counts. -/
theorem cycles_ends {own : Wait} {move : Move} {job : Job} (ends : own.Ends w move v job) :
    w.Cycles v none := by
  cases ends with
  | answered given _ | entered given _ =>
    unfold endLoad
    dsimp only
    split
    · exact w.cycles_concludeReload _ _ given
    · exact (w.cycles_concludeReload _ _ given).trans (cycles_recordReload _ _ _ _)
  | heard wait given =>
    unfold noteHeard
    split <;> exact ⟨rfl, rfl⟩
  | found wait bindings => exact w.cycles_noteFound _ bindings

end World

/-- A call that goes on has ended the pass that it works for if it answers. -/
def Progress.ended? (serves : Option CoordinatorId) : Progress → Option CoordinatorId
  | .done _ => serves
  | .waiting _ => none

namespace World

/-- A call goes on with its work for the pass of a coordinator, and the cycle ends with its
answer. -/
structure Works (w : World) (serves : Option CoordinatorId) (next : World × Progress) : Prop where
  cycles : w.Cycles next.1 (next.2.ended? serves)
  waits : ∀ wait, next.2 = .waiting wait → wait.coordinator? = serves

variable {w v : World} {serves : Option CoordinatorId} {next : World × Progress}

theorem Cycles.works (first : w.Cycles v none) (works : v.Works serves next) :
    w.Works serves next := ⟨first.trans works.cycles, works.waits⟩

theorem Cycles.waits {wait : Wait} (cycles : w.Cycles v none) (own : wait.coordinator? = serves) :
    w.Works serves (v, .waiting wait) := ⟨cycles, by rintro _ ⟨⟩; exact own⟩

/-- Work that is no pass's ends without a cycle. -/
theorem Cycles.answers (cycles : w.Cycles v none) (reply : Reply) :
    w.Works none (v, .done reply) := ⟨cycles, nofun⟩

theorem coordinator?_afterReloads (w : World) (pass : Pass) :
    (w.afterReloads pass).coordinator? = pass.ending.coordinator? := by
  unfold afterReloads
  split <;> (rename_i ending; rw [ending]; rfl)

/-- Whatever a call has left to do, it works for the same coordinator throughout. -/
theorem works_turn {job : Job} (turn : w.Turn job next) : w.Works job.coordinator? next := by
  induction turn with
  | answer w reply => exact (Cycles.refl w).answers reply
  | call w l todo failures purpose => exact (Cycles.refl w).waits rfl
  | roundOver w failures purpose => cases purpose <;> exact ⟨⟨rfl, rfl⟩, nofun⟩
  | @reload w _ pass _ _ _ _ _ _ provides =>
    cases provides with
    | installed found => exact (Cycles.refl w).waits rfl
    | bound b =>
      exact (w.cycles_install pass.registry b.recordType b.createStore).waits rfl
  | @reloaded w pass next _ _ ih =>
    rw [coordinator?_afterReloads] at ih
    refine Cycles.works ?_ ih
    unfold noteReloads
    split <;> exact ⟨rfl, rfl⟩

theorem works_found (w : World) (c : CoordinatorId) (bindings : List Binding) :
    w.Works (some c) (w.found c bindings) :=
  (w.cycles_noteFound c bindings).works (works_turn (turn_found w c bindings))

theorem coordinator?_ends {own : Wait} {move : Move} {job : Job}
    (ends : own.Ends w move v job) : job.coordinator? = own.coordinator? := by
  cases ends with
  | answered given purpose | entered given purpose =>
    simp only [Wait.coordinator?, purpose]
    rfl
  | heard | found => rfl

theorem works_goes {own : Wait} {move : Move} (goes : own.Goes w move next) :
    w.Works own.coordinator? next := by
  obtain ⟨v, job, ends, turn⟩ := goes.ends
  rw [← coordinator?_ends ends]
  exact (cycles_ends ends).works (works_turn turn)

/-- What a call waits for first is for the pass that it begins. -/
theorem begin_serves (w : World) (c : Call) {wait : Wait} (waits : (w.begin c).2 = .waiting wait) :
    wait.coordinator? = c.pass? w := by
  cases c with
  | makeStore | makeRegistry | makeHub | makeCoordinator | makeBound | append | listInGeneration
  | ensureBinding | register | queue => cases waits
  | reload s =>
    cases waits
    rfl
  | registerIndex s d =>
    obtain ⟨reply, run⟩ := w.begin_registerIndex s d
    rw [run] at waits
    cases waits
  | applyToGeneration s number d =>
    obtain ⟨reply, run⟩ := w.begin_applyToGeneration s number d
    rw [run] at waits
    cases waits
  | ensure r type loader =>
    obtain ⟨reply, run⟩ := w.begin_ensure r type loader
    rw [run] at waits
    cases waits
  | reloadAll r => exact (works_turn (turn_nextReload _ _)).waits wait waits
  | notify h => exact (works_turn (turn_nextListener _ _ _ .answer)).waits wait waits
  | refresh c => exact (works_turn (turn_nextReload _ _)).waits wait waits
  | initialLoad c =>
    rcases w.pass?_initialLoad c with skips | runs
    · rw [begin, initialLoad_skipped skips] at waits
      cases waits
    · rw [begin, initialLoad_runs runs] at waits
      rw [runs]
      split at waits
      · exact (works_found _ c _).waits wait waits
      · cases waits
        rfl

end World

end LiveTables
