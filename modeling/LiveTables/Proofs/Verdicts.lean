import Mathlib.Data.List.Basic
import LiveTables.Proofs.Cycles
import LiveTables.Proofs.Publication

namespace LiveTables

namespace Notice

def isError (n : Notice) : Bool := n.severity = .error

def isPublication : Notice → Bool
  | storeReloaded .. => true
  | _ => false

/-- Whether a notice says how something has ended: with an error, or with a publication. -/
def isVerdict (n : Notice) : Bool := n.isError || n.isPublication

end Notice

/-- What is noted when a reload has ended: a publication or an error by its store, an abrupt end by
the pass that contains it. -/
def LoadWait.verdict? (w : World) (load : LoadWait) (given : Outcome (List Record)) :
    Option Notice :=
  let it := w.store load.store
  match (it.conclude load.plan given).2, load.purpose with
  | .done n, _ => some (.storeReloaded it.recordType.name (it.current.number + 1) n)
  | .failed e, _ => some (.reloadRefused it.recordType.name it.location.display e.message)
  | .faulted f, .pass type _ => some (.reloadBroken type.name f.reason)
  | .faulted _, .answer => none

def ListenerWait.verdict? (wait : ListenerWait) (given : Outcome Unit) : Option Notice :=
  given.reason?.map (.listenerFailed wait.listener.name)

/-- What an initial load notes of the bindings that it has found for its coordinator. -/
def World.findVerdict? (w : World) (found : CoordinatorId × List Binding) : Option Notice :=
  let it := w.coordinator found.1
  if found.2.any Binding.managed then none
  else some (.nothingDiscovered it.config.recordScope it.config.location.display)

/-- What is noted when the outside work that a call waits for has ended. -/
def Wait.verdict? (w : World) : Wait → Move → Option Notice
  | .load wait, .loaded given => wait.verdict? w given
  | .listener wait, .heard given => wait.verdict? given
  | .discovery wait, .found bindings => w.findVerdict? (wait.coordinator, bindings)
  | _, _ => none

/-- The bindings that an initial load of a coordinator finds at once, if it has a catalog. -/
def Call.found? (w : World) : Call → Option (CoordinatorId × List Binding)
  | .initialLoad c =>
    if (Call.initialLoad c).pass? w = some c then
      match (w.coordinator c).discovery with
      | .catalog catalog => some (c, catalog.discover (w.coordinator c).config.recordScope)
      | .outside _ => none
    else none
  | _ => none

namespace World

/-- The notices of errors and publications, the latest first. -/
def verdicts (w : World) : List Notice := w.notices.filter Notice.isVerdict

variable (w : World)

theorem verdicts_registerIndex (s : StoreId) (d : IndexDef) :
    (w.registerIndex s d).1.verdicts = w.verdicts := by
  unfold registerIndex
  split <;> rfl

theorem verdicts_install (r : RegistryId) (type : RecordType) (make : Location → Store) :
    (w.install r type make).1.verdicts = w.verdicts := by
  unfold install
  dsimp only
  split <;> rfl

theorem verdicts_register (h : HubId) (l : Listener) : (w.register h l).verdicts = w.verdicts := by
  unfold register
  dsimp only
  split <;> rfl

theorem verdicts_collectPending (c : CoordinatorId) :
    (w.collectPending c).verdicts = w.verdicts := by
  have joins (h : HubId) (ls : List Listener) (v : World) :
      (ls.foldl (fun v l => v.register h l) v).verdicts = v.verdicts := by
    induction ls generalizing v with
    | nil => rfl
    | cons l rest ih => exact (ih _).trans (v.verdicts_register h l)
  exact joins _ _ _

variable {w}

/-- No turn notes an error or a publication. -/
theorem verdicts_turn {job : Job} {next : World × Progress} (turn : w.Turn job next) :
    next.1.verdicts = w.verdicts := by
  induction turn with
  | answer | call => rfl
  | roundOver w failures purpose => cases purpose <;> rfl
  | @reload w _ pass _ _ _ _ _ _ provides =>
    cases provides with
    | installed _ => rfl
    | bound b => exact w.verdicts_install pass.registry b.recordType b.createStore
  | @reloaded w pass _ _ _ ih =>
    refine ih.trans ?_
    unfold noteReloads
    split <;> rfl

variable (w)

/-- The end of a reload is noted once. -/
theorem verdicts_endLoad (load : LoadWait) (given : Outcome (List Record)) :
    (w.endLoad load given).verdicts = (load.verdict? w given).toList ++ w.verdicts := by
  have ended := (w.store load.store).conclude_cases load.plan given
  unfold endLoad concludeReload LoadWait.verdict?
  rcases ended with ⟨_, _, _, _, _, run⟩ | ⟨_, _, run⟩ | ⟨_, _, run⟩
  all_goals
    cases purpose : load.purpose with
    | answer =>
      simp only [run]
      rfl
    | pass type rest =>
      simp only [run, recordReload]
      rfl

theorem verdicts_noteHeard (wait : ListenerWait) (given : Outcome Unit) :
    (w.noteHeard wait given).verdicts = (wait.verdict? given).toList ++ w.verdicts := by
  unfold noteHeard ListenerWait.verdict?
  cases given.reason? <;> rfl

theorem verdicts_noteFound (c : CoordinatorId) (bindings : List Binding) :
    (w.noteFound c bindings).verdicts =
      (w.findVerdict? (c, bindings)).toList ++ w.verdicts := by
  have nothing : (bindings.filter Binding.managed).isEmpty = !bindings.any Binding.managed := by
    rw [Bool.eq_iff_iff]
    simp
  unfold noteFound findVerdict?
  dsimp only
  rw [nothing]
  cases bindings.any Binding.managed <;> rfl

variable {w}

/-- A call that goes on notes how the outside work has ended, and nothing else. -/
theorem verdicts_goes {own : Wait} {move : Move} {next : World × Progress}
    (goes : own.Goes w move next) :
    next.1.verdicts = (own.verdict? w move).toList ++ w.verdicts := by
  obtain ⟨v, job, ends, turn⟩ := goes.ends
  rw [verdicts_turn turn]
  cases ends with
  | answered given _ => exact w.verdicts_endLoad _ given
  | entered given _ => exact w.verdicts_endLoad _ given
  | heard wait given => exact w.verdicts_noteHeard wait given
  | found wait bindings => exact w.verdicts_noteFound _ bindings

variable (w)

theorem verdicts_initialLoad (c : CoordinatorId) : (w.initialLoad c).1.verdicts =
    (((Call.initialLoad c).found? w).bind w.findVerdict?).toList ++ w.verdicts := by
  rcases w.pass?_initialLoad c with skips | runs
  · rw [initialLoad_skipped skips, Call.found?, if_neg (by simp [skips])]
    rfl
  · have collected : ((w.latch c).collectPending c).verdicts = w.verdicts :=
      verdicts_collectPending _ c
    rw [initialLoad_runs runs, Call.found?, if_pos runs]
    cases (w.coordinator c).discovery with
    | catalog catalog =>
      dsimp only
      rw [verdicts_turn (turn_found _ c _), verdicts_noteFound, collected, findVerdict?,
        config_latch]
      rfl
    | outside _ => exact collected

/-- A call that begins notes nothing but that a catalog gave it no bindings. -/
theorem verdicts_begin (k : Call) : (w.begin k).1.verdicts =
    ((k.found? w).bind w.findVerdict?).toList ++ w.verdicts := by
  cases k with
  | makeStore type location loader => rfl
  | makeRegistry location => rfl
  | makeHub => rfl
  | makeCoordinator config registry discovery => cases registry <;> rfl
  | makeBound b location => rfl
  | reload s => rfl
  | registerIndex s d =>
    obtain ⟨_, run⟩ := w.begin_registerIndex s d
    rw [run]
    exact w.verdicts_registerIndex s d
  | append s index id values => rfl
  | applyToGeneration s number d =>
    obtain ⟨_, run⟩ := w.begin_applyToGeneration s number d
    rw [run]
    rfl
  | listInGeneration s number key id => rfl
  | ensure r type loader =>
    obtain ⟨_, run⟩ := w.begin_ensure r type loader
    rw [run]
    exact w.verdicts_install r type _
  | ensureBinding r b => exact w.verdicts_install r b.recordType b.createStore
  | reloadAll r => exact verdicts_turn (turn_nextReload _ _)
  | register h l => exact w.verdicts_register h l
  | notify h => exact verdicts_turn (turn_nextListener _ _ _ _)
  | queue c l => rfl
  | initialLoad c => exact w.verdicts_initialLoad c
  | refresh c =>
    exact (verdicts_turn (turn_nextReload _ _)).trans (w.verdicts_collectPending c)

end World

namespace Engine

/-- The bindings that an initial load has found when a move is made, with its coordinator. -/
def found? (made : Engine × Move) : Option (CoordinatorId × List Binding) :=
  match made.2, made.1.waits with
  | .call k, _ => k.found? made.1.world
  | .found bindings, .discovery wait :: _ => some (wait.coordinator, bindings)
  | _, _ => none

/-- The notice of an error or of a publication that a move gives, if it gives one. -/
def verdict? (made : Engine × Move) : Option Notice :=
  match made.2, made.1.waits with
  | .loaded given, .load load :: _ => load.verdict? made.1.world given
  | .heard given, .listener wait :: _ => wait.verdict? given
  | _, _ => (found? made).bind made.1.world.findVerdict?

/-- The notice of a publication: the name of the type, the number of the new generation and the
size of the batch. -/
def announcement? (made : Engine × Move) : Option Notice :=
  match made.1.waits with
  | .load load :: _ =>
    (made.1.published? load.store made.2).map fun batch =>
      .storeReloaded (made.1.world.store load.store).recordType.name
        ((made.1.step made.2).1.world.store load.store).current.number batch.length
  | _ => none

variable {start e : Engine} {past : List (Engine × Move)} {move : Move}

theorem Idle.found? (idle : e.Idle move) : found? (e, move) = none := by
  unfold Engine.found?
  dsimp only
  split
  · exact absurd rfl (idle.not_call _)
  · rename_i top
    exact absurd (.found _ _) (idle.not_goes _ _ _ top)
  · rfl

theorem Idle.verdict? (idle : e.Idle move) : verdict? (e, move) = none := by
  unfold Engine.verdict?
  dsimp only
  split
  · rename_i top
    exact absurd (.loaded _ _) (idle.not_goes _ _ _ top)
  · rename_i top
    exact absurd (.heard _ _) (idle.not_goes _ _ _ top)
  · rw [idle.found?]
    rfl

theorem verdict?_call (e : Engine) (k : Call) :
    verdict? (e, .call k) = (k.found? e.world).bind e.world.findVerdict? := rfl

/-- A move gives the notice that can be read off it, if there is one. -/
theorem step_verdicts (e : Engine) (move : Move) :
    (e.step move).1.world.verdicts = (verdict? (e, move)).toList ++ e.world.verdicts := by
  refine step_world (fun w => w.verdicts = _) ?_ ?_ ?_
  · rintro k rfl
    rw [verdict?_call]
    exact e.world.verdicts_begin k
  · intro own rest next top goes
    rw [World.verdicts_goes goes]
    cases goes with
    | loaded | heard => simp only [verdict?, top, Wait.verdict?]
    | found => simp only [verdict?, found?, top, Option.bind_some, Wait.verdict?]
  · intro idle
    rw [idle.verdict?]
    rfl

/-- A run gives the notices that can be read off its moves, and no others. -/
theorem Reach.verdicts_eq (reach : Reach start e past) :
    e.world.verdicts = past.filterMap verdict? ++ start.world.verdicts := by
  induction reach with
  | start => rfl
  | @next e past move _ _ ih =>
    rw [step_verdicts, ih]
    cases given : verdict? (e, move) with
    | none => simp [given]
    | some n => simp [given]

/-- What holds of some of these notices only is read off the moves in the same way. -/
theorem Reach.filter_notices (reach : Reach {} e past) {p : Notice → Bool}
    (verdicts : ∀ n : Notice, p n = true → n.isVerdict = true) :
    e.world.notices.filter p = past.filterMap fun made => (verdict? made).filter p := by
  have within : e.world.verdicts.filter p = e.world.notices.filter p := by
    rw [World.verdicts, List.filter_filter]
    refine List.filter_congr fun n _ => ?_
    exact (Bool.eq_self_and.mpr (verdicts n)).symm
  rw [← within, reach.verdicts_eq, List.filter_append, List.filter_filterMap]
  exact List.append_nil _

theorem announcement?_of_none (nothing : ∀ s, e.published? s move = none) :
    announcement? (e, move) = none := by
  unfold announcement?
  dsimp only
  split
  · rw [nothing]
    rfl
  · rfl

theorem announcement?_of_published {s : StoreId} {batch : List Record}
    (published : e.published? s move = some batch) : announcement? (e, move) =
      some (.storeReloaded (e.world.store s).recordType.name
        ((e.step move).1.world.store s).current.number batch.length) := by
  have whole := published
  unfold Engine.published? at published
  split at published
  · rename_i load _ top
    split at published
    · rename_i here
      obtain ⟨rfl, _⟩ := here
      simp only [announcement?, top, whole]
      rfl
    · cases published
  · cases published

theorem Idle.published? (idle : e.Idle move) (s : StoreId) : e.published? s move = none := by
  unfold Engine.published?
  split
  · rename_i top
    exact absurd (.loaded _ _) (idle.not_goes _ _ _ top)
  · rfl

/-- The end of a reload gives notice of a publication exactly if it publishes. -/
theorem announcement?_loaded (sound : e.Sound) {load : LoadWait} {rest : List Wait}
    (top : e.waits = .load load :: rest) (given : Outcome (List Record)) :
    (load.verdict? e.world given).filter Notice.isPublication =
      announcement? (e, .loaded given) := by
  have known := Move.known_loaded e.world given
  simp only [announcement?, top]
  rcases step_publication sound known (sound.top_within top).store with
    ⟨nothing, _⟩ | ⟨other, _, batch, index, top', _, move, accepted, published, after⟩
  · -- Only the end with a result would say so, and with a result it publishes.
    rw [nothing, LoadWait.verdict?]
    cases ended : ((e.world.store load.store).conclude load.plan given).2 with
    | done n =>
      obtain ⟨_, _, published, _⟩ := (ends_done_iff sound top).mp ended
      rw [nothing] at published
      cases published
    | failed error => rfl
    | faulted fault => cases load.purpose <;> rfl
  · obtain rfl := Move.loaded.inj move
    obtain ⟨same, _⟩ := List.cons.inj (top.symm.trans top')
    obtain rfl := Wait.load.inj same
    obtain ⟨_, _, run⟩ := Store.conclude_of_accepts accepted
    simp only [published, after, LoadWait.verdict?, run]
    rfl

/-- What is noted as a publication is one. -/
theorem announcement?_eq (sound : e.Sound) :
    (verdict? (e, move)).filter Notice.isPublication = announcement? (e, move) := by
  have unfounded (found : Option (CoordinatorId × List Binding)) :
      (found.bind e.world.findVerdict?).filter Notice.isPublication = none := by
    cases found with
    | none => rfl
    | some found =>
      simp only [Option.bind_some, World.findVerdict?]
      split <;> rfl
  rcases e.step_forms move with ⟨k, rfl⟩ | ⟨own, rest, next, top, goes, _⟩ | ⟨idle, _⟩
  · rw [announcement?_of_none fun _ => rfl]
    exact unfounded _
  · cases goes with
    | loaded load given =>
      rw [← announcement?_loaded sound top given]
      simp only [verdict?, top]
    | heard wait given =>
      rw [announcement?_of_none fun _ => rfl]
      simp only [verdict?, top, ListenerWait.verdict?]
      cases given <;> rfl
    | found wait bindings =>
      rw [announcement?_of_none fun _ => rfl]
      simp only [verdict?]
      exact unfounded _
  · rw [idle.verdict?, announcement?_of_none idle.published?]
    rfl

/-- The publications that a run has noted are those that it has made. -/
theorem Reach.announcements_eq (reach : Reach {} e past) :
    e.world.notices.filter Notice.isPublication = past.filterMap announcement? := by
  rw [reach.filter_notices fun n publication => by rw [Notice.isVerdict, publication, Bool.or_true]]
  refine List.filterMap_congr fun made member => ?_
  obtain ⟨_, _, first⟩ := reach.of_mem member
  exact announcement?_eq first.sound

end Engine

end LiveTables
