import LiveTables.Proofs.Reach
import LiveTables.Proofs.Step
import LiveTables.Proofs.StoreGrowth

namespace LiveTables

def Call.change (s : StoreId) (it : Store) : Call → Store
  | .registerIndex t d => if t = s then (it.registerIndex d).1 else it
  | .append t index id values => if t = s then (it.append index id values).1 else it
  | .applyToGeneration t number d =>
    if t = s then it.updateGeneration number fun g => (g.applyIndex it.recordType d).1 else it
  | .listInGeneration t number key id =>
    if t = s then it.updateGeneration number fun g => (g.insertKey key id).1 else it
  | _ => it

/-- What a move does to the store of a number while calls wait. -/
def Move.change (s : StoreId) (it : Store) : Move → List Wait → Store
  | .call c, _ => c.change s it
  | .loaded outcome, .load wait :: _ =>
    if wait.store = s then (it.conclude wait.plan outcome).1 else it
  | _, _ => it

/-- The calls that still wait when a move has ended the outside work on top. -/
def Move.left : Move → List Wait → List Wait
  | .loaded _, .load _ :: waits => waits
  | .heard _, .listener _ :: waits => waits
  | .found _, .discovery _ :: waits => waits
  | _, waits => waits

theorem Wait.Goes.left {w : World} {own : Wait} {move : Move} {next : World × Progress}
    (goes : own.Goes w move next) (rest : List Wait) : move.left (own :: rest) = rest := by
  cases goes <;> rfl

theorem Engine.Idle.left {e : Engine} {move : Move} (idle : e.Idle move) :
    move.left e.waits = e.waits := by
  unfold Move.left
  split
  · rename_i top
    exact absurd (.loaded _ _) (idle.not_goes _ _ _ top)
  · rename_i top
    exact absurd (.heard _ _) (idle.not_goes _ _ _ top)
  · rename_i top
    exact absurd (.found _ _) (idle.not_goes _ _ _ top)
  · rfl

theorem Engine.Idle.change {e : Engine} {move : Move} (idle : e.Idle move) (s : StoreId)
    (it : Store) : move.change s it e.waits = it := by
  unfold Move.change
  split
  · exact absurd rfl (idle.not_call _)
  · rename_i top
    exact absurd (.loaded _ _) (idle.not_goes _ _ _ top)
  · rfl

/-- A call leaves a store alone or makes one of four changes to it. -/
theorem Call.change_cases (s : StoreId) (it : Store) (c : Call) :
    c.change s it = it ∨ (∃ d, c.change s it = (it.registerIndex d).1) ∨
    (∃ index id values, c.change s it = (it.append index id values).1) ∨
    (∃ number d, c.change s it =
      it.updateGeneration number fun g => (g.applyIndex it.recordType d).1) ∨
    ∃ number key id, c.change s it =
      it.updateGeneration number fun g => (g.insertKey key id).1 := by
  unfold Call.change
  split
  · split
    · exact Or.inr (Or.inl ⟨_, rfl⟩)
    · exact Or.inl rfl
  · split
    · exact Or.inr (Or.inr (Or.inl ⟨_, _, _, rfl⟩))
    · exact Or.inl rfl
  · split
    · exact Or.inr (Or.inr (Or.inr (Or.inl ⟨_, _, rfl⟩)))
    · exact Or.inl rfl
  · split
    · exact Or.inr (Or.inr (Or.inr (Or.inr ⟨_, _, _, rfl⟩)))
    · exact Or.inl rfl
  · exact Or.inl rfl

/-- A move changes a store by a call, or by the end of the reload on top, or not at all. -/
theorem Move.change_cases (s : StoreId) (it : Store) (move : Move) (waits : List Wait) :
    move.change s it waits = it ∨ (∃ c, move.change s it waits = Call.change s it c) ∨
    ∃ load rest outcome, waits = .load load :: rest ∧ load.store = s ∧ move = .loaded outcome ∧
      move.change s it waits = (it.conclude load.plan outcome).1 := by
  unfold Move.change
  split
  · exact Or.inr (Or.inl ⟨_, rfl⟩)
  · split
    · rename_i same
      exact Or.inr (Or.inr ⟨_, _, _, rfl, same, rfl, rfl⟩)
    · exact Or.inl rfl
  · exact Or.inl rfl

/-- The number of the store that a reload waits for is below a bound. -/
structure LoadWait.Within (n : Nat) (load : LoadWait) : Prop where
  store : load.store < n

theorem LoadWait.Within.mono {n m : Nat} {load : LoadWait} (within : load.Within n) (le : n ≤ m) :
    load.Within m := ⟨Nat.lt_of_lt_of_le within.store le⟩

/-- A reload has just begun: its plan is the one that its store makes now. -/
structure LoadWait.Begun (w : World) (load : LoadWait) : Prop extends
    load.Within w.stores.length where
  plan : load.plan = (w.store load.store).plan

namespace World

/-- A call goes on from a world without a change to its stores, and if it goes on to a reload, that
reload has just begun. -/
structure Continues (w : World) (next : World × Progress) : Prop where
  grown : w.Extends next.1
  begun : w.Sound → ∀ load, next.2 = .waiting (.load load) → load.Begun next.1

variable {w v : World}

theorem Extends.done (grown : w.Extends v) (reply : Reply) : w.Continues (v, .done reply) :=
  ⟨grown, fun _ _ ends => by cases ends⟩

theorem Extends.continues {next : World × Progress} (grown : w.Extends v)
    (goesOn : v.Continues next) : w.Continues next :=
  ⟨grown.trans goesOn.grown, fun sound => goesOn.begun (grown.sound sound)⟩

theorem extends_endRound (w : World) (failures : List ListenerFailure) (purpose : RoundPurpose) :
    w.Extends (w.endRound failures purpose) := by
  have counted (c : CoordinatorId) : w.Extends (w.endCycle c) := .of_same rfl rfl
  cases purpose with
  | answer => exact .refl w
  | refresh c report => exact counted c
  | initialization c types report => exact (counted c).trans (extends_note _ _)

theorem extends_noteReloads (w : World) (pass : Pass) : w.Extends (w.noteReloads pass) := by
  unfold noteReloads
  split
  · exact .refl w
  · exact w.extends_note _
  · exact w.extends_note _

theorem continues_turn {job : Job} {next : World × Progress} (turn : w.Turn job next) :
    w.Continues next := by
  induction turn with
  | answer w reply => exact (Extends.refl w).done reply
  | call w l todo failures purpose => exact ⟨.refl w, fun _ _ ends => by cases ends⟩
  | roundOver w failures purpose => exact (w.extends_endRound failures purpose).done _
  | @reload w _ pass _ _ _ _ _ _ provides =>
    cases provides with
    | installed found =>
      refine ⟨.refl w, ?_⟩
      rintro sound load ⟨⟩
      exact ⟨⟨sound.store?_lt found⟩, rfl⟩
    | bound b =>
      -- The store of the binding is in range, whether or not it is a new one.
      refine ⟨w.extends_install pass.registry b.recordType b.isFresh_createStore, ?_⟩
      rintro sound load ⟨⟩
      exact ⟨⟨w.install_lt sound pass.registry _ _⟩, rfl⟩
  | @reloaded w pass _ _ _ ih => exact (w.extends_noteReloads pass).continues ih

theorem extends_noteHeard (w : World) (wait : ListenerWait) (given : Outcome Unit) :
    w.Extends (w.noteHeard wait given) := by
  unfold noteHeard
  split
  · exact .refl w
  · exact w.extends_note _

theorem extends_noteFound (w : World) (c : CoordinatorId) (bindings : List Binding) :
    w.Extends (w.noteFound c bindings) := by
  unfold noteFound
  dsimp only
  split
  · exact w.extends_note _
  · exact .refl w

theorem continues_initialLoad (w : World) (c : CoordinatorId) :
    w.Continues (w.initialLoad c) := by
  unfold initialLoad
  dsimp only
  split
  · exact (w.extends_note _).done _
  · have latched : w.Extends (w.latch c) := .of_same rfl rfl
    have grown := latched.trans (extends_collectPending _ c)
    split
    · have noted := extends_noteFound ((w.latch c).collectPending c) c
      exact grown.continues ((noted _).continues (continues_turn (turn_found _ c _)))
    · exact ⟨grown, fun _ _ ends => by cases ends⟩

/-- One world comes from another one by a change to each store. -/
structure Changes (w v : World) (change : StoreId → Store → Store) : Prop where
  length : v.stores.length = w.stores.length
  store : ∀ s, s < w.stores.length → v.store s = change s (w.store s)
  sound : w.Sound → v.Sound

theorem Changes.refl (w : World) : w.Changes w fun _ it => it := ⟨rfl, fun _ _ => rfl, id⟩

theorem changes_setStore {s : StoreId} (inRange : s < w.stores.length) (change : Store → Store) :
    w.Changes (w.setStore s (change (w.store s))) fun t it => if s = t then change it else it where
  length := List.length_set
  store t _ := by
    rw [store_setStore w inRange]
    by_cases same : s = t
    · simp [same]
    · simp [same]
  sound sound it member entry installed := by
    have bound := sound it member entry installed
    simpa only [setStore, List.length_set] using bound

theorem extends_registerIndex (w : World) (s : StoreId) (d : IndexDef) :
    (w.setStore s ((w.store s).registerIndex d).1).Extends (w.registerIndex s d).1 := by
  unfold registerIndex
  split
  · rename_i ended
    rw [ended]
    exact extends_note _ _
  · rename_i ended
    rw [ended]
    exact .refl _

theorem begin_changes {c : Call} (known : c.Known w) :
    ∃ v, w.Changes v (fun s it => c.change s it) ∧ v.Continues (w.begin c) := by
  -- Four calls change the store that they name; what any other call does makes new stores at most.
  cases c with
  | makeStore type location loader =>
    exact ⟨w, .refl w, (w.extends_addStore (Store.isFresh_fresh type location loader)).done _⟩
  | makeRegistry location => exact ⟨w, .refl w, (w.extends_addRegistry location).done _⟩
  | makeHub =>
    have grown : w.Extends (w.addHub {}).1 := .of_same rfl rfl
    exact ⟨w, .refl w, grown.done _⟩
  | makeCoordinator config r discovery =>
    exact ⟨w, .refl w, (w.extends_addCoordinator config r discovery).done _⟩
  | makeBound b location =>
    exact ⟨w, .refl w, (w.extends_addStore (b.isFresh_createStore location)).done _⟩
  | reload s =>
    refine ⟨w, .refl w, .refl w, ?_⟩
    rintro _ load ⟨⟩
    exact ⟨⟨known⟩, rfl⟩
  | registerIndex s d =>
    refine ⟨_, changes_setStore known fun it => (it.registerIndex d).1, ?_⟩
    obtain ⟨reply, run⟩ := w.begin_registerIndex s d
    rw [run]
    exact (w.extends_registerIndex s d).done reply
  | append s index id values =>
    exact ⟨_, changes_setStore known fun it => (it.append index id values).1,
      (Extends.refl _).done _⟩
  | applyToGeneration s number d =>
    refine ⟨_, changes_setStore known fun it =>
      it.updateGeneration number fun g => (g.applyIndex it.recordType d).1, ?_⟩
    obtain ⟨reply, run⟩ := w.begin_applyToGeneration s number d
    rw [run]
    exact (Extends.refl _).done reply
  | listInGeneration s number key id =>
    exact ⟨_, changes_setStore known fun it =>
      it.updateGeneration number fun g => (g.insertKey key id).1, (Extends.refl _).done _⟩
  | ensure r type loader =>
    obtain ⟨reply, run⟩ := w.begin_ensure r type loader
    rw [run]
    have grown := w.extends_install r type fun location => Store.isFresh_fresh type location loader
    exact ⟨w, .refl w, grown.done reply⟩
  | ensureBinding r b =>
    exact ⟨w, .refl w, (w.extends_install r b.recordType b.isFresh_createStore).done _⟩
  | reloadAll r => exact ⟨w, .refl w, continues_turn (turn_nextReload _ _)⟩
  | register h l => exact ⟨w, .refl w, (w.extends_register h l).done _⟩
  | notify h => exact ⟨w, .refl w, continues_turn (turn_nextListener _ _ _ _)⟩
  | queue c l =>
    have grown : w.Extends (w.queue c l) := .of_same rfl rfl
    exact ⟨w, .refl w, grown.done _⟩
  | initialLoad c => exact ⟨w, .refl w, w.continues_initialLoad c⟩
  | refresh c =>
    have collected := w.extends_collectPending c
    exact ⟨w, .refl w, collected.continues (continues_turn (turn_nextReload _ _))⟩

theorem concludeReload_extends (w : World) (s : StoreId) (plan : Plan)
    (outcome : Outcome (List Record)) :
    (w.setStore s ((w.store s).conclude plan outcome).1).Extends
      (w.concludeReload s plan outcome).1 := by
  unfold concludeReload
  dsimp only
  split
  · exact extends_note _ _
  · exact extends_note _ _
  · exact .refl _

theorem recordReload_extends (w : World) (type : RecordType) (report : Report)
    (outcome : Outcome Nat) : w.Extends (w.recordReload type report outcome).1 := by
  unfold recordReload
  split
  · exact .refl w
  · exact .refl w
  · exact w.extends_note _

theorem extends_endLoad (w : World) (load : LoadWait) (given : Outcome (List Record)) :
    (w.setStore load.store ((w.store load.store).conclude load.plan given).1).Extends
      (w.endLoad load given) := by
  have concluded := w.concludeReload_extends load.store load.plan given
  unfold endLoad
  dsimp only
  split
  · exact concluded
  · exact concluded.trans (recordReload_extends _ _ _ _)

/-- The end of outside work changes the store that was being loaded, if any. -/
theorem ends_changes {own : Wait} {move : Move} {job : Job} (ends : own.Ends w move v job)
    (within : ∀ load, own = .load load → load.Within w.stores.length) (rest : List Wait) :
    ∃ u, w.Changes u (fun s it => move.change s it (own :: rest)) ∧ u.Extends v := by
  have loaded {load : LoadWait} (within : load.Within w.stores.length)
      (given : Outcome (List Record)) := changes_setStore within.store
        fun it => (it.conclude load.plan given).1
  cases ends with
  | answered given _ => exact ⟨_, loaded (within _ rfl) given, w.extends_endLoad _ given⟩
  | entered given _ => exact ⟨_, loaded (within _ rfl) given, w.extends_endLoad _ given⟩
  | heard wait given => exact ⟨w, .refl w, w.extends_noteHeard wait given⟩
  | found wait bindings => exact ⟨w, .refl w, w.extends_noteFound _ bindings⟩

end World

namespace Engine

/-- Registries and waits name only stores that exist. -/
structure Sound (e : Engine) : Prop where
  world : e.world.Sound
  waits : ∀ load, .load load ∈ e.waits → load.Within e.world.stores.length

/-- A move changes stores, and then the call goes on above the calls that are left. -/
theorem step_cases {e : Engine} (sound : e.Sound) {move : Move} (known : move.Known e.world) :
    ∃ v next, e.world.Changes v (fun s it => move.change s it e.waits) ∧ v.Continues next ∧
      (e.step move).1 = (advance (move.left e.waits) next).1 := by
  rcases e.step_forms move with ⟨c, rfl⟩ | ⟨own, rest, next, top, goes, run⟩ | ⟨idle, run⟩
  · obtain ⟨v, changed, goesOn⟩ := World.begin_changes known
    exact ⟨v, _, changed, goesOn, rfl⟩
  · obtain ⟨v, job, ends, turn⟩ := goes.ends
    rw [run, top]
    have within (load : LoadWait) (same : own = .load load) : load.Within e.world.stores.length :=
      sound.waits load (same ▸ top ▸ List.mem_cons_self)
    obtain ⟨u, changed, grown⟩ := World.ends_changes ends within rest
    rw [goes.left rest]
    exact ⟨u, next, changed, grown.continues (World.continues_turn turn), rfl⟩
  · rw [run]
    refine ⟨e.world, (e.world, .done .unit), ?_, (World.Extends.refl _).done _, ?_⟩
    · rw [show (fun s it => move.change s it e.waits) = fun _ it => it from
        funext fun s => funext fun it => idle.change s it]
      exact .refl _
    · rw [idle.left]
      rfl

variable {e : Engine} {move : Move}

theorem length_step_le (sound : e.Sound) (known : move.Known e.world) :
    e.world.stores.length ≤ (e.step move).1.world.stores.length := by
  obtain ⟨v, next, changed, goesOn, run⟩ := step_cases sound known
  rw [run, advance_world, ← changed.length]
  exact goesOn.grown.length_le

/-- All that one move does to one store. -/
theorem step_store (sound : e.Sound) (known : move.Known e.world) {s : Nat}
    (inRange : s < e.world.stores.length) :
    (e.step move).1.world.store s = move.change s (e.world.store s) e.waits := by
  obtain ⟨v, next, changed, goesOn, run⟩ := step_cases sound known
  rw [run, advance_world, goesOn.grown.store_eq (changed.length ▸ inRange), changed.store s inRange]

theorem step_new_store (sound : e.Sound) (known : move.Known e.world) {s : Nat}
    (inRange : s < (e.step move).1.world.stores.length) (new : e.world.stores.length ≤ s) :
    ((e.step move).1.world.store s).IsFresh := by
  obtain ⟨v, next, changed, goesOn, run⟩ := step_cases sound known
  rw [run, advance_world] at inRange ⊢
  exact goesOn.grown.isFresh inRange (changed.length ▸ new)

theorem Sound.top_within (sound : e.Sound) {load : LoadWait} {rest : List Wait}
    (top : e.waits = .load load :: rest) : load.Within e.world.stores.length :=
  sound.waits load (top ▸ List.mem_cons_self)

theorem step_concludes (sound : e.Sound) {load : LoadWait} {rest : List Wait}
    (top : e.waits = .load load :: rest) (outcome : Outcome (List Record)) :
    (e.step (.loaded outcome)).1.world.store load.store =
      ((e.world.store load.store).conclude load.plan outcome).1 := by
  rw [step_store sound (Move.known_loaded e.world outcome) (sound.top_within top).store, top]
  exact if_pos rfl

/-- The calls that wait after a move waited before, but for one that may have just begun. -/
theorem step_waits (sound : e.Sound) (known : move.Known e.world) :
    (e.step move).1.waits = move.left e.waits ∨
      ∃ wait, (e.step move).1.waits = wait :: move.left e.waits ∧
        ∀ load, wait = .load load → load.Begun (e.step move).1.world := by
  obtain ⟨v, next, changed, goesOn, run⟩ := step_cases sound known
  rw [run, advance_world]
  rcases advance_waits (move.left e.waits) next with same | ⟨wait, waiting, above⟩
  · exact Or.inl same
  · refine Or.inr ⟨wait, above, ?_⟩
    rintro load rfl
    exact goesOn.begun (changed.sound sound.world) load waiting

theorem left_suffix (move : Move) (waits : List Wait) : move.left waits <:+ waits := by
  unfold Move.left
  split
  · exact List.suffix_cons _ _
  · exact List.suffix_cons _ _
  · exact List.suffix_cons _ _
  · exact List.suffix_refl _

theorem step_sound (sound : e.Sound) (known : move.Known e.world) : (e.step move).1.Sound where
  world := by
    obtain ⟨v, next, changed, goesOn, run⟩ := step_cases sound known
    rw [run, advance_world]
    exact goesOn.grown.sound (changed.sound sound.world)
  waits := by
    have old (load : LoadWait) (member : .load load ∈ move.left e.waits) :
        load.Within (e.step move).1.world.stores.length :=
      (sound.waits load ((left_suffix move e.waits).mem member)).mono (length_step_le sound known)
    intro load member
    rcases step_waits sound known with same | ⟨wait, above, begun⟩
    · rw [same] at member
      exact old load member
    · rw [above] at member
      rcases List.mem_cons.mp member with top | below
      · exact (begun load top.symm).toWithin
      · exact old load below

theorem sound_empty : ({} : Engine).Sound where
  world _ member := absurd member List.not_mem_nil
  waits _ member := absurd member List.not_mem_nil

variable {start : Engine} {past : List (Engine × Move)}

theorem Reach.sound_of (reach : Reach start e past) (sound : start.Sound) : e.Sound := by
  induction reach with
  | start => exact sound
  | next _ known ih => exact step_sound ih known

theorem Reach.sound (reach : Reach {} e past) : e.Sound := reach.sound_of sound_empty

theorem Reach.length_le (reach : Reach start e past) (sound : start.Sound) :
    start.world.stores.length ≤ e.world.stores.length := by
  induction reach with
  | start => exact Nat.le_refl _
  | next reach known ih => exact Nat.le_trans ih (length_step_le (reach.sound_of sound) known)

/-- In a run, a reload began with one of the moves and has waited ever since, above the calls that
the move left waiting. -/
structure Began (past : List (Engine × Move)) (load : LoadWait) (rest : List Wait) (prior : Engine)
    (move : Move) : Prop where
  moves : ∃ before later, past = later ++ (prior, move) :: before ∧
    ∀ made ∈ later, .load load :: rest <:+ made.1.waits
  below : rest = move.left prior.waits
  waits : (prior.step move).1.waits = .load load :: rest

theorem Began.next {load : LoadWait} {rest : List Wait} {prior : Engine} {made : Move}
    (began : Began past load rest prior made) (waited : .load load :: rest <:+ e.waits) :
    Began ((e, move) :: past) load rest prior made := by
  obtain ⟨before, later, split, since⟩ := began.moves
  refine ⟨⟨before, (e, move) :: later, by rw [split, List.cons_append], ?_⟩, began.below,
    began.waits⟩
  exact List.forall_mem_cons.mpr ⟨waited, since⟩

/-- Every reload that waits began in the run, with the plan that its store made then. -/
theorem Reach.began (reach : Reach start e past) (sound : start.Sound) {load : LoadWait}
    {rest : List Wait} (waits : .load load :: rest <:+ e.waits)
    (absent : ¬.load load :: rest <:+ start.waits) :
    ∃ prior move before later, Began past load rest prior move ∧
      Reach start (prior.step move).1 before ∧ Reach (prior.step move).1 e later ∧
      load.Begun (prior.step move).1.world := by
  induction reach with
  | start => exact absurd waits absent
  | @next e past move reach known ih =>
    rcases step_waits (reach.sound_of sound) known with same | ⟨wait, above, begun⟩
    · have waited := (same ▸ waits).trans (left_suffix move e.waits)
      obtain ⟨prior, made, before, later, began, first, second, begun⟩ := ih waited
      exact ⟨prior, made, before, _, began.next waited, first, second.next known, begun⟩
    · -- Either this reload is the one that has just begun, or it waited before.
      rw [above] at waits
      rcases List.suffix_cons_iff.mp waits with top | below
      · obtain ⟨rfl, rfl⟩ := List.cons.inj top
        have moves : ∃ before later, (e, move) :: past = later ++ (e, move) :: before ∧
            ∀ made ∈ later, .load load :: move.left e.waits <:+ made.1.waits :=
          ⟨past, [], rfl, List.forall_mem_nil _⟩
        exact ⟨e, move, _, [], ⟨moves, rfl, above⟩, reach.next known, .start, begun load rfl⟩
      · have waited := below.trans (left_suffix move e.waits)
        obtain ⟨prior, made, before, later, began, first, second, begun⟩ := ih waited
        exact ⟨prior, made, before, _, began.next waited, first, second.next known, begun⟩

end Engine

end LiveTables
