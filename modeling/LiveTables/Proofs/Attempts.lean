import LiveTables.Proofs.CompletePass

namespace LiveTables

namespace Outcome

variable {α : Type}

def isDone : Outcome α → Bool
  | done _ => true
  | _ => false

def isFailed : Outcome α → Bool
  | failed _ => true
  | _ => false

def isFaulted : Outcome α → Bool
  | faulted _ => true
  | _ => false

/-- What gives no result ends with an error or abruptly. -/
theorem countP_not_isDone (endings : List (Outcome α)) : endings.countP (!·.isDone) =
    endings.countP isFailed + endings.countP isFaulted := by
  induction endings with
  | nil => rfl
  | cons ending rest ih =>
    rw [List.countP_cons, List.countP_cons, List.countP_cons, ih]
    cases ending <;> simp [isDone, isFailed, isFaulted] <;> omega

theorem countP_isFaulted_eq_zero {endings : List (Outcome α)} :
    endings.countP isFaulted = 0 ↔ ∀ fault, .faulted fault ∉ endings := by
  rw [List.countP_eq_zero]
  constructor
  · intro none fault member
    exact none _ member rfl
  · intro none ending member faulted
    cases ending with
    | faulted fault => exact none fault member
    | done _ | failed _ => cases faulted

end Outcome

namespace Store

/-- The ends of reloads that a store has counted: those that published, and those with an error. -/
structure Counts (it : Store) (endings : List (Outcome Nat)) : Prop where
  reloads : it.stats.reloads = endings.countP Outcome.isDone
  failedReloads : it.stats.failedReloads = endings.countP Outcome.isFailed

variable {it : Store} {endings : List (Outcome Nat)}

/-- A reload counts its own end: one that publishes, or one with an error, but not an abrupt one. -/
theorem Counts.conclude (counts : it.Counts endings) (plan : Plan)
    (given : Outcome (List Record)) :
    (it.conclude plan given).1.Counts ((it.conclude plan given).2 :: endings) := by
  obtain ⟨reloads, failedReloads⟩ := counts
  rcases it.conclude_cases plan given with ⟨_, _, _, _, _, run⟩ | ⟨_, _, run⟩ | ⟨_, _, run⟩
  · rw [run]
    exact ⟨(congrArg (· + 1) reloads).trans (List.countP_cons_of_pos rfl).symm, failedReloads⟩
  · rw [run]
    exact ⟨reloads, (congrArg (· + 1) failedReloads).trans (List.countP_cons_of_pos rfl).symm⟩
  · rw [run]
    exact ⟨reloads, failedReloads⟩

/-- Calls by themselves count nothing; reloads are counted when they end. -/
theorem Counts.call (counts : it.Counts endings) (s : StoreId) (c : Call) :
    (c.change s it).Counts endings := by
  rcases c.change_cases s it with
    same | ⟨_, same⟩ | ⟨_, _, _, same⟩ | ⟨_, _, same⟩ | ⟨_, _, _, same⟩
  all_goals rw [same]
  all_goals exact ⟨counts.reloads, counts.failedReloads⟩

theorem IsFresh.counts (fresh : it.IsFresh) : it.Counts [] := by
  obtain ⟨type, location, loader, rfl⟩ := fresh
  exact ⟨rfl, rfl⟩

end Store

namespace Engine

/-- How a reload of a store ends, if a move ends one. -/
def ending? (e : Engine) (s : StoreId) (move : Move) : Option (Outcome Nat) :=
  match move, e.waits with
  | .loaded given, .load load :: _ =>
    if load.store = s then some ((e.world.store s).conclude load.plan given).2 else none
  | _, _ => none

/-- How the reloads of a store have ended in a run, the latest first. -/
def endings (s : StoreId) (past : List (Engine × Move)) : List (Outcome Nat) :=
  past.filterMap fun made => made.1.ending? s made.2

/-- Whether a reload of a store begins with a move: it waits above all that the move has left. -/
def begins (e : Engine) (s : StoreId) (move : Move) : Bool :=
  match (e.step move).1.waits with
  | .load load :: rest => load.store = s && rest.length = (move.left e.waits).length
  | _ => false

/-- How many reloads of a store have begun in a run, whoever began them and whatever they are nested
in. -/
def attempts (s : StoreId) (past : List (Engine × Move)) : Nat :=
  past.countP fun made => made.1.begins s made.2

variable {e : Engine} {past : List (Engine × Move)} {move : Move}

theorem endings_cons (s : StoreId) (e : Engine) (move : Move) (past : List (Engine × Move)) :
    endings s ((e, move) :: past) = (e.ending? s move).toList ++ endings s past := by
  cases ended : e.ending? s move with
  | none => simp [endings, ended]
  | some ending => simp [endings, ended]

theorem ending?_of_new (sound : e.Sound) {s : Nat} (new : e.world.stores.length ≤ s)
    (move : Move) : e.ending? s move = none := by
  unfold ending?
  split
  · rename_i top
    refine if_neg ?_
    rintro rfl
    exact absurd (sound.top_within top).store (Nat.not_lt_of_le new)
  · rfl

theorem Reach.endings_of_new (reach : Reach {} e past) {s : Nat}
    (new : e.world.stores.length ≤ s) : endings s past = [] := by
  induction reach with
  | start => rfl
  | @next e past move reach known ih =>
    have earlier := Nat.le_trans (length_step_le reach.sound known) new
    rw [endings_cons, ending?_of_new reach.sound earlier, ih earlier]
    rfl

/-- Counts and ends stay in step with every move. -/
theorem step_counts (sound : e.Sound) (known : move.Known e.world) {s : Nat}
    (inRange : s < e.world.stores.length) {endings : List (Outcome Nat)}
    (counts : (e.world.store s).Counts endings) :
    ((e.step move).1.world.store s).Counts ((e.ending? s move).toList ++ endings) := by
  rw [step_store sound known inRange]
  unfold Move.change ending?
  cases move with
  | call c => exact counts.call s c
  | heard _ => exact counts
  | found _ => exact counts
  | loaded given =>
    rcases e.waits with _ | ⟨load | _ | _, rest⟩
    · exact counts
    · by_cases same : load.store = s
      · simp only [same, if_true]
        exact counts.conclude load.plan given
      · simp only [same, if_false]
        exact counts
    · exact counts
    · exact counts

theorem Reach.counts (reach : Reach {} e past) {s : Nat} (inRange : s < e.world.stores.length) :
    (e.world.store s).Counts (endings s past) := by
  induction reach with
  | start => exact absurd inRange (Nat.not_lt_zero s)
  | @next e past move reach known ih =>
    rw [endings_cons]
    by_cases old : s < e.world.stores.length
    · exact step_counts reach.sound known old (ih old)
    · -- A store that this move makes: no reload of it can have ended.
      have new := Nat.le_of_not_lt old
      rw [ending?_of_new reach.sound new, reach.endings_of_new new]
      exact (step_new_store reach.sound known inRange new).counts

/-- Of the reloads under way a move leaves all but the one that it ends. -/
theorem length_left (e : Engine) (s : StoreId) (move : Move) : (e.inFlight s).length =
    ((move.left e.waits).filterMap (Wait.planOf s)).length + (e.ending? s move).toList.length := by
  unfold inFlight Move.left ending?
  cases move with
  | call c => rfl
  | loaded given =>
    rcases e.waits with _ | ⟨load | _ | _, rest⟩
    · rfl
    · by_cases same : load.store = s
      · simp [Wait.planOf, same]
      · simp [Wait.planOf, same]
    · rfl
    · rfl
  | heard _ => rcases e.waits with _ | ⟨_ | _ | _, rest⟩ <;> rfl
  | found _ => rcases e.waits with _ | ⟨_ | _ | _, rest⟩ <;> rfl

/-- Beside what a move leaves, the reload that it begins is under way. -/
theorem length_inFlight_step (sound : e.Sound) (known : move.Known e.world) (s : StoreId) :
    ((e.step move).1.inFlight s).length =
      ((move.left e.waits).filterMap (Wait.planOf s)).length + (e.begins s move).toNat := by
  unfold inFlight begins
  rcases step_waits sound known with same | ⟨wait, above, _⟩
  · rw [same]
    cases top : move.left e.waits with
    | nil => rfl
    | cons wait rest =>
      -- Nothing waits above what was left, so what is on top there began earlier.
      cases wait with
      | load load => simp
      | listener _ => rfl
      | discovery _ => rfl
  · rw [above]
    cases wait with
    | load load =>
      by_cases same : load.store = s
      · simp [Wait.planOf, same]
      · simp [Wait.planOf, same]
    | listener _ => rfl
    | discovery _ => rfl

/-- Every reload that has begun has ended once or is under way. -/
theorem Reach.attempts_eq (reach : Reach {} e past) (s : StoreId) :
    attempts s past = (endings s past).length + (e.inFlight s).length := by
  induction reach with
  | start => rfl
  | @next e past move reach known ih =>
    have before := e.length_left s move
    have after := length_inFlight_step reach.sound known s
    rw [attempts, List.countP_cons, ← attempts, ih, endings_cons, List.length_append, after, before]
    cases e.begins s move <;> simp <;> omega

/-- A reload of a pass raises one count of its store at most, by one: that of failures exactly if it
ends with an error. The report lists it as failed if it does not publish. -/
theorem Reach.passReload_counts (reach : Reach {} e past) {level : Nat} {it : PassReload}
    (member : it ∈ passReloads level past) :
    (it.failed?.isSome = !it.ending.isDone) ∧
      it.after.stats.reloads = it.before.stats.reloads + it.ending.isDone.toNat ∧
      it.after.stats.failedReloads = it.before.stats.failedReloads + it.ending.isFailed.toNat := by
  obtain ⟨made, ⟨below, top⟩, _⟩ := mem_passReloads member
  obtain ⟨_, _, prior⟩ := reach.of_mem made
  have after : it.after = (it.before.conclude it.load.plan it.given).1 :=
    step_concludes prior.sound top it.given
  have ended : it.ending = (it.before.conclude it.load.plan it.given).2 := rfl
  rw [PassReload.failed?, after, ended]
  rcases it.before.conclude_cases it.load.plan it.given with
    ⟨_, _, _, _, _, run⟩ | ⟨_, _, run⟩ | ⟨_, _, run⟩
  all_goals rw [run]
  all_goals exact ⟨rfl, rfl, rfl⟩

/-- A store counts the reloads that publish and those that end with an error, whoever began them and
however they nest. All that began have ended once or are under way. So while none is under way, the
failures counted are those that did not publish, and the two counts add up to all attempts, exactly
if no reload of the store has ended abruptly; an abrupt end is listed by the report of its pass, but
counted nowhere. -/
theorem Reach.attempts_counted (reach : Reach {} e past) {s : Nat}
    (inRange : s < e.world.stores.length) :
    (e.world.store s).stats.reloads = (endings s past).countP Outcome.isDone ∧
    (e.world.store s).stats.failedReloads = (endings s past).countP Outcome.isFailed ∧
    attempts s past = (endings s past).length + (e.inFlight s).length ∧
    (e.inFlight s = [] →
      ((e.world.store s).stats.failedReloads = (endings s past).countP (!·.isDone) ↔
        ∀ fault, .faulted fault ∉ endings s past) ∧
      ((e.world.store s).stats.reloads + (e.world.store s).stats.failedReloads =
        attempts s past ↔ ∀ fault, .faulted fault ∉ endings s past)) ∧
    ∀ level, ∀ it ∈ passReloads level past, it.load.store = s →
      (it.failed?.isSome = !it.ending.isDone) ∧
      it.after.stats.reloads = it.before.stats.reloads + it.ending.isDone.toNat ∧
      it.after.stats.failedReloads =
        it.before.stats.failedReloads + it.ending.isFailed.toNat := by
  obtain ⟨reloads, failedReloads⟩ := reach.counts inRange
  have all := reach.attempts_eq s
  have parts := List.length_eq_countP_add_countP Outcome.isDone (l := endings s past)
  have others := Outcome.countP_not_isDone (endings s past)
  refine ⟨reloads, failedReloads, all, fun none => ?_, fun level it member _ =>
    reach.passReload_counts member⟩
  simp only [Bool.not_eq_true, Bool.decide_eq_false] at parts
  rw [none, List.length_nil] at all
  rw [← Outcome.countP_isFaulted_eq_zero, reloads, failedReloads]
  constructor
  · omega
  · omega

/-- The loader of a pass reloads its own table once more, in vain, and then gives its batch. -/
def failedWithin : List Move :=
  [.call (.makeRegistry (.text "items")), .call (.ensure 0 itemType 0), .call (.reloadAll 0),
    .call (.reload 0), .loaded (.failed (.io "gone")), .loaded (.done [goodItem])]

theorem failed_within_balanced :
    let e := ({} : Engine).run failedWithin
    (e.world.store 0).stats.reloads + (e.world.store 0).stats.failedReloads =
      attempts 0 (({} : Engine).trail failedWithin) := by
  have plays : ({} : Engine).Plays failedWithin := by decide
  obtain ⟨_, _, _, balance, _⟩ := (reach_run plays).attempts_counted (by decide : 0 < 1)
  refine (balance rfl).2.mpr fun fault member => ?_
  have none : Outcome.faulted fault ∉ [.done 1, .failed (.io "gone")] := by simp
  exact none member

/-- The loader of a pass ends abruptly. -/
def brokenOff : List Move :=
  [.call (.makeRegistry (.text "items")), .call (.ensure 0 itemType 0), .call (.reloadAll 0),
    .loaded (.faulted (.text "boom"))]

/-- The report lists the reload as failed, and nothing is counted. -/
theorem broken_off_uncounted :
    let e := ({} : Engine).run brokenOff
    let past := ({} : Engine).trail brokenOff
    ({} : Engine).Plays brokenOff ∧ e.inFlight 0 = [] ∧
    lastReply past = some (.passed ⟨[], [⟨"Item", "panicked: boom"⟩], []⟩) ∧
    attempts 0 past = 1 ∧ (endings 0 past).countP (!·.isDone) = 1 ∧
    (e.world.store 0).stats.reloads = 0 ∧ (e.world.store 0).stats.failedReloads = 0 :=
  ⟨by decide, rfl, rfl, rfl, rfl, rfl, rfl⟩

end Engine

end LiveTables
