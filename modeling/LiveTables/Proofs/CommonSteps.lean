import LiveTables.Proofs.AlikeCalls

namespace LiveTables

/-- Two reloads of passes are for the same type, and they end alike unless that is left open. -/
structure PassReload.Agree (free : PassReload → Prop) (it it' : PassReload) : Prop where
  type : it'.type = it.type
  store : it'.load.store = it.load.store
  ending : ¬free it → it'.ending = it.ending

/-- A call waits for the loader of a store that it reloads alone. -/
def Wait.isDirect (a : StoreId) : Wait → Bool
  | .load ⟨s, _, .answer⟩ => s = a
  | _ => false

/-- What a move is in runs that can differ in the use of one store. Of a turn of this store in a
pass it is open what the loader gave, and of the call of a listener how it ended. -/
inductive CommonMove where
  | call (c : Call)
  | turn
  | loaded (outcome : Outcome (List Record))
  | heard
  | found (bindings : List Binding)

/-- What it is to end the outside work that a call waits for, unless the call is a single reload of
the one store. -/
inductive Wait.Shows (a : StoreId) : Wait → Move → CommonMove → Prop
  | loaded (load : LoadWait) (outcome : Outcome (List Record)) : load.store ≠ a →
      Shows a (.load load) (.loaded outcome) (.loaded outcome)
  | turn (load : LoadWait) (outcome : Outcome (List Record)) {type : RecordType} {pass : Pass} :
      load.store = a → load.purpose = .pass type pass →
      Shows a (.load load) (.loaded outcome) .turn
  | heard (wait : ListenerWait) (outcome : Outcome Unit) :
      Shows a (.listener wait) (.heard outcome) .heard
  | found (wait : DiscoveryWait) (bindings : List Binding) :
      Shows a (.discovery wait) (.found bindings) (.found bindings)

theorem Wait.Shows.not_isDirect {a : StoreId} {wait : Wait} {move : Move} {common : CommonMove}
    (shows : wait.Shows a move common) : wait.isDirect a = false := by
  cases shows with
  | loaded load outcome other =>
    obtain ⟨s, plan, purpose⟩ := load
    cases purpose with
    | answer => exact decide_eq_false other
    | pass type pass => rfl
  | turn load outcome own purpose =>
    obtain ⟨s, plan, _⟩ := load
    cases purpose
    rfl
  | heard | found => rfl

theorem Wait.Agree.not_isDirect {a : StoreId} {xs ys : List PassReload} {wait wait' : Wait}
    (agree : wait.Agree a xs ys wait') :
    wait.isDirect a = false ∧ wait'.isDirect a = false := by
  cases agree with
  | direct other plan => exact ⟨decide_eq_false other, decide_eq_false other⟩
  | turn | listener | discovery => exact ⟨rfl, rfl⟩

namespace Engine

/-- What a move is beside the use of one store: nothing if it uses this store, and nothing if it
does nothing. -/
def common? (a : StoreId) (e : Engine) (move : Move) : Option CommonMove :=
  match move, e.waits with
  | .call c, _ => if c.isOn a then none else some (.call c)
  | .loaded outcome, .load load :: _ =>
    if load.store = a then
      match load.purpose with
      | .answer => none
      | .pass .. => some .turn
    else some (.loaded outcome)
  | .heard _, .listener _ :: _ => some .heard
  | .found bindings, .discovery _ :: _ => some (.found bindings)
  | _, _ => none

/-- The reloads that have ended of the call above so many waits, since it was made. -/
def ownReloads (level : Nat) (past : List (Engine × Move)) : List PassReload :=
  passReloads level (past.takeWhile fun made => level < made.1.waits.length)

end Engine

/-- A move of a run beside the use of one store: what it is, what it answers, and the reloads so far
of the call that it makes or takes further. -/
structure CommonStep where
  move : CommonMove
  reply : Option Reply
  reloads : List PassReload

/-- Two moves of two runs are the same, with the same answer. If the answer is a report, it accounts
in each run for the reloads of its own pass, and these agree. -/
structure CommonStep.Agree (free : PassReload → Prop) (first second : CommonStep) : Prop where
  move : second.move = first.move
  reloads : List.Forall₂ (PassReload.Agree free) first.reloads second.reloads
  reply : Option.Rel (Reply.Agree first.reloads second.reloads) first.reply second.reply

theorem CommonStep.Agree.imp {free free' : PassReload → Prop} {first second : CommonStep}
    (agree : first.Agree free second) (weaker : ∀ it ∈ first.reloads, free it → free' it) :
    first.Agree free' second where
  move := agree.move
  reloads := by
    refine ((List.forall₂_and_left _ _).mpr ⟨weaker, agree.reloads⟩).imp ?_
    rintro it it' ⟨weaker, agree⟩
    exact ⟨agree.type, agree.store, fun fixed => agree.ending fun own => fixed (weaker own)⟩
  reply := agree.reply

namespace Engine

def commonStep (common : CommonMove) (e : Engine) (move : Move) (past : List (Engine × Move)) :
    CommonStep where
  move := common
  reply := (e.step move).2
  reloads := ownReloads (move.left e.waits).length ((e, move) :: past)

/-- What is done in a run beside the use of one store, the latest first. -/
def commonSteps (a : StoreId) : List (Engine × Move) → List CommonStep
  | [] => []
  | (e, move) :: past =>
    match e.common? a move with
    | none => commonSteps a past
    | some common => commonStep common e move past :: commonSteps a past

variable {a : StoreId} {e f : Engine} {move move' : Move} {common : CommonMove}
  {one two : List (Engine × Move)}

/-- A move that is something beside the use of a store is a call of something else, or it ends what
a call waits for that is no single reload of the store. -/
theorem common?_eq_some (seen : e.common? a move = some common) :
    (∃ c, move = .call c ∧ c.isOn a = false ∧ common = .call c) ∨
    ∃ own rest, e.waits = own :: rest ∧ own.Shows a move common := by
  unfold common? at seen
  split at seen
  · rename_i c
    split at seen
    · cases seen
    · rename_i beside
      cases seen
      exact Or.inl ⟨c, rfl, Bool.eq_false_iff.mpr beside, rfl⟩
  · rename_i outcome load rest top
    refine Or.inr ⟨_, rest, top, ?_⟩
    split at seen
    · rename_i own
      split at seen
      · cases seen
      · rename_i purpose
        cases seen
        exact .turn load outcome own purpose
    · rename_i other
      cases seen
      exact .loaded load outcome other
  · rename_i top
    cases seen
    exact Or.inr ⟨_, _, top, .heard _ _⟩
  · rename_i top
    cases seen
    exact Or.inr ⟨_, _, top, .found _ _⟩
  · cases seen

/-- A move that is nothing beside the use of a store is a call on it, or the end of a single reload
of it, or it does nothing at all. -/
theorem common?_eq_none (unseen : e.common? a move = none) :
    (∃ c, move = .call c ∧ c.isOn a = true) ∨
    (∃ load rest given, e.waits = .load load :: rest ∧ move = .loaded given ∧
      load.store = a ∧ load.purpose = .answer) ∨
    e.Idle move ∧ e.step move = (e, none) := by
  rcases e.step_forms move with ⟨c, rfl⟩ | ⟨own, rest, next, top, goes, _⟩ | idle
  · refine Or.inl ⟨c, rfl, ?_⟩
    simpa [common?] using unseen
  · refine Or.inr (Or.inl ?_)
    cases goes with
    | loaded load given =>
      simp only [common?, top] at unseen
      split at unseen
      · rename_i own
        split at unseen
        · rename_i purpose
          exact ⟨load, rest, given, top, rfl, own, purpose⟩
        · cases unseen
      · cases unseen
    | heard | found =>
      simp only [common?, top] at unseen
      cases unseen
  · exact Or.inr (Or.inr idle)

theorem ownReloads_call (e : Engine) (c : Call) (past : List (Engine × Move)) :
    ownReloads e.waits.length ((e, .call c) :: past) = [] := by
  rw [ownReloads, List.takeWhile_cons_of_neg (by simp)]
  rfl

/-- A call keeps its reloads when it goes on, and may add one. -/
theorem ownReloads_goes {own : Wait} {rest : List Wait} (top : e.waits = own :: rest) (move : Move)
    (past : List (Engine × Move)) : ownReloads rest.length ((e, move) :: past) =
      ownReloads rest.length past ++ (passReload? rest.length (e, move)).toList := by
  rw [ownReloads, List.takeWhile_cons_of_pos (by simp [top]), passReloads, filterMap_reverse_cons]
  rfl

theorem ownReloads_of_none {own : Wait} {rest : List Wait} (top : e.waits = own :: rest)
    (nothing : passReload? rest.length (e, move) = none) (past : List (Engine × Move)) :
    ownReloads rest.length ((e, move) :: past) = ownReloads rest.length past := by
  rw [ownReloads_goes top, nothing]
  exact List.append_nil _

/-- A move ends no reload of the calls that it leaves waiting. -/
theorem ownReloads_later {level : Nat} (below : level < (move.left e.waits).length)
    (past : List (Engine × Move)) :
    ownReloads level ((e, move) :: past) = ownReloads level past := by
  have within := Nat.lt_of_lt_of_le below (left_suffix move e.waits).length_le
  have nothing : passReload? level (e, move) = none := by
    unfold passReload?
    split
    · rename_i given load rest ended top
      obtain rfl : move = .loaded given := ended
      obtain top : e.waits = .load load :: rest := top
      split
      · rw [top] at below
        exact if_neg (Nat.ne_of_gt below)
      · rfl
    · rfl
  rw [ownReloads, List.takeWhile_cons_of_pos (by simpa using within),
    passReloads_cons_of_none nothing]
  rfl

/-- The calls that wait, each with its own reloads so far. -/
def stack (past : List (Engine × Move)) : List Wait → List (Wait × List PassReload)
  | [] => []
  | wait :: rest => (wait, ownReloads rest.length past) :: stack past rest

theorem stack_later {waits : List Wait} (left : waits.length ≤ (move.left e.waits).length)
    (past : List (Engine × Move)) : stack ((e, move) :: past) waits = stack past waits := by
  induction waits with
  | nil => rfl
  | cons wait rest ih =>
    rw [stack, stack, ownReloads_later left, ih (Nat.le_of_succ_le left)]

/-- The calls that wait and are no single reloads of the one store, with their own reloads. -/
def others (a : StoreId) (past : List (Engine × Move)) (waits : List Wait) :
    List (Wait × List PassReload) :=
  (stack past waits).filter fun it => !it.1.isDirect a

theorem others_cons {wait : Wait} (beside : wait.isDirect a = false) (rest : List Wait)
    (past : List (Engine × Move)) : others a past (wait :: rest) =
      (wait, ownReloads rest.length past) :: others a past rest :=
  List.filter_cons_of_pos (by simp [beside])

theorem others_cons_of_isDirect {wait : Wait} (own : wait.isDirect a = true) (rest : List Wait)
    (past : List (Engine × Move)) : others a past (wait :: rest) = others a past rest :=
  List.filter_cons_of_neg (by simp [own])

/-- A move leaves the calls that go on waiting with the reloads that they had. -/
theorem others_left (a : StoreId) (e : Engine) (move : Move) (past : List (Engine × Move)) :
    others a ((e, move) :: past) (move.left e.waits) = others a past (move.left e.waits) := by
  rw [others, others, stack_later (Nat.le_refl _)]

/-- Two calls wait alike, after reloads that agree but for those of the one store. -/
structure WaitsAlike (a : StoreId) (x y : Wait × List PassReload) : Prop where
  wait : x.1.Agree a x.2 y.2 y.1
  reloads : List.Forall₂ (PassReload.Agree fun it => it.load.store = a) x.2 y.2

/-- Two engines agree beside the use of one store: so do their worlds, and what waits in them
without being a single reload of this store. -/
structure Agree (a : StoreId) (one two : List (Engine × Move)) (e f : Engine) : Prop where
  world : e.world.Agree a f.world
  waits : List.Forall₂ (WaitsAlike a) (others a one e.waits) (others a two f.waits)

/-- A move that is nothing beside the use of one store is seen in this store only. -/
theorem step_unseen (unseen : e.common? a move = none) (past : List (Engine × Move)) :
    e.world.Agree a (e.step move).1.world ∧
      others a ((e, move) :: past) (e.step move).1.waits = others a past e.waits := by
  have left := others_left a e move past
  rcases common?_eq_none unseen with
    ⟨c, rfl, own⟩ | ⟨load, rest, given, top, rfl, own, purpose⟩ | ⟨idle, run⟩
  · obtain ⟨agree, ⟨reply, run⟩ | ⟨plan, run⟩⟩ := e.world.begin_isOn own
    · rw [step_call, advance_world]
      refine ⟨agree, ?_⟩
      simp only [advance, run]
      exact left
    · rw [step_call, advance_world]
      refine ⟨agree, ?_⟩
      simp only [advance, run]
      rw [others_cons_of_isDirect (by simp [Wait.isDirect])]
      exact left
  · rw [step_goes top (.loaded load given), advance_world]
    obtain ⟨s, plan, _⟩ := load
    obtain rfl : _ = ReloadPurpose.answer := purpose
    obtain rfl : s = a := own
    rw [top] at left ⊢
    rw [others_cons_of_isDirect (by simp [Wait.isDirect])]
    exact ⟨.of_own_concludeReload e.world s plan given, left⟩
  · rw [idle.left] at left
    rw [run]
    exact ⟨.refl a e.world, left⟩

/-- In engines that agree, calls on top that are seen beside the use of the store wait alike. -/
theorem Agree.top (agree : e.Agree a one two f) {own own' : Wait} {rest rest' : List Wait}
    (top : e.waits = own :: rest) (top' : f.waits = own' :: rest')
    (beside : own.isDirect a = false) (beside' : own'.isDirect a = false) :
    WaitsAlike a (own, ownReloads rest.length one) (own', ownReloads rest'.length two) ∧
      List.Forall₂ (WaitsAlike a) (others a one rest) (others a two rest') := by
  have waits := agree.waits
  rw [top, top', others_cons beside, others_cons beside'] at waits
  exact List.forall₂_cons.mp waits

/-- Two moves keep engines in agreement if the calls that they make or take further go on alike. -/
theorem step_alike {rest rest' : List Wait} {next next' : World × Progress}
    (left : move.left e.waits = rest) (left' : move'.left f.waits = rest')
    (run : e.step move = advance rest next) (run' : f.step move' = advance rest' next')
    (waits : List.Forall₂ (WaitsAlike a) (others a one rest) (others a two rest'))
    (reloads : List.Forall₂ (PassReload.Agree fun it => it.load.store = a)
      (ownReloads rest.length ((e, move) :: one)) (ownReloads rest'.length ((f, move') :: two)))
    (alike : World.GoAlike a (ownReloads rest.length ((e, move) :: one))
      (ownReloads rest'.length ((f, move') :: two)) next next') (common : CommonMove) :
    (e.step move).1.Agree a ((e, move) :: one) ((f, move') :: two) (f.step move').1 ∧
      (commonStep common e move one).Agree (fun it => it.load.store = a)
        (commonStep common f move' two) := by
  subst left left'
  have waits : List.Forall₂ (WaitsAlike a) (others a ((e, move) :: one) (move.left e.waits))
      (others a ((f, move') :: two) (move'.left f.waits)) := by
    rw [others_left, others_left]
    exact waits
  obtain ⟨w, progress⟩ := next
  obtain ⟨v, progress'⟩ := next'
  obtain ⟨world, progresses⟩ := alike
  simp only [commonStep]
  rw [run, run']
  cases progresses with
  | done replies => exact ⟨⟨world, waits⟩, ⟨rfl, reloads, .some replies⟩⟩
  | waiting tops =>
    refine ⟨⟨world, ?_⟩, ⟨rfl, reloads, .none⟩⟩
    obtain ⟨beside, beside'⟩ := tops.not_isDirect
    simp only [advance]
    rw [others_cons beside, others_cons beside']
    exact .cons ⟨tops, reloads⟩ waits

/-- Two turns of passes end alike if they are turns of another store than the one, in worlds that
agree beside it. -/
theorem turns_agree (agree : e.world.Agree a f.world) {load load' : LoadWait}
    {rest rest' : List Wait} (top : e.waits = .load load :: rest)
    (top' : f.waits = .load load' :: rest') {xs ys : List PassReload}
    (alike : WaitsAlike a (.load load, xs) (.load load', ys))
    {given given' : Outcome (List Record)} (same : load.store ≠ a → given' = given) :
    List.Forall₂ (PassReload.Agree fun it => it.load.store = a)
      (xs ++ (passReload? rest.length (e, .loaded given)).toList)
      (ys ++ (passReload? rest'.length (f, .loaded given')).toList) := by
  refine List.rel_append alike.reloads ?_
  have waits := alike.wait
  cases waits with
  | direct other plan => simp [passReload?, top, top']
  | turn type plans reports =>
    rw [passReload?_of_top top rfl, passReload?_of_top top' rfl]
    refine .cons ⟨rfl, rfl, fun other => ?_⟩ .nil
    simp only [PassReload.ending, PassReload.before]
    rw [agree.store _ other, plans other, same other]

/-- The ends of two reloads that are the same beside the use of the store keep the engines in
agreement. -/
theorem loaded_alike (agree : e.Agree a one two f) {load load' : LoadWait} {rest rest' : List Wait}
    (top : e.waits = .load load :: rest) (top' : f.waits = .load load' :: rest')
    (beside : (Wait.load load).isDirect a = false) (beside' : (Wait.load load').isDirect a = false)
    {given given' : Outcome (List Record)} (same : load.store ≠ a → given' = given)
    (common : CommonMove) :
    (e.step (.loaded given)).1.Agree a ((e, .loaded given) :: one) ((f, .loaded given') :: two)
        (f.step (.loaded given')).1 ∧
      (commonStep common e (.loaded given) one).Agree (fun it => it.load.store = a)
        (commonStep common f (.loaded given') two) := by
  obtain ⟨tops, waits⟩ := agree.top top top' beside beside'
  have goes := Wait.Goes.loaded (w := e.world) load given
  have goes' := Wait.Goes.loaded (w := f.world) load' given'
  have ended := ownReloads_goes top (.loaded given) one
  have ended' := ownReloads_goes top' (.loaded given') two
  refine step_alike (top ▸ goes.left rest) (top' ▸ goes'.left rest') (step_goes top goes)
    (step_goes top' goes') waits ?_ ?_ common
  · rw [ended, ended']
    exact turns_agree agree.world top top' tops same
  · refine agree.world.loaded tops.wait same (fun type pass purpose => ?_)
      fun type pass purpose => ?_
    · rw [ended, passReload?_of_top top purpose]
      rfl
    · rw [ended', passReload?_of_top top' purpose]
      rfl

/-- A listener has ended in both runs, in whatever ways. -/
theorem heard_alike (agree : e.Agree a one two f) {wait wait' : ListenerWait}
    {rest rest' : List Wait} (top : e.waits = .listener wait :: rest)
    (top' : f.waits = .listener wait' :: rest') (outcome outcome' : Outcome Unit)
    (common : CommonMove) :
    (e.step (.heard outcome)).1.Agree a ((e, .heard outcome) :: one) ((f, .heard outcome') :: two)
        (f.step (.heard outcome')).1 ∧
      (commonStep common e (.heard outcome) one).Agree (fun it => it.load.store = a)
        (commonStep common f (.heard outcome') two) := by
  obtain ⟨tops, waits⟩ := agree.top top top' rfl rfl
  have goes := Wait.Goes.heard (w := e.world) wait outcome
  have goes' := Wait.Goes.heard (w := f.world) wait' outcome'
  refine step_alike (top ▸ goes.left rest) (top' ▸ goes'.left rest') (step_goes top goes)
    (step_goes top' goes') waits ?_ ?_ common
  · rw [ownReloads_of_none top rfl, ownReloads_of_none top' rfl]
    exact tops.reloads
  · rw [ownReloads_of_none top rfl, ownReloads_of_none top' rfl]
    exact agree.world.heard tops.wait outcome outcome'

/-- Discovery has found the same bindings in both runs. -/
theorem found_alike (agree : e.Agree a one two f) {wait wait' : DiscoveryWait}
    {rest rest' : List Wait} (top : e.waits = .discovery wait :: rest)
    (top' : f.waits = .discovery wait' :: rest') (bindings : List Binding) (common : CommonMove) :
    (e.step (.found bindings)).1.Agree a ((e, .found bindings) :: one)
        ((f, .found bindings) :: two) (f.step (.found bindings)).1 ∧
      (commonStep common e (.found bindings) one).Agree (fun it => it.load.store = a)
        (commonStep common f (.found bindings) two) := by
  obtain ⟨⟨tops, reloads⟩, waits⟩ := agree.top top top' rfl rfl
  have goes := Wait.Goes.found (w := e.world) wait bindings
  have goes' := Wait.Goes.found (w := f.world) wait' bindings
  refine step_alike (top ▸ goes.left rest) (top' ▸ goes'.left rest') (step_goes top goes)
    (step_goes top' goes') waits ?_ ?_ common
  · rw [ownReloads_of_none top rfl, ownReloads_of_none top' rfl]
    exact reloads
  · rw [ownReloads_of_none top rfl, ownReloads_of_none top' rfl]
    cases tops with
    | discovery _ nothing nothing' =>
      -- Nothing has been reloaded yet by a pass that still discovers.
      have nothing : ownReloads rest.length one = [] := nothing
      have nothing' : ownReloads rest'.length two = [] := nothing'
      rw [nothing, nothing']
      exact agree.world.found wait.coordinator bindings

/-- Two moves that are the same beside the use of one store do the same there. -/
theorem step_common (agree : e.Agree a one two f) (seen : e.common? a move = some common)
    (seen' : f.common? a move' = some common) :
    (e.step move).1.Agree a ((e, move) :: one) ((f, move') :: two) (f.step move').1 ∧
      (commonStep common e move one).Agree (fun it => it.load.store = a)
        (commonStep common f move' two) := by
  rcases common?_eq_some seen with ⟨c, rfl, beside, rfl⟩ | ⟨own, rest, top, shows⟩
  · rcases common?_eq_some seen' with ⟨_, rfl, _, same⟩ | ⟨_, _, _, shows'⟩
    · cases same
      have left (waits : List Wait) : (Move.call c).left waits = waits := rfl
      refine step_alike (left e.waits) (left f.waits) rfl rfl agree.waits ?_ ?_ _
      · rw [ownReloads_call, ownReloads_call]
        exact .nil
      · rw [ownReloads_call, ownReloads_call]
        exact agree.world.begin beside
    · cases shows'
  · rcases common?_eq_some seen' with ⟨_, rfl, _, rfl⟩ | ⟨own', rest', top', shows'⟩
    · cases shows
    · have beside := shows.not_isDirect
      have beside' := shows'.not_isDirect
      cases shows with
      | loaded load given other =>
        cases shows' with
        | loaded load' _ _ =>
          exact loaded_alike agree top top' beside beside' (fun _ => rfl) _
      | turn load given own _ =>
        cases shows' with
        | turn load' given' _ _ =>
          exact loaded_alike agree top top' beside beside' (absurd own) _
      | heard wait outcome =>
        cases shows' with
        | heard wait' outcome' => exact heard_alike agree top top' outcome outcome' _
      | found wait bindings =>
        cases shows' with
        | found wait' _ => exact found_alike agree top top' bindings _

end Engine

end LiveTables
