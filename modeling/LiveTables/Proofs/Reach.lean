import LiveTables.Engine

namespace LiveTables

/-- What is read off a history, the earliest first, grows at its end. -/
theorem filterMap_reverse_cons {α β : Type} (f : α → Option β) (x : α) (xs : List α) :
    (x :: xs).reverse.filterMap f = xs.reverse.filterMap f ++ (f x).toList := by
  rw [List.reverse_cons, List.filterMap_append]
  cases found : f x with
  | none => simp [found]
  | some y => simp [found]

/-- The objects that a call is made on exist. -/
def Call.Known (w : World) : Call → Prop
  | .makeStore .. | .makeRegistry _ | .makeHub | .makeBound .. | .makeCoordinator _ none _ => True
  | .makeCoordinator _ (some r) _ | .ensure r _ _ | .ensureBinding r _ | .reloadAll r =>
    r < w.registries.length
  | .reload s | .registerIndex s _ | .append s _ _ _ | .applyToGeneration s _ _
  | .listInGeneration s _ _ _ => s < w.stores.length
  | .register h _ | .notify h => h < w.hubs.length
  | .queue c _ | .initialLoad c | .refresh c => c < w.coordinators.length

/-- The objects that a move names exist. Only calls name any. -/
def Move.Known (w : World) : Move → Prop
  | .call c => c.Known w
  | _ => True

theorem Move.known_loaded (w : World) (outcome : Outcome (List Record)) :
    (Move.loaded outcome).Known w := trivial

namespace Engine

/-- Runs from one state to another, made of moves on objects that exist. The moves stand with the
states they were made in, the latest first, so that what happened can be read off them. -/
inductive Reach (start : Engine) : Engine → List (Engine × Move) → Prop
  | start : Reach start start []
  | next {e : Engine} {past : List (Engine × Move)} {move : Move} : Reach start e past →
      move.Known e.world → Reach start (e.step move).1 ((e, move) :: past)

theorem Reach.trans {start middle e : Engine} {past later : List (Engine × Move)}
    (first : Reach start middle past) (second : Reach middle e later) :
    Reach start e (later ++ past) := by
  induction second with
  | start => exact first
  | next _ known ih => exact ih.next known

/-- A run can be cut at any state that it goes through. -/
theorem Reach.split {start e : Engine} {later past : List (Engine × Move)}
    (reach : Reach start e (later ++ past)) : ∃ middle, Reach start middle past ∧
      Reach middle e later := by
  induction later generalizing e with
  | nil => exact ⟨e, reach, .start⟩
  | cons made later ih =>
    cases reach with
    | next reach known =>
      obtain ⟨middle, first, second⟩ := ih reach
      exact ⟨middle, first, second.next known⟩

/-- A run can be cut before any of its moves. -/
theorem Reach.before_move {start e : Engine} {later past : List (Engine × Move)}
    {made : Engine × Move} (reach : Reach start e (later ++ made :: past)) :
    Reach start made.1 past ∧ made.2.Known made.1.world := by
  obtain ⟨_, first, _⟩ := reach.split
  cases first with
  | next first known => exact ⟨first, known⟩

/-- A run can be cut after any of its moves. -/
theorem Reach.after_move {start e : Engine} {later past : List (Engine × Move)}
    {made : Engine × Move} (reach : Reach start e (later ++ made :: past)) :
    Reach start (made.1.step made.2).1 (made :: past) ∧
      Reach (made.1.step made.2).1 e later := by
  obtain ⟨_, first, second⟩ := reach.split
  cases first with
  | next first known => exact ⟨first.next known, second⟩

/-- Every move of a run was made on known objects, in a state that the run led to. -/
theorem Reach.of_mem {start e : Engine} {past : List (Engine × Move)} {made : Engine × Move}
    (reach : Reach start e past) (member : made ∈ past) : made.2.Known made.1.world ∧
      ∃ prior, Reach start made.1 prior := by
  obtain ⟨later, earlier, rfl⟩ := List.append_of_mem member
  obtain ⟨first, known⟩ := reach.before_move
  exact ⟨known, earlier, first⟩

/-- Of two moves of a run the later one is made in a state that the earlier one led to. -/
theorem Reach.moves_order {start e : Engine} {after prior later earlier : List (Engine × Move)}
    {asked made : Engine × Move} (reach : Reach start e (after ++ asked :: prior))
    (whole : after ++ asked :: prior = later ++ made :: earlier) :
    (∃ between, Reach (made.1.step made.2).1 asked.1 between) ∨
    ∃ between, Reach (asked.1.step asked.2).1 (made.1.step made.2).1 between ∧
      between <:+: after := by
  rcases List.append_eq_append_iff.mp whole with ⟨x, rfl, rest⟩ | ⟨x, rfl, rest⟩
  · cases x with
    | nil =>
      obtain ⟨rfl, rfl⟩ := List.cons.inj rest
      exact Or.inr ⟨[], .start, List.nil_infix⟩
    | cons _ between =>
      obtain ⟨rfl, rfl⟩ := List.cons.inj rest
      exact Or.inl ⟨between, (reach.before_move.1).after_move.2⟩
  · rw [List.append_assoc, ← rest] at reach
    have toMade := reach.after_move.1
    rw [rest] at toMade
    exact Or.inr ⟨x, toMade.after_move.2, ⟨later, [], List.append_nil _⟩⟩

/-- From every state in which a move was made the run goes on to its end. -/
theorem Reach.onwards {start e : Engine} {past : List (Engine × Move)} {made : Engine × Move}
    (reach : Reach start e past) (member : made ∈ past) : ∃ later, Reach made.1 e later := by
  obtain ⟨later, earlier, rfl⟩ := List.append_of_mem member
  obtain ⟨_, first, second⟩ := reach.split
  cases first with
  | next _ known => exact ⟨_, (Reach.start.next known).trans second⟩

/-- A type without definitions of its own. -/
def itemType : RecordType := ⟨0, "Item", "", .number, []⟩

/-- A type with the names of another one. -/
def twinType : RecordType := { itemType with identity := 1 }

/-- Two reloads of one table, the second of them within the loader of the first. A definition is
registered between the two, and the second one publishes first. -/
def overtaken (d : IndexDef) (inner outer : List Record) : List Move :=
  [.call (.makeStore itemType (.text "items") 0), .call (.reload 0), .call (.registerIndex 0 d),
    .call (.reload 0), .loaded (.done inner), .loaded (.done outer)]

/-- A list of moves names only objects that exist when their turn comes. -/
def Plays : Engine → List Move → Prop
  | _, [] => True
  | e, move :: moves => move.Known e.world ∧ Plays (e.step move).1 moves

/-- The moves of a list with the states they are made in, the latest first. -/
def trail : Engine → List Move → List (Engine × Move)
  | _, [] => []
  | e, move :: moves => trail (e.step move).1 moves ++ [(e, move)]

theorem trail_append (e : Engine) (moves later : List Move) :
    e.trail (moves ++ later) = (e.run moves).trail later ++ e.trail moves := by
  induction moves generalizing e with
  | nil => exact (List.append_nil _).symm
  | cons move moves ih =>
    rw [List.cons_append, trail, ih, trail, List.append_assoc]
    rfl

theorem mem_trail {e : Engine} {moves : List Move} {made : Engine × Move}
    (member : made ∈ e.trail moves) : made.2 ∈ moves := by
  induction moves generalizing e with
  | nil => cases member
  | cons move moves ih =>
    rcases List.mem_append.mp member with later | now
    · exact List.mem_cons_of_mem _ (ih later)
    · rw [List.mem_singleton.mp now]
      exact List.mem_cons_self

/-- Moves that can be played make up a run. -/
theorem reach_run {e : Engine} {moves : List Move} (plays : e.Plays moves) :
    Reach e (e.run moves) (e.trail moves) := by
  induction moves generalizing e with
  | nil => exact .start
  | cons move moves ih =>
    obtain ⟨known, later⟩ := plays
    exact (Reach.start.next known).trans (ih later)

end Engine

instance (w : World) : (c : Call) → Decidable (c.Known w)
  | .makeStore .. | .makeRegistry _ | .makeHub | .makeBound .. | .makeCoordinator _ none _ =>
    inferInstanceAs (Decidable True)
  | .makeCoordinator _ (some r) _ | .ensure r _ _ | .ensureBinding r _ | .reloadAll r =>
    inferInstanceAs (Decidable (r < w.registries.length))
  | .reload s | .registerIndex s _ | .append s _ _ _ | .applyToGeneration s _ _
  | .listInGeneration s _ _ _ => inferInstanceAs (Decidable (s < w.stores.length))
  | .register h _ | .notify h => inferInstanceAs (Decidable (h < w.hubs.length))
  | .queue c _ | .initialLoad c | .refresh c =>
    inferInstanceAs (Decidable (c < w.coordinators.length))

instance (w : World) : (move : Move) → Decidable (move.Known w)
  | .call c => inferInstanceAs (Decidable (c.Known w))
  | .loaded _ | .heard _ | .found _ => inferInstanceAs (Decidable True)

instance Engine.decidablePlays : (e : Engine) → (moves : List Move) → Decidable (e.Plays moves)
  | _, [] => inferInstanceAs (Decidable True)
  | e, move :: moves =>
    have := decidablePlays (e.step move).1 moves
    inferInstanceAs (Decidable (move.Known e.world ∧ (e.step move).1.Plays moves))

end LiveTables
