import LiveTables.Proofs.Reach
import LiveTables.Proofs.Step

namespace LiveTables.Engine

/-- The moves of a run from a call on, up to its answer at most. All moves after the call are made
while it waits: its wait stands on the stack, and whatever the outside code calls stands above
it. -/
inductive Course (e : Engine) (c : Call) : Engine → List (Engine × Move) → Prop
  | begun : c.Known e.world → Course e c (e.step (.call c)).1 [(e, .call c)]
  | next {f : Engine} {past : List (Engine × Move)} {move : Move} : Course e c f past →
      e.waits.length < f.waits.length → move.Known f.world →
      Course e c (f.step move).1 ((f, move) :: past)

/-- What the last move of a run answered. -/
def lastReply (past : List (Engine × Move)) : Option Reply :=
  past.head?.bind fun made => (made.1.step made.2).2

/-- Where a call is that was made above the waits of a base: it waits there, or it has answered. -/
inductive Stands (base : List Wait) (f : Engine) (last : Option Reply) : Progress → Prop
  | waiting {above : List Wait} {own : Wait} : f.waits = above ++ own :: base →
      Stands base f last (.waiting own)
  | answered {reply : Reply} : f.waits = base → last = some reply →
      Stands base f last (.done reply)

variable {e f : Engine} {c : Call} {past : List (Engine × Move)} {move : Move}

theorem Course.reach (course : Course e c f past) : Reach e f past := by
  induction course with
  | begun known => exact Reach.start.next known
  | next _ _ known ih => exact ih.next known

theorem Course.known (course : Course e c f past) : c.Known e.world := by
  induction course with
  | begun known => exact known
  | next _ _ _ ih => exact ih

theorem Course.called (course : Course e c f past) : (e, .call c) ∈ past := by
  induction course with
  | begun _ => exact List.mem_singleton_self _
  | next _ _ _ ih => exact List.mem_cons_of_mem _ ih

/-- A course is a run from the state after the call. -/
theorem Course.since (course : Course e c f past) : ∃ later, past = later ++ [(e, .call c)] ∧
    Reach (e.step (.call c)).1 f later := by
  induction course with
  | begun _ => exact ⟨[], rfl, .start⟩
  | next _ _ known ih =>
    obtain ⟨later, rfl, reach⟩ := ih
    exact ⟨_ :: later, rfl, reach.next known⟩

theorem waits_longer {above base : List Wait} {own : Wait}
    (waits : f.waits = above ++ own :: base) : base.length < f.waits.length := by
  rw [waits, List.length_append, List.length_cons]
  omega

theorem waits_ne {above base : List Wait} {own : Wait} (waits : f.waits = above ++ own :: base) :
    f.waits ≠ base :=
  fun back => Nat.lt_irrefl _ (back ▸ waits_longer waits)

/-- Only what lies next above a base lies on top of as many waits as the base has. -/
theorem top_eq {above below base : List Wait} {top own : Wait} (place : f.waits = top :: below)
    (waits : f.waits = above ++ own :: base) (same : below.length = base.length) :
    above = [] ∧ top = own := by
  have whole : [] ++ top :: below = above ++ own :: base := place.symm.trans waits
  obtain ⟨nothing, whole⟩ := List.append_inj' whole (by simp [same])
  exact ⟨nothing.symm, (List.cons.inj whole).1⟩

theorem advance_stands (base : List Wait) (next : World × Progress) :
    Stands base (advance base next).1 (advance base next).2 next.2 := by
  obtain ⟨w, progress⟩ := next
  cases progress with
  | done reply => exact .answered rfl rfl
  | waiting own => exact .waiting (List.nil_append _).symm

/-- A call that no longer waits has answered. -/
theorem Stands.answer {base : List Wait} {last : Option Reply} {progress : Progress}
    (stands : Stands base f last progress) (back : f.waits = base) :
    ∃ reply, progress = .done reply ∧ last = some reply := by
  cases stands with
  | waiting waits => exact absurd back (waits_ne waits)
  | answered _ last => exact ⟨_, rfl, last⟩

/-- A call that stands above a base waits for what lies next above the base. -/
theorem Stands.own {above base : List Wait} {own : Wait} {last : Option Reply} {progress : Progress}
    (stands : Stands base f last progress) (waits : f.waits = above ++ own :: base) :
    progress = .waiting own := by
  cases stands with
  | answered back _ => exact absurd back (waits_ne waits)
  | waiting waits' =>
    obtain ⟨_, same⟩ := List.append_inj' (waits'.symm.trans waits) rfl
    rw [(List.cons.inj same).1]

/-- A move ends what a waiting call waits for, or the call waits on below whatever it does. So a
call goes on exactly when its own wait is on top and the outside work ends. -/
theorem step_above {above base : List Wait} {own : Wait} (waits : f.waits = above ++ own :: base)
    (move : Move) :
    (above = [] ∧ ∃ next, own.Goes f.world move next ∧ f.step move = advance base next) ∨
    (above = [] → ∀ next, ¬own.Goes f.world move next) ∧
      ∃ above', (f.step move).1.waits = above' ++ own :: base := by
  have pushed (inner : List Wait) (next : World × Progress) :
      ∃ above', (advance (inner ++ own :: base) next).1.waits = above' ++ own :: base := by
    rcases advance_waits (inner ++ own :: base) next with same | ⟨wait, _, longer⟩
    · exact ⟨inner, same⟩
    · exact ⟨wait :: inner, longer⟩
  -- What begins or goes on above the call leaves its wait where it is.
  rcases f.step_forms move with ⟨c, rfl⟩ | ⟨top, rest, next, place, goes, run⟩ | ⟨idle, run⟩
  · refine Or.inr ⟨fun _ _ goes => (by cases goes), ?_⟩
    rw [step_call, waits]
    exact pushed above _
  · rw [waits] at place
    cases above with
    | nil =>
      obtain ⟨rfl, rfl⟩ := List.cons.inj place
      exact Or.inl ⟨rfl, next, goes, run⟩
    | cons upper inner =>
      obtain ⟨rfl, rfl⟩ := List.cons.inj place
      rw [run]
      exact Or.inr ⟨fun absent => (by cases absent), pushed inner next⟩
  · rw [run]
    refine Or.inr ⟨?_, above, waits⟩
    rintro rfl next
    exact idle.not_goes own base next waits

/-- What holds of a call when it has begun and is kept whenever it goes on, and by all moves in
between, holds where the call has come to. -/
theorem Course.stands_at {P : Engine → List (Engine × Move) → Progress → Prop}
    (course : Course e c f past) (begun : P (e.step (.call c)).1 [(e, .call c)] (e.world.begin c).2)
    (goes : ∀ {f past own move next}, Course e c f past → move.Known f.world →
      P f past (.waiting own) → f.waits = own :: e.waits → own.Goes f.world move next →
      P (f.step move).1 ((f, move) :: past) next.2)
    (within : ∀ {f past own above move}, Course e c f past → move.Known f.world →
      P f past (.waiting own) → f.waits = above ++ own :: e.waits →
      (above = [] → ∀ next, ¬own.Goes f.world move next) →
      P (f.step move).1 ((f, move) :: past) (.waiting own)) :
    ∃ progress, P f past progress ∧ Stands e.waits f (lastReply past) progress := by
  induction course with
  | begun known => exact ⟨_, begun, advance_stands e.waits _⟩
  | @next f past move course waiting known ih =>
    obtain ⟨progress, holds, stands⟩ := ih
    cases stands with
    | answered done _ =>
      -- A call that has answered makes no further move.
      rw [done] at waiting
      exact absurd waiting (Nat.lt_irrefl _)
    | @waiting above own waits =>
      rcases step_above waits move with ⟨rfl, next, goesOn, run⟩ | ⟨notOwn, above', waits'⟩
      · refine ⟨next.2, goes course known holds waits goesOn, ?_⟩
        rw [lastReply, List.head?_cons, Option.bind_some, run]
        exact advance_stands e.waits next
      · exact ⟨_, within course known holds waits notOwn, .waiting waits'⟩

/-- The same for what does not depend on the state. -/
theorem Course.stands {P : List (Engine × Move) → Progress → Prop} (course : Course e c f past)
    (begun : P [(e, .call c)] (e.world.begin c).2)
    (goes : ∀ {f past own move next}, Course e c f past → P past (.waiting own) →
      f.waits = own :: e.waits → own.Goes f.world move next → P ((f, move) :: past) next.2)
    (within : ∀ {f past own above move}, Course e c f past → P past (.waiting own) →
      f.waits = above ++ own :: e.waits → (above = [] → ∀ next, ¬own.Goes f.world move next) →
      P ((f, move) :: past) (.waiting own)) :
    ∃ progress, P past progress ∧ Stands e.waits f (lastReply past) progress :=
  course.stands_at (P := fun _ past progress => P past progress) begun
    (fun course _ holds top goesOn => goes course holds top goesOn)
    (fun course _ holds waits notOwn => within course holds waits notOwn)

/-- The last move of a course leads to its state, and it is the call itself or was made while the
call waited. -/
theorem Course.last {made : Engine × Move} (course : Course e c f (made :: past)) :
    f = (made.1.step made.2).1 ∧ (past = [] ∧ made = (e, .call c) ∨
      Course e c made.1 past ∧ e.waits.length < made.1.waits.length) := by
  cases course with
  | begun _ => exact ⟨rfl, Or.inl ⟨rfl, rfl⟩⟩
  | next course waiting _ => exact ⟨rfl, Or.inr ⟨course, waiting⟩⟩

/-- A course can be cut after any of its moves. -/
theorem Course.cut {later : List (Engine × Move)} {made : Engine × Move}
    (course : Course e c f (later ++ made :: past)) :
    Course e c (made.1.step made.2).1 (made :: past) := by
  induction later generalizing f with
  | nil => exact course.last.1 ▸ course
  | cons other later ih =>
    obtain ⟨_, ⟨none, _⟩ | ⟨course, _⟩⟩ := course.last
    · simp at none
    · exact ih course

/-- While a call waits, so it did after every earlier move of its course. -/
theorem Course.above (course : Course e c f past) (waiting : e.waits.length < f.waits.length) :
    ∀ made ∈ past, e.waits.length < (made.1.step made.2).1.waits.length := by
  induction course with
  | begun _ =>
    intro made member
    obtain rfl := List.mem_singleton.mp member
    exact waiting
  | next _ before _ ih => exact List.forall_mem_cons.mpr ⟨waiting, ih before⟩

/-- What waits after a move has taken the place of a wait above the same base, or it is the wait of
a call that the move has made. -/
theorem step_waiting {above base : List Wait} {own : Wait}
    (waits : (e.step move).1.waits = above ++ own :: base) :
    (∃ inner before, e.waits = inner ++ before :: base) ∨
      e.waits = base ∧ ∃ c, move = .call c := by
  rcases e.step_forms move with ⟨c, rfl⟩ | ⟨top, rest, next, place, _, run⟩ | ⟨_, run⟩
  · rw [step_call] at waits
    rcases advance_waits e.waits (e.world.begin c) with same | ⟨wait, _, longer⟩
    · exact Or.inl ⟨above, own, same.symm.trans waits⟩
    · rw [longer] at waits
      cases above with
      | nil => exact Or.inr ⟨(List.cons.inj waits).2, c, rfl⟩
      | cons upper inner => exact Or.inl ⟨inner, own, (List.cons.inj waits).2⟩
  · rw [run] at waits
    refine Or.inl ?_
    rcases advance_waits rest next with same | ⟨wait, _, longer⟩
    · exact ⟨top :: above, own, by rw [place, same.symm.trans waits]; rfl⟩
    · rw [longer] at waits
      cases above with
      | nil => exact ⟨[], top, by rw [place, (List.cons.inj waits).2]; rfl⟩
      | cons upper inner => exact ⟨top :: inner, own, by rw [place, (List.cons.inj waits).2]; rfl⟩
  · rw [run] at waits
    exact Or.inl ⟨above, own, waits⟩

/-- Every call that waits in a run has a course of its own there. -/
theorem Reach.course_of_wait (reach : Reach {} e past) {above base : List Wait} {own : Wait}
    (waits : e.waits = above ++ own :: base) : ∃ b k mine prior,
      past = mine ++ prior ∧ Reach {} b prior ∧ Course b k e mine ∧ b.waits = base := by
  -- The wait can have changed on the way; its place above the same base is what stays.
  induction reach generalizing above own with
  | start => simp at waits
  | @next e past move reach known ih =>
    rcases step_waiting waits with ⟨inner, before, place⟩ | ⟨place, c, rfl⟩
    · obtain ⟨b, k, mine, prior, rfl, first, course, same⟩ := ih place
      refine ⟨b, k, _ :: mine, prior, rfl, first, course.next ?_ known, same⟩
      rw [same]
      exact waits_longer place
    · exact ⟨e, c, [_], past, rfl, reach, .begun known, place⟩

/-- A list of moves can be made while a call waits that was made above so many waits. -/
def PlaysAbove (level : Nat) : Engine → List Move → Prop
  | _, [] => True
  | f, move :: moves =>
    level < f.waits.length ∧ move.Known f.world ∧ PlaysAbove level (f.step move).1 moves

instance decidablePlaysAbove (level : Nat) :
    (f : Engine) → (moves : List Move) → Decidable (PlaysAbove level f moves)
  | _, [] => inferInstanceAs (Decidable True)
  | f, move :: moves =>
    have := decidablePlaysAbove level (f.step move).1 moves
    inferInstanceAs (Decidable (level < f.waits.length ∧ move.Known f.world ∧
      PlaysAbove level (f.step move).1 moves))

theorem Course.run (course : Course e c f past) {moves : List Move}
    (plays : PlaysAbove e.waits.length f moves) :
    Course e c (f.run moves) (f.trail moves ++ past) := by
  induction moves generalizing f past with
  | nil => exact course
  | cons move moves ih =>
    obtain ⟨waiting, known, later⟩ := plays
    have goesOn := ih (course.next waiting known) later
    rwa [trail, List.append_assoc]

/-- Moves that are made above the waits of an engine make up a course. -/
theorem course_run (known : c.Known e.world) {moves : List Move}
    (plays : PlaysAbove e.waits.length (e.step (.call c)).1 moves) :
    Course e c (e.run (.call c :: moves)) (e.trail (.call c :: moves)) :=
  (Course.begun known).run plays

end LiveTables.Engine
