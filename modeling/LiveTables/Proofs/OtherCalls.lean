import LiveTables.Proofs.Course

namespace LiveTables.Engine

variable {e f : Engine} {k : Call} {past : List (Engine × Move)} {r : RegistryId}

/-- Outside code makes a move while a call above so many waits is under way: the move is a call, or
it belongs to one. -/
def Nested (level : Nat) (made : Engine × Move) : Prop :=
  level + 1 < made.1.waits.length ∨ level < made.1.waits.length ∧ ∃ k, made.2 = .call k

instance (move : Move) : Decidable (∃ k, move = .call k) :=
  match move with
  | .call k => .isTrue ⟨k, rfl⟩
  | .loaded _ | .heard _ | .found _ => .isFalse fun ⟨_, same⟩ => nomatch same

instance (level : Nat) (made : Engine × Move) : Decidable (Nested level made) :=
  inferInstanceAs (Decidable (_ ∨ _ ∧ ∃ k, made.2 = .call k))

/-- A move leaves a registry as it is, and the stores in it. -/
structure LeavesAlone (r : RegistryId) (made : Engine × Move) : Prop where
  registry : (made.1.step made.2).1.world.registry r = made.1.world.registry r
  stores : ∀ type s, (made.1.world.registry r).store? type = some s →
    (made.1.step made.2).1.world.store s = made.1.world.store s

/-- While a call above so many waits is under way, no other call does anything to a registry. -/
def Undisturbed (level : Nat) (r : RegistryId) (past : List (Engine × Move)) : Prop :=
  ∀ made ∈ past, Nested level made → LeavesAlone r made

theorem not_nested_call (e : Engine) (k : Call) : ¬Nested e.waits.length (e, .call k) := by
  rintro (deep | ⟨deep, _⟩)
  · exact absurd deep (Nat.not_lt_of_le (Nat.le_succ _))
  · exact absurd deep (Nat.lt_irrefl _)

/-- What takes a call further is not another call's. -/
theorem not_nested_goes {base : List Wait} {own : Wait} {move : Move} {next : World × Progress}
    (top : f.waits = own :: base) (goes : own.Goes f.world move next) :
    ¬Nested base.length (f, move) := by
  rintro (deep | ⟨_, k, called⟩)
  · rw [top, List.length_cons] at deep
    exact absurd deep (Nat.lt_irrefl _)
  · obtain rfl : move = .call k := called
    cases goes

/-- What does not take a waiting call further is another call's, or it does nothing. -/
theorem nested_or_idle {above base : List Wait} {own : Wait} {move : Move}
    (waits : f.waits = above ++ own :: base)
    (notOwn : above = [] → ∀ next, ¬own.Goes f.world move next) :
    Nested base.length (f, move) ∨ f.Idle move ∧ f.step move = (f, none) := by
  rcases f.step_forms move with ⟨k, called⟩ | ⟨top, rest, next, place, goes, _⟩ | idle
  · exact Or.inl (Or.inr ⟨waits_longer waits, k, called⟩)
  · cases above with
    | nil =>
      obtain ⟨rfl, _⟩ := List.cons.inj (place.symm.trans waits)
      exact absurd goes (notOwn rfl next)
    | cons upper inner =>
      refine Or.inl (Or.inl ?_)
      simp only [waits, List.length_append, List.length_cons]
      omega
  · exact Or.inr idle

/-- A move takes a call further, or it is another call's, or it does nothing. -/
theorem Course.own_cases (course : Course e k f past) (waiting : e.waits.length < f.waits.length)
    (move : Move) : Nested e.waits.length (f, move) ∨
      (∃ own next, f.waits = own :: e.waits ∧ own.Goes f.world move next) ∨
      f.step move = (f, none) := by
  obtain ⟨_, _, stands⟩ := course.stands (P := fun _ _ => True) trivial
    (fun _ _ _ _ => trivial) (fun _ _ _ _ => trivial)
  cases stands with
  | answered back _ =>
    rw [back] at waiting
    exact absurd waiting (Nat.lt_irrefl _)
  | @waiting above own waits =>
    by_cases further : above = [] ∧ ∃ next, own.Goes f.world move next
    · obtain ⟨rfl, next, goes⟩ := further
      exact Or.inr (Or.inl ⟨own, next, waits, goes⟩)
    · rcases nested_or_idle waits fun top next goes => further ⟨top, next, goes⟩ with
        nested | ⟨_, idle⟩
      · exact Or.inl nested
      · exact Or.inr (Or.inr idle)

/-- A move of a course is the call itself, or it was made while the call waited. -/
theorem Course.of_mem (course : Course e k f past) {made : Engine × Move} (member : made ∈ past) :
    made = (e, .call k) ∨
      ∃ earlier, Course e k made.1 earlier ∧ e.waits.length < made.1.waits.length := by
  obtain ⟨later, earlier, rfl⟩ := List.append_of_mem member
  rcases course.cut.last with ⟨_, ⟨_, first⟩ | within⟩
  · exact Or.inl first
  · exact Or.inr ⟨earlier, within⟩

/-- A move that is not the call's own leaves the registry alone if other calls do. -/
theorem registry_same {above base : List Wait} {own : Wait} {move : Move}
    (waits : f.waits = above ++ own :: base)
    (notOwn : above = [] → ∀ next, ¬own.Goes f.world move next)
    (alone : Undisturbed base.length r ((f, move) :: past)) :
    (f.step move).1.world.registry r = f.world.registry r := by
  rcases nested_or_idle waits notOwn with nested | ⟨_, idle⟩
  · exact (alone _ List.mem_cons_self nested).registry
  · rw [idle]

/-- What no move of a run changes is as it was at the start. -/
theorem Reach.store_same (goesOn : Reach e f past) {s : StoreId}
    (same : ∀ made ∈ past,
      (made.1.step made.2).1.world.store s = made.1.world.store s) :
    f.world.store s = e.world.store s := by
  induction goesOn with
  | start => rfl
  | next _ _ ih =>
    obtain ⟨last, before⟩ := List.forall_mem_cons.mp same
    exact last.trans (ih before)

end LiveTables.Engine
