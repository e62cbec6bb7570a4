import LiveTables.Proofs.Attempts
import LiveTables.Proofs.Verdicts

namespace LiveTables

def ReloadPurpose.isPass : ReloadPurpose → Bool
  | .answer => false
  | .pass _ _ => true

namespace Engine

/-- A reload ends with an error. -/
def refuses (made : Engine × Move) : Bool :=
  match made.2, made.1.waits with
  | .loaded given, .load load :: _ =>
    ((made.1.world.store load.store).conclude load.plan given).2.isFailed
  | _, _ => false

/-- A reload of a pass ends abruptly, and the pass contains it. -/
def containsFault (made : Engine × Move) : Bool :=
  match made.2, made.1.waits with
  | .loaded given, .load load :: _ =>
    ((made.1.world.store load.store).conclude load.plan given).2.isFaulted && load.purpose.isPass
  | _, _ => false

/-- A listener ends with an error or abruptly. -/
def complains (made : Engine × Move) : Bool :=
  match made.2, made.1.waits with
  | .heard given, .listener _ :: _ => !given.isDone
  | _, _ => false

/-- An initial load has found no managed binding. -/
def isBare (found : CoordinatorId × List Binding) : Bool := !found.2.any Binding.managed

/-- An initial load keeps none of the bindings that it has found. -/
def keepsNothing (made : Engine × Move) : Bool := (found? made).any isBare

/-- The notice of an error that a move gives, if it gives one. A reload that fails, a listener that
fails and an initial load that finds nothing are noted by the move that they happen in. -/
def error? (made : Engine × Move) : Option Notice := (verdict? made).filter Notice.isError

variable {e : Engine} {past : List (Engine × Move)}

theorem error?_found (found : Option (CoordinatorId × List Binding)) (w : World) :
    (found.bind w.findVerdict?).filter Notice.isError = found.bind w.findVerdict? := by
  cases found with
  | none => rfl
  | some found =>
    simp only [Option.bind_some, World.findVerdict?]
    split <;> rfl

theorem isSome_findVerdict? (w : World) (found : CoordinatorId × List Binding) :
    (w.findVerdict? found).isSome = isBare found := by
  unfold World.findVerdict? isBare
  cases found.2.any Binding.managed <;> rfl

/-- A move notes an error once for each thing that goes wrong in it, and at most one thing does. -/
theorem error?_parts (made : Engine × Move) : (error? made).toList.length =
    (refuses made).toNat + (containsFault made).toNat + (complains made).toNat +
      (keepsNothing made).toNat := by
  have bare (w : World) :
      ((found? made).bind w.findVerdict?).toList.length = (keepsNothing made).toNat := by
    unfold keepsNothing
    cases found? made with
    | none => rfl
    | some found =>
      rw [Option.any_some, ← isSome_findVerdict? w, Option.bind_some]
      cases w.findVerdict? found <;> rfl
  -- Each kind of move has one thing that can go wrong; the other terms are zero.
  obtain ⟨⟨w, waits⟩, move⟩ := made
  unfold error? verdict? refuses containsFault complains
  cases move with
  | call k =>
    dsimp only
    rw [error?_found, bare]
    exact (Nat.zero_add _).symm
  | loaded given =>
    rcases waits with _ | ⟨load | _ | _, rest⟩
    · rfl
    · simp only [LoadWait.verdict?]
      cases ((w.store load.store).conclude load.plan given).2 <;> cases load.purpose <;> rfl
    · rfl
    · rfl
  | heard given =>
    rcases waits with _ | ⟨_ | wait | _, rest⟩
    · rfl
    · rfl
    · simp only [ListenerWait.verdict?]
      cases given <;> rfl
    · rfl
  | found bindings =>
    dsimp only
    rw [error?_found, bare]
    exact (Nat.zero_add _).symm

/-- A run notes as many errors as things go wrong in it. -/
theorem length_errors (past : List (Engine × Move)) : (past.filterMap error?).length =
    past.countP refuses + past.countP containsFault + past.countP complains +
      past.countP keepsNothing := by
  induction past with
  | nil => rfl
  | cons made past ih =>
    have last := error?_parts made
    have cons : ((made :: past).filterMap error?).length =
        (error? made).toList.length + (past.filterMap error?).length := by
      cases given : error? made <;> simp [given, Nat.add_comm]
    have counts (b : Bool) : b.toNat = if b = true then 1 else 0 := by cases b <;> rfl
    simp only [cons, last, ih, List.countP_cons, counts]
    omega

/-- The errors noted in a run are those that its moves have given, and nothing else is noted as an
error. -/
theorem Reach.errors_eq (reach : Reach {} e past) :
    e.world.notices.filter Notice.isError = past.filterMap error? :=
  reach.filter_notices fun n error => by rw [Notice.isVerdict, error, Bool.true_or]

end Engine

end LiveTables
