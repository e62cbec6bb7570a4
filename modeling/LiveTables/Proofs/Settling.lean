import LiveTables.Proofs.Cycles
import LiveTables.Proofs.Joining

namespace LiveTables

/-- The listeners that a move lets join a hub, in their order. -/
def Move.joining (w : World) (h : HubId) (move : Move) : List Listener :=
  match move with
  | .call (.register g l) => if g = h then [l] else []
  | _ =>
    match move.pass? w with
    | some c => if (w.coordinator c).hub = h then (w.coordinator c).pending else []
    | none => []

/-- The listeners that a move adds to the queue of a coordinator. -/
def Move.queued (c : CoordinatorId) : Move → List Listener
  | .call (.queue d l) => if d = c then [l] else []
  | _ => []

namespace World

variable {w v : World}

theorem hub_register (w : World) (h : HubId) (l : Listener) {g : HubId}
    (inRange : g < w.hubs.length) :
    (w.register h l).hub g = if h = g then (w.hub g).register l else w.hub g := by
  by_cases here : h = g
  · subst here
    rw [if_pos rfl, register, Hub.register]
    split
    · rfl
    · exact (hub_setHub w inRange _ h).trans (if_pos rfl)
  · rw [if_neg here, register]
    split
    · rfl
    · simp [hub, setHub, List.getD_eq_getElem?_getD, here]

theorem coordinators_register (w : World) (h : HubId) (l : Listener) :
    (w.register h l).coordinators = w.coordinators := by
  unfold register
  dsimp only
  split <;> rfl

/-- Listeners are let into one hub in turn. -/
theorem foldl_register (w : World) (h : HubId) (ls : List Listener) :
    (ls.foldl (fun w l => w.register h l) w).coordinators = w.coordinators ∧
    (ls.foldl (fun w l => w.register h l) w).hubs.length = w.hubs.length ∧
    ∀ g, g < w.hubs.length → (ls.foldl (fun w l => w.register h l) w).hub g =
      if h = g then (w.hub g).join ls else w.hub g := by
  induction ls generalizing w with
  | nil => exact ⟨rfl, rfl, fun g _ => by simp⟩
  | cons l rest ih =>
    have length := (w.keeps_register h l).hubs
    obtain ⟨coordinators, lengths, hubs⟩ := ih (w.register h l)
    refine ⟨coordinators.trans (w.coordinators_register h l), lengths.trans length, ?_⟩
    intro g inRange
    rw [List.foldl_cons, hubs g (length ▸ inRange), hub_register w h l inRange]
    by_cases here : h = g
    · simp only [here, if_true]
      rfl
    · simp only [here, if_false]

theorem coordinator_endCycle (w : World) (c : CoordinatorId) {d : CoordinatorId}
    (inRange : d < w.coordinators.length) : (w.endCycle c).coordinator d =
      { w.coordinator d with
        cycles := (w.coordinator d).cycles + if some c = some d then 1 else 0 } := by
  by_cases same : c = d
  · subst same
    rw [endCycle, coordinator_setCoordinator w inRange, if_pos rfl, if_pos rfl]
  · simp [endCycle, setCoordinator, coordinator, List.getD_eq_getElem?_getD, same]

/-- What becomes of hubs, queues and counts of cycles: certain listeners join each hub, certain ones
are left in each queue, and one cycle may have ended. New hubs are empty, and so are the queues of
new coordinators, which have hubs of their own. -/
structure Settles (w next : World) (joining : HubId → List Listener)
    (pending : CoordinatorId → List Listener) (ended : Option CoordinatorId) : Prop where
  hubs_le : w.hubs.length ≤ next.hubs.length
  hub : ∀ h, h < w.hubs.length → next.hub h = (w.hub h).join (joining h)
  newHub : ∀ h, w.hubs.length ≤ h → next.hub h = {}
  pending : ∀ c, c < w.coordinators.length → (next.coordinator c).pending = pending c
  cycles : ∀ c, c < w.coordinators.length → (next.coordinator c).cycles =
    (w.coordinator c).cycles + if ended = some c then 1 else 0
  new : ∀ c, w.coordinators.length ≤ c → c < next.coordinators.length →
    c = w.coordinators.length ∧ (next.coordinator c).pending = [] ∧
      (next.coordinator c).cycles = 0 ∧ w.hubs.length ≤ (next.coordinator c).hub ∧
      (next.coordinator c).hub < next.hubs.length

variable {next : World} {joining : HubId → List Listener}
  {pending : CoordinatorId → List Listener} {ended : Option CoordinatorId}

theorem hub_of_le {h : HubId} (beyond : w.hubs.length ≤ h) : w.hub h = {} := by
  simp only [hub, List.getD_eq_getElem?_getD, List.getElem?_eq_none beyond]
  rfl

theorem Cycles.length_coordinators (cycles : w.Cycles v ended) :
    v.coordinators.length = w.coordinators.length := by
  rw [cycles.coordinators]
  cases ended with
  | none => rfl
  | some c => exact List.length_set

theorem Cycles.coordinator (cycles : w.Cycles v ended) {c : CoordinatorId}
    (inRange : c < w.coordinators.length) : v.coordinator c =
      { w.coordinator c with
        cycles := (w.coordinator c).cycles + if ended = some c then 1 else 0 } := by
  cases ended with
  | none =>
    rw [World.coordinator, cycles.coordinators]
    rfl
  | some d =>
    rw [World.coordinator, cycles.coordinators]
    exact w.coordinator_endCycle d inRange

theorem Cycles.hub (cycles : w.Cycles v ended) (h : HubId) : v.hub h = w.hub h := by
  rw [World.hub, World.hub, cycles.hubs]

theorem Settles.refl (w : World) :
    w.Settles w (fun _ => []) (fun c => (w.coordinator c).pending) none where
  hubs_le := Nat.le_refl _
  hub _ _ := rfl
  newHub _ := hub_of_le
  pending _ _ := rfl
  cycles _ _ := rfl
  new _ beyond inRange := absurd inRange (Nat.not_lt_of_le beyond)

/-- Work that leaves hubs and queues alone can come after what changes them. -/
theorem Settles.goOn (settles : w.Settles v joining pending none) (cycles : v.Cycles next ended)
    (same : v.coordinators.length = w.coordinators.length) :
    w.Settles next joining pending ended where
  hubs_le := cycles.hubs ▸ settles.hubs_le
  hub h inRange := (cycles.hub h).trans (settles.hub h inRange)
  newHub h beyond := (cycles.hub h).trans (settles.newHub h beyond)
  pending c inRange := by
    rw [cycles.coordinator (same ▸ inRange)]
    exact settles.pending c inRange
  cycles c inRange := by
    have before := settles.cycles c inRange
    rw [cycles.coordinator (same ▸ inRange)]
    simp only [before, reduceCtorEq, if_false, Nat.add_zero]
  new c beyond inRange := by
    rw [cycles.length_coordinators, same] at inRange
    exact absurd inRange (Nat.not_lt_of_le beyond)

theorem Cycles.settles (cycles : w.Cycles next ended) :
    w.Settles next (fun _ => []) (fun c => (w.coordinator c).pending) ended :=
  (Settles.refl w).goOn cycles rfl

theorem settles_collectPending {c : CoordinatorId} (inRange : c < w.coordinators.length) :
    w.Settles (w.collectPending c)
      (fun h => if (w.coordinator c).hub = h then (w.coordinator c).pending else [])
      (fun d => if some c = some d then [] else (w.coordinator d).pending) none := by
  have length : (w.collectPending c).coordinators.length = w.coordinators.length :=
    (w.keeps_collectPending c).length_coordinators
  have emptied := coordinator_setCoordinator w inRange { w.coordinator c with pending := [] }
  obtain ⟨coordinators, hubs, joined⟩ := foldl_register
    (w.setCoordinator c { w.coordinator c with pending := [] }) (w.coordinator c).hub
    (w.coordinator c).pending
  have same (d : CoordinatorId) : (w.collectPending c).coordinator d =
      if c = d then { w.coordinator c with pending := [] } else w.coordinator d := by
    rw [← emptied d, coordinator, coordinator, collectPending, coordinators]
  refine ⟨Nat.le_of_eq hubs.symm, fun h bound => ?_, fun h beyond => ?_, fun d _ => ?_,
    fun d _ => ?_, fun d beyond bound => ?_⟩
  · refine (joined h bound).trans ?_
    split <;> rfl
  · exact hub_of_le (Nat.le_trans (Nat.le_of_eq hubs) beyond)
  · rw [same]
    by_cases here : c = d
    · simp [here]
    · simp [here]
  · rw [same]
    by_cases here : c = d
    · simp [here]
    · simp [here]
  · exact absurd bound (Nat.not_lt_of_le (length ▸ beyond))

/-- A latch is neither a hub nor a queue nor a count. -/
theorem coordinator_latch (w : World) (c d : CoordinatorId) :
    ((w.latch c).coordinator d).pending = (w.coordinator d).pending ∧
      ((w.latch c).coordinator d).cycles = (w.coordinator d).cycles ∧
      ((w.latch c).coordinator d).hub = (w.coordinator d).hub := by
  by_cases inRange : c < w.coordinators.length
  · rw [latch, coordinator_setCoordinator w inRange]
    split
    · rename_i here
      rw [← here]
      exact ⟨rfl, rfl, rfl⟩
    · exact ⟨rfl, rfl, rfl⟩
  · rw [latch, setCoordinator, List.set_eq_of_length_le (Nat.le_of_not_lt inRange)]
    exact ⟨rfl, rfl, rfl⟩

theorem settles_latch {c : CoordinatorId} (inRange : c < w.coordinators.length) :
    w.Settles ((w.latch c).collectPending c)
      (fun h => if (w.coordinator c).hub = h then (w.coordinator c).pending else [])
      (fun d => if some c = some d then [] else (w.coordinator d).pending) none := by
  have length : (w.latch c).coordinators.length = w.coordinators.length := List.length_set
  have collected := settles_collectPending (w := w.latch c) (length.symm ▸ inRange)
  obtain ⟨pending, _, hub⟩ := w.coordinator_latch c c
  rw [pending, hub] at collected
  obtain ⟨hubs_le, hubs, newHub, left, cycles, new⟩ := collected
  refine ⟨hubs_le, hubs, newHub, fun d bound => ?_, fun d bound => ?_, fun d beyond bound => ?_⟩
  · rw [left d (length.symm ▸ bound), (w.coordinator_latch c d).1]
  · rw [cycles d (length.symm ▸ bound), (w.coordinator_latch c d).2.1]
  · have made := new d (length.symm ▸ beyond) bound
    rwa [length] at made

theorem settles_initialLoad {c : CoordinatorId} (inRange : c < w.coordinators.length)
    (runs : (Call.initialLoad c).pass? w = some c) : w.Settles (w.initialLoad c).1
      (fun h => if (w.coordinator c).hub = h then (w.coordinator c).pending else [])
      (fun d => if some c = some d then [] else (w.coordinator d).pending)
      ((w.initialLoad c).2.ended? (some c)) := by
  have collected := settles_latch inRange
  have length : ((w.latch c).collectPending c).coordinators.length = w.coordinators.length :=
    (keeps_collectPending _ c).length_coordinators.trans List.length_set
  rw [initialLoad_runs runs]
  split
  · exact collected.goOn (works_found _ c _).cycles length
  · exact collected

theorem settles_register (w : World) (h : HubId) (l : Listener) : w.Settles (w.register h l)
    (fun g => if h = g then [l] else []) (fun c => (w.coordinator c).pending) none := by
  have length := (w.keeps_register h l).hubs
  have same (c : CoordinatorId) : (w.register h l).coordinator c = w.coordinator c := by
    rw [coordinator, coordinator, w.coordinators_register h l]
  refine ⟨Nat.le_of_eq length.symm, fun g bound => ?_, fun g beyond => ?_, fun c _ => ?_,
    fun c _ => ?_, fun c beyond bound => ?_⟩
  · rw [hub_register w h l bound]
    split <;> rfl
  · exact hub_of_le (length.symm ▸ beyond)
  · rw [same]
  · rw [same]
    rfl
  · rw [w.coordinators_register h l] at bound
    exact absurd bound (Nat.not_lt_of_le beyond)

theorem settles_queue {c : CoordinatorId} (inRange : c < w.coordinators.length) (l : Listener) :
    w.Settles (w.queue c l) (fun _ => [])
      (fun d => (w.coordinator d).pending ++ if c = d then [l] else []) none := by
  have same (d : CoordinatorId) : (w.queue c l).coordinator d = if c = d then
      { w.coordinator c with pending := (w.coordinator c).pending ++ [l] } else w.coordinator d :=
    coordinator_setCoordinator w inRange _ d
  refine ⟨Nat.le_refl _, fun _ _ => rfl, fun _ => hub_of_le, fun d _ => ?_, fun d _ => ?_,
    fun d beyond bound => ?_⟩
  · rw [same]
    by_cases here : c = d
    · simp [here]
    · simp [here]
  · rw [same]
    by_cases here : c = d
    · simp [here]
    · simp [here]
  · rw [queue, setCoordinator, List.length_set] at bound
    exact absurd bound (Nat.not_lt_of_le beyond)

theorem hub_addHub (w : World) (h : HubId) : (w.addHub {}).1.hub h = w.hub h := by
  by_cases old : h < w.hubs.length
  · simp [hub, addHub, List.getD_eq_getElem?_getD, List.getElem?_append_left old]
  · rw [hub_of_le (Nat.le_of_not_lt old), hub, addHub, List.getD_eq_getElem?_getD,
      List.getElem?_append_right (Nat.le_of_not_lt old)]
    cases h - w.hubs.length <;> rfl

theorem settles_addHub (w : World) : w.Settles (w.addHub {}).1 (fun _ => [])
    (fun c => (w.coordinator c).pending) none where
  hubs_le := by simp [addHub]
  hub h _ := w.hub_addHub h
  newHub h beyond := (w.hub_addHub h).trans (hub_of_le beyond)
  pending _ _ := rfl
  cycles _ _ := rfl
  new _ beyond inRange := absurd inRange (Nat.not_lt_of_le beyond)

theorem settles_addCoordinator (w : World) (config : Config) (r : Option RegistryId)
    (discovery : Discovery) : w.Settles (w.addCoordinator config r discovery).1 (fun _ => [])
      (fun c => (w.coordinator c).pending) none := by
  obtain ⟨made, hubs, coordinators⟩ : ∃ made,
      (w.addCoordinator config r discovery).1.hubs = (w.addHub {}).1.hubs ∧
      (w.addCoordinator config r discovery).1.coordinators =
        w.coordinators ++ [.fresh config made w.hubs.length discovery] := by
    cases r with
    | none => exact ⟨_, rfl, rfl⟩
    | some r => exact ⟨_, rfl, rfl⟩
  have atHub (h : HubId) : (w.addCoordinator config r discovery).1.hub h = w.hub h := by
    rw [← w.hub_addHub h, hub, hub, hubs]
  have old {c : CoordinatorId} (bound : c < w.coordinators.length) :
      (w.addCoordinator config r discovery).1.coordinator c = w.coordinator c := by
    simp [coordinator, coordinators, List.getD_eq_getElem?_getD, List.getElem?_append_left bound]
  refine ⟨by simp [hubs, addHub], fun h _ => atHub h, fun h beyond => ?_, fun c bound => ?_,
    fun c bound => ?_, fun c beyond bound => ?_⟩
  · exact (atHub h).trans (hub_of_le beyond)
  · rw [old bound]
  · rw [old bound]
    rfl
  · rw [coordinators, List.length_append, List.length_singleton] at bound
    obtain rfl : c = w.coordinators.length := by omega
    have fresh : (w.addCoordinator config r discovery).1.coordinator w.coordinators.length =
        .fresh config made w.hubs.length discovery := by
      simp [coordinator, coordinators, List.getD_eq_getElem?_getD]
    rw [fresh, hubs]
    exact ⟨rfl, rfl, rfl, Nat.le_refl _, by simp [addHub, Coordinator.fresh]⟩

/-- What a move leaves in the queue of a coordinator. -/
def leftQueued (w : World) (move : Move) (c : CoordinatorId) : List Listener :=
  if move.pass? w = some c then [] else (w.coordinator c).pending ++ move.queued c

theorem leftQueued_plain {move : Move} (plain : move.pass? w = none)
    (nobody : ∀ c, move.queued c = []) :
    w.leftQueued move = fun c => (w.coordinator c).pending := by
  funext c
  rw [leftQueued, plain, nobody, List.append_nil]
  exact if_neg nofun

/-- Most moves begin no pass, queue nobody and let nobody join. -/
theorem Cycles.plain {move : Move} (cycles : w.Cycles next ended) (plain : move.pass? w = none)
    (nobody : ∀ c, move.queued c = []) (joining : ∀ h, move.joining w h = []) :
    w.Settles next (fun h => move.joining w h) (w.leftQueued move) ended := by
  rw [funext joining, leftQueued_plain plain nobody]
  exact cycles.settles

theorem leftQueued_pass {c : Call} {d : CoordinatorId} (runs : c.pass? w = some d)
    (others : ∀ b, (Move.call c).queued b = []) : w.leftQueued (.call c) =
      fun b => if some d = some b then [] else (w.coordinator b).pending := by
  funext b
  rw [leftQueued, others, List.append_nil, Move.pass?, runs]

theorem joining_pass {k : Call} {c : CoordinatorId} (begins : k.pass? w = some c) (h : HubId) :
    (Move.call k).joining w h =
      if (w.coordinator c).hub = h then (w.coordinator c).pending else [] := by
  cases k with
  | initialLoad d => simp only [Move.joining, Move.pass?, begins]
  | refresh d => simp only [Move.joining, Move.pass?, begins]
  | _ => cases begins

theorem begin_settles {c : Call} (known : c.Known w) :
    w.Settles (w.begin c).1 (fun h => (Move.call c).joining w h) (w.leftQueued (.call c))
      ((w.begin c).2.ended? (c.pass? w)) := by
  cases c with
  | makeStore | makeRegistry | makeBound | reload | append | listInGeneration =>
    exact Cycles.plain ⟨rfl, rfl⟩ rfl (fun _ => rfl) fun _ => rfl
  | makeHub =>
    rw [leftQueued_plain rfl fun _ => rfl]
    exact w.settles_addHub
  | makeCoordinator config r discovery =>
    rw [leftQueued_plain rfl fun _ => rfl]
    exact w.settles_addCoordinator config r discovery
  | registerIndex s d =>
    obtain ⟨reply, run⟩ := w.begin_registerIndex s d
    rw [run]
    exact (w.cycles_registerIndex s d).plain rfl (fun _ => rfl) fun _ => rfl
  | applyToGeneration s number d =>
    obtain ⟨reply, run⟩ := w.begin_applyToGeneration s number d
    rw [run]
    exact Cycles.plain ⟨rfl, rfl⟩ rfl (fun _ => rfl) fun _ => rfl
  | ensure r type loader =>
    obtain ⟨reply, run⟩ := w.begin_ensure r type loader
    rw [run]
    exact (w.cycles_install r type _).plain rfl (fun _ => rfl) fun _ => rfl
  | ensureBinding r b =>
    exact (w.cycles_install r b.recordType b.createStore).plain rfl (fun _ => rfl)
      fun _ => rfl
  | reloadAll r =>
    exact (works_turn (w.turn_nextReload (w.registryPass r .registry))).cycles.plain rfl
      (fun _ => rfl) fun _ => rfl
  | register h l =>
    rw [leftQueued_plain rfl fun _ => rfl]
    exact w.settles_register h l
  | notify h =>
    exact (works_turn (w.turn_nextListener (w.hub h).listeners [] .answer)).cycles.plain rfl
      (fun _ => rfl) fun _ => rfl
  | queue c l => exact settles_queue known l
  | initialLoad c =>
    rcases w.pass?_initialLoad c with skips | runs
    · rw [begin, initialLoad_skipped skips, skips]
      refine (w.cycles_note _).plain skips (fun _ => rfl) fun h => ?_
      simp only [Move.joining, Move.pass?, skips]
    · rw [leftQueued_pass runs fun _ => rfl, funext (joining_pass runs), runs]
      exact settles_initialLoad known runs
  | refresh c =>
    rw [leftQueued_pass rfl fun _ => rfl, funext (joining_pass rfl)]
    have collected := settles_collectPending (w := w) known
    exact collected.goOn (works_turn (turn_nextReload _ _)).cycles
      (w.keeps_collectPending c).length_coordinators

end World

namespace Engine

theorem ended?_eq (serves : Option CoordinatorId) (waits : List Wait) (next : World × Progress) :
    next.2.ended? serves = if (advance waits next).2.isSome then serves else none := by
  obtain ⟨w, progress⟩ := next
  cases progress <;> rfl

theorem serves?_of_goes {e : Engine} {own : Wait} {rest : List Wait} {move : Move}
    {next : World × Progress} (top : e.waits = own :: rest) (goes : own.Goes e.world move next) :
    e.serves? move = own.coordinator? := by
  unfold serves?
  rw [top]
  cases goes <;> rfl

/-- All that a move does to hubs, to queues and to counts of cycles. -/
theorem step_settles {e : Engine} {move : Move} (known : move.Known e.world) :
    e.world.Settles (e.step move).1.world (fun h => move.joining e.world h)
      (e.world.leftQueued move) (e.passEnd? move) := by
  rcases e.step_forms move with ⟨c, rfl⟩ | ⟨own, rest, next, top, goes, run⟩ | ⟨idle, run⟩
  · have begun := World.begin_settles known
    rw [ended?_eq _ e.waits] at begun
    rw [step_call, advance_world]
    exact begun
  · have cycles := (World.works_goes goes).cycles
    rw [ended?_eq _ rest, ← run] at cycles
    rw [run, advance_world, passEnd?, serves?_of_goes top goes]
    cases goes <;> exact cycles.plain rfl (fun _ => rfl) fun _ => rfl
  · rw [passEnd?, run]
    cases move with
    | call c => exact absurd rfl (idle.not_call c)
    | loaded | heard | found => exact (World.Cycles.refl _).plain rfl (fun _ => rfl) fun _ => rfl

end Engine

end LiveTables
