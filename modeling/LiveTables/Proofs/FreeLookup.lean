import LiveTables.Proofs.BuiltTable
import LiveTables.Proofs.KeyText
import LiveTables.Proofs.RegisteredIndexes

namespace LiveTables

namespace IndexDef

/-- Whether a definition has a name and gives a record values that agree with the wanted ones. -/
def yields (d : IndexDef) (name : String) (agree : List Value → Bool) (r : Record) : Bool :=
  d.name = name && match d.valuesFor r with
    | .ok (some values) => agree values
    | _ => false

theorem yields_iff {d : IndexDef} {name : String} {agree : List Value → Bool}
    {r : Record} : d.yields name agree r = true ↔
      d.name = name ∧ ∃ values, d.valuesFor r = .ok (some values) ∧ agree values = true := by
  unfold yields
  cases atRecord : d.valuesFor r with
  | error fault => simp
  | ok given => cases given <;> simp

/-- No value that a definition gives a record can make keys collide. -/
def Free (d : IndexDef) (r : Record) : Prop :=
  ∀ given, d.valuesFor r = .ok (some given) → ∀ v ∈ given, Key.containsDelimiter v = false

instance (d : IndexDef) (r : Record) : Decidable (d.Free r) :=
  match atRecord : d.valuesFor r with
  | .error _ => .isTrue (by simp [Free, atRecord])
  | .ok none => .isTrue (by simp [Free, atRecord])
  | .ok (some given) =>
    decidable_of_iff (∀ v ∈ given, Key.containsDelimiter v = false) (by simp [Free, atRecord])

end IndexDef

namespace Store

variable {it : Store} {batch : List Record} {n : Nat}

/-- A plan that is not out of date holds all definitions there are. -/
theorem publishing_plan (it : Store) : it.publishing it.plan = it.definitions := by
  have same : it.epoch = it.plan.epoch := rfl
  rw [publishing, if_pos same, List.append_nil]
  rfl

/-- What a reload publishes that nothing overlapped is listed as its own build listed it. -/
theorem ids_conclude_plan (published : (it.conclude it.plan (.done batch)).2 = .done n)
    (key : String) : (it.conclude it.plan (.done batch)).1.current.index.ids key =
      Generation.asked it.recordType it.definitions batch key := by
  have planned : it.plan.indexes = it.definitions := rfl
  cases built : Generation.build it.recordType batch it.definitions with
  | done g =>
    have epoch : it.plan.epoch = it.epoch := rfl
    have ends : it.conclude it.plan (.done batch) = it.publish g it.epoch := by
      simp [conclude, Outcome.bind, planned, built, epoch]
    rw [ends, publish, if_pos rfl]
    exact Generation.ids_build built key
  | failed e => simp [conclude, Outcome.bind, planned, built] at published
  | faulted fault => simp [conclude, Outcome.bind, planned, built] at published

end Store

variable {type : RecordType} {ds : List IndexDef} {batch : List Record}

/-- Between definitions and lookups without delimiters, a key is asked for exactly if the name and
the kept texts are those of the lookup. -/
theorem Generation.asked_eq_of_free (freeNames : ∀ d ∈ ds, Key.hasDelimiter d.name = false)
    (freeValues : ∀ d ∈ ds, ∀ r ∈ batch, d.Free r)
    {name : String} (freeName : Key.hasDelimiter name = false) {values : List Value}
    (free : ∀ v ∈ values, Key.containsDelimiter v = false) :
    Generation.asked type ds batch (type.key name values) =
      (batch.filter fun r => ds.any fun d =>
        d.yields name (fun given => Key.texts given = Key.texts values) r).map Record.id := by
  refine congrArg (List.map Record.id) (List.filter_congr fun r inBatch => ?_)
  rw [Bool.eq_iff_iff, decide_eq_true_iff, List.any_eq_true]
  constructor
  · rintro ⟨d, member, given, extracted, same⟩
    have agree := (type.key_eq_key_iff (freeNames d member) freeName
      (freeValues d member r inBatch given extracted) free).mp same
    exact ⟨d, member, IndexDef.yields_iff.mpr ⟨agree.1, given, extracted, by simpa using agree.2⟩⟩
  · rintro ⟨d, member, yields⟩
    obtain ⟨named, given, extracted, agree⟩ := IndexDef.yields_iff.mp yields
    have same := (type.key_eq_key_iff (freeNames d member) freeName
      (freeValues d member r inBatch given extracted) free).mpr ⟨named, by simpa using agree⟩
    exact ⟨d, member, given, extracted, same⟩

namespace Engine

variable {e : Engine} {past : List (Engine × Move)}

/-- A reload that nothing overlaps publishes a batch exactly if its ids are distinct and all
definitions answer. Then each lookup without delimiters finds the records, in load order, to which
a definition of its name gives values with the texts that it asks for, where no value at all counts
as one empty text. -/
theorem Reach.free_lookup_exact (reach : Reach {} e past) {load : LoadWait} {rest : List Wait}
    (top : e.waits = .load load :: rest) (begun : load.Begun e.world) {batch : List Record}
    (freeNames : ∀ d ∈ (e.world.store load.store).definitions, Key.hasDelimiter d.name = false)
    (freeValues : ∀ d ∈ (e.world.store load.store).definitions, ∀ r ∈ batch, d.Free r) :
    (∀ n, ((e.world.store load.store).conclude load.plan (.done batch)).2 = .done n ↔
      (batch.map Record.id).Nodup ∧
        (∀ d ∈ (e.world.store load.store).definitions, ∀ r ∈ batch, d.Answers r) ∧
        n = batch.length) ∧
    ∀ n, ((e.world.store load.store).conclude load.plan (.done batch)).2 = .done n →
      ∀ name values, Key.hasDelimiter name = false →
        (∀ v ∈ values, Key.containsDelimiter v = false) →
        ((e.step (.loaded (.done batch))).1.world.store load.store).indexIds name values =
          (batch.filter fun r => (e.world.store load.store).definitions.any fun d =>
            d.yields name (fun given => Key.texts given = Key.texts values) r).map Record.id := by
  have planned := begun.plan
  rw [planned]
  constructor
  · intro n
    rw [Store.conclude_done_iff]
    constructor
    · rintro ⟨_, given, accepted, size⟩
      obtain rfl := Outcome.done.inj given
      have answered := accepted.answered
      rw [Store.publishing_plan] at answered
      exact ⟨accepted.distinct, answered, size⟩
    · rintro ⟨distinct, answered, size⟩
      refine ⟨batch, rfl, ⟨distinct, ?_⟩, size⟩
      rw [Store.publishing_plan]
      exact answered
  · intro n published name values freeName free
    have type := ((e.world.store load.store).conclude_keeps load.plan (.done batch)).1
    rw [step_concludes reach.sound top, Store.indexIds, type, planned,
      Store.ids_conclude_plan published]
    exact Generation.asked_eq_of_free freeNames freeValues freeName free

/-- A table with two definitions of one name, one of them of its type. -/
def placed : List Move :=
  [.call (.makeStore { itemType with indexes := [.byFields "at" ["x", "y"] none] }
      (.text "items") 0),
    .call (.registerIndex 0 (.byField "at" "x")), .call (.reload 0)]

def placedItems : List Record :=
  [⟨.number 3, [("x", .int 1), ("y", .uint 2)]⟩, ⟨.number 1, [("x", .int 2), ("y", .int 1)]⟩,
    ⟨.number 2, [("x", .text "1"), ("y", .int 2)]⟩, ⟨.number 4, [("x", .int 1)]⟩]

theorem placed_found : ((({} : Engine).run (placed ++ [.loaded (.done placedItems)])).world.store
    0).indexIds "at" [.uint 1, .text "2"] = [.number 3, .number 2] := by
  have plays : ({} : Engine).Plays placed := by decide
  have top : (({} : Engine).run placed).waits = .load
      ⟨0, ⟨[.byFields "at" ["x", "y"] none, .byField "at" "x"], 1⟩, .answer⟩ :: [] := rfl
  have free : ∀ d ∈ ((({} : Engine).run placed).world.store 0).definitions, ∀ r ∈ placedItems,
      d.Free r := by decide
  have exact := ((reach_run plays).free_lookup_exact top ⟨⟨by decide⟩, rfl⟩ (by decide) free).2
  have found := exact 4 rfl "at" [.uint 1, .text "2"] (by decide) (by decide)
  exact found.trans (by decide)

/-- The entry of a definition without values, as those of whole types are. -/
def wholeType : List Move :=
  [.call (.makeStore itemType (.text "items") 0), .call (.registerIndex 0 (.constant "kind" [])),
    .call (.reload 0)]

/-- A lookup of one empty text finds a record although no definition gives it one value: the
definition of that name gives it none. -/
theorem empty_text_finds_whole_type : ({} : Engine).Plays wholeType ∧
    ∃ load, (({} : Engine).run wholeType).waits = [.load load] ∧
      load.Begun (({} : Engine).run wholeType).world ∧
      ((({} : Engine).run wholeType).step (.loaded (.done [⟨.number 1, []⟩]))).2 =
        some (.reloaded (.done 1)) ∧
      (∀ d ∈ ((({} : Engine).run wholeType).world.store 0).definitions,
        Key.hasDelimiter d.name = false ∧ d.Free ⟨.number 1, []⟩) ∧
      Key.hasDelimiter "kind" = false ∧ Key.containsDelimiter (.text "") = false ∧
      ((({} : Engine).run (wholeType ++ [.loaded (.done [⟨.number 1, []⟩])])).world.store
        0).indexIds "kind" [.text ""] = [.number 1] ∧
      ([⟨.number 1, []⟩].filter fun r =>
        ((({} : Engine).run wholeType).world.store 0).definitions.any fun d =>
          d.yields "kind" (fun given => given.map Value.render = [Value.text ""].map Value.render)
            r).map Record.id = [] :=
  ⟨by decide, ⟨0, ⟨[.constant "kind" []], 1⟩, .answer⟩, rfl, ⟨⟨by decide⟩, rfl⟩, rfl, by decide,
    by decide, by decide, by decide, by decide⟩

end Engine

end LiveTables
