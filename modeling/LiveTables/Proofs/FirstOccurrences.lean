namespace LiveTables

/-- The last of some elements is one of the first occurrences if nothing before it is the same. -/
theorem eraseDups_concat {α : Type} [BEq α] [EquivBEq α] (xs : List α) (x : α) :
    (xs ++ [x]).eraseDups = if xs.any (· == x) then xs.eraseDups else xs.eraseDups ++ [x] := by
  match xs with
  | [] => rfl
  | y :: xs =>
    rw [List.cons_append, List.eraseDups_cons, List.eraseDups_cons, List.filter_append]
    by_cases same : (y == x) = true
    · have last : [x].filter (fun z => !z == y) = [] := by simp [BEq.symm same]
      rw [last, List.append_nil, if_pos (by simp [same])]
    · have apart (z : α) (other : (z == x) = true) : (z == y) = false := by
        rw [← Bool.not_eq_true]
        exact fun also => same (BEq.trans (BEq.symm also) other)
      have last : [x].filter (fun z => !z == y) = [x] := by simp [apart x BEq.rfl]
      have others : (xs.filter fun z => !z == y).any (· == x) = (y :: xs).any (· == x) := by
        rw [List.any_filter, List.any_cons, Bool.eq_false_iff.mpr same, Bool.false_or]
        congr 1
        funext z
        cases other : z == x with
        | true => simp [apart z other]
        | false => simp
      rw [last, eraseDups_concat, others]
      split <;> rfl
termination_by xs.length
decreasing_by exact Nat.lt_succ_of_le (List.length_filter_le _ _)

/-- Later elements add their first occurrences, but for those that are there already. -/
theorem eraseDups_append_new {α : Type} [BEq α] [EquivBEq α] (xs ys : List α) :
    (xs ++ ys).eraseDups = xs.eraseDups ++ (ys.filter fun y => !xs.any (· == y)).eraseDups := by
  induction ys generalizing xs with
  | nil => simp
  | cons y ys ih =>
    have split : xs ++ y :: ys = xs ++ [y] ++ ys := by simp
    rw [split, ih, eraseDups_concat]
    by_cases known : xs.any (· == y) = true
    · -- What is the same as the new element was there before.
      have same : (fun z => !(xs ++ [y]).any (· == z)) = fun z => !xs.any (· == z) := by
        funext z
        rw [List.any_append, List.any_cons, List.any_nil, Bool.or_false]
        by_cases other : (y == z) = true
        · obtain ⟨x, member, same⟩ := List.any_eq_true.mp known
          have there : xs.any (· == z) = true :=
            List.any_eq_true.mpr ⟨x, member, BEq.trans same other⟩
          rw [there, Bool.true_or]
        · rw [Bool.eq_false_iff.mpr other, Bool.or_false]
      rw [if_pos known, same, List.filter_cons_of_neg (by simp [known])]
    · have others : (ys.filter fun z => !(xs ++ [y]).any (· == z)) =
          (ys.filter fun z => !xs.any (· == z)).filter fun z => !z == y := by
        rw [List.filter_filter]
        refine List.filter_congr fun z _ => ?_
        rw [List.any_append, List.any_cons, List.any_nil, Bool.or_false, Bool.not_or, Bool.and_comm,
          BEq.comm]
      rw [if_neg known, others, List.filter_cons_of_pos (by simp [known]), List.eraseDups_cons,
        List.append_assoc, List.singleton_append]

variable {α : Type} [DecidableEq α]

theorem eraseDups_concat_eq (xs : List α) (x : α) :
    (xs ++ [x]).eraseDups = if x ∈ xs then xs.eraseDups else xs.eraseDups ++ [x] := by
  have there : xs.any (· == x) = true ↔ x ∈ xs := by simp
  rw [eraseDups_concat]
  simp only [there]

theorem nodup_eraseDups (xs : List α) : xs.eraseDups.Nodup := by
  match xs with
  | [] => exact List.nodup_nil
  | x :: xs =>
    rw [List.eraseDups_cons, List.nodup_cons]
    refine ⟨fun later => ?_, nodup_eraseDups _⟩
    have other := (List.mem_filter.mp (List.mem_eraseDups.mp later)).2
    simp at other
termination_by xs.length
decreasing_by exact Nat.lt_succ_of_le (List.length_filter_le _ _)

end LiveTables
