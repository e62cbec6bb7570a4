namespace LiveTables.Text

/-- The parts between marks. There is always one part more than there are marks. -/
def cut (mark : Char) : List Char → List (List Char)
  | [] => [[]]
  | c :: rest =>
    match cut mark rest with
    | [] => []
    | part :: parts => if c = mark then [] :: part :: parts else (c :: part) :: parts

/-- Parts with a mark between each two. -/
def join (mark : Char) : List (List Char) → List Char
  | [] => []
  | [part] => part
  | part :: next :: parts => part ++ mark :: join mark (next :: parts)

theorem cut_ne_nil (mark : Char) (s : List Char) : cut mark s ≠ [] := by
  induction s with
  | nil => simp [cut]
  | cons c rest ih =>
    obtain ⟨part, parts, atRest⟩ := List.exists_cons_of_ne_nil ih
    by_cases same : c = mark <;> simp [cut, atRest, same]

theorem cut_mark (mark : Char) (s : List Char) : cut mark (mark :: s) = [] :: cut mark s := by
  obtain ⟨part, parts, atRest⟩ := List.exists_cons_of_ne_nil (cut_ne_nil mark s)
  simp [cut, atRest]

/-- Characters before the first mark go into the first part. -/
theorem cut_append {mark : Char} {part : List Char} (free : mark ∉ part) {s : List Char}
    {first : List Char} {parts : List (List Char)} (atRest : cut mark s = first :: parts) :
    cut mark (part ++ s) = (part ++ first) :: parts := by
  induction part with
  | nil => exact atRest
  | cons c part ih =>
    simp only [List.mem_cons, not_or] at free
    have other : ¬c = mark := fun same => free.1 same.symm
    simp [cut, ih free.2, other]

theorem cut_of_free {mark : Char} {s : List Char} (free : mark ∉ s) : cut mark s = [s] := by
  simpa using cut_append free (s := []) rfl

/-- Nothing is lost by cutting. -/
theorem join_cut (mark : Char) (s : List Char) : join mark (cut mark s) = s := by
  induction s with
  | nil => rfl
  | cons c rest ih =>
    obtain ⟨part, parts, atRest⟩ := List.exists_cons_of_ne_nil (cut_ne_nil mark rest)
    rw [atRest] at ih
    by_cases same : c = mark
    · simp [cut, atRest, same, join, ih]
    · cases parts with
      | nil => simpa [cut, atRest, same, join] using ih
      | cons next parts => simpa [cut, atRest, same, join] using ih

/-- Joining adds marks and nothing else. -/
theorem mem_join {mark c : Char} {parts : List (List Char)} (member : c ∈ join mark parts) :
    c = mark ∨ ∃ part ∈ parts, c ∈ part := by
  induction parts with
  | nil => cases member
  | cons part parts ih =>
    cases parts with
    | nil => exact Or.inr ⟨part, List.mem_cons_self, member⟩
    | cons next parts =>
      rcases List.mem_append.mp member with first | later
      · exact Or.inr ⟨part, List.mem_cons_self, first⟩
      · rcases List.mem_cons.mp later with here | later
        · exact Or.inl here
        · rcases ih later with between | ⟨part, inside, within⟩
          · exact Or.inl between
          · exact Or.inr ⟨part, List.mem_cons_of_mem _ inside, within⟩

/-- Parts without a mark can be told apart again. -/
theorem cut_join {mark : Char} {part : List Char} {parts : List (List Char)}
    (free : ∀ p ∈ part :: parts, mark ∉ p) :
    cut mark (join mark (part :: parts)) = part :: parts := by
  induction parts generalizing part with
  | nil => exact cut_of_free (free part (by simp))
  | cons next parts ih =>
    have atRest := @ih next fun p mem => free p (List.mem_cons_of_mem _ mem)
    have head := cut_append (free part (by simp)) (cut_mark mark (join mark (next :: parts)))
    simpa [join, atRest] using head

theorem join_eq_intercalate (mark : Char) (parts : List (List Char)) :
    join mark parts = [mark].intercalate parts := by
  induction parts with
  | nil => rfl
  | cons part parts ih =>
    cases parts with
    | nil => exact List.intercalate_singleton.symm
    | cons next parts => rw [join, ih, List.intercalate_cons_cons, List.append_assoc]; rfl

/-- Cutting leaves no mark in a part. -/
theorem notMem_of_mem_cut {mark : Char} {s part : List Char} (member : part ∈ cut mark s) :
    mark ∉ part := by
  induction s generalizing part with
  | nil =>
    rw [List.mem_singleton.mp member]
    exact List.not_mem_nil
  | cons c rest ih =>
    obtain ⟨first, parts, atRest⟩ := List.exists_cons_of_ne_nil (cut_ne_nil mark rest)
    rw [atRest] at ih
    by_cases same : c = mark
    · subst same
      rw [cut_mark, atRest] at member
      rcases List.mem_cons.mp member with rfl | later
      · exact List.not_mem_nil
      · exact ih later
    · simp only [cut, atRest, same, if_false] at member
      rcases List.mem_cons.mp member with rfl | later
      · rw [List.mem_cons, not_or]
        exact ⟨Ne.symm same, ih List.mem_cons_self⟩
      · exact ih (List.mem_cons_of_mem _ later)

end LiveTables.Text
