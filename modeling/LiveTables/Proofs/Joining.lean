import Mathlib.Data.List.Nodup
import LiveTables.Listener

namespace LiveTables

namespace Hub

/-- The listeners in a hub by what tells them apart, in the order they joined. -/
def numbers (h : Hub) : List Nat := h.listeners.map Listener.number

/-- Lets listeners join in turn. -/
def join (h : Hub) (ls : List Listener) : Hub := ls.foldl register h

@[simp] theorem join_nil (h : Hub) : h.join [] = h := rfl

theorem join_append (h : Hub) (ls more : List Listener) :
    h.join (ls ++ more) = (h.join ls).join more := List.foldl_append

theorem holds_iff {h : Hub} {l : Listener} : h.holds l = true ↔ l.number ∈ h.numbers := by
  simp [holds, numbers]

/-- A listener joins at the end if none with its number is there. -/
theorem numbers_register (h : Hub) (l : Listener) : (h.register l).numbers =
    if l.number ∈ h.numbers then h.numbers else h.numbers ++ [l.number] := by
  rw [numbers, listeners_register]
  by_cases joined : h.holds l = true
  · rw [if_pos joined, if_pos (holds_iff.mp joined), numbers]
  · rw [if_neg joined, if_neg fun known => joined (holds_iff.mpr known), numbers, List.map_append]
    rfl

/-- Whoever is there stays in place when another one joins. -/
theorem listeners_prefix_register (h : Hub) (l : Listener) :
    h.listeners <+: (h.register l).listeners := by
  rw [listeners_register]
  split
  · exact List.prefix_refl _
  · exact List.prefix_append _ _

/-- Nobody leaves. -/
theorem listeners_prefix_join (h : Hub) (ls : List Listener) :
    h.listeners <+: (h.join ls).listeners := by
  induction ls generalizing h with
  | nil => exact List.prefix_refl _
  | cons l rest ih => exact (h.listeners_prefix_register l).trans (ih _)

/-- Those that are not there yet join in their order, each at its first occurrence. -/
theorem numbers_join (h : Hub) (ls : List Listener) : (h.join ls).numbers =
    h.numbers ++ ((ls.map Listener.number).removeAll h.numbers).eraseDups := by
  induction ls generalizing h with
  | nil => simp
  | cons l rest ih =>
    rw [show h.join (l :: rest) = (h.register l).join rest from rfl, ih, numbers_register,
      List.map_cons, List.cons_removeAll]
    by_cases joined : l.number ∈ h.numbers
    · simp [joined]
    · have others : (rest.map Listener.number).removeAll (h.numbers ++ [l.number]) =
          ((rest.map Listener.number).removeAll h.numbers).filter fun n => !n == l.number := by
        rw [List.removeAll, List.removeAll, List.filter_filter]
        refine List.filter_congr fun n _ => ?_
        rw [Bool.eq_iff_iff]
        simp [and_comm]
      simp [joined, others, List.eraseDups_cons]

theorem nodup_numbers_join {h : Hub} (once : h.numbers.Nodup) (ls : List Listener) :
    (h.join ls).numbers.Nodup := by
  induction ls generalizing h with
  | nil => exact once
  | cons l rest ih =>
    refine ih ?_
    rw [numbers_register]
    split
    · exact once
    · rename_i new
      exact List.concat_eq_append ▸ once.concat new

theorem mem_numbers_join {h : Hub} {ls : List Listener} {n : Nat} :
    n ∈ (h.join ls).numbers ↔ n ∈ h.numbers ∨ n ∈ ls.map Listener.number := by
  induction ls generalizing h with
  | nil => simp
  | cons l rest ih =>
    rw [show h.join (l :: rest) = (h.register l).join rest from rfl, ih, numbers_register,
      List.map_cons, List.mem_cons]
    by_cases joined : l.number ∈ h.numbers
    · rw [if_pos joined]
      constructor
      · rintro (old | later)
        · exact Or.inl old
        · exact Or.inr (Or.inr later)
      · rintro (old | rfl | later)
        · exact Or.inl old
        · exact Or.inl joined
        · exact Or.inr later
    · rw [if_neg joined, List.mem_append, List.mem_singleton, or_assoc]

/-- A hub holds only listeners that were let in, and these as they were then. -/
theorem listeners_join_sublist {h : Hub} {given : List Listener}
    (drawn : h.listeners.Sublist given) (ls : List Listener) :
    (h.join ls).listeners.Sublist (given ++ ls) := by
  induction ls generalizing h given with
  | nil => simpa using drawn
  | cons l rest ih =>
    have first : (h.register l).listeners.Sublist (given ++ [l]) := by
      rw [listeners_register]
      split
      · exact drawn.trans (List.sublist_append_left _ _)
      · exact drawn.append (List.Sublist.refl _)
    have later := ih first
    rwa [List.append_assoc] at later

end Hub

end LiveTables
