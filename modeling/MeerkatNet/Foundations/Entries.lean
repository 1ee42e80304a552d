import Mathlib.Tactic

/-!
# Changing one entry of a list

A change that a partial reading of the entries does not see changes no list of
readings, and the entries after it are old ones and the changed one.
-/

namespace Entries

variable {α β : Type*}

theorem filterMap_modify {f : α → α} {g : α → Option β} {xs : List α}
    (h : ∀ x ∈ xs, g (f x) = g x) (k : ℕ) : (xs.modify k f).filterMap g = xs.filterMap g := by
  induction xs generalizing k with
  | nil => cases k <;> rfl
  | cons x xs ih =>
    have hx := h x (List.mem_cons_self ..)
    have hxs := ih fun y hy => h y (List.mem_cons_of_mem x hy)
    cases k with
    | zero => simp [List.filterMap_cons, hx]
    | succ k => simp [List.filterMap_cons, hxs]

theorem filterMap_sublist_map {f : α → β} {g : α → Option β}
    (h : ∀ x y, g x = some y → f x = y) (xs : List α) : (xs.filterMap g).Sublist (xs.map f) := by
  induction xs with
  | nil => exact List.Sublist.slnil
  | cons x xs ih =>
    rw [List.filterMap_cons, List.map_cons]
    cases hx : g x with
    | none => exact ih.cons _
    | some y => exact h x y hx ▸ ih.cons_cons _

theorem mem_of_mem_modify {f : α → α} {xs : List α} {k : ℕ} {y : α}
    (h : y ∈ xs.modify k f) : y ∈ xs ∨ ∃ x ∈ xs, y = f x := by
  obtain ⟨n, hn, rfl⟩ := List.getElem_of_mem h
  rw [List.getElem_modify]
  split
  · exact .inr ⟨_, List.getElem_mem _, rfl⟩
  · exact .inl (List.getElem_mem _)

end Entries
