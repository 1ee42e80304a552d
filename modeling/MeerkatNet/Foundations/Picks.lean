import Mathlib.Tactic

/-!
# Picking from a list by index

A list of distinct indices at which a partial list has values, long enough to leave
none of them out, picks all values; in increasing order it picks them in their order.
-/

namespace Picks

variable {α β : Type*}

/-- Going through the indices of a list is going through the list. -/
theorem filterMap_range (f : α → Option β) (xs : List α) :
    (List.range xs.length).filterMap (fun j => (xs[j]?).bind f) = xs.filterMap f := by
  induction xs using List.reverseRecOn with
  | nil => rfl
  | append_singleton xs x ih =>
    have hold : ∀ j ∈ List.range xs.length,
        ((xs ++ [x])[j]?).bind f = (xs[j]?).bind f := by
      intro j hj
      rw [List.getElem?_append_left (List.mem_range.mp hj)]
    rw [List.length_append, List.length_singleton, List.range_succ, List.filterMap_append,
      List.filterMap_append, List.filterMap_congr hold, ih]
    congr 1
    cases hx : f x <;> simp [hx]

/-- The indices below `n` at which there is a value. -/
def holding (f : ℕ → Option β) (n : ℕ) : List ℕ :=
  (List.range n).filter fun j => (f j).isSome

theorem filterMap_holding (f : ℕ → Option β) (n : ℕ) :
    (holding f n).filterMap f = (List.range n).filterMap f := by
  rw [holding, List.filterMap_filter]
  apply List.filterMap_congr
  intro j _
  cases f j <;> rfl

theorem length_filterMap {f : ℕ → Option β} {js : List ℕ} (hjs : ∀ j ∈ js, (f j).isSome = true) :
    (js.filterMap f).length = js.length := by
  rw [List.length_filterMap_eq_countP]
  exact List.countP_eq_length.mpr hjs

variable {f : ℕ → Option β} {n : ℕ} {js : List ℕ}

/-- Distinct indices below `n` that have values, as many as there are values, are all of them. -/
theorem perm_holding (hnodup : js.Nodup) (hlt : ∀ j ∈ js, j < n)
    (hjs : ∀ j ∈ js, (f j).isSome = true)
    (hlength : ((List.range n).filterMap f).length ≤ js.length) : js.Perm (holding f n) := by
  have hsub : js ⊆ holding f n := by
    intro j hj
    apply List.mem_filter.mpr
    exact ⟨List.mem_range.mpr (hlt j hj), hjs j hj⟩
  have hvalues : ∀ j ∈ holding f n, (f j).isSome = true := by
    intro j hj
    exact (List.mem_filter.mp hj).2
  apply (List.subperm_of_subset hnodup hsub).perm_of_length_le
  rwa [← length_filterMap hvalues, filterMap_holding]

/-- In increasing order they pick the values in their order. -/
theorem eq_holding (hsorted : js.Pairwise (· < ·)) (hperm : js.Perm (holding f n)) :
    js = holding f n := by
  apply hperm.eq_of_pairwise _ hsorted (List.pairwise_lt_range.filter _)
  intro j j' _ _ hlt hlt'
  omega

end Picks
