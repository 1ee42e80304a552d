import MeerkatNet.Foundations.Machine

/-!
# First come, first served ownership

Keys that belong to whoever claims them first. A ledger is read from both sides, by the
owner of a key and by what an owner holds; that the two readings agree is part of it,
so no key has two owners and nobody holds a key twice.
-/

namespace Ownership

open Runs

variable {K O : Type*}

/-- The owner of each key, and the keys that each owner holds, oldest first. -/
structure Ledger (K O : Type*) where
  owner : K → Option O
  held : O → List K
  mem_held : ∀ o k, k ∈ held o ↔ owner k = some o
  nodup_held : ∀ o, (held o).Nodup

namespace Ledger

def empty : Ledger K O where
  owner _ := none
  held _ := []
  mem_held := by simp
  nodup_held := by simp

theorem disjoint_held (L : Ledger K O) {o o' : O} (hne : o ≠ o') :
    (L.held o).Disjoint (L.held o') := by
  intro k hk hk'
  rw [L.mem_held] at hk hk'
  exact hne (Option.some.inj (hk.symm.trans hk'))

theorem isSome_owner (L : Ledger K O) (k : K) : (L.owner k).isSome ↔ ∃ o, k ∈ L.held o := by
  simp only [L.mem_held, Option.isSome_iff_exists]

/-- Every key that has an owner keeps it. -/
def Extends (L L' : Ledger K O) : Prop := ∀ k o, L.owner k = some o → L'.owner k = some o

variable [DecidableEq K] [DecidableEq O]

/-- A key without an owner goes to `o`, behind what `o` holds already. -/
def take (L : Ledger K O) (o : O) (k : K) (hfree : L.owner k = none) : Ledger K O where
  owner := Function.update L.owner k (some o)
  held := Function.update L.held o (L.held o ++ [k])
  mem_held := by
    intro o' k'
    by_cases ho : o' = o
    · subst ho
      by_cases hk : k' = k
      · simp [hk]
      · simp [hk, L.mem_held]
    · by_cases hk : k' = k
      · subst hk
        simp [ho, L.mem_held, hfree, Ne.symm ho]
      · simp [ho, hk, L.mem_held]
  nodup_held := by
    intro o'
    by_cases ho : o' = o
    · subst ho
      have hnew : k ∉ L.held o' := by simp [L.mem_held, hfree]
      simpa [List.nodup_append, L.nodup_held] using fun a ha => ne_of_mem_of_not_mem ha hnew
    · simpa [ho] using L.nodup_held o'

/-- A claim on a key that has an owner changes nothing. -/
def claim (L : Ledger K O) (o : O) (k : K) : Ledger K O :=
  if hfree : L.owner k = none then L.take o k hfree else L

theorem claim_free (L : Ledger K O) (o : O) {k : K} (hfree : L.owner k = none) :
    L.claim o k = L.take o k hfree := dif_pos hfree

theorem extends_claim (L : Ledger K O) (o : O) (k : K) : L.Extends (L.claim o k) := by
  intro k' o' howner
  unfold claim
  split_ifs with hfree
  · have hk : k' ≠ k := by
      rintro rfl
      simp [hfree] at howner
    simpa [take, hk] using howner
  · exact howner

end Ledger

/-- Claims of keys, one after another. -/
def claims [DecidableEq K] [DecidableEq O] : Machine (Ledger K O) (O × K) where
  init := .empty
  next L c := L.claim c.1 c.2

/-- A key never changes its owner, whatever is claimed later. -/
theorem extends_exec [DecidableEq K] [DecidableEq O] (L : Ledger K O) (cs : List (O × K)) :
    L.Extends (claims.exec L cs) := by
  refine claims.exec_invariant (P := L.Extends) ?_ (fun _ _ howner => howner) cs
  intro L' c h k o howner
  exact L'.extends_claim c.1 c.2 k o (h k o howner)

end Ownership
