import Mathlib.Tactic

/-!
# Maps from keys to vectors

A finite map whose values are vectors, used only through `entry().or_default().push()`,
`remove` and lookup. It is represented by its lookup function; a missing entry and
an empty vector are different entries with the same queue.
-/

namespace KeyedQueues

variable {κ ν μ : Type*}

structure QueueMap (κ ν : Type*) where
  get : κ → Option (List ν)

namespace QueueMap

def empty : QueueMap κ ν := ⟨fun _ => none⟩

/-- The values stored under a key, oldest first. -/
def queue (m : QueueMap κ ν) (k : κ) : List ν := (m.get k).getD []

@[simp] theorem queue_empty (k : κ) : (empty : QueueMap κ ν).queue k = [] := rfl

theorem queue_of_get {m : QueueMap κ ν} {k : κ} {vs : List ν} (h : m.get k = some vs) :
    m.queue k = vs := by simp [queue, h]

theorem queue_of_get_none {m : QueueMap κ ν} {k : κ} (h : m.get k = none) :
    m.queue k = [] := by simp [queue, h]

/-- The same queues with every value replaced. -/
def map (f : ν → μ) (m : QueueMap κ ν) : QueueMap κ μ := ⟨fun k => (m.get k).map (List.map f)⟩

@[simp] theorem get_map (f : ν → μ) (m : QueueMap κ ν) (k : κ) :
    (m.map f).get k = (m.get k).map (List.map f) := rfl

variable [DecidableEq κ]

/-- `entry(k).or_default().push(v)`. -/
def push (m : QueueMap κ ν) (k : κ) (v : ν) : QueueMap κ ν :=
  ⟨Function.update m.get k (some (m.queue k ++ [v]))⟩

/-- `remove(&k)`, without the removed vector; that one is `m.get k`. -/
def remove (m : QueueMap κ ν) (k : κ) : QueueMap κ ν :=
  ⟨Function.update m.get k none⟩

@[simp] theorem get_push_self (m : QueueMap κ ν) (k : κ) (v : ν) :
    (m.push k v).get k = some (m.queue k ++ [v]) := by simp [push]

@[simp] theorem get_push_ne (m : QueueMap κ ν) {k j : κ} (v : ν) (h : j ≠ k) :
    (m.push k v).get j = m.get j := by simp [push, h]

@[simp] theorem get_remove_self (m : QueueMap κ ν) (k : κ) : (m.remove k).get k = none := by
  simp [remove]

@[simp] theorem get_remove_ne (m : QueueMap κ ν) {k j : κ} (h : j ≠ k) :
    (m.remove k).get j = m.get j := by simp [remove, h]

@[simp] theorem queue_push_self (m : QueueMap κ ν) (k : κ) (v : ν) :
    (m.push k v).queue k = m.queue k ++ [v] := by simp [push, queue]

@[simp] theorem queue_push_ne (m : QueueMap κ ν) {k j : κ} (v : ν) (h : j ≠ k) :
    (m.push k v).queue j = m.queue j := by simp [push, queue, h]

@[simp] theorem queue_remove_self (m : QueueMap κ ν) (k : κ) : (m.remove k).queue k = [] := by
  simp [remove, queue]

@[simp] theorem queue_remove_ne (m : QueueMap κ ν) {k j : κ} (h : j ≠ k) :
    (m.remove k).queue j = m.queue j := by simp [remove, queue, h]

/-- Pushing and then removing under one key forgets both. -/
@[simp] theorem push_remove (m : QueueMap κ ν) (k : κ) (v : ν) :
    (m.push k v).remove k = m.remove k := by simp [push, remove]

theorem remove_of_get_none {m : QueueMap κ ν} {k : κ} (h : m.get k = none) : m.remove k = m := by
  rw [remove, ← h, Function.update_eq_self]

theorem mem_queue_push {m : QueueMap κ ν} {k j : κ} {v w : ν} :
    w ∈ (m.push k v).queue j ↔ w ∈ m.queue j ∨ (j = k ∧ w = v) := by
  by_cases h : j = k
  · subst j; simp
  · simp [h]

theorem mem_queue_remove {m : QueueMap κ ν} {k j : κ} {w : ν} :
    w ∈ (m.remove k).queue j ↔ j ≠ k ∧ w ∈ m.queue j := by
  by_cases h : j = k
  · subst j; simp
  · simp [h]

theorem map_remove (f : ν → μ) (m : QueueMap κ ν) (k : κ) :
    (m.remove k).map f = (m.map f).remove k := by
  rw [map, remove, remove, mk.injEq]
  funext j
  by_cases h : j = k
  · subst j; simp
  · simp [h]

theorem map_push (f : ν → μ) (m : QueueMap κ ν) (k : κ) (v : ν) :
    (m.push k v).map f = (m.map f).push k (f v) := by
  rw [map, push, push, mk.injEq]
  funext j
  by_cases h : j = k
  · subst j
    cases hget : m.get k <;> simp [queue, hget]
  · simp [h]

end QueueMap
end KeyedQueues
