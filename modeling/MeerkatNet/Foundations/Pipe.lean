import Mathlib.Tactic

/-!
# One-way pipes

Items come out in the order in which they were put in, in groups of any size. What
has come out so far is always a beginning of what was put in.
-/

namespace Pipes

structure Pipe (α : Type*) where
  arrived : List α
  inFlight : List α

namespace Pipe

variable {α : Type*}

def empty : Pipe α := ⟨[], []⟩

def written (p : Pipe α) : List α := p.arrived ++ p.inFlight

def write (p : Pipe α) (items : List α) : Pipe α := { p with inFlight := p.inFlight ++ items }

/-- At most `n` more items come out. -/
def arrive (p : Pipe α) (n : ℕ) : Pipe α :=
  ⟨p.arrived ++ p.inFlight.take n, p.inFlight.drop n⟩

@[simp] theorem written_empty : (empty : Pipe α).written = [] := rfl

@[simp] theorem written_write (p : Pipe α) (items : List α) :
    (p.write items).written = p.written ++ items := by simp [written, write]

@[simp] theorem arrived_write (p : Pipe α) (items : List α) :
    (p.write items).arrived = p.arrived := rfl

@[simp] theorem written_arrive (p : Pipe α) (n : ℕ) : (p.arrive n).written = p.written := by
  simp [written, arrive]

theorem arrived_isPrefix (p : Pipe α) : p.arrived <+: p.written := List.prefix_append _ _

/-- Everything has come out once there was room for all of it. -/
theorem arrived_arrive {p : Pipe α} {n : ℕ} (h : p.written.length ≤ n) :
    (p.arrive n).arrived = p.written := by
  have hall : p.inFlight.length ≤ n := by
    simp only [written, List.length_append] at h
    omega
  simp [arrive, written, List.take_of_length_le hall]

end Pipe
end Pipes
