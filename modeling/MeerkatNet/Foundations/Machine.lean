import Mathlib.Tactic

/-!
# Labelled machines and their runs

Every choice of the environment is part of the label, so a machine is a total
function of state and label and a run is the list of its labels. A condition on
steps is read along the run, in the state each step starts from. The rules below
turn one-step facts into facts about every run whose steps meet a condition.
-/

namespace Runs

/-- A start state and the successor of a state under a label. -/
structure Machine (σ α : Type*) where
  init : σ
  next : σ → α → σ

namespace Machine

variable {σ τ α β : Type*} (M : Machine σ α)

/-- The state after the labels `as`, started in `s`. -/
def exec (s : σ) (as : List α) : σ := as.foldl M.next s

def run (as : List α) : σ := M.exec M.init as

/-- Every step of `as` meets `C` in the state it is taken from. -/
def Along (C : σ → α → Prop) : σ → List α → Prop
  | _, [] => True
  | s, a :: as => C s a ∧ Along C (M.next s a) as

instance decidableAlong (C : σ → α → Prop) [∀ s a, Decidable (C s a)] :
    ∀ s as, Decidable (M.Along C s as)
  | _, [] => inferInstanceAs (Decidable True)
  | s, a :: as => @instDecidableAnd _ _ _ (decidableAlong C (M.next s a) as)

@[simp] theorem exec_nil (s : σ) : M.exec s [] = s := rfl

@[simp] theorem exec_cons (s : σ) (a : α) (as : List α) :
    M.exec s (a :: as) = M.exec (M.next s a) as := rfl

theorem exec_append (s : σ) (as bs : List α) :
    M.exec s (as ++ bs) = M.exec (M.exec s as) bs := List.foldl_append

theorem run_append (as bs : List α) : M.run (as ++ bs) = M.exec (M.run as) bs :=
  M.exec_append _ _ _

theorem run_concat (as : List α) (a : α) : M.run (as ++ [a]) = M.next (M.run as) a :=
  M.run_append as [a]

@[simp] theorem along_nil (C : σ → α → Prop) (s : σ) : M.Along C s [] := trivial

@[simp] theorem along_cons (C : σ → α → Prop) (s : σ) (a : α) (as : List α) :
    M.Along C s (a :: as) ↔ C s a ∧ M.Along C (M.next s a) as := Iff.rfl

/-- A condition on the labels alone. -/
theorem along_of_forall_mem {C : σ → α → Prop} {as : List α} (hC : ∀ a ∈ as, ∀ s, C s a) (s : σ) :
    M.Along C s as := by
  induction as generalizing s with
  | nil => trivial
  | cons a as ih =>
    obtain ⟨ha, hrest⟩ := List.forall_mem_cons.mp hC
    exact ⟨ha s, ih hrest _⟩

theorem along_of_forall {C : σ → α → Prop} (hC : ∀ s a, C s a) (s : σ) (as : List α) :
    M.Along C s as :=
  M.along_of_forall_mem (fun a _ s => hC s a) s

theorem along_append (C : σ → α → Prop) (s : σ) (as bs : List α) :
    M.Along C s (as ++ bs) ↔ M.Along C s as ∧ M.Along C (M.exec s as) bs := by
  induction as generalizing s with
  | nil => simp
  | cons a as ih => simp [ih, and_assoc]

theorem exec_of_fixed {s : σ} (hfixed : ∀ a, M.next s a = s) (as : List α) : M.exec s as = s := by
  induction as with
  | nil => rfl
  | cons a as ih => rw [exec_cons, hfixed, ih]

theorem along_of_fixed {s : σ} (hfixed : ∀ a, M.next s a = s) (C : σ → α → Prop) (as : List α) :
    M.Along C s as ↔ ∀ a ∈ as, C s a := by
  induction as with
  | nil => simp
  | cons a as ih => rw [along_cons, hfixed, ih, List.forall_mem_cons]

/-- A condition holds along a run when it holds at the last step of every beginning. -/
theorem along_iff_isPrefix (C : σ → α → Prop) (s : σ) (as : List α) :
    M.Along C s as ↔ ∀ bs a, bs ++ [a] <+: as → C (M.exec s bs) a := by
  constructor
  · rintro h bs a ⟨cs, rfl⟩
    rw [List.append_assoc, along_append] at h
    exact h.2.1
  · intro h
    induction as generalizing s with
    | nil => trivial
    | cons b as ih =>
      refine ⟨h [] b ⟨as, rfl⟩, ih _ ?_⟩
      intro bs a hpre
      have hstep := h (b :: bs) a (by simpa using hpre)
      exact hstep

/-- What every step preserves holds after every run from a state where it holds. -/
theorem exec_invariant {P : σ → Prop} (hstep : ∀ s a, P s → P (M.next s a)) {s : σ} (hs : P s)
    (as : List α) : P (M.exec s as) := by
  induction as generalizing s with
  | nil => exact hs
  | cons a as ih => exact ih (hstep s a hs)

theorem run_invariant {P : σ → Prop} (hinit : P M.init)
    (hstep : ∀ s a, P s → P (M.next s a)) (as : List α) : P (M.run as) :=
  M.exec_invariant hstep hinit as

/-- What the steps of a run show to an observer, in order. -/
def trace (f : σ → α → List β) : σ → List α → List β
  | _, [] => []
  | s, a :: as => f s a ++ trace f (M.next s a) as

@[simp] theorem trace_nil (f : σ → α → List β) (s : σ) : M.trace f s [] = [] := rfl

@[simp] theorem trace_cons (f : σ → α → List β) (s : σ) (a : α) (as : List α) :
    M.trace f s (a :: as) = f s a ++ M.trace f (M.next s a) as := rfl

theorem exec_back {P : σ → Prop} (hback : ∀ s a, P (M.next s a) → P s) {s : σ} {as : List α}
    (h : P (M.exec s as)) : P s := by
  induction as generalizing s with
  | nil => exact h
  | cons a as ih => exact hback s a (ih h)

/-- What holds at the end of a run and goes back over every step holds after each of its steps. -/
theorem along_of_exec {P : σ → Prop} (hback : ∀ s a, P (M.next s a) → P s) {s : σ}
    {as : List α} (h : P (M.exec s as)) : M.Along (fun s a => P (M.next s a)) s as := by
  induction as generalizing s with
  | nil => trivial
  | cons a as ih => exact ⟨M.exec_back hback h, ih h⟩

/-- If every step leaves the state alone or raises a measure of its part `f`, a run ends with the
part it started with exactly when all of its labels leave the start state alone. -/
theorem exec_part_eq_iff {ο : Type*} [Preorder ο] {P : σ → Prop} {Inert : σ → α → Prop}
    {f : σ → τ} (μ : τ → ο) (hP : ∀ s a, P s → P (M.next s a))
    (hinert : ∀ s a, Inert s a → M.next s a = s)
    (hraise : ∀ s a, P s → ¬ Inert s a → μ (f s) < μ (f (M.next s a))) {s : σ} (hs : P s)
    (as : List α) : f (M.exec s as) = f s ↔ ∀ a ∈ as, Inert s a := by
  have hgrows : ∀ (as : List α) {s : σ}, P s → μ (f s) ≤ μ (f (M.exec s as)) := by
    intro as
    induction as with
    | nil => exact fun _ => le_rfl
    | cons a as ih =>
      intro s hs
      by_cases ha : Inert s a
      · rw [exec_cons, hinert s a ha]
        exact ih hs
      · exact (hraise s a hs ha).le.trans (ih (hP s a hs))
  constructor
  · intro hsame
    induction as with
    | nil => simp
    | cons a as ih =>
      have ha : Inert s a := by
        by_contra ha
        have hlt := (hraise s a hs ha).trans_le (hgrows as (hP s a hs))
        rw [← exec_cons, hsame] at hlt
        exact lt_irrefl _ hlt
      rw [exec_cons, hinert s a ha] at hsame
      exact List.forall_mem_cons.mpr ⟨ha, ih hsame⟩
  · intro hall
    induction as with
    | nil => rfl
    | cons a as ih =>
      obtain ⟨ha, hrest⟩ := List.forall_mem_cons.mp hall
      rw [exec_cons, hinert s a ha, ih hrest]

variable {M} {C D : σ → α → Prop}

theorem Along.of_isPrefix {s : σ} {as bs : List α} (h : M.Along C s as) (hpre : bs <+: as) :
    M.Along C s bs := by
  obtain ⟨cs, rfl⟩ := hpre
  exact ((M.along_append C s bs cs).mp h).1

theorem Along.mono (hCD : ∀ s a, C s a → D s a) {s : σ} {as : List α}
    (h : M.Along C s as) : M.Along D s as := by
  induction as generalizing s with
  | nil => exact trivial
  | cons a as ih => exact ⟨hCD s a h.1, ih h.2⟩

theorem Along.and {s : σ} {as : List α} (hC : M.Along C s as) (hD : M.Along D s as) :
    M.Along (fun s a => C s a ∧ D s a) s as := by
  induction as generalizing s with
  | nil => exact trivial
  | cons a as ih => exact ⟨⟨hC.1, hD.1⟩, ih hC.2 hD.2⟩

/-- What one step preserves, a run preserves. -/
theorem Along.exec_induction {P : σ → Prop} (hstep : ∀ s a, P s → C s a → P (M.next s a))
    {s : σ} {as : List α} (h : M.Along C s as) (hs : P s) : P (M.exec s as) := by
  induction as generalizing s with
  | nil => exact hs
  | cons a as ih => exact ih h.2 (hstep s a hs h.1)

/-- The invariant rule: it holds at the start and each step that meets the
condition preserves it, so it holds after every run whose steps meet it. -/
theorem Along.invariant {P : σ → Prop} (hinit : P M.init)
    (hstep : ∀ s a, P s → C s a → P (M.next s a))
    {as : List α} (h : M.Along C M.init as) : P (M.run as) :=
  h.exec_induction hstep hinit

/-- An invariant may be used as a further condition on every step of the run. -/
theorem Along.strengthen {P : σ → Prop} (hstep : ∀ s a, P s → C s a → P (M.next s a))
    {s : σ} {as : List α} (h : M.Along C s as) (hs : P s) :
    M.Along (fun s a => P s ∧ C s a) s as := by
  induction as generalizing s with
  | nil => exact trivial
  | cons a as ih => exact ⟨⟨hs, h.1⟩, ih h.2 (hstep s a hs h.1)⟩

/-- Forward simulation: if each step of `M` from related states is matched by a run of `N` that ends
in related states, so is every run of `M`. -/
theorem Along.exec_forward {N : Machine τ β} {E : τ → β → Prop} {R : σ → τ → Prop}
    (hstep : ∀ s t a, R s t → C s a → ∃ bs, N.Along E t bs ∧ R (M.next s a) (N.exec t bs))
    {s : σ} {as : List α} (h : M.Along C s as) {t : τ} (hR : R s t) :
    ∃ bs, N.Along E t bs ∧ R (M.exec s as) (N.exec t bs) := by
  induction as generalizing s t with
  | nil => exact ⟨[], trivial, hR⟩
  | cons a as ih =>
    obtain ⟨bs, hbs, hnext⟩ := hstep s t a hR h.1
    obtain ⟨cs, hcs, hrest⟩ := ih h.2 hnext
    refine ⟨bs ++ cs, (N.along_append E _ _ _).mpr ⟨hbs, hcs⟩, ?_⟩
    rw [exec_append]
    exact hrest

/-- Trace inclusion: if from related states `N` may make what a step of `M` shows, and they are
related again, then `N` may make the whole trace of a run of `M`. -/
theorem Along.trace_forward {N : Machine τ β} {E : τ → β → Prop} {R : σ → τ → Prop}
    {f : σ → α → List β}
    (hstep : ∀ s t a, R s t → C s a → N.Along E t (f s a) ∧ R (M.next s a) (N.exec t (f s a)))
    {s : σ} {as : List α} (h : M.Along C s as) {t : τ} (hR : R s t) :
    N.Along E t (M.trace f s as) ∧ R (M.exec s as) (N.exec t (M.trace f s as)) := by
  induction as generalizing s t with
  | nil => exact ⟨trivial, hR⟩
  | cons a as ih =>
    obtain ⟨hallowed, hnext⟩ := hstep s t a hR h.1
    obtain ⟨hrest, hend⟩ := ih h.2 hnext
    rw [trace_cons, along_append, exec_append]
    exact ⟨⟨hallowed, hrest⟩, hend⟩

variable (M) in
theorem exec_forward {N : Machine τ β} {R : σ → τ → Prop}
    (hstep : ∀ s t a, R s t → ∃ bs, R (M.next s a) (N.exec t bs)) {s : σ} {t : τ} (hR : R s t)
    (as : List α) : ∃ bs, R (M.exec s as) (N.exec t bs) := by
  -- the rule above with no condition on the steps of either machine
  have halong := M.along_of_forall (C := fun _ _ => True) (fun _ _ => trivial) s as
  have hmatch : ∀ s t a, R s t → True →
      ∃ bs, N.Along (fun _ _ => True) t bs ∧ R (M.next s a) (N.exec t bs) := by
    intro s t a h _
    obtain ⟨bs, hbs⟩ := hstep s t a h
    exact ⟨bs, N.along_of_forall (fun _ _ => trivial) t bs, hbs⟩
  obtain ⟨bs, -, hbs⟩ := halong.exec_forward hmatch hR
  exact ⟨bs, hbs⟩

/-- Each step of `M` is a run of `N` under `f`; so is every run of `M`. -/
theorem Along.exec_simulate {N : Machine τ β} {E : τ → β → Prop} (f : σ → τ)
    (hstep : ∀ s a, C s a → ∃ bs, N.Along E (f s) bs ∧ f (M.next s a) = N.exec (f s) bs)
    {s : σ} {as : List α} (h : M.Along C s as) :
    ∃ bs, N.Along E (f s) bs ∧ f (M.exec s as) = N.exec (f s) bs := by
  refine h.exec_forward (R := fun s t => f s = t) ?_ rfl
  rintro s t a rfl hC
  exact hstep s a hC

/-- A part `f` of the state that only some labels touch, each like a label of `N`, goes through a
run of `N` under those labels alone. -/
theorem Along.exec_project {N : Machine τ β} (f : σ → τ) (g : α → Option β)
    (hstep : ∀ s a, C s a → f (M.next s a) = (g a).elim (f s) (N.next (f s))) {s : σ}
    {as : List α} (h : M.Along C s as) : f (M.exec s as) = N.exec (f s) (as.filterMap g) := by
  induction as generalizing s with
  | nil => rfl
  | cons a as ih =>
    rw [exec_cons, ih h.2, hstep s a h.1, List.filterMap_cons]
    cases g a <;> rfl

/-- Two machines that are fed the same labels stay related when every pair of steps keeps them
related. -/
theorem run_lockstep {γ : Type*} {N : Machine τ β} {R : σ → τ → Prop} {C : γ → Prop}
    {f : γ → α} {g : γ → β} (hinit : R M.init N.init)
    (hstep : ∀ s t c, R s t → C c → R (M.next s (f c)) (N.next t (g c)))
    {cs : List γ} (hcs : ∀ c ∈ cs, C c) : R (M.run (cs.map f)) (N.run (cs.map g)) := by
  induction cs using List.reverseRecOn with
  | nil => exact hinit
  | append_singleton cs c ih =>
    rw [List.map_append, List.map_append, List.map_singleton, List.map_singleton, run_concat,
      run_concat]
    refine hstep _ _ c (ih fun d hd => hcs d ?_) (hcs c ?_)
    · exact List.mem_append_left _ hd
    · exact List.mem_append_right _ (List.mem_singleton_self c)

end Machine
end Runs
