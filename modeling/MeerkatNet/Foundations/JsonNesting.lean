import Mathlib.Tactic

/-!
# Nesting of JSON texts

A scanner that knows how many brackets are open and whether it is inside a string. Over
a JSON value it comes back to the depth it started from and never goes below it, so a
text that opens with a brace is not a JSON value before its brace is closed.
-/

namespace JsonNesting

def quote : UInt8 := 0x22

def backslash : UInt8 := 0x5c

def comma : UInt8 := 0x2c

def colon : UInt8 := 0x3a

def openBrace : UInt8 := 0x7b

def closeBrace : UInt8 := 0x7d

def openBracket : UInt8 := 0x5b

def closeBracket : UInt8 := 0x5d

/-! ### JSON texts -/

/-- What stands between the quotes of a string: a backslash takes the next byte with it, and no
other quote occurs. -/
inductive StringBody : List UInt8 → Prop
  | nil : StringBody []
  | plain {b s} (hquote : b ≠ quote) (hescape : b ≠ backslash) (h : StringBody s) :
      StringBody (b :: s)
  | escape {b s} (h : StringBody s) : StringBody (backslash :: b :: s)

/-- The white space of JSON. -/
def Spaces (s : List UInt8) : Prop := ∀ b ∈ s, b ∈ ([0x20, 0x09, 0x0a, 0x0d] : List UInt8)

/-- The bytes of numbers and of `true`, `false` and `null`. -/
def WordByte (b : UInt8) : Prop :=
  (48 ≤ b ∧ b ≤ 57) ∨ (65 ≤ b ∧ b ≤ 90) ∨ (97 ≤ b ∧ b ≤ 122) ∨ b = 43 ∨ b = 45 ∨ b = 46

inductive Category where
  | value
  | name
  | elements
  | members

/-- JSON texts, by their outer form. Any word counts as a number or a literal, and lists may end in
a comma: more is a text here than in JSON, so less is asked of a reader of these texts. -/
inductive Json : Category → List UInt8 → Prop
  | word {s} (hne : s ≠ []) (h : ∀ b ∈ s, WordByte b) : Json .value s
  | string {s} (h : Json .name s) : Json .value s
  | array {s} (h : Json .elements s) : Json .value (openBracket :: (s ++ [closeBracket]))
  | object {s} (h : Json .members s) : Json .value (openBrace :: (s ++ [closeBrace]))
  | name {s} (h : StringBody s) : Json .name (quote :: (s ++ [quote]))
  | noElements : Json .elements []
  | lastElement {s} (h : Json .value s) : Json .elements s
  | element {s t} (h : Json .value s) (ht : Json .elements t) : Json .elements (s ++ comma :: t)
  | noMembers : Json .members []
  | lastMember {k s} (hk : Json .name k) (h : Json .value s) : Json .members (k ++ colon :: s)
  | member {k s t} (hk : Json .name k) (h : Json .value s) (ht : Json .members t) :
      Json .members (k ++ colon :: (s ++ comma :: t))
  | spaced {c before s after} (hbefore : Spaces before) (h : Json c s) (hafter : Spaces after) :
      Json c (before ++ (s ++ after))

theorem Json.ne_nil {c : Category} {s : List UInt8} (h : Json c s)
    (hc : c = .value ∨ c = .name) : s ≠ [] := by
  induction h with
  | word hne => exact hne
  | string h ih => exact ih (.inr rfl)
  | array | object | name => exact List.cons_ne_nil _ _
  | noElements | lastElement | element | noMembers | lastMember | member => simp at hc
  | spaced hbefore h hafter ih => simp [ih hc]

/-! ### The scanner -/

inductive Mode where
  | plain
  | quoted
  | escaped

/-- How many brackets are open, and where in a string the scanner is. -/
structure Scan where
  depth : ℕ
  mode : Mode

namespace Scan

def next (c : Scan) (b : UInt8) : Scan :=
  match c.mode with
  | .plain =>
    if b = quote then { c with mode := .quoted }
    else if b = openBrace ∨ b = openBracket then { c with depth := c.depth + 1 }
    else if b = closeBrace ∨ b = closeBracket then { c with depth := c.depth - 1 }
    else c
  | .quoted =>
    if b = quote then { c with mode := .plain }
    else if b = backslash then { c with mode := .escaped }
    else c
  | .escaped => { c with mode := .quoted }

def read (c : Scan) (s : List UInt8) : Scan := s.foldl next c

@[simp] theorem read_nil (c : Scan) : c.read [] = c := rfl

@[simp] theorem read_cons (c : Scan) (b : UInt8) (s : List UInt8) :
    c.read (b :: s) = (c.next b).read s := rfl

@[simp] theorem read_append (c : Scan) (s t : List UInt8) :
    c.read (s ++ t) = (c.read s).read t := List.foldl_append

end Scan

/-- The scanner comes back to the depth it starts from, and never goes below it. -/
structure Nested (s : List UInt8) : Prop where
  returns : ∀ d, Scan.read ⟨d, .plain⟩ s = ⟨d, .plain⟩
  above : ∀ d p, p <+: s → d ≤ (Scan.read ⟨d, .plain⟩ p).depth

/-- A byte that leaves a scanner outside strings alone. -/
def Flat (b : UInt8) : Prop :=
  b ≠ quote ∧ b ≠ openBrace ∧ b ≠ openBracket ∧ b ≠ closeBrace ∧ b ≠ closeBracket

theorem Scan.next_flat {b : UInt8} (h : Flat b) (d : ℕ) :
    Scan.next ⟨d, .plain⟩ b = ⟨d, .plain⟩ := by
  obtain ⟨hquote, hbrace, hbracket, hbrace', hbracket'⟩ := h
  simp [Scan.next, hquote, hbrace, hbracket, hbrace', hbracket']

theorem WordByte.flat {b : UInt8} (h : WordByte b) : Flat b := by
  refine ⟨?_, ?_, ?_, ?_, ?_⟩ <;> rintro rfl <;> revert h <;>
    simp only [WordByte] <;> decide

theorem flat_comma : Flat comma := by simp only [Flat]; decide

theorem flat_colon : Flat colon := by simp only [Flat]; decide

theorem Spaces.flat {s : List UInt8} (h : Spaces s) : ∀ b ∈ s, Flat b := by
  intro b hb
  have hmem := h b hb
  simp only [List.mem_cons, List.not_mem_nil, or_false] at hmem
  rcases hmem with rfl | rfl | rfl | rfl <;> simp only [Flat] <;> decide

/-! ### What a scanner does on a value -/

theorem nested_nil : Nested [] where
  returns _ := rfl
  above d p hp := by
    rw [List.prefix_nil.mp hp]
    exact le_rfl

theorem nested_singleton {b : UInt8} (h : Flat b) : Nested [b] where
  returns d := Scan.next_flat h d
  above d p hp := by
    rcases List.prefix_cons_iff.mp hp with rfl | ⟨t, rfl, ht⟩
    · exact le_rfl
    · rw [List.prefix_nil.mp ht, Scan.read_cons, Scan.next_flat h]
      exact le_rfl

theorem Nested.append {s t : List UInt8} (hs : Nested s) (ht : Nested t) : Nested (s ++ t) where
  returns d := by rw [Scan.read_append, hs.returns, ht.returns]
  above d p hp := by
    rcases List.prefix_or_prefix_of_prefix hp (List.prefix_append s t) with h | ⟨q, rfl⟩
    · exact hs.above d p h
    · rw [Scan.read_append, hs.returns]
      exact ht.above d q ((List.prefix_append_right_inj s).mp hp)

theorem nested_flat {s : List UInt8} (h : ∀ b ∈ s, Flat b) : Nested s := by
  induction s with
  | nil => exact nested_nil
  | cons b s ih =>
    rw [List.forall_mem_cons] at h
    exact (nested_singleton h.1).append (ih h.2)

/-- Inside the quotes the depth stays, and the scanner does not leave the string. -/
theorem StringBody.read {s : List UInt8} (h : StringBody s) (d : ℕ) :
    Scan.read ⟨d, .quoted⟩ s = ⟨d, .quoted⟩ ∧
      ∀ p, p <+: s → (Scan.read ⟨d, .quoted⟩ p).depth = d := by
  induction h with
  | nil =>
    refine ⟨rfl, fun p hp => ?_⟩
    rw [List.prefix_nil.mp hp]
    rfl
  | @plain b s hquote hescape h ih =>
    have hnext : Scan.next ⟨d, .quoted⟩ b = ⟨d, .quoted⟩ := by simp [Scan.next, hquote, hescape]
    refine ⟨by rw [Scan.read_cons, hnext, ih.1], fun p hp => ?_⟩
    rcases List.prefix_cons_iff.mp hp with rfl | ⟨t, rfl, ht⟩
    · rfl
    · rw [Scan.read_cons, hnext]
      exact ih.2 t ht
  | @escape b s h ih =>
    have hnext : Scan.next ⟨d, .quoted⟩ backslash = ⟨d, .escaped⟩ := rfl
    have hnext' : Scan.next ⟨d, .escaped⟩ b = ⟨d, .quoted⟩ := rfl
    refine ⟨by rw [Scan.read_cons, hnext, Scan.read_cons, hnext', ih.1], fun p hp => ?_⟩
    rcases List.prefix_cons_iff.mp hp with rfl | ⟨t, rfl, ht⟩
    · rfl
    · rcases List.prefix_cons_iff.mp ht with rfl | ⟨u, rfl, hu⟩
      · rfl
      · rw [Scan.read_cons, hnext, Scan.read_cons, hnext']
        exact ih.2 u hu

theorem StringBody.nested {s : List UInt8} (h : StringBody s) :
    Nested (quote :: (s ++ [quote])) where
  returns d := by
    have hopen : Scan.next ⟨d, .plain⟩ quote = ⟨d, .quoted⟩ := rfl
    rw [Scan.read_cons, hopen, Scan.read_append, (h.read d).1]
    rfl
  above d p hp := by
    have hopen : Scan.next ⟨d, .plain⟩ quote = ⟨d, .quoted⟩ := rfl
    rcases List.prefix_cons_iff.mp hp with rfl | ⟨t, rfl, ht⟩
    · exact le_rfl
    · rw [Scan.read_cons, hopen]
      rcases List.prefix_concat_iff.mp ht with rfl | ht
      · rw [Scan.read_append, (h.read d).1]
        exact le_rfl
      · exact ((h.read d).2 t ht).ge

/-- Between two brackets the scanner is deeper than before them. -/
theorem Nested.lt_depth {s : List UInt8} (h : Nested s) {opening closing : UInt8}
    (hopening : ∀ d, Scan.next ⟨d, .plain⟩ opening = ⟨d + 1, .plain⟩) (d : ℕ) {p : List UInt8}
    (hp : p <+: opening :: (s ++ [closing])) (hne : p ≠ [])
    (hproper : p ≠ opening :: (s ++ [closing])) :
    d < (Scan.read ⟨d, .plain⟩ p).depth := by
  rcases List.prefix_cons_iff.mp hp with rfl | ⟨t, rfl, ht⟩
  · exact absurd rfl hne
  · rcases List.prefix_concat_iff.mp ht with rfl | ht
    · exact absurd rfl hproper
    · rw [Scan.read_cons, hopening]
      exact h.above (d + 1) t ht

theorem Nested.bracketed {s : List UInt8} (h : Nested s) {opening closing : UInt8}
    (hopening : ∀ d, Scan.next ⟨d, .plain⟩ opening = ⟨d + 1, .plain⟩)
    (hclosing : ∀ d, Scan.next ⟨d + 1, .plain⟩ closing = ⟨d, .plain⟩) :
    Nested (opening :: (s ++ [closing])) := by
  have hreturns : ∀ d, Scan.read ⟨d, .plain⟩ (opening :: (s ++ [closing])) = ⟨d, .plain⟩ := by
    intro d
    rw [Scan.read_cons, hopening, Scan.read_append, h.returns, Scan.read_cons, hclosing,
      Scan.read_nil]
  refine ⟨hreturns, fun d p hp => ?_⟩
  by_cases hne : p = []
  · rw [hne]
    exact le_rfl
  · by_cases hproper : p = opening :: (s ++ [closing])
    · rw [hproper, hreturns]
    · exact (h.lt_depth hopening d hp hne hproper).le

theorem Json.nested {c : Category} {s : List UInt8} (h : Json c s) : Nested s := by
  have hcons : ∀ {b t}, Flat b → Nested t → Nested (b :: t) :=
    fun hb ht => (nested_singleton hb).append ht
  induction h with
  | word _ hword => exact nested_flat fun b hb => (hword b hb).flat
  | string _ ih => exact ih
  | array _ ih => exact ih.bracketed (fun _ => rfl) (fun _ => rfl)
  | object _ ih => exact ih.bracketed (fun _ => rfl) (fun _ => rfl)
  | name hbody => exact hbody.nested
  | noElements | noMembers => exact nested_nil
  | lastElement _ ih => exact ih
  | element _ _ ih iht => exact ih.append (hcons flat_comma iht)
  | lastMember _ _ ihk ih => exact ihk.append (hcons flat_colon ih)
  | member _ _ _ ihk ih iht =>
    exact ihk.append (hcons flat_colon (ih.append (hcons flat_comma iht)))
  | spaced hbefore _ hafter ih =>
    exact (nested_flat hbefore.flat).append (ih.append (nested_flat hafter.flat))

/-- A proper beginning of an object is not a JSON value. -/
theorem Json.not_value_of_isPrefix {members cut : List UInt8} (h : Json .members members)
    (hcut : cut <+: openBrace :: (members ++ [closeBrace]))
    (hproper : cut ≠ openBrace :: (members ++ [closeBrace])) : ¬ Json .value cut := by
  intro hvalue
  have hdeep := h.nested.lt_depth (fun _ => rfl) 0 hcut (hvalue.ne_nil (.inl rfl)) hproper
  rw [hvalue.nested.returns] at hdeep
  exact lt_irrefl _ hdeep

end JsonNesting
