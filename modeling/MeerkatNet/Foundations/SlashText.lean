import Mathlib.Tactic

/-!
# Text read through a separator

Raw prefix and substring tests on text, and the pieces of a text between its
slashes. Splitting is compatible with joining at a slash; the raw tests are not
about pieces.
-/

namespace SlashText

/-- `str::starts_with`. -/
def startsWith (s t : String) : Bool := t.toList.isPrefixOf s.toList

/-- `str::contains`. -/
def contains (s t : String) : Bool := decide (t.toList <:+: s.toList)

/-- The pieces of `str::split('/')`. -/
def components (s : String) : List String := (s.toList.splitOn '/').map String.ofList

theorem startsWith_iff {s t : String} : startsWith s t = true ↔ t.toList <+: s.toList :=
  List.isPrefixOf_iff_prefix

theorem startsWith_iff_append {s t : String} : startsWith s t = true ↔ ∃ u, s = t ++ u := by
  rw [startsWith_iff]
  constructor
  · rintro ⟨l, hl⟩
    exact ⟨String.ofList l, by simp [← String.toList_inj, hl]⟩
  · rintro ⟨u, rfl⟩
    exact ⟨u.toList, by simp⟩

/-- A slash between two texts separates their pieces. -/
@[simp] theorem components_slash (s t : String) :
    components (s ++ "/" ++ t) = components s ++ components t := by
  have h : (s ++ "/" ++ t).toList = s.toList ++ '/' :: t.toList := by simp
  rw [components, h, List.splitOn_append_cons_self, List.map_append]
  rfl

theorem components_slash_left (t : String) : components ("/" ++ t) = "" :: components t := by
  have h := components_slash "" t
  have hnil : components "" = [""] := rfl
  simpa [hnil] using h

def SlashFree (s : String) : Prop := '/' ∉ s.toList

instance (s : String) : Decidable (SlashFree s) := inferInstanceAs (Decidable ('/' ∉ s.toList))

theorem components_of_slashFree {s : String} (h : SlashFree s) : components s = [s] := by
  rw [components, List.splitOn_eq_singleton h]
  simp

/-- Pieces with a slash in front of each. -/
def slashed (parts : List String) : String := parts.foldr (fun part text => "/" ++ part ++ text) ""

@[simp] theorem slashed_append (parts parts' : List String) :
    slashed (parts ++ parts') = slashed parts ++ slashed parts' := by
  induction parts with
  | nil => simp [slashed]
  | cons part parts ih =>
    simp only [slashed, List.cons_append, List.foldr_cons] at ih ⊢
    rw [ih, ← String.append_assoc]

theorem ofList_intercalate (part : List Char) (parts : List (List Char)) :
    String.ofList (['/'].intercalate (part :: parts)) =
      String.ofList part ++ slashed (parts.map String.ofList) := by
  induction parts generalizing part with
  | nil => simp [slashed]
  | cons part' parts ih =>
    have hslash : String.ofList ['/'] = "/" := rfl
    rw [List.intercalate_cons_cons, String.ofList_append, String.ofList_append, ih, hslash]
    simp [slashed, String.append_assoc]

/-- A text is its first piece with the others behind it. -/
theorem eq_append_slashed {s part : String} {parts : List String}
    (h : components s = part :: parts) : s = part ++ slashed parts := by
  obtain ⟨l, ls, hsplit, rfl, rfl⟩ := List.map_eq_cons_iff.mp h
  rw [← ofList_intercalate, ← hsplit, List.intercalate_splitOn, String.ofList_toList]

/-- Pieces that begin like those of another text belong to a text that begins with it. -/
theorem eq_append_slashed_of_append {s t : String} {parts : List String}
    (h : components s = components t ++ parts) : s = t ++ slashed parts := by
  cases ht : components t with
  | nil => simp [components] at ht
  | cons part parts' =>
    rw [ht, List.cons_append] at h
    rw [eq_append_slashed h, eq_append_slashed ht, slashed_append, String.append_assoc]

/-- Slash-free pieces are read back behind any text. -/
theorem components_append_slashed (s : String) {parts : List String}
    (h : ∀ part ∈ parts, SlashFree part) :
    components (s ++ slashed parts) = components s ++ parts := by
  induction parts generalizing s with
  | nil => simp [slashed]
  | cons part parts ih =>
    rw [List.forall_mem_cons] at h
    have hsplit : s ++ slashed (part :: parts) = s ++ "/" ++ (part ++ slashed parts) := by
      simp [slashed, String.append_assoc]
    rw [hsplit, components_slash, ih part h.2, components_of_slashFree h.1, List.singleton_append]

theorem components_slashed {parts : List String} (h : ∀ part ∈ parts, SlashFree part) :
    components (slashed parts) = "" :: parts := by
  have happend := components_append_slashed "" h
  rwa [String.empty_append] at happend

end SlashText
