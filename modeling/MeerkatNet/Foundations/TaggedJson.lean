import MeerkatNet.Foundations.JsonNesting
import MeerkatNet.Foundations.TaggedData

/-!
# Tagged values are JSON objects

The compact text of a tagged value, in UTF-8, is a JSON object: the escapes keep quotes
out of its strings, and the other characters of a string have no byte of a quote.
-/

namespace TaggedData

open JsonText JsonNesting

/-- The text in UTF-8. -/
def encoded (cs : List Char) : List UInt8 := cs.flatMap String.utf8EncodeChar

@[simp] theorem encoded_append (cs ds : List Char) :
    encoded (cs ++ ds) = encoded cs ++ encoded ds := List.flatMap_append

theorem encoded_cons (c : Char) (cs : List Char) :
    encoded (c :: cs) = String.utf8EncodeChar c ++ encoded cs := List.flatMap_cons

theorem utf8EncodeChar_ascii {c : Char} (h : c.toNat < 128) :
    String.utf8EncodeChar c = [UInt8.ofNat c.toNat] := by
  have hv : c.val.toNat ≤ 0x7f := Nat.le_of_lt_succ h
  simp only [String.utf8EncodeChar, if_pos hv]
  rfl

/-- Only the quote and the backslash have their bytes. -/
theorem utf8EncodeChar_plain {c : Char} (hquote : c ≠ '"') (hescape : c ≠ '\\') :
    ∀ b ∈ String.utf8EncodeChar c, b ≠ quote ∧ b ≠ backslash := by
  have hlarge : ∀ n : ℕ, 128 ≤ n % 256 → UInt8.ofNat n ≠ quote ∧ UInt8.ofNat n ≠ backslash := by
    intro n hn
    constructor <;> intro h <;>
      · have hnat := congrArg UInt8.toNat h
        simp only [UInt8.toNat_ofNat', quote, backslash, UInt8.reduceToNat] at hnat
        omega
  intro b hb
  by_cases hascii : c.toNat < 128
  · rw [utf8EncodeChar_ascii hascii, List.mem_singleton] at hb
    subst b
    constructor <;> intro h
    · have hnat := congrArg UInt8.toNat h
      simp only [UInt8.toNat_ofNat', quote, UInt8.reduceToNat] at hnat
      apply hquote
      rw [← Char.ofNat_toNat c, show c.toNat = 34 by omega]
    · have hnat := congrArg UInt8.toNat h
      simp only [UInt8.toNat_ofNat', backslash, UInt8.reduceToNat] at hnat
      apply hescape
      rw [← Char.ofNat_toNat c, show c.toNat = 92 by omega]
  · have hv : ¬ c.val.toNat ≤ 0x7f := fun h => hascii (Nat.lt_succ_of_le h)
    simp only [String.utf8EncodeChar, if_neg hv] at hb
    split_ifs at hb <;> simp only [List.mem_cons, List.not_mem_nil, or_false] at hb
    · rcases hb with rfl | rfl <;> apply hlarge <;> omega
    · rcases hb with rfl | rfl | rfl <;> apply hlarge <;> omega
    · rcases hb with rfl | rfl | rfl | rfl <;> apply hlarge <;> omega

/-! ### Strings -/

theorem stringBody_append {s t : List UInt8} (hs : StringBody s) (ht : StringBody t) :
    StringBody (s ++ t) := by
  induction hs with
  | nil => exact ht
  | plain hquote hescape _ ih => exact .plain hquote hescape ih
  | escape _ ih => exact .escape ih

theorem stringBody_of_forall {s : List UInt8} (h : ∀ b ∈ s, b ≠ quote ∧ b ≠ backslash) :
    StringBody s := by
  induction s with
  | nil => exact .nil
  | cons b s ih =>
    rw [List.forall_mem_cons] at h
    exact .plain h.1.1 h.1.2 (ih h.2)

theorem stringBody_encoded {cs : List Char} (h : ∀ c ∈ cs, c ≠ '"' ∧ c ≠ '\\') :
    StringBody (encoded cs) := by
  apply stringBody_of_forall
  intro b hb
  obtain ⟨c, hc, hb⟩ := List.mem_flatMap.mp hb
  exact utf8EncodeChar_plain (h c hc).1 (h c hc).2 b hb

theorem hexDigit_plain : ∀ n < 16, hexDigit n ≠ '"' ∧ hexDigit n ≠ '\\' := by decide

theorem stringBody_escapeChar (c : Char) : StringBody (encoded (escapeChar c)) := by
  unfold escapeChar
  split
  · rename_i p hp
    have hmem := List.mem_of_find?_eq_some hp
    simp only [shortEscapes, List.mem_cons, List.not_mem_nil, or_false] at hmem
    rcases hmem with rfl | rfl | rfl | rfl | rfl | rfl | rfl <;> exact .escape .nil
  · rename_i hnone
    split_ifs with hcontrol
    · -- the escape takes the `u` with it, and what follows is plain
      have hplain : StringBody
          (encoded ['0', '0', hexDigit (c.toNat / 16), hexDigit (c.toNat % 16)]) := by
        apply stringBody_encoded
        have hhigh := hexDigit_plain (c.toNat / 16) (by omega)
        have hlow := hexDigit_plain (c.toNat % 16) (by omega)
        simp [hhigh, hlow]
      exact .escape hplain
    · apply stringBody_encoded
      rintro d hd
      obtain rfl := List.mem_singleton.mp hd
      constructor <;> rintro rfl <;> simp [shortEscapes] at hnone

theorem json_quoted (s : String) : Json .name (encoded (quoted s)) := by
  have hbody : StringBody (encoded (s.toList.flatMap escapeChar)) := by
    induction s.toList with
    | nil => exact .nil
    | cons c cs ih =>
      rw [List.flatMap_cons, encoded_append]
      exact stringBody_append (stringBody_escapeChar c) ih
  have htext : encoded (quoted s) =
      quote :: (encoded (s.toList.flatMap escapeChar) ++ [quote]) := by
    rw [quoted, encoded_cons, encoded_append]
    rfl
  rw [htext]
  exact .name hbody

/-! ### Numbers and arrays -/

theorem wordByte_of_isDigit {c : Char} (h : c.isDigit = true) :
    ∃ b, String.utf8EncodeChar c = [b] ∧ WordByte b := by
  have hrange : 48 ≤ c.toNat ∧ c.toNat ≤ 57 := by
    simpa [Char.isDigit, UInt32.le_iff_toNat_le] using h
  refine ⟨_, utf8EncodeChar_ascii (by omega), .inl ?_⟩
  simp only [UInt8.le_iff_toNat_le, UInt8.toNat_ofNat', UInt8.reduceToNat]
  omega

theorem json_digits (n : ℕ) : Json .value (encoded (Nat.toDigits 10 n)) := by
  have hdigit : ∀ c ∈ Nat.toDigits 10 n, c.isDigit = true := by
    intro c hc
    apply Nat.isDigit_of_mem_toDigits _ _ hc <;> omega
  apply Json.word
  · obtain ⟨c, cs, hdigits⟩ := List.exists_cons_of_ne_nil (Nat.toDigits_ne_nil (n := n) (b := 10))
    obtain ⟨b, hb, -⟩ := wordByte_of_isDigit (hdigit c (by simp [hdigits]))
    rw [hdigits, encoded_cons, hb]
    exact List.cons_ne_nil _ _
  · intro b hb
    obtain ⟨c, hc, hb⟩ := List.mem_flatMap.mp hb
    obtain ⟨b', hb', hword⟩ := wordByte_of_isDigit (hdigit c hc)
    rw [hb', List.mem_singleton] at hb
    exact hb ▸ hword

/-- A first element and what follows it, up to the closing bracket. -/
theorem json_moreBytes (bs : List UInt8) {s : List UInt8} (h : Json .value s) :
    ∃ elements, s ++ encoded (moreBytes bs) = elements ++ [closeBracket] ∧
      Json .elements elements := by
  induction bs generalizing s with
  | nil => exact ⟨s, rfl, .lastElement h⟩
  | cons b bs ih =>
    obtain ⟨elements, htext, helements⟩ := ih (json_digits b.toNat)
    refine ⟨s ++ comma :: elements, ?_, .element h helements⟩
    rw [moreBytes, encoded_cons, encoded_append, htext, List.append_assoc]
    rfl

theorem json_bytes (data : List UInt8) : Json .value (encoded (JsonText.bytes data)) := by
  cases data with
  | nil =>
    have hempty : Json .value (openBracket :: ([] ++ [closeBracket])) := .array .noElements
    exact hempty
  | cons b bs =>
    obtain ⟨elements, htext, helements⟩ := json_moreBytes bs (json_digits b.toNat)
    rw [JsonText.bytes, encoded_cons, encoded_append, htext]
    exact .array helements

/-! ### Objects -/

theorem json_datumText (d : Datum) : Json .value (encoded (datumText d)) := by
  cases d with
  | text s => exact .string (json_quoted s)
  | number n => exact json_digits n.toNat
  | bytes data => exact json_bytes data

theorem encoded_fieldText (f : String × Datum) :
    encoded (fieldText f) = encoded (quoted f.1) ++ colon :: encoded (datumText f.2) := by
  rw [fieldText, encoded_append, encoded_cons]
  rfl

/-- A first field and what follows it, up to the two closing braces. -/
theorem json_moreFields (fs : List (String × Datum)) (f : String × Datum) :
    ∃ members, encoded (fieldText f) ++ encoded (moreFields fs) =
      members ++ [closeBrace, closeBrace] ∧ Json .members members := by
  induction fs generalizing f with
  | nil =>
    refine ⟨encoded (fieldText f), rfl, ?_⟩
    rw [encoded_fieldText]
    exact .lastMember (json_quoted f.1) (json_datumText f.2)
  | cons g fs ih =>
    obtain ⟨members, htext, hmembers⟩ := ih g
    refine ⟨encoded (fieldText f) ++ comma :: members, ?_, ?_⟩
    · rw [moreFields, encoded_cons, encoded_append, htext, List.append_assoc]
      rfl
    · rw [encoded_fieldText, List.append_assoc]
      exact .member (json_quoted f.1) (json_datumText f.2) hmembers

theorem json_fieldsText (fs : List (String × Datum)) :
    ∃ members, encoded (fieldsText fs) = members ++ [closeBrace, closeBrace] ∧
      Json .members members := by
  cases fs with
  | nil => exact ⟨[], rfl, .noMembers⟩
  | cons f fs =>
    obtain ⟨members, htext, hmembers⟩ := json_moreFields fs f
    exact ⟨members, by rw [fieldsText, encoded_append, htext], hmembers⟩

/-- The text of a tagged value is an object. -/
theorem json_taggedText (v : Tagged) :
    ∃ members, encoded (taggedText v) = openBrace :: (members ++ [closeBrace]) ∧
      Json .members members := by
  obtain ⟨fields, htext, hfields⟩ := json_fieldsText v.fields
  refine ⟨encoded (quoted v.variant) ++ colon :: (openBrace :: (fields ++ [closeBrace])), ?_,
    .lastMember (json_quoted v.variant) (.object hfields)⟩
  rw [taggedText, encoded_append, encoded_append, encoded_append, htext, List.append_assoc,
    List.cons_append, List.cons_append, List.append_assoc]
  rfl

/-- No proper beginning of the text is a JSON value. -/
theorem not_json_of_isPrefix {v : Tagged} {cut : List UInt8} (hcut : cut <+: encoded (taggedText v))
    (hproper : cut ≠ encoded (taggedText v)) : ¬ Json .value cut := by
  obtain ⟨members, htext, hmembers⟩ := json_taggedText v
  rw [htext] at hcut hproper
  exact hmembers.not_value_of_isPrefix hcut hproper

end TaggedData
