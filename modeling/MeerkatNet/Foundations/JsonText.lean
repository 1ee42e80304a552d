import Mathlib.Tactic

/-!
# Compact JSON text

Strings, numbers and arrays of numbers as a compact JSON writer prints them, and
readers that return the text they leave. A reader recovers what was written in
front of any text that cannot continue it.
-/

namespace JsonText

/-- Characters with a one-letter escape. -/
def shortEscapes : List (Char × Char) :=
  [('"', '"'), ('\\', '\\'), (Char.ofNat 8, 'b'), (Char.ofNat 12, 'f'), ('\n', 'n'), ('\r', 'r'),
    ('\t', 't')]

def hexDigit (n : ℕ) : Char :=
  if n < 10 then Char.ofNat (48 + n) else Char.ofNat (87 + n)

def hexValue (c : Char) : ℕ :=
  if c.toNat < 58 then c.toNat - 48 else c.toNat - 87

def escapeChar (c : Char) : List Char :=
  match shortEscapes.find? fun p => p.1 = c with
  | some p => ['\\', p.2]
  | none =>
    if c.toNat < 32 then ['\\', 'u', '0', '0', hexDigit (c.toNat / 16), hexDigit (c.toNat % 16)]
    else [c]

/-- The text after an opening quote: the characters up to the closing one, and the rest. -/
def readString : List Char → Option (List Char × List Char)
  | [] => none
  | '"' :: rest => some ([], rest)
  | '\\' :: 'u' :: '0' :: '0' :: a :: b :: rest =>
    (readString rest).map fun r => (Char.ofNat (16 * hexValue a + hexValue b) :: r.1, r.2)
  | '\\' :: e :: rest =>
    match shortEscapes.find? fun p => p.2 = e with
    | some p => (readString rest).map fun r => (p.1 :: r.1, r.2)
    | none => none
  | c :: rest => (readString rest).map fun r => (c :: r.1, r.2)

theorem hexValue_hexDigit : ∀ n < 16, hexValue (hexDigit n) = n := by decide

theorem readString_escapeChar (c : Char) (rest : List Char) :
    readString (escapeChar c ++ rest) = (readString rest).map fun r => (c :: r.1, r.2) := by
  unfold escapeChar
  split
  · rename_i p hp
    have hmem := List.mem_of_find?_eq_some hp
    have hc : p.1 = c := by simpa using List.find?_some hp
    subst c
    simp only [shortEscapes, List.mem_cons, List.not_mem_nil, or_false] at hmem
    rcases hmem with rfl | rfl | rfl | rfl | rfl | rfl | rfl <;>
      simp [readString, shortEscapes]
  · rename_i hnone
    split_ifs with hcontrol
    · have hchar : Char.ofNat (16 * (c.toNat / 16) + c.toNat % 16) = c := by
        rw [Nat.div_add_mod, Char.ofNat_toNat]
      simp only [List.cons_append, List.nil_append, readString,
        hexValue_hexDigit _ (show c.toNat / 16 < 16 by omega),
        hexValue_hexDigit _ (show c.toNat % 16 < 16 by omega), hchar]
    · have hplain : c ≠ '"' ∧ c ≠ '\\' := by
        constructor <;> rintro rfl <;> simp [shortEscapes] at hnone
      rw [List.singleton_append, readString.eq_def]
      split <;> simp_all

def quoted (s : String) : List Char :=
  '"' :: (s.toList.flatMap escapeChar ++ ['"'])

def readLiteral (literal text : List Char) : Option (List Char) :=
  if literal <+: text then some (text.drop literal.length) else none

@[simp] theorem readLiteral_append (literal rest : List Char) :
    readLiteral literal (literal ++ rest) = some rest := by
  simp [readLiteral]

def readQuoted (text : List Char) : Option (String × List Char) :=
  ((readLiteral ['"'] text).bind readString).map fun r => (String.ofList r.1, r.2)

theorem readString_flatMap (cs rest : List Char) :
    readString (cs.flatMap escapeChar ++ '"' :: rest) = some (cs, rest) := by
  induction cs with
  | nil => rfl
  | cons c cs ih => simp [readString_escapeChar, ih]

@[simp] theorem readQuoted_append (s : String) (rest : List Char) :
    readQuoted (quoted s ++ rest) = some (s, rest) := by
  have h : quoted s ++ rest = ['"'] ++ (s.toList.flatMap escapeChar ++ '"' :: rest) := by
    simp [quoted]
  rw [readQuoted, h, readLiteral_append, Option.bind_some, readString_flatMap]
  simp

def readNumber (text : List Char) : ℕ × List Char :=
  (Nat.ofDigitChars 10 (text.takeWhile Char.isDigit) 0, text.dropWhile Char.isDigit)

/-- The next character, if there is one, is not a digit. -/
def EndsNumber (rest : List Char) : Prop := ∀ c ∈ rest.head?, c.isDigit = false

theorem readNumber_append (n : ℕ) {rest : List Char} (hrest : EndsNumber rest) :
    readNumber (Nat.toDigits 10 n ++ rest) = (n, rest) := by
  have hdigits : ∀ c ∈ Nat.toDigits 10 n, c.isDigit = true := by
    intro c hc
    apply Nat.isDigit_of_mem_toDigits _ _ hc <;> omega
  have hstop : rest.takeWhile Char.isDigit = [] ∧ rest.dropWhile Char.isDigit = rest := by
    cases rest with
    | nil => simp
    | cons c rest =>
      have hc := hrest c rfl
      simp [hc]
  rw [readNumber, List.takeWhile_append_of_pos hdigits, List.dropWhile_append_of_pos hdigits,
    hstop.1, hstop.2, List.append_nil, Nat.ofDigitChars_ten_toDigits]

/-- The bytes of an array after its first one, and the closing bracket. -/
def moreBytes : List UInt8 → List Char
  | [] => [']']
  | b :: bs => ',' :: (Nat.toDigits 10 b.toNat ++ moreBytes bs)

def bytes : List UInt8 → List Char
  | [] => ['[', ']']
  | b :: bs => '[' :: (Nat.toDigits 10 b.toNat ++ moreBytes bs)

def readMoreBytes (fuel : ℕ) (text : List Char) : Option (List UInt8 × List Char) :=
  match fuel, text with
  | _, ']' :: rest => some ([], rest)
  | fuel + 1, ',' :: rest =>
    let number := readNumber rest
    (readMoreBytes fuel number.2).map fun r => (UInt8.ofNat number.1 :: r.1, r.2)
  | _, _ => none

def readBytes (text : List Char) : Option (List UInt8 × List Char) :=
  match text with
  | '[' :: ']' :: rest => some ([], rest)
  | '[' :: rest => readMoreBytes text.length (',' :: rest)
  | _ => none

theorem endsNumber_moreBytes (bs : List UInt8) (rest : List Char) :
    EndsNumber (moreBytes bs ++ rest) := by
  cases bs <;> simp [EndsNumber, moreBytes]

theorem readMoreBytes_append {bs : List UInt8} {fuel : ℕ} (hfuel : bs.length ≤ fuel)
    (rest : List Char) : readMoreBytes fuel (moreBytes bs ++ rest) = some (bs, rest) := by
  induction bs generalizing fuel with
  | nil => cases fuel <;> rfl
  | cons b bs ih =>
    obtain ⟨fuel, rfl⟩ : ∃ k, fuel = k + 1 := ⟨fuel - 1, by simp at hfuel; omega⟩
    have hnumber := readNumber_append b.toNat (endsNumber_moreBytes bs rest)
    simp only [moreBytes, List.cons_append, List.append_assoc, readMoreBytes, hnumber,
      ih (show bs.length ≤ fuel by simpa using hfuel), Option.map_some, UInt8.ofNat_toNat]

theorem length_le_moreBytes (bs : List UInt8) : bs.length ≤ (moreBytes bs).length := by
  induction bs with
  | nil => simp
  | cons b bs ih =>
    simp only [moreBytes, List.length_cons, List.length_append]
    omega

@[simp] theorem readBytes_append (bs : List UInt8) (rest : List Char) :
    readBytes (bytes bs ++ rest) = some (bs, rest) := by
  cases bs with
  | nil => rfl
  | cons b bs =>
    have htext : bytes (b :: bs) ++ rest =
        '[' :: (Nat.toDigits 10 b.toNat ++ (moreBytes bs ++ rest)) := by simp [bytes]
    have hdigit : ∀ c ∈ Nat.toDigits 10 b.toNat, c.isDigit = true := by
      intro c hc
      apply Nat.isDigit_of_mem_toDigits _ _ hc <;> omega
    have hread : ∀ fuel, bs.length < fuel →
        readMoreBytes fuel (',' :: (Nat.toDigits 10 b.toNat ++ (moreBytes bs ++ rest))) =
          some (b :: bs, rest) := by
      intro fuel hfuel
      have h : readMoreBytes fuel (moreBytes (b :: bs) ++ rest) = some (b :: bs, rest) :=
        readMoreBytes_append (by simpa using hfuel) rest
      simpa [moreBytes] using h
    have hlen := length_le_moreBytes bs
    rw [htext]
    cases hdigits : Nat.toDigits 10 b.toNat with
    | nil => simp at hdigits
    | cons d ds =>
      have hd : d ≠ ']' := by
        rintro rfl
        exact absurd (hdigit ']' (by simp [hdigits])) (by decide)
      rw [hdigits] at hread
      rw [List.cons_append, readBytes]
      · exact hread _ (by simp; omega)
      · rintro rest' h
        exact hd (List.cons.inj h).1

end JsonText
