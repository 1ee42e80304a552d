import MeerkatNet.Foundations.JsonText

/-!
# Tagged data

Values of an enumeration with named fields, as a self-describing format carries them:
the name of the variant and the fields by name. A reader looks its fields up by name,
passes over the others and refuses a field that is missing or given twice. The last
part writes such values as compact JSON, with the variant as the only key.
-/

namespace TaggedData

inductive Datum where
  | text (s : String)
  | number (n : UInt64)
  | bytes (data : List UInt8)
  deriving DecidableEq, Repr

structure Tagged where
  variant : String
  fields : List (String × Datum)
  deriving DecidableEq, Repr

namespace Tagged

def field (v : Tagged) (name : String) : Except String Datum :=
  match v.fields.filter fun f => f.1 = name with
  | [] => .error ("missing field " ++ name)
  | [f] => .ok f.2
  | _ => .error ("duplicate field " ++ name)

def textField (v : Tagged) (name : String) : Except String String :=
  match v.field name with
  | .ok (.text s) => .ok s
  | .ok _ => .error "invalid type, expected a string"
  | .error e => .error e

def numberField (v : Tagged) (name : String) : Except String UInt64 :=
  match v.field name with
  | .ok (.number n) => .ok n
  | .ok _ => .error "invalid type, expected u64"
  | .error e => .error e

def bytesField (v : Tagged) (name : String) : Except String (List UInt8) :=
  match v.field name with
  | .ok (.bytes data) => .ok data
  | .ok _ => .error "invalid type, expected a sequence"
  | .error e => .error e

end Tagged

/-- A format for tagged values. -/
structure Format where
  print : Tagged → Except String (List UInt8)
  parse : List UInt8 → Except String Tagged

namespace Format

/-- Parsing inverts printing. -/
def Inverts (J : Format) : Prop :=
  ∀ v, ∃ data, J.print v = .ok data ∧ J.parse data = .ok v

/-- A proper beginning of a printed value is refused. -/
def RejectsPrefixes (J : Format) : Prop :=
  ∀ v data cut, J.print v = .ok data → cut <+: data → cut ≠ data →
    ∃ e, J.parse cut = .error e

end Format

/-! ### Tagged values as JSON text -/

open JsonText

def datumText : Datum → List Char
  | .text s => quoted s
  | .number n => Nat.toDigits 10 n.toNat
  | .bytes data => JsonText.bytes data

def fieldText (f : String × Datum) : List Char :=
  quoted f.1 ++ (':' :: datumText f.2)

/-- The fields after the first one, and the end of the value. -/
def moreFields : List (String × Datum) → List Char
  | [] => "\x7d\x7d".toList
  | f :: fs => ',' :: (fieldText f ++ moreFields fs)

def fieldsText : List (String × Datum) → List Char
  | [] => "\x7d\x7d".toList
  | f :: fs => fieldText f ++ moreFields fs

def taggedText (v : Tagged) : List Char :=
  "\x7b".toList ++ (quoted v.variant ++ (":\x7b".toList ++ fieldsText v.fields))

def readDatum (text : List Char) : Option (Datum × List Char) :=
  match text with
  | '"' :: _ => (readQuoted text).map fun r => (.text r.1, r.2)
  | '[' :: _ => (readBytes text).map fun r => (.bytes r.1, r.2)
  | c :: _ =>
    if c.isDigit then some (.number (UInt64.ofNat (readNumber text).1), (readNumber text).2)
    else none
  | [] => none

def readField (text : List Char) : Option ((String × Datum) × List Char) := do
  let (name, text) ← readQuoted text
  let text ← readLiteral [':'] text
  let (datum, text) ← readDatum text
  return ((name, datum), text)

def readMoreFields (fuel : ℕ) (text : List Char) :
    Option (List (String × Datum) × List Char) :=
  match fuel, text with
  | fuel + 1, ',' :: text => do
    let (f, text) ← readField text
    let (fs, text) ← readMoreFields fuel text
    return (f :: fs, text)
  | _, text => (readLiteral "\x7d\x7d".toList text).map fun rest => ([], rest)

def readFields (text : List Char) : Option (List (String × Datum) × List Char) :=
  match text with
  | '"' :: _ => readMoreFields (text.length + 1) (',' :: text)
  | _ => readMoreFields 0 text

def readTagged (text : List Char) : Option (Tagged × List Char) := do
  let text ← readLiteral "\x7b".toList text
  let (variant, text) ← readQuoted text
  let text ← readLiteral ":\x7b".toList text
  let (fields, text) ← readFields text
  return (⟨variant, fields⟩, text)

theorem readDatum_append (d : Datum) {rest : List Char} (hrest : EndsNumber rest) :
    readDatum (datumText d ++ rest) = some (d, rest) := by
  cases d with
  | text s =>
    have hread := readQuoted_append s rest
    simp only [datumText, quoted, List.cons_append] at hread ⊢
    simp only [readDatum, hread, Option.map_some]
  | number n =>
    have hread := readNumber_append n.toNat hrest
    cases hdigits : Nat.toDigits 10 n.toNat with
    | nil => simp at hdigits
    | cons c cs =>
      have hc : c.isDigit = true := by
        apply Nat.isDigit_of_mem_toDigits (b := 10) (n := n.toNat) (by omega) (by omega)
        simp [hdigits]
      have hquote : c ≠ '"' := by rintro rfl; exact absurd hc (by decide)
      have hbracket : c ≠ '[' := by rintro rfl; exact absurd hc (by decide)
      rw [hdigits, List.cons_append] at hread
      rw [datumText, hdigits, List.cons_append, readDatum]
      · simp [hc, hread]
      · simpa using hquote
      · simpa using hbracket
  | bytes data =>
    have hread := readBytes_append data rest
    obtain ⟨tail, htail⟩ : ∃ tail, JsonText.bytes data = '[' :: tail := by
      cases data <;> exact ⟨_, rfl⟩
    rw [htail, List.cons_append] at hread
    rw [datumText, htail, List.cons_append, readDatum, hread, Option.map_some]

theorem endsNumber_moreFields (fs : List (String × Datum)) (rest : List Char) :
    EndsNumber (moreFields fs ++ rest) := by
  cases fs <;> simp [EndsNumber, moreFields]

theorem readField_append (f : String × Datum) {rest : List Char} (hrest : EndsNumber rest) :
    readField (fieldText f ++ rest) = some (f, rest) := by
  have htext : fieldText f ++ rest = quoted f.1 ++ ([':'] ++ (datumText f.2 ++ rest)) := by
    rw [fieldText, List.append_assoc, List.cons_append, List.singleton_append]
  simp only [readField, htext, readQuoted_append, readLiteral_append, readDatum_append f.2 hrest,
    Option.bind_eq_bind, Option.bind_some, Option.pure_def]

theorem readMoreFields_append {fs : List (String × Datum)} {fuel : ℕ} (hfuel : fs.length ≤ fuel)
    (rest : List Char) : readMoreFields fuel (moreFields fs ++ rest) = some (fs, rest) := by
  induction fs generalizing fuel with
  | nil => cases fuel <;> rfl
  | cons f fs ih =>
    obtain ⟨fuel, rfl⟩ : ∃ k, fuel = k + 1 := ⟨fuel - 1, by simp at hfuel; omega⟩
    have hfield := readField_append f (endsNumber_moreFields fs rest)
    have hmore := ih (show fs.length ≤ fuel by simpa using hfuel)
    simp [moreFields, readMoreFields, hfield, hmore]

theorem length_le_moreFields (fs : List (String × Datum)) :
    fs.length ≤ (moreFields fs).length := by
  induction fs with
  | nil => simp
  | cons f fs ih =>
    simp only [moreFields, List.length_cons, List.length_append]
    omega

theorem readFields_append (fs : List (String × Datum)) (rest : List Char) :
    readFields (fieldsText fs ++ rest) = some (fs, rest) := by
  cases fs with
  | nil => rfl
  | cons f fs =>
    have hfuel : (f :: fs).length ≤ (fieldsText (f :: fs) ++ rest).length + 1 := by
      have := length_le_moreFields fs
      simp only [fieldsText, List.length_append, List.length_cons]
      omega
    have hread : readMoreFields ((fieldsText (f :: fs) ++ rest).length + 1)
        (',' :: (fieldsText (f :: fs) ++ rest)) = some (f :: fs, rest) :=
      readMoreFields_append hfuel rest
    obtain ⟨tail, htail⟩ : ∃ tail, fieldsText (f :: fs) ++ rest = '"' :: tail := ⟨_, rfl⟩
    rw [htail] at hread ⊢
    exact hread

@[simp] theorem readTagged_append (v : Tagged) (rest : List Char) :
    readTagged (taggedText v ++ rest) = some (v, rest) := by
  simp only [readTagged, taggedText, List.append_assoc, readLiteral_append, readQuoted_append,
    readFields_append, Option.bind_eq_bind, Option.bind_some, Option.pure_def]

end TaggedData
