import MeerkatNet.Foundations.JsonText
import MeerkatNet.V2.Protocol

/-!
# The JSON of messages

The compact text that the derived serializer of `MeerkatMessage` writes: externally
tagged variants with named fields, addresses as their text and payloads as arrays.
The reader accepts exactly the texts that are written, so it inverts the writer and
refuses every proper beginning of a message.
-/

namespace MeerkatNet.V2

open JsonText

/-- The opening of a variant up to the value of its first field. -/
def variantHead (variant field : String) : List Char :=
  ("\x7b\"" ++ variant ++ "\":\x7b\"" ++ field ++ "\":").toList

def nextField (field : String) : List Char := (",\"" ++ field ++ "\":").toList

def variantEnd : List Char := "\x7d\x7d".toList

def textVariant (variant field text : String) : List Char :=
  variantHead variant field ++ (quoted text ++ variantEnd)

def bytesVariant (variant idField bytesField : String) (id : UInt64) (data : List UInt8) :
    List Char :=
  variantHead variant idField ++
    (Nat.toDigits 10 id.toNat ++ (nextField bytesField ++ (bytes data ++ variantEnd)))

def jsonText : MeerkatMessage → List Char
  | .ping content => textVariant "Ping" "content" content
  | .pong content => textVariant "Pong" "content" content
  | .announce peerAddr => textVariant "Announce" "peer_addr" peerAddr.text
  | .transaction txId payload => bytesVariant "Transaction" "tx_id" "payload" txId payload
  | .propagation varId newValue => bytesVariant "Propagation" "var_id" "new_value" varId newValue

def readTextVariant (variant field : String) (make : String → MeerkatMessage) (text : List Char) :
    Option (MeerkatMessage × List Char) := do
  let text ← readLiteral (variantHead variant field) text
  let (value, text) ← readQuoted text
  let rest ← readLiteral variantEnd text
  return (make value, rest)

def readBytesVariant (variant idField bytesField : String)
    (make : UInt64 → List UInt8 → MeerkatMessage) (text : List Char) :
    Option (MeerkatMessage × List Char) := do
  let text ← readLiteral (variantHead variant idField) text
  let (id, text) := readNumber text
  let text ← readLiteral (nextField bytesField) text
  let (data, text) ← readBytes text
  let rest ← readLiteral variantEnd text
  return (make (UInt64.ofNat id) data, rest)

/-- The message at the head of a text, and what follows it. -/
def readMessage (text : List Char) : Option (MeerkatMessage × List Char) :=
  readTextVariant "Ping" "content" .ping text <|>
  readTextVariant "Pong" "content" .pong text <|>
  readTextVariant "Announce" "peer_addr" (fun s => .announce ⟨s⟩) text <|>
  readBytesVariant "Transaction" "tx_id" "payload" .transaction text <|>
  readBytesVariant "Propagation" "var_id" "new_value" .propagation text

theorem readTextVariant_self (variant field : String) (make : String → MeerkatMessage)
    (s : String) (rest : List Char) :
    readTextVariant variant field make (textVariant variant field s ++ rest) =
      some (make s, rest) := by
  simp [readTextVariant, textVariant]

theorem readBytesVariant_self (variant idField bytesField : String)
    (make : UInt64 → List UInt8 → MeerkatMessage) (id : UInt64) (data : List UInt8)
    (rest : List Char) :
    readBytesVariant variant idField bytesField make
        (bytesVariant variant idField bytesField id data ++ rest) = some (make id data, rest) := by
  have hends : EndsNumber (nextField bytesField ++ (bytes data ++ (variantEnd ++ rest))) := by
    simp [EndsNumber, nextField]
  simp [readBytesVariant, bytesVariant, readNumber_append _ hends]

theorem readTextVariant_none {variant field : String} {make : String → MeerkatMessage}
    {text : List Char} (h : ¬ variantHead variant field <+: text) :
    readTextVariant variant field make text = none := by
  simp [readTextVariant, readLiteral, h]

theorem readBytesVariant_none {variant idField bytesField : String}
    {make : UInt64 → List UInt8 → MeerkatMessage} {text : List Char}
    (h : ¬ variantHead variant idField <+: text) :
    readBytesVariant variant idField bytesField make text = none := by
  simp [readBytesVariant, readLiteral, h]

theorem not_head_prefix {head head' body : List Char} (hne : ¬ head <+: head')
    (hne' : ¬ head' <+: head) : ¬ head <+: head' ++ body := by
  intro h
  rcases List.prefix_or_prefix_of_prefix h (List.prefix_append head' body) with h | h
  · exact hne h
  · exact hne' h

@[simp] theorem readMessage_append (msg : MeerkatMessage) (rest : List Char) :
    readMessage (jsonText msg ++ rest) = some (msg, rest) := by
  cases msg with
  | ping content => simp [readMessage, jsonText, readTextVariant_self]
  | pong content =>
    simp only [readMessage, jsonText, readTextVariant_self]
    rw [readTextVariant_none]
    · simp
    · rw [textVariant, List.append_assoc]
      exact not_head_prefix (by decide) (by decide)
  | announce peerAddr =>
    simp only [readMessage, jsonText, readTextVariant_self]
    rw [readTextVariant_none, readTextVariant_none]
    · simp
    all_goals
      rw [textVariant, List.append_assoc]
      exact not_head_prefix (by decide) (by decide)
  | transaction txId payload =>
    simp only [readMessage, jsonText, readBytesVariant_self]
    rw [readTextVariant_none, readTextVariant_none, readTextVariant_none]
    · simp
    all_goals
      rw [bytesVariant, List.append_assoc]
      exact not_head_prefix (by decide) (by decide)
  | propagation varId newValue =>
    simp only [readMessage, jsonText, readBytesVariant_self]
    rw [readTextVariant_none, readTextVariant_none, readTextVariant_none, readBytesVariant_none]
    · simp
    all_goals
      rw [bytesVariant, List.append_assoc]
      exact not_head_prefix (by decide) (by decide)

def jsonBytes (msg : MeerkatMessage) : List UInt8 :=
  (jsonText msg).flatMap String.utf8EncodeChar

/-- The characters of a UTF-8 text. -/
def readText : ℕ → List UInt8 → Option (List Char)
  | _, [] => some []
  | 0, _ => none
  | fuel + 1, b :: bs =>
    match (b :: bs).toByteArray.utf8DecodeChar? 0 with
    | none => none
    | some c => (readText fuel ((b :: bs).drop c.utf8Size)).map (c :: ·)

theorem readText_flatMap {cs : List Char} {fuel : ℕ}
    (hfuel : (cs.flatMap String.utf8EncodeChar).length ≤ fuel) :
    readText fuel (cs.flatMap String.utf8EncodeChar) = some cs := by
  induction cs generalizing fuel with
  | nil => cases fuel <;> rfl
  | cons c cs ih =>
    have hchar : ((c :: cs).flatMap String.utf8EncodeChar).toByteArray.utf8DecodeChar? 0 =
        some c := by
      have h := List.utf8DecodeChar?_utf8Encode_singleton_append
        (b := (cs.flatMap String.utf8EncodeChar).toByteArray) (c := c)
      rwa [List.utf8Encode, ← List.toByteArray_append, ← List.flatMap_append] at h
    have hdrop : ((c :: cs).flatMap String.utf8EncodeChar).drop c.utf8Size =
        cs.flatMap String.utf8EncodeChar := by
      rw [List.flatMap_cons, ← String.length_utf8EncodeChar, List.drop_left]
    have hlen : ((c :: cs).flatMap String.utf8EncodeChar).length =
        c.utf8Size + (cs.flatMap String.utf8EncodeChar).length := by
      rw [List.flatMap_cons, List.length_append, String.length_utf8EncodeChar]
    have hsize := c.utf8Size_pos
    generalize (c :: cs).flatMap String.utf8EncodeChar = text at *
    cases text with
    | nil => simp at hlen; omega
    | cons b bs =>
      obtain ⟨fuel, rfl⟩ : ∃ k, fuel = k + 1 := ⟨fuel - 1, by omega⟩
      simp only [readText, hchar, hdrop, ih (show _ ≤ fuel by omega), Option.map_some]

/-! ### Reading exactly what is written -/

section Canonical

variable {α : Type} {print : α → List Char} {read : List Char → Option (α × List Char)}

/-- Read a whole text and accept it if it is the one that is written for the value. -/
def readCanonical (print : α → List Char) (read : List Char → Option (α × List Char))
    (data : List UInt8) : Except String α :=
  match (readText data.length data).bind read with
  | some (a, []) =>
    if (print a).flatMap String.utf8EncodeChar = data then .ok a else .error "not canonical"
  | _ => .error "expected a message"

/-- What a reader finds in front of any text is not continued by another text. -/
theorem eq_of_print_isPrefix (hread : ∀ a rest, read (print a ++ rest) = some (a, rest)) {a b : α}
    (h : print a <+: print b) : a = b := by
  obtain ⟨more, hmore⟩ := h
  have hfirst := hread a more
  rw [hmore, ← List.append_nil (print b), hread] at hfirst
  exact (Prod.mk.inj (Option.some.inj hfirst)).1.symm

theorem readCanonical_eq_ok (hread : ∀ a rest, read (print a ++ rest) = some (a, rest))
    {data : List UInt8} {a : α} :
    readCanonical print read data = .ok a ↔ data = (print a).flatMap String.utf8EncodeChar := by
  constructor
  · intro h
    simp only [readCanonical] at h
    split at h
    · split_ifs at h with hdata
      cases h
      exact hdata.symm
    · simp at h
  · rintro rfl
    have hwhole := hread a []
    rw [List.append_nil] at hwhole
    rw [readCanonical, readText_flatMap le_rfl, Option.bind_some, hwhole]
    exact if_pos rfl

/-- A proper beginning of a written text is refused. -/
theorem readCanonical_of_isPrefix (hread : ∀ a rest, read (print a ++ rest) = some (a, rest))
    {cut : List UInt8} {a : α} (hcut : cut <+: (print a).flatMap String.utf8EncodeChar)
    (hne : cut ≠ (print a).flatMap String.utf8EncodeChar) :
    ∃ e, readCanonical print read cut = .error e := by
  cases hfrom : readCanonical print read cut with
  | error e => exact ⟨e, rfl⟩
  | ok b =>
    rw [readCanonical_eq_ok hread] at hfrom
    subst cut
    obtain ⟨more, hmore⟩ := hcut
    have hbytes : (print b).utf8Encode ++ more.toByteArray = (print a).utf8Encode := by
      rw [List.utf8Encode, List.utf8Encode, ← List.toByteArray_append]
      exact congrArg List.toByteArray hmore
    have hsame := eq_of_print_isPrefix hread
      (List.isPrefix_of_utf8Encode_append_eq_utf8Encode _ hbytes)
    exact absurd (by rw [hsame]) hne

end Canonical

/-- `serde_json` on the texts it writes itself. -/
def json : Serde where
  toVec msg := .ok (jsonBytes msg)
  fromSlice data :=
    match (readText data.length data).bind readMessage with
    | some (msg, []) => if jsonBytes msg = data then .ok msg else .error "not canonical"
    | _ => .error "expected a message"

theorem json_fromSlice (data : List UInt8) :
    json.fromSlice data = readCanonical jsonText readMessage data := by
  simp only [json, readCanonical]
  rcases (readText data.length data).bind readMessage with _ | ⟨msg, _ | _⟩ <;> rfl

theorem json_fromSlice_eq_ok {data : List UInt8} {msg : MeerkatMessage} :
    json.fromSlice data = .ok msg ↔ data = jsonBytes msg := by
  rw [json_fromSlice]
  exact readCanonical_eq_ok readMessage_append

theorem json_inverts : json.Inverts := fun msg =>
  ⟨jsonBytes msg, rfl, json_fromSlice_eq_ok.mpr rfl⟩

theorem json_rejectsPrefixes : json.RejectsPrefixes := by
  intro msg data cut hdata hcut hne
  cases hdata
  rw [json_fromSlice]
  exact readCanonical_of_isPrefix readMessage_append hcut hne

end MeerkatNet.V2
