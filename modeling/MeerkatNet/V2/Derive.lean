import MeerkatNet.Foundations.TaggedData
import MeerkatNet.V2.Json

/-!
# The derived codec of messages

`#[derive(Serialize, Deserialize)]` turns a message into its variant with named fields
and back; an address is a newtype and stands for its content. A format for such values
gives the two functions that the protocol uses, with their laws.
-/

namespace MeerkatNet.V2

open TaggedData

namespace MeerkatMessage

def toTagged : MeerkatMessage → Tagged
  | .ping content => ⟨"Ping", [("content", .text content)]⟩
  | .pong content => ⟨"Pong", [("content", .text content)]⟩
  | .announce peerAddr => ⟨"Announce", [("peer_addr", .text peerAddr.text)]⟩
  | .transaction txId payload =>
    ⟨"Transaction", [("tx_id", .number txId), ("payload", .bytes payload)]⟩
  | .propagation varId newValue =>
    ⟨"Propagation", [("var_id", .number varId), ("new_value", .bytes newValue)]⟩

def fromTagged (v : Tagged) : Except String MeerkatMessage :=
  match v.variant with
  | "Ping" => return .ping (← v.textField "content")
  | "Pong" => return .pong (← v.textField "content")
  | "Announce" => return .announce ⟨← v.textField "peer_addr"⟩
  | "Transaction" => return .transaction (← v.numberField "tx_id") (← v.bytesField "payload")
  | "Propagation" => return .propagation (← v.numberField "var_id") (← v.bytesField "new_value")
  | variant => .error ("unknown variant " ++ variant)

theorem fromTagged_toTagged (msg : MeerkatMessage) : fromTagged msg.toTagged = .ok msg := by
  cases msg <;>
    simp [fromTagged, toTagged, Tagged.textField, Tagged.numberField, Tagged.bytesField,
      Tagged.field] <;> rfl

end MeerkatMessage

/-- `serde_json` on messages, over what it does with tagged values. -/
def derived (J : Format) : Serde where
  toVec msg := J.print msg.toTagged
  fromSlice data := (J.parse data).bind MeerkatMessage.fromTagged

theorem derived_fromSlice {J : Format} {data : List UInt8} {v : Tagged}
    (h : J.parse data = .ok v) : (derived J).fromSlice data = MeerkatMessage.fromTagged v := by
  simp [derived, h, Except.bind]

theorem derived_inverts {J : Format} (hinverts : J.Inverts) : (derived J).Inverts := by
  intro msg
  obtain ⟨data, hdata, hparse⟩ := hinverts msg.toTagged
  exact ⟨data, hdata, (derived_fromSlice hparse).trans msg.fromTagged_toTagged⟩

theorem derived_rejectsPrefixes {J : Format} (hrejects : J.RejectsPrefixes) :
    (derived J).RejectsPrefixes := by
  intro msg data cut hdata hcut hne
  obtain ⟨e, he⟩ := hrejects msg.toTagged data cut hdata hcut hne
  exact ⟨e, by simp [derived, he, Except.bind]⟩

/-- Compact JSON, read only as it is written. -/
def jsonFormat : Format where
  print v := .ok ((taggedText v).flatMap String.utf8EncodeChar)
  parse := readCanonical taggedText readTagged

theorem jsonFormat_inverts : jsonFormat.Inverts := by
  intro v
  refine ⟨(taggedText v).flatMap String.utf8EncodeChar, rfl, ?_⟩
  rw [jsonFormat, readCanonical_eq_ok readTagged_append]

theorem jsonFormat_rejectsPrefixes : jsonFormat.RejectsPrefixes := by
  intro v data cut hdata hcut hne
  cases hdata
  exact readCanonical_of_isPrefix readTagged_append hcut hne

/-- A name without characters that are escaped. -/
def PlainName (name : String) : Prop := JsonText.quoted name = ("\"" ++ name ++ "\"").toList

instance (name : String) : Decidable (PlainName name) :=
  inferInstanceAs (Decidable (_ = _))

theorem taggedText_text {variant name : String} (hvariant : PlainName variant)
    (hname : PlainName name) (s : String) :
    taggedText ⟨variant, [(name, .text s)]⟩ = textVariant variant name s := by
  rw [PlainName] at hvariant hname
  simp [taggedText, fieldsText, fieldText, moreFields, datumText, textVariant, variantHead,
    variantEnd, hvariant, hname]

theorem taggedText_bytes {variant idName bytesName : String} (hvariant : PlainName variant)
    (hid : PlainName idName) (hbytes : PlainName bytesName) (id : UInt64) (data : List UInt8) :
    taggedText ⟨variant, [(idName, .number id), (bytesName, .bytes data)]⟩ =
      bytesVariant variant idName bytesName id data := by
  rw [PlainName] at hvariant hid hbytes
  simp [taggedText, fieldsText, fieldText, moreFields, datumText, bytesVariant, variantHead,
    nextField, variantEnd, hvariant, hid, hbytes]

/-- The text of a message is the text of what the derived serializer makes of it. -/
theorem taggedText_toTagged (msg : MeerkatMessage) : taggedText msg.toTagged = jsonText msg := by
  cases msg with
  | ping | pong | announce => exact taggedText_text (by decide +kernel) (by decide +kernel) _
  | transaction | propagation =>
    exact taggedText_bytes (by decide +kernel) (by decide +kernel) (by decide +kernel) _ _

theorem derived_jsonFormat_toVec (msg : MeerkatMessage) :
    (derived jsonFormat).toVec msg = json.toVec msg := by
  change Except.ok ((taggedText msg.toTagged).flatMap String.utf8EncodeChar) = _
  rw [taggedText_toTagged]
  rfl

end MeerkatNet.V2
