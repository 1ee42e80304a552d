import MeerkatNet.Foundations.TaggedJson
import MeerkatNet.V2.Derive
import MeerkatNet.V2.Streams

/-!
# Frames that are cut off

A frame can be cut off by the connection, or by its own length field, which announces the
length of the JSON modulo 2³². Either way the receiver decodes a beginning of the JSON of
one message, and no proper beginning of it is a JSON text.
-/

namespace MeerkatNet.V2

open Framing JsonNesting

namespace Serde

/-- `to_vec` writes compact JSON, with the strings escaped. -/
def WritesCompact (S : Serde) : Prop := ∀ msg, S.toVec msg = .ok (jsonBytes msg)

/-- `from_slice` accepts only complete JSON texts. -/
def AcceptsOnlyJson (S : Serde) : Prop :=
  ∀ data msg, S.fromSlice data = .ok msg → Json .value data

end Serde

theorem jsonBytes_eq_encoded (msg : MeerkatMessage) :
    jsonBytes msg = TaggedData.encoded (TaggedData.taggedText msg.toTagged) := by
  rw [taggedText_toTagged]
  rfl

theorem rejectsPrefixes_of_acceptsOnlyJson {S : Serde} (hwrites : S.WritesCompact)
    (haccepts : S.AcceptsOnlyJson) : S.RejectsPrefixes := by
  intro msg data cut hdata hcut hne
  obtain rfl : jsonBytes msg = data := Except.ok.inj ((hwrites msg).symm.trans hdata)
  cases hslice : S.fromSlice cut with
  | error e => exact ⟨e, rfl⟩
  | ok received =>
    rw [jsonBytes_eq_encoded] at hcut hne
    exact absurd (haccepts cut received hslice) (TaggedData.not_json_of_isPrefix hcut hne)

/-- From a cut-off frame `recv_message` gets the message that was sent, or an error. -/
theorem recvMessage_ok_of_isPrefix {S : Serde} (hinverts : S.Inverts)
    (hrejects : S.RejectsPrefixes) {msg received : MeerkatMessage} {data : List UInt8}
    (hdata : S.toVec msg = .ok data) {input : InStream} (hcut : input.chunks.flatten <+: frame data)
    (h : (input.recvMessage S).1 = .ok received) : received = msg := by
  obtain ⟨payload, hread, hslice⟩ :=
    InStream.readFrame_of_recvMessage (Prod.ext h rfl : input.recvMessage S = (_, _))
  apply recvMessage_of_isPrefix hinverts hrejects hdata hcut
  rw [recvMessage, hread, Option.map_some, hslice]

/-- A message that is read was framed completely, if its JSON is shorter than 2³² bytes. -/
theorem eq_frame_of_recvMessage_ok {S : Serde} {received : MeerkatMessage} {data : List UInt8}
    (hshort : data.length < 2 ^ 32) {input : InStream}
    (hcut : input.chunks.flatten <+: frame data)
    (h : (input.recvMessage S).1 = .ok received) : input.chunks.flatten = frame data := by
  obtain ⟨payload, hread, -⟩ :=
    InStream.readFrame_of_recvMessage (Prod.ext h rfl : input.recvMessage S = (_, _))
  by_contra hproper
  rw [readFrame_eq_none_of_isPrefix hshort hcut hproper] at hread
  cases hread

/-- Whatever `send_message` wrote for a message, and wherever it is cut off, `recv_message` gets
the message itself or an error; of a proper beginning of a frame it gets an error, if the JSON is
shorter than 2³² bytes. -/
theorem recvMessage_cut {S : Serde} (hwrites : S.WritesCompact) (hinverts : S.Inverts)
    (haccepts : S.AcceptsOnlyJson) {msg : MeerkatMessage} {out : OutStream}
    {written : List UInt8}
    (hwritten : (sendMessage S out msg).1.accepted = out.accepted ++ written) {input : InStream}
    (hcut : input.chunks.flatten <+: written) :
    ((input.recvMessage S).1 = .ok msg ∨ ∃ e, (input.recvMessage S).1 = .error e) ∧
    ((jsonBytes msg).length < 2 ^ 32 → input.chunks.flatten ≠ frame (jsonBytes msg) →
      ∃ e, (input.recvMessage S).1 = .error e) := by
  have hrejects := rejectsPrefixes_of_acceptsOnlyJson hwrites haccepts
  have hframe : input.chunks.flatten <+: frame (jsonBytes msg) := by
    obtain ⟨written', hprefix, haccepted, -⟩ := sendMessage_accepted (hwrites msg) out
    obtain rfl := List.append_cancel_left (hwritten.symm.trans haccepted)
    exact hcut.trans hprefix
  cases hrecv : (input.recvMessage S).1 with
  | error e => exact ⟨.inr ⟨e, rfl⟩, fun _ _ => ⟨e, rfl⟩⟩
  | ok received =>
    constructor
    · left
      rw [recvMessage_ok_of_isPrefix hinverts hrejects (hwrites msg) hframe hrecv]
    · intro hshort hproper
      exact absurd (eq_frame_of_recvMessage_ok hshort hframe hrecv) hproper

theorem json_acceptsOnlyJson : json.AcceptsOnlyJson := by
  intro data msg hslice
  obtain ⟨members, htext, hmembers⟩ := TaggedData.json_taggedText msg.toTagged
  rw [json_fromSlice_eq_ok.mp hslice, jsonBytes_eq_encoded, htext]
  exact .object hmembers

theorem recvMessage_cut_ping :
    let input : InStream := ⟨[(frame (jsonBytes (.ping "a"))).take 9]⟩
    ((input.recvMessage json).1 = .ok (.ping "a") ∨
      ∃ e, (input.recvMessage json).1 = .error e) ∧
    ((jsonBytes (.ping "a")).length < 2 ^ 32 →
      input.chunks.flatten ≠ frame (jsonBytes (.ping "a")) →
      ∃ e, (input.recvMessage json).1 = .error e) := by
  have hwritten : (sendMessage json .unbounded (.ping "a")).1.accepted =
      OutStream.unbounded.accepted ++ frame (jsonBytes (.ping "a")) := by
    rw [sendMessage_unbounded_frame rfl]
    rfl
  apply recvMessage_cut (fun _ => rfl) json_inverts json_acceptsOnlyJson hwritten
  rw [List.flatten_singleton]
  exact List.take_prefix _ _

end MeerkatNet.V2
