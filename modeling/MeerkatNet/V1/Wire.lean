import MeerkatNet.V1.Protocol
import MeerkatNet.V2.Derive

/-!
# The two crates on one wire

Both crates derive their codecs and use one JSON format. A message of the first crate
and its counterpart are the same tagged value, so either crate reads what the other one
writes. A transaction or a propagation has a variant that the first crate does not know,
and a beginning of its JSON is no message either.
-/

namespace MeerkatNet.V1

open Framing TaggedData
open V2 (InStream OutStream)

namespace MeerkatMessage

def toTagged : MeerkatMessage → Tagged
  | .ping content => ⟨"Ping", [("content", .text content)]⟩
  | .pong content => ⟨"Pong", [("content", .text content)]⟩
  | .announce peerAddr => ⟨"Announce", [("peer_addr", .text peerAddr.text)]⟩

def fromTagged (v : Tagged) : Except String MeerkatMessage :=
  match v.variant with
  | "Ping" => return .ping (← v.textField "content")
  | "Pong" => return .pong (← v.textField "content")
  | "Announce" => return .announce ⟨← v.textField "peer_addr"⟩
  | variant => .error ("unknown variant " ++ variant)

theorem fromTagged_toTagged (msg : MeerkatMessage) : fromTagged msg.toTagged = .ok msg := by
  cases msg <;> simp [fromTagged, toTagged, Tagged.textField, Tagged.field]

/-- A message is written under the same names in both crates. -/
theorem toTagged_toV2 (msg : MeerkatMessage) : msg.toV2.toTagged = msg.toTagged := by
  cases msg <;> rfl

end MeerkatMessage

/-- `serde_json` on messages, over what it does with tagged values. -/
def derived (J : Format) : Serde where
  toVec msg := J.print msg.toTagged
  fromSlice data := (J.parse data).bind MeerkatMessage.fromTagged

variable {J : Format}

theorem derived_fromSlice {data : List UInt8} {v : Tagged} (h : J.parse data = .ok v) :
    (derived J).fromSlice data = MeerkatMessage.fromTagged v := by
  simp [derived, h, Except.bind]

theorem derived_toVec (J : Format) (msg : MeerkatMessage) :
    (derived J).toVec msg = (V2.derived J).toVec msg.toV2 :=
  congrArg J.print msg.toTagged_toV2.symm

/-- The derived codecs write the same bytes. -/
theorem sendMessage_derived (J : Format) (stream : OutStream) (msg : MeerkatMessage) :
    sendMessage (derived J) stream msg = V2.sendMessage (V2.derived J) stream msg.toV2 :=
  sendMessage_eq (derived_toVec J msg) stream

/-- The encoding fits the length field. -/
def Fits (J : Format) (msg : MeerkatMessage) : Prop :=
  ∀ data, (derived J).toVec msg = .ok data → data.length < 2 ^ 32

/-- The newer crate reads back what the first one has written, and leaves what follows. -/
def ReadByV2 (J : Format) (msg : MeerkatMessage) : Prop :=
  ∀ (stream : OutStream) (input : InStream) (trailing : List UInt8),
    (sendMessage (derived J) stream msg).2 = .ok () →
    stream.accepted ++ input.chunks.flatten =
      (sendMessage (derived J) stream msg).1.accepted ++ trailing →
    ∃ left, input.recvMessage (V2.derived J) = (.ok msg.toV2, left) ∧
      left.chunks.flatten = trailing

/-- The first crate reads back what the newer one has written, and leaves what follows. -/
def ReadFromV2 (J : Format) (msg : MeerkatMessage) : Prop :=
  ∀ (stream : OutStream) (input : InStream) (trailing : List UInt8),
    (V2.sendMessage (V2.derived J) stream msg.toV2).2 = .ok () →
    stream.accepted ++ input.chunks.flatten =
      (V2.sendMessage (V2.derived J) stream msg.toV2).1.accepted ++ trailing →
    ∃ left, recvMessage (derived J) input = (.ok msg, left) ∧ left.chunks.flatten = trailing

/-- The first crate gets an error out of the bytes of a message, written in part or completely. -/
def RefusedFromV2 (J : Format) (msg : V2.MeerkatMessage) : Prop :=
  ∀ (stream : OutStream) (input : InStream),
    stream.accepted ++ input.chunks.flatten =
      (V2.sendMessage (V2.derived J) stream msg).1.accepted →
    ∃ e, (recvMessage (derived J) input).1 = .error e

/-- A written message that fits is a whole frame on the stream, whose payload both crates parse to
the message. -/
theorem readFrame_written (hinverts : J.Inverts) {msg : MeerkatMessage} (hfits : Fits J msg)
    {stream : OutStream} {bytes trailing : List UInt8}
    (hsent : (V2.sendMessage (V2.derived J) stream msg.toV2).2 = .ok ())
    (hbytes : stream.accepted ++ bytes =
      (V2.sendMessage (V2.derived J) stream msg.toV2).1.accepted ++ trailing) :
    ∃ data, readFrame bytes = some (data, trailing) ∧ J.parse data = .ok msg.toTagged := by
  obtain ⟨data, hdata, hparse⟩ := hinverts msg.toTagged
  have hdata' : (V2.derived J).toVec msg.toV2 = .ok data := (derived_toVec J msg).symm.trans hdata
  obtain ⟨written, -, haccepted, hall⟩ := V2.sendMessage_accepted hdata' stream
  rw [haccepted, hall hsent, List.append_assoc, List.append_cancel_left_eq] at hbytes
  subst bytes
  exact ⟨data, readFrame_frame (hfits data hdata) trailing, hparse⟩

theorem readByV2_of_fits (hinverts : J.Inverts) {msg : MeerkatMessage} (hfits : Fits J msg) :
    ReadByV2 J msg := by
  intro stream input trailing hsent hbytes
  rw [sendMessage_derived] at hsent hbytes
  obtain ⟨data, hframe, hparse⟩ := readFrame_written hinverts hfits hsent hbytes
  obtain ⟨left, hread, hleft⟩ := InStream.recvMessage_of_readFrame (S := V2.derived J) hframe
  refine ⟨left, ?_, hleft⟩
  rw [hread, V2.derived_fromSlice hparse, ← MeerkatMessage.toTagged_toV2,
    V2.MeerkatMessage.fromTagged_toTagged]

theorem readFromV2_of_fits (hinverts : J.Inverts) {msg : MeerkatMessage} (hfits : Fits J msg) :
    ReadFromV2 J msg := by
  intro stream input trailing hsent hbytes
  obtain ⟨data, hframe, hparse⟩ := readFrame_written hinverts hfits hsent hbytes
  obtain ⟨left, hread, hleft⟩ := recvMessage_of_readFrame (S := derived J) hframe
  refine ⟨left, ?_, hleft⟩
  rw [hread, derived_fromSlice hparse, MeerkatMessage.fromTagged_toTagged]

/-- A variant that the first crate does not know is refused, whatever the length field says. -/
theorem refusedFromV2_of_unknown (hinverts : J.Inverts) (hrejects : J.RejectsPrefixes)
    {msg : V2.MeerkatMessage} {e : String}
    (hunknown : MeerkatMessage.fromTagged msg.toTagged = .error e) : RefusedFromV2 J msg := by
  intro stream input hbytes
  obtain ⟨data, hdata, hparse⟩ := hinverts msg.toTagged
  have hdata' : (V2.derived J).toVec msg = .ok data := hdata
  obtain ⟨written, hwritten, haccepted, -⟩ := V2.sendMessage_accepted hdata' stream
  rw [haccepted, List.append_cancel_left_eq] at hbytes
  rcases hrecv : recvMessage (derived J) input with ⟨e' | received, left⟩
  · exact ⟨e', rfl⟩
  · obtain ⟨payload, hframe, hslice⟩ := readFrame_of_recvMessage hrecv
    rw [hbytes] at hframe
    have hpayload : payload <+: data := readFrame_of_isPrefix hwritten hframe
    by_cases hwhole : payload = data
    · subst payload
      rw [derived_fromSlice hparse, hunknown] at hslice
      cases hslice
    · obtain ⟨e', he'⟩ := hrejects msg.toTagged data payload hdata hpayload hwhole
      simp [derived, he', Except.bind] at hslice

end MeerkatNet.V1
