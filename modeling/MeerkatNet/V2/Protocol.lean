import MeerkatNet.Foundations.Framing
import MeerkatNet.V2.Types

/-!
# The wire protocol

`sendMessage` writes one frame to a stream that may stop accepting bytes at any
point; `recvMessage` reads one frame from the bytes that have arrived. Both use
`serde_json` only through its two functions on messages.
-/

namespace MeerkatNet.V2

open Framing

/-- `serde_json::to_vec` and `serde_json::from_slice` on messages. -/
structure Serde where
  toVec : MeerkatMessage → Except String (List UInt8)
  fromSlice : List UInt8 → Except String MeerkatMessage

namespace Serde

/-- `from_slice` inverts `to_vec`. -/
def Inverts (S : Serde) : Prop :=
  ∀ msg, ∃ data, S.toVec msg = .ok data ∧ S.fromSlice data = .ok msg

/-- A proper beginning of an encoded message is not a message. -/
def RejectsPrefixes (S : Serde) : Prop :=
  ∀ msg data cut, S.toVec msg = .ok data → cut <+: data → cut ≠ data →
    ∃ e, S.fromSlice cut = .error e

end Serde

/-- The writing end of a stream: the bytes it took, how many more it takes before it
fails with `error`, and what flushing it answers. -/
structure OutStream where
  accepted : List UInt8
  room : Option ℕ
  error : String
  flushed : Except String Unit

namespace OutStream

def writeAll (stream : OutStream) (data : List UInt8) : OutStream × Except String Unit :=
  match stream.room with
  | none => ({ stream with accepted := stream.accepted ++ data }, .ok ())
  | some n =>
    if data.length ≤ n then
      ({ stream with accepted := stream.accepted ++ data, room := some (n - data.length) }, .ok ())
    else
      ({ stream with accepted := stream.accepted ++ data.take n, room := some 0 },
        .error stream.error)

/-- The bytes written are a beginning of the data, and all of it on success. -/
theorem writeAll_accepted (stream : OutStream) (data : List UInt8) :
    ∃ written, written <+: data ∧
      (stream.writeAll data).1.accepted = stream.accepted ++ written ∧
      ((stream.writeAll data).2 = .ok () → written = data) := by
  unfold writeAll
  split
  · exact ⟨data, List.prefix_rfl, rfl, fun _ => rfl⟩
  · split_ifs with hroom
    · exact ⟨data, List.prefix_rfl, rfl, fun _ => rfl⟩
    · exact ⟨_, List.take_prefix _ data, rfl, fun h => by simp at h⟩

end OutStream

def sendMessage (S : Serde) (stream : OutStream) (msg : MeerkatMessage) :
    OutStream × Except String Unit :=
  match S.toVec msg with
  | .error e => (stream, .error e)
  | .ok data =>
    match stream.writeAll (toBeBytes (UInt32.ofNat data.length)) with
    | (stream, .error e) => (stream, .error e)
    | (stream, .ok ()) =>
      match stream.writeAll data with
      | (stream, .error e) => (stream, .error e)
      | (stream, .ok ()) => (stream, stream.flushed)

/-- `sendMessage` writes a beginning of the message's frame, and the whole frame when
it reports success. -/
theorem sendMessage_accepted {S : Serde} {msg : MeerkatMessage} {data : List UInt8}
    (hdata : S.toVec msg = .ok data) (stream : OutStream) :
    ∃ written, written <+: frame data ∧
      (sendMessage S stream msg).1.accepted = stream.accepted ++ written ∧
      ((sendMessage S stream msg).2 = .ok () → written = frame data) := by
  obtain ⟨header, hheader, haccepted, hall⟩ :=
    stream.writeAll_accepted (toBeBytes (UInt32.ofNat data.length))
  simp only [sendMessage, hdata]
  rcases hw : stream.writeAll (toBeBytes (UInt32.ofNat data.length)) with ⟨stream₁, _ | _⟩
  · simp only [hw] at haccepted
    exact ⟨header, hheader.trans (List.prefix_append _ _), haccepted, fun h => by simp at h⟩
  · simp only [hw, forall_const] at haccepted hall
    obtain ⟨body, hbody, haccepted', hall'⟩ := stream₁.writeAll_accepted data
    have hprefix : header ++ body <+: frame data := by
      rw [hall, frame]
      exact (List.prefix_append_right_inj _).mpr hbody
    rcases hw' : stream₁.writeAll data with ⟨stream₂, _ | _⟩
    · simp only [hw'] at haccepted' ⊢
      refine ⟨header ++ body, hprefix, ?_, fun h => by simp at h⟩
      rw [haccepted', haccepted, List.append_assoc]
    · simp only [hw', forall_const] at haccepted' hall' ⊢
      refine ⟨header ++ body, hprefix, ?_, fun _ => by rw [hall, hall', frame]⟩
      rw [haccepted', haccepted, List.append_assoc]

/-- What a stream yields to `recvMessage` once enough of it has arrived: the decoded
payload and the bytes left unread. -/
def recvMessage (S : Serde) (arrived : List UInt8) :
    Option (Except String MeerkatMessage × List UInt8) :=
  (readFrame arrived).map fun r => (S.fromSlice r.1, r.2)

/-- Below 2³² bytes of JSON, the receiver reads back the message that was sent. -/
theorem recvMessage_frame {S : Serde} {msg : MeerkatMessage} {data : List UInt8}
    (hfrom : S.fromSlice data = .ok msg) (hlen : data.length < 2 ^ 32) (rest : List UInt8) :
    recvMessage S (frame data ++ rest) = some (.ok msg, rest) := by
  rw [recvMessage, readFrame_frame hlen, Option.map_some, hfrom]

/-- A receiver that gets a message out of a beginning of a frame gets the framed one. -/
theorem recvMessage_of_isPrefix {S : Serde} (hinverts : S.Inverts)
    (hrejects : S.RejectsPrefixes) {msg received : MeerkatMessage}
    {data arrived rest : List UInt8} (hdata : S.toVec msg = .ok data)
    (hcut : arrived <+: frame data) (h : recvMessage S arrived = some (.ok received, rest)) :
    received = msg := by
  obtain ⟨⟨payload, left⟩, hread, hpair⟩ := Option.map_eq_some_iff.mp h
  obtain ⟨hslice, -⟩ := Prod.mk.inj hpair
  have hpayload := readFrame_of_isPrefix hcut hread
  by_cases hwhole : payload = data
  · obtain ⟨data', hdata', hfrom⟩ := hinverts msg
    rw [hdata] at hdata'
    cases hdata'
    simp only [hwhole, hfrom, Except.ok.injEq] at hslice
    exact hslice.symm
  · obtain ⟨e, he⟩ := hrejects msg data payload hdata hpayload hwhole
    simp [he] at hslice

end MeerkatNet.V2
