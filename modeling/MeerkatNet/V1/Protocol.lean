import MeerkatNet.V1.Types
import MeerkatNet.V2.Streams

/-!
# The wire protocol of the first crate

`sendMessage` and `recvMessage` of `meerkat-net`, on the streams that the newer crate
is modelled with. What is written depends on the codec only through the encoding of
the message, and what is read only through the payload of the frame.
-/

namespace MeerkatNet.V1

open Framing
open V2 (InStream OutStream)

/-- The same address in the newer crate. -/
def GlobalAddress.toV2 (addr : GlobalAddress) : V2.Address := ⟨addr.text⟩

/-- The message with the same variant and contents in the newer crate. -/
def MeerkatMessage.toV2 : MeerkatMessage → V2.MeerkatMessage
  | .ping content => .ping content
  | .pong content => .pong content
  | .announce peerAddr => .announce peerAddr.toV2

/-- `serde_json::to_vec` and `serde_json::from_slice` on messages. -/
structure Serde where
  toVec : MeerkatMessage → Except String (List UInt8)
  fromSlice : List UInt8 → Except String MeerkatMessage

def sendMessage (S : Serde) (stream : OutStream) (msg : MeerkatMessage) :
    OutStream × Except String Unit :=
  match S.toVec msg with
  | .error e => (stream, .error e)
  | .ok data =>
    match stream.writeAll (toBeBytes (UInt32.ofNat data.length)) with
    | (stream, .error e) => (stream, .error e)
    | (stream, .ok ()) =>
      match stream.writeAll data with
      | (stream, .error e) => (stream, .error e)
      | (stream, .ok ()) => (stream, stream.flushed)

def recvMessage (S : Serde) (stream : InStream) : Except String MeerkatMessage × InStream :=
  match stream.readExact 4 with
  | (.error e, stream) => (.error e, stream)
  | (.ok lenBytes, stream) =>
    match stream.readExact (ofBeBytes lenBytes).toNat with
    | (.error e, stream) => (.error e, stream)
    | (.ok data, stream) => (S.fromSlice data, stream)

/-- Both crates write the same for messages with the same encoding. -/
theorem sendMessage_eq {S : Serde} {T : V2.Serde} {msg : MeerkatMessage}
    {msg' : V2.MeerkatMessage} (h : S.toVec msg = T.toVec msg') (stream : OutStream) :
    sendMessage S stream msg = V2.sendMessage T stream msg' := by
  rw [sendMessage, h]
  rfl

theorem recvMessage_of_readFrame {S : Serde} {stream : InStream} {data rest : List UInt8}
    (h : readFrame stream.chunks.flatten = some (data, rest)) :
    ∃ left, recvMessage S stream = (S.fromSlice data, left) ∧ left.chunks.flatten = rest :=
  InStream.recvWith_of_readFrame S.fromSlice h

/-- What is received was decoded from the payload of a whole frame. -/
theorem readFrame_of_recvMessage {S : Serde} {stream left : InStream} {msg : MeerkatMessage}
    (h : recvMessage S stream = (.ok msg, left)) :
    ∃ data, readFrame stream.chunks.flatten = some (data, left.chunks.flatten) ∧
      S.fromSlice data = .ok msg :=
  InStream.readFrame_of_recvWith h

end MeerkatNet.V1
