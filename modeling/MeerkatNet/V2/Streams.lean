import MeerkatNet.Foundations.ChunkedInput
import MeerkatNet.V2.EventLoop
import MeerkatNet.V2.Json

/-!
# Messages on one stream

Frames are self-delimiting: messages written one after another are read back one
after another, however the bytes are cut into chunks, and what follows them stays
unread. The announced length has 32 bits, so all of this ends at 2³² bytes of JSON.
-/

namespace MeerkatNet.V2

open Framing

/-- The reading end of a stream: the chunks that it will hand out before it ends. -/
structure InStream where
  chunks : List (List UInt8)

namespace InStream

def readExact (n : ℕ) (stream : InStream) : Except String (List UInt8) × InStream :=
  match readChunks n stream.chunks with
  | (some data, left) => (.ok data, ⟨left⟩)
  | (none, left) => (.error "unexpected end of file", ⟨left⟩)

def recvMessage (S : Serde) (stream : InStream) : Except String MeerkatMessage × InStream :=
  match stream.readExact 4 with
  | (.error e, stream) => (.error e, stream)
  | (.ok lenBytes, stream) =>
    match stream.readExact (ofBeBytes lenBytes).toNat with
    | (.error e, stream) => (.error e, stream)
    | (.ok data, stream) => (S.fromSlice data, stream)

/-- One `recv_message` after another, as long as they succeed. -/
def recvMessages (S : Serde) : ℕ → InStream → Except String (List MeerkatMessage) × InStream
  | 0, stream => (.ok [], stream)
  | n + 1, stream =>
    match stream.recvMessage S with
    | (.error e, stream) => (.error e, stream)
    | (.ok msg, stream) =>
      match recvMessages S n stream with
      | (.error e, stream) => (.error e, stream)
      | (.ok msgs, stream) => (.ok (msg :: msgs), stream)

theorem readExact_of_flatten {stream : InStream} {data rest : List UInt8}
    (hbytes : stream.chunks.flatten = data ++ rest) :
    ∃ left, stream.readExact data.length = (.ok data, left) ∧ left.chunks.flatten = rest := by
  obtain ⟨left, hread, hleft⟩ := readChunks_of_flatten hbytes rfl
  exact ⟨⟨left⟩, by simp [readExact, hread], hleft⟩

theorem readExact_of_short {stream : InStream} {n : ℕ}
    (hshort : stream.chunks.flatten.length < n) : ∃ e, (stream.readExact n).1 = .error e := by
  have hnone := readChunks_of_short hshort
  unfold readExact
  split
  · rename_i hread
    simp [hread] at hnone
  · exact ⟨_, rfl⟩

theorem flatten_of_readExact {stream left : InStream} {n : ℕ} {data : List UInt8}
    (h : stream.readExact n = (.ok data, left)) :
    stream.chunks.flatten = data ++ left.chunks.flatten ∧ data.length = n := by
  have hlong : n ≤ stream.chunks.flatten.length := by
    by_contra hshort
    obtain ⟨e, he⟩ := readExact_of_short (not_le.mp hshort)
    simp [h] at he
  have hlen := List.length_take_of_le hlong
  have hsplit : stream.chunks.flatten =
      stream.chunks.flatten.take n ++ stream.chunks.flatten.drop n :=
    (List.take_append_drop n _).symm
  obtain ⟨left', hread, hleft⟩ := readExact_of_flatten hsplit
  rw [hlen, h] at hread
  obtain ⟨hdata, rfl⟩ := Prod.mk.inj hread
  obtain rfl := Except.ok.inj hdata
  exact ⟨by rw [hleft, List.take_append_drop], hlen⟩

/-- Reading one frame and decoding its payload, whatever the decoder. -/
def recvWith {α : Type} (decode : List UInt8 → Except String α) (stream : InStream) :
    Except String α × InStream :=
  match stream.readExact 4 with
  | (.error e, stream) => (.error e, stream)
  | (.ok lenBytes, stream) =>
    match stream.readExact (ofBeBytes lenBytes).toNat with
    | (.error e, stream) => (.error e, stream)
    | (.ok data, stream) => (decode data, stream)

theorem recvWith_of_readFrame {α : Type} (decode : List UInt8 → Except String α)
    {stream : InStream} {data rest : List UInt8}
    (h : readFrame stream.chunks.flatten = some (data, rest)) :
    ∃ left, stream.recvWith decode = (decode data, left) ∧ left.chunks.flatten = rest := by
  obtain ⟨header, hheader, hdata, hbytes⟩ := readFrame_eq_some.mp h
  obtain ⟨body, hread, hbody⟩ := readExact_of_flatten hbytes
  obtain ⟨left, hread', hleft⟩ := readExact_of_flatten hbody
  rw [hheader] at hread
  rw [hdata] at hread'
  exact ⟨left, by simp [recvWith, hread, hread'], hleft⟩

theorem readFrame_of_recvWith {α : Type} {decode : List UInt8 → Except String α}
    {stream left : InStream} {a : α} (h : stream.recvWith decode = (.ok a, left)) :
    ∃ data, readFrame stream.chunks.flatten = some (data, left.chunks.flatten) ∧
      decode data = .ok a := by
  unfold recvWith at h
  split at h
  · simp at h
  · rename_i header body hread
    split at h
    · simp at h
    · rename_i data rest hread'
      obtain ⟨hslice, rfl⟩ := Prod.mk.inj h
      obtain ⟨hbytes, hheader⟩ := flatten_of_readExact hread
      obtain ⟨hbody, hdata⟩ := flatten_of_readExact hread'
      rw [hbody] at hbytes
      exact ⟨data, readFrame_eq_some.mpr ⟨header, hheader, hdata, hbytes⟩, hslice⟩

/-- On a stream with a whole frame in front, `recv_message` decodes its payload and leaves what
follows. -/
theorem recvMessage_of_readFrame {S : Serde} {stream : InStream} {data rest : List UInt8}
    (h : readFrame stream.chunks.flatten = some (data, rest)) :
    ∃ left, stream.recvMessage S = (S.fromSlice data, left) ∧ left.chunks.flatten = rest :=
  recvWith_of_readFrame S.fromSlice h

/-- What is received was decoded from the payload of a whole frame. -/
theorem readFrame_of_recvMessage {S : Serde} {stream left : InStream} {msg : MeerkatMessage}
    (h : stream.recvMessage S = (.ok msg, left)) :
    ∃ data, readFrame stream.chunks.flatten = some (data, left.chunks.flatten) ∧
      S.fromSlice data = .ok msg :=
  readFrame_of_recvWith h

end InStream

/-! ### Several messages -/

/-- One `send_message` after another, as long as they succeed. -/
def sendMessages (S : Serde) (stream : OutStream) :
    List MeerkatMessage → OutStream × Except String Unit
  | [] => (stream, .ok ())
  | msg :: msgs =>
    match sendMessage S stream msg with
    | (stream, .error e) => (stream, .error e)
    | (stream, .ok ()) => sendMessages S stream msgs

/-- The bytes that stand for a message on a stream. -/
def framed (S : Serde) (msg : MeerkatMessage) : List UInt8 :=
  match S.toVec msg with
  | .ok data => frame data
  | .error _ => []

theorem framed_of_toVec {S : Serde} {msg : MeerkatMessage} {data : List UInt8}
    (h : S.toVec msg = .ok data) : framed S msg = frame data := by
  simp [framed, h]

theorem sendMessage_framed {S : Serde} (hinverts : S.Inverts) {stream stream' : OutStream}
    {msg : MeerkatMessage} (hsend : sendMessage S stream msg = (stream', .ok ())) :
    stream'.accepted = stream.accepted ++ framed S msg := by
  obtain ⟨data, hdata, -⟩ := hinverts msg
  obtain ⟨written, -, haccepted, hall⟩ := sendMessage_accepted hdata stream
  rw [hsend] at haccepted hall
  rw [haccepted, hall rfl, framed_of_toVec hdata]

/-- Successful writes put the frames on the stream, one behind the other. -/
theorem sendMessages_framed {S : Serde} (hinverts : S.Inverts) {stream : OutStream}
    {msgs : List MeerkatMessage} (hsent : (sendMessages S stream msgs).2 = .ok ()) :
    (sendMessages S stream msgs).1.accepted = stream.accepted ++ msgs.flatMap (framed S) := by
  induction msgs generalizing stream with
  | nil => simp [sendMessages]
  | cons msg msgs ih =>
    rcases hsend : sendMessage S stream msg with ⟨stream', e | _⟩
    · simp [sendMessages, hsend] at hsent
    · simp only [sendMessages, hsend] at hsent ⊢
      rw [ih hsent, sendMessage_framed hinverts hsend, List.flatMap_cons, List.append_assoc]

/-- Frames below 2³² bytes are read back one by one, and what follows them is left. -/
theorem recvMessages_framed {S : Serde} (hinverts : S.Inverts) {msgs : List MeerkatMessage}
    (hshort : ∀ msg ∈ msgs, ∀ data, S.toVec msg = .ok data → data.length < 2 ^ 32)
    {input : InStream} {trailing : List UInt8}
    (hbytes : input.chunks.flatten = msgs.flatMap (framed S) ++ trailing) :
    ∃ left, input.recvMessages S msgs.length = (.ok msgs, left) ∧
      left.chunks.flatten = trailing := by
  induction msgs generalizing input with
  | nil => exact ⟨input, rfl, hbytes⟩
  | cons msg msgs ih =>
    rw [List.forall_mem_cons] at hshort
    obtain ⟨data, hdata, hfrom⟩ := hinverts msg
    have hread : readFrame input.chunks.flatten =
        some (data, msgs.flatMap (framed S) ++ trailing) := by
      rw [hbytes, List.flatMap_cons, framed_of_toVec hdata, List.append_assoc]
      exact readFrame_frame (hshort.1 data hdata) _
    obtain ⟨next, hmsg, hnext⟩ := InStream.recvMessage_of_readFrame (S := S) hread
    obtain ⟨left, hmsgs, hleft⟩ := ih hshort.2 hnext
    exact ⟨left, by simp [InStream.recvMessages, hmsg, hfrom, hmsgs], hleft⟩

/-- Messages shorter than 2³² bytes that were written to one stream are read back from its bytes,
cut into chunks in any way, and the bytes after them are left unread. -/
theorem recvMessages_sendMessages {S : Serde} (hinverts : S.Inverts) {stream : OutStream}
    {msgs : List MeerkatMessage} (hsent : (sendMessages S stream msgs).2 = .ok ())
    (hshort : ∀ msg ∈ msgs, ∀ data, S.toVec msg = .ok data → data.length < 2 ^ 32)
    {trailing : List UInt8} {input : InStream}
    (hbytes : stream.accepted ++ input.chunks.flatten =
      (sendMessages S stream msgs).1.accepted ++ trailing) :
    ∃ left, input.recvMessages S msgs.length = (.ok msgs, left) ∧
      left.chunks.flatten = trailing := by
  apply recvMessages_framed hinverts hshort
  rw [sendMessages_framed hinverts hsent, List.append_assoc] at hbytes
  exact List.append_cancel_left hbytes

/-- A stream that takes every byte. -/
def OutStream.unbounded : OutStream := ⟨[], none, "", .ok ()⟩

theorem sendMessage_unbounded {S : Serde} (hinverts : S.Inverts) {stream : OutStream}
    (hroom : stream.room = none) (hflushed : stream.flushed = .ok ()) (msg : MeerkatMessage) :
    sendMessage S stream msg =
      ({ stream with accepted := stream.accepted ++ framed S msg }, .ok ()) := by
  obtain ⟨data, hdata, -⟩ := hinverts msg
  simp [sendMessage, OutStream.writeAll, hdata, hroom, hflushed, framed, frame]

/-- All writes to such a stream succeed. -/
theorem sendMessages_unbounded {S : Serde} (hinverts : S.Inverts) {stream : OutStream}
    (hroom : stream.room = none) (hflushed : stream.flushed = .ok ())
    (msgs : List MeerkatMessage) : (sendMessages S stream msgs).2 = .ok () := by
  induction msgs generalizing stream with
  | nil => rfl
  | cons msg msgs ih =>
    rw [sendMessages, sendMessage_unbounded hinverts hroom hflushed]
    exact ih hroom hflushed

/-- Two messages and the beginning of a third frame. -/
def sampleMessages : List MeerkatMessage := [.ping "a/\"b", .transaction 7 [0, 255]]

theorem recvMessages_sendMessages_sample :
    ∃ left, (⟨((sendMessages json .unbounded sampleMessages).1.accepted ++ [0, 0, 0]).map
        fun b => [b]⟩ : InStream).recvMessages json sampleMessages.length =
          (.ok sampleMessages, left) ∧ left.chunks.flatten = [0, 0, 0] := by
  have hsent : (sendMessages json .unbounded sampleMessages).2 = .ok () :=
    sendMessages_unbounded json_inverts rfl rfl _
  apply recvMessages_sendMessages json_inverts hsent
  · intro msg hmsg data hdata
    cases hdata
    revert msg
    decide +kernel
  · rw [← List.flatMap_def, List.flatMap_singleton']
    rfl

/-! ### Messages that are too large -/

/-- If `send_message` reports success on a stream that takes every byte, `recv_message` gets the
message out of what was written. -/
def ReadsBack (S : Serde) (msg : MeerkatMessage) : Prop :=
  (sendMessage S .unbounded msg).2 = .ok () →
    ∀ input : InStream, input.chunks.flatten = (sendMessage S .unbounded msg).1.accepted →
      (input.recvMessage S).1 = .ok msg

/-- On such a stream `send_message` refuses a message that does not fit the length field, and
`send_to_peer` reports it. -/
def RefusesTooLarge (PeerId : Type) (S : Serde) (msg : MeerkatMessage) : Prop :=
  ∀ data, S.toVec msg = .ok data → 2 ^ 32 ≤ data.length →
    (∃ e, (sendMessage S .unbounded msg).2 = .error e) ∧
    ∀ (peer : PeerId) (id : MessageId), ∃ e,
      .event (.sendFailed id (.protocolError e)) ∈
        sendToPeer S (.opened none "" (.ok ())) peer id msg

theorem sendMessage_unbounded_frame {S : Serde} {msg : MeerkatMessage} {data : List UInt8}
    (hdata : S.toVec msg = .ok data) :
    sendMessage S .unbounded msg = (⟨frame data, none, "", .ok ()⟩, .ok ()) := by
  simp [sendMessage, hdata, OutStream.unbounded, OutStream.writeAll, frame]

theorem readsBack_of_short {S : Serde} (hinverts : S.Inverts) {msg : MeerkatMessage}
    {data : List UInt8} (hdata : S.toVec msg = .ok data) (hshort : data.length < 2 ^ 32) :
    ReadsBack S msg := by
  obtain ⟨data', hdata', hfrom⟩ := hinverts msg
  obtain rfl : data = data' := by simpa [hdata] using hdata'
  intro hsent input hbytes
  rw [sendMessage_unbounded_frame hdata] at hbytes
  have hframe : readFrame input.chunks.flatten = some (data, []) := by
    rw [hbytes, ← List.append_nil (frame data)]
    exact readFrame_frame hshort []
  obtain ⟨left, hread, -⟩ := InStream.recvMessage_of_readFrame (S := S) hframe
  rw [hread, hfrom]

/-- From 2³² bytes on the receiver gets a proper beginning of the JSON and rejects it. -/
theorem not_readsBack_of_large {S : Serde} (hrejects : S.RejectsPrefixes) {msg : MeerkatMessage}
    {data : List UInt8} (hdata : S.toVec msg = .ok data) (hlarge : 2 ^ 32 ≤ data.length) :
    ¬ ReadsBack S msg := by
  intro h
  have hsend := sendMessage_unbounded_frame hdata
  have hread := h (by rw [hsend]) ⟨[frame data]⟩ (by rw [hsend, List.flatten_singleton])
  have hframe : readFrame (InStream.mk [frame data]).chunks.flatten =
      some (data.take (data.length % 2 ^ 32), data.drop (data.length % 2 ^ 32)) := by
    rw [List.flatten_singleton]
    exact readFrame_frame_truncated data
  obtain ⟨left, hrecv, -⟩ := InStream.recvMessage_of_readFrame (S := S) hframe
  have hmod : data.length % 2 ^ 32 < 2 ^ 32 := Nat.mod_lt _ (by norm_num)
  have hproper : data.take (data.length % 2 ^ 32) ≠ data := by
    intro hwhole
    have := congrArg List.length hwhole
    rw [List.length_take] at this
    omega
  obtain ⟨e, he⟩ := hrejects msg data _ hdata (List.take_prefix _ _) hproper
  rw [hrecv, he] at hread
  cases hread

theorem refusesTooLarge_iff {PeerId : Type} {S : Serde} {msg : MeerkatMessage}
    {data : List UInt8} (hdata : S.toVec msg = .ok data) :
    RefusesTooLarge PeerId S msg ↔ data.length < 2 ^ 32 := by
  constructor
  · intro h
    by_contra hlarge
    obtain ⟨⟨e, he⟩, -⟩ := h data hdata (by omega)
    rw [sendMessage_unbounded_frame hdata] at he
    cases he
  · intro hshort data' hdata' hlarge
    obtain rfl : data = data' := by simpa [hdata] using hdata'
    omega

/-- What `send_message` reports as sent is read back, and what does not fit is refused, exactly
for the messages whose JSON is shorter than 2³² bytes. -/
theorem readsBack_and_refusesTooLarge_iff (PeerId : Type) {S : Serde} (hinverts : S.Inverts)
    (hrejects : S.RejectsPrefixes) {msg : MeerkatMessage} {data : List UInt8}
    (hdata : S.toVec msg = .ok data) :
    (ReadsBack S msg ↔ data.length < 2 ^ 32) ∧
    (RefusesTooLarge PeerId S msg ↔ data.length < 2 ^ 32) := by
  refine ⟨⟨?_, readsBack_of_short hinverts hdata⟩, refusesTooLarge_iff hdata⟩
  intro h
  by_contra hlarge
  exact not_readsBack_of_large hrejects hdata (by omega) h

theorem readsBack_and_refusesTooLarge_iff_ping :
    (ReadsBack json (.ping "a") ↔ (jsonBytes (.ping "a")).length < 2 ^ 32) ∧
    (RefusesTooLarge String json (.ping "a") ↔ (jsonBytes (.ping "a")).length < 2 ^ 32) :=
  readsBack_and_refusesTooLarge_iff String json_inverts json_rejectsPrefixes rfl

/-- A ping of `n` letters. -/
def longPing (n : ℕ) : MeerkatMessage := .ping (String.ofList (List.replicate n 'a'))

theorem length_le_flatMap {α β : Type} {f : α → List β} (hf : ∀ a, 1 ≤ (f a).length)
    (as : List α) : as.length ≤ (as.flatMap f).length := by
  induction as with
  | nil => simp
  | cons a as ih =>
    rw [List.flatMap_cons, List.length_append, List.length_cons]
    have := hf a
    omega

theorem le_length_jsonBytes_longPing (n : ℕ) : n ≤ (jsonBytes (longPing n)).length := by
  have hescape : ∀ c, 1 ≤ (JsonText.escapeChar c).length := by
    intro c
    unfold JsonText.escapeChar
    split
    · simp
    · split_ifs <;> simp
  have hencode : ∀ c, 1 ≤ (String.utf8EncodeChar c).length := by
    intro c
    rw [String.length_utf8EncodeChar]
    exact c.utf8Size_pos
  calc n = (List.replicate n 'a').length := List.length_replicate.symm
    _ ≤ ((List.replicate n 'a').flatMap JsonText.escapeChar).length :=
      length_le_flatMap hescape _
    _ ≤ (jsonText (longPing n)).length := by
      simp only [longPing, jsonText, textVariant, JsonText.quoted, String.toList_ofList,
        List.length_append, List.length_cons]
      omega
    _ ≤ (jsonBytes (longPing n)).length := length_le_flatMap hencode _

/-- Four gigabytes of text are reported as sent, and the receiver cannot read them. -/
theorem not_readsBack_longPing :
    ¬ (ReadsBack json (longPing (2 ^ 32)) ∧ RefusesTooLarge String json (longPing (2 ^ 32))) := by
  intro h
  exact not_readsBack_of_large json_rejectsPrefixes rfl
    (le_length_jsonBytes_longPing _) h.1

end MeerkatNet.V2
