import MeerkatNet.V2.Json

/-!
# Ping and pong messages

Both messages are records with one text field. They travel as length-prefixed JSON,
written with two calls of `write_all` and without a flush.
-/

namespace MeerkatNet.Ping

open Framing JsonText MeerkatNet.V2

structure PingMessage where
  message : String
  deriving DecidableEq, Repr

structure PongMessage where
  message : String
  deriving DecidableEq, Repr

/-- `serde_json::to_vec` and `serde_json::from_slice` on one type of messages. -/
structure Serde (α : Type) where
  toVec : α → Except String (List UInt8)
  fromSlice : List UInt8 → Except String α

namespace Serde

variable {α : Type}

def Inverts (S : Serde α) : Prop := ∀ a, ∃ data, S.toVec a = .ok data ∧ S.fromSlice data = .ok a

/-- A proper beginning of an encoded message is not a message. -/
def RejectsPrefixes (S : Serde α) : Prop :=
  ∀ a data cut, S.toVec a = .ok data → cut <+: data → cut ≠ data → ∃ e, S.fromSlice cut = .error e

theorem Inverts.fromSlice {S : Serde α} (hinverts : S.Inverts) {a : α} {data : List UInt8}
    (hdata : S.toVec a = .ok data) : S.fromSlice data = .ok a := by
  obtain ⟨data', hdata', hfrom⟩ := hinverts a
  rw [hdata] at hdata'
  cases hdata'
  exact hfrom

end Serde

/-- The two `write_all` calls of a length-prefixed message. -/
def writeFramed (stream : OutStream) (data : List UInt8) : OutStream × Except String Unit :=
  match stream.writeAll (toBeBytes (UInt32.ofNat data.length)) with
  | (stream, .error e) => (stream, .error e)
  | (stream, .ok ()) => stream.writeAll data

/-- The two `read_exact` calls and the decoding of a length-prefixed message, once enough of it
has arrived. -/
def readFramed {α : Type} (S : Serde α) (arrived : List UInt8) : Option (Except String α) :=
  (readFrame arrived).map fun r => S.fromSlice r.1

theorem writeAll_spec (stream : OutStream) (data : List UInt8) :
    ∃ written, written <+: data ∧ (stream.writeAll data).1.accepted = stream.accepted ++ written ∧
      ((stream.writeAll data).2 = .ok () ↔ written = data) := by
  unfold OutStream.writeAll
  split
  · exact ⟨data, List.prefix_rfl, rfl, by simp⟩
  · split_ifs with hroom
    · exact ⟨data, List.prefix_rfl, rfl, by simp⟩
    · refine ⟨_, List.take_prefix _ data, rfl, ?_⟩
      simp only [List.take_eq_self_iff, false_iff]
      exact hroom

/-- What is written is a beginning of the frame, and success means all of it. -/
theorem writeFramed_spec (stream : OutStream) (data : List UInt8) :
    ∃ written, written <+: frame data ∧
      (writeFramed stream data).1.accepted = stream.accepted ++ written ∧
      ((writeFramed stream data).2 = .ok () ↔ written = frame data) := by
  obtain ⟨header, hheader, haccepted, hall⟩ :=
    writeAll_spec stream (toBeBytes (UInt32.ofNat data.length))
  simp only [writeFramed]
  rcases hw : stream.writeAll (toBeBytes (UInt32.ofNat data.length)) with ⟨stream₁, _ | _⟩
  · simp only [hw, reduceCtorEq, false_iff] at haccepted hall ⊢
    refine ⟨header, hheader.trans (List.prefix_append _ _), haccepted, ?_⟩
    -- a header that was cut off is shorter than the frame
    intro hframe
    apply hall
    apply hheader.eq_of_length_le
    rw [hframe, frame, List.length_append]
    exact Nat.le_add_right _ _
  · simp only [hw, true_iff] at haccepted hall
    obtain ⟨body, hbody, haccepted', hall'⟩ := writeAll_spec stream₁ data
    refine ⟨header ++ body, ?_, ?_, ?_⟩
    · rw [hall, frame]
      exact (List.prefix_append_right_inj _).mpr hbody
    · rw [haccepted', haccepted, List.append_assoc]
    · rw [hall', hall, frame, List.append_cancel_left_eq]

theorem writeFramed_unbounded (stream : OutStream) (data : List UInt8)
    (hroom : stream.room = none) : (writeFramed stream data).2 = .ok () := by
  simp [writeFramed, OutStream.writeAll, hroom]

theorem readFramed_frame {α : Type} {S : Serde α} {a : α} {data : List UInt8}
    (hfrom : S.fromSlice data = .ok a) (hlen : data.length < 2 ^ 32) :
    readFramed S (frame data) = some (.ok a) := by
  rw [readFramed, ← List.append_nil (frame data), readFrame_frame hlen, Option.map_some, hfrom]

/-- A message that is read out of a beginning of a frame is the framed one, all of the frame has
arrived, and its length was not truncated. -/
theorem readFramed_of_isPrefix {α : Type} {S : Serde α} (hinverts : S.Inverts)
    (hrejects : S.RejectsPrefixes) {a b : α} {data arrived : List UInt8}
    (hdata : S.toVec a = .ok data) (hcut : arrived <+: frame data)
    (h : readFramed S arrived = some (.ok b)) :
    b = a ∧ arrived = frame data ∧ data.length < 2 ^ 32 := by
  obtain ⟨⟨payload, left⟩, hread, hslice⟩ := Option.map_eq_some_iff.mp h
  have hpayload := readFrame_of_isPrefix hcut hread
  have hwhole : payload = data := by
    by_contra hne
    obtain ⟨e, he⟩ := hrejects a data payload hdata hpayload hne
    simp [he] at hslice
  subst hwhole
  have hb : b = a := by
    rw [hinverts.fromSlice hdata] at hslice
    exact (Except.ok.inj hslice).symm
  exact ⟨hb, eq_frame_of_readFrame hcut hread⟩

/-! ### The JSON of the two messages -/

def messageHead : List Char := "\x7b\"message\":".toList

def messageEnd : List Char := "\x7d".toList

def messageText (message : String) : List Char := messageHead ++ (quoted message ++ messageEnd)

def readMessageText (text : List Char) : Option (String × List Char) := do
  let text ← readLiteral messageHead text
  let (message, text) ← readQuoted text
  let rest ← readLiteral messageEnd text
  return (message, rest)

@[simp] theorem readMessageText_append (message : String) (rest : List Char) :
    readMessageText (messageText message ++ rest) = some (message, rest) := by
  simp [readMessageText, messageText]

def messageBytes (message : String) : List UInt8 :=
  (messageText message).flatMap String.utf8EncodeChar

theorem length_messageBytes_append (s t : String) :
    (messageBytes (s ++ t)).length =
      ((s.toList.flatMap escapeChar).flatMap String.utf8EncodeChar).length +
        (messageBytes t).length := by
  simp only [messageBytes, messageText, quoted, String.toList_append, List.flatMap_append,
    List.flatMap_cons, List.cons_append, List.length_append]
  omega

/-- `serde_json` on the texts it writes itself, for a record with the one field `message`. -/
def messageJson {α : Type} (make : String → α) (message : α → String) : Serde α where
  toVec a := .ok (messageBytes (message a))
  fromSlice data := (readCanonical messageText readMessageText data).map make

def pingJson : Serde PingMessage := messageJson PingMessage.mk PingMessage.message

def pongJson : Serde PongMessage := messageJson PongMessage.mk PongMessage.message

section Json

variable {α : Type} {make : String → α} {message : α → String}

theorem messageJson_inverts (hmake : ∀ a, make (message a) = a) :
    (messageJson make message).Inverts := by
  intro a
  have hread : readCanonical messageText readMessageText (messageBytes (message a)) =
      .ok (message a) := (readCanonical_eq_ok readMessageText_append).mpr rfl
  refine ⟨messageBytes (message a), rfl, ?_⟩
  simp only [messageJson, hread, Except.map, hmake]

theorem messageJson_rejectsPrefixes : (messageJson make message).RejectsPrefixes := by
  intro a data cut hdata hcut hne
  cases hdata
  obtain ⟨e, he⟩ := readCanonical_of_isPrefix readMessageText_append hcut hne
  exact ⟨e, by simp only [messageJson, he, Except.map]⟩

end Json

/-- `serde_json` on both messages. -/
structure SerdeJson where
  pings : Serde PingMessage
  pongs : Serde PongMessage

/-- What the programs rely on: each message is read back, and no beginning of it is. -/
structure SerdeJson.Faithful (J : SerdeJson) : Prop where
  pings : J.pings.Inverts
  pongs : J.pongs.Inverts
  cutPings : J.pings.RejectsPrefixes
  cutPongs : J.pongs.RejectsPrefixes

def serdeJson : SerdeJson := ⟨pingJson, pongJson⟩

theorem serdeJson_faithful : serdeJson.Faithful where
  pings := messageJson_inverts fun _ => rfl
  pongs := messageJson_inverts fun _ => rfl
  cutPings := messageJson_rejectsPrefixes
  cutPongs := messageJson_rejectsPrefixes

end MeerkatNet.Ping
