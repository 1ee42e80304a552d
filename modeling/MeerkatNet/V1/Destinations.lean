import MeerkatNet.V1.Lockstep

/-!
# Where the first crate sends

A dial connects to the last peer id of an address, but `handle_send` tests, queues and
flushes by the first one. The two are the same peer exactly for the addresses whose
first peer id names the last one as well.
-/

namespace MeerkatNet.V1

open Libp2p KeyedQueues
open V2 (Answers StreamAnswer)

variable {PeerId : Type}

def HandOff.entry (h : HandOff PeerId) : MessageId × MeerkatMessage := (h.msgId, h.msg)

/-- `send_to_peer` is one hand-off, whatever the stream does. -/
theorem sendToPeer_handOffs (S : Serde) (answer : StreamAnswer) (peer : PeerId)
    (id : MessageId) (msg : MeerkatMessage) :
    ∃ written, (sendToPeer S answer peer id msg).filterMap Effect.handOff? =
      [⟨peer, id, msg, written⟩] := by
  cases answer with
  | refused e => exact ⟨none, rfl⟩
  | opened room error flushed =>
    refine ⟨some (sendMessage S ⟨[], room, error, flushed⟩ msg).1.accepted, ?_⟩
    simp only [sendToPeer]
    cases (sendMessage S ⟨[], room, error, flushed⟩ msg).2 <;> rfl

/-- A flush hands off the queue in its order, to its peer. -/
theorem flush_handOffs (S : Serde) (stream : ℕ → StreamAnswer) (peer : PeerId)
    (messages : List (MessageId × MeerkatMessage)) :
    ((flush S stream peer messages).filterMap Effect.handOff?).map
        (fun h => (h.peer, h.entry)) = messages.map fun entry => (peer, entry) := by
  induction messages generalizing stream with
  | nil => rfl
  | cons m messages ih =>
    obtain ⟨written, h⟩ := sendToPeer_handOffs S (stream 0) peer m.1 m.2
    simp only [flush, List.filterMap_append, h, List.map_append, ih]
    rfl

theorem peers_concat (pre : Multiaddr PeerId) (dest : PeerId) :
    V2.peers (pre ++ [.p2p dest]) = V2.peers pre ++ [dest] := by
  simp [V2.peers]

/-- The last peer of an address is the one that is taken exactly if no other comes first. -/
theorem extractPeerId_concat_iff {pre : Multiaddr PeerId} {dest : PeerId} :
    extractPeerId (pre ++ [.p2p dest]) = some dest ↔
      ∀ peer, (V2.peers pre).head? = some peer → peer = dest := by
  rw [extractPeerId_eq_head?, peers_concat]
  cases V2.peers pre with
  | nil => simp
  | cons peer rest => simp

variable [DecidableEq PeerId] (F : Formats PeerId) (S : Serde)

/-- A step hands a message to the peer, or changes what is queued for it. -/
def Reaches (s : LoopState PeerId) (out : LoopState PeerId × List (Effect PeerId))
    (peer : PeerId) : Prop :=
  (∃ h, .handOff h ∈ out.2 ∧ h.peer = peer) ∨
    out.1.pendingSends.get peer ≠ s.pendingSends.get peer

/-- The message goes to the peer: it is handed over at once, or it is queued while the address is
dialled, and the next connection with the peer flushes it behind what was queued before. -/
def GoesTo (s : LoopState PeerId) (out : LoopState PeerId × List (Effect PeerId))
    (addr : Multiaddr PeerId) (peer : PeerId) (id : MessageId) (msg : MeerkatMessage) : Prop :=
  (out.1 = s ∧ ∃ written, out.2.filterMap Effect.handOff? = [⟨peer, id, msg, written⟩]) ∨
  (out.2.filterMap Effect.handOff? = [] ∧
    (∃ owner c, .dial owner addr (.ok c) ∈ out.2) ∧
    out.1.pendingSends = s.pendingSends.push peer (id, msg) ∧
    ∀ callbacks answers,
      ((handleSwarmEvent F S callbacks answers out.1 (.connectionEstablished peer)).2.filterMap
        Effect.handOff?).map (fun h => (h.peer, h.entry)) =
      (s.pendingSends.queue peer ++ [(id, msg)]).map fun entry => (peer, entry))

variable {F S}

theorem connectionEstablished_handOffs {callbacks : NetworkCallbacks} {answers : Answers}
    {s : LoopState PeerId} {peer : PeerId} {messages : List (MessageId × MeerkatMessage)}
    (hget : s.pendingSends.get peer = some messages) :
    ((handleSwarmEvent F S callbacks answers s (.connectionEstablished peer)).2.filterMap
        Effect.handOff?).map (fun h => (h.peer, h.entry)) =
      messages.map fun entry => (peer, entry) := by
  have hquiet : (callback callbacks.onPeerConnected
      (.peerConnected (F.peerText peer) : Effect PeerId)).filterMap Effect.handOff? = [] := by
    cases callbacks.onPeerConnected <;> simp [callback, Effect.handOff?]
  simp only [handleSwarmEvent, hget, List.filterMap_append, hquiet, List.nil_append]
  exact flush_handOffs S answers.stream peer messages

/-- What a send to a peer does, by the answers of libp2p. -/
theorem handleSend_goesTo {addr : GlobalAddress} {m : Multiaddr PeerId} {peer : PeerId}
    (hparse : F.parse addr.text = .ok m) (hpeer : extractPeerId m = some peer)
    (s : LoopState PeerId) (answers : Answers) (id : MessageId) (msg : MeerkatMessage) :
    (∀ other ≠ peer, ¬ Reaches s (handleSend F S answers s id addr msg) other) ∧
    (GoesTo F S s (handleSend F S answers s id addr msg) m peer id msg ∨
      ∃ e, answers.isConnected = false ∧ answers.dial = .error e ∧
        (handleSend F S answers s id addr msg).2.filterMap Effect.failure? =
          [(id, .protocolError ("Dial failed: " ++ e))]) := by
  have hok : parseGlobalAddress F addr = .ok m := by simp [parseGlobalAddress, hparse,
    Except.mapError]
  simp only [handleSend, hok, hpeer]
  cases hconn : answers.isConnected with
  | true =>
    obtain ⟨written, h⟩ := sendToPeer_handOffs S (answers.stream 0) peer id msg
    refine ⟨?_, .inl (.inl ⟨rfl, written, h⟩)⟩
    rintro other hne (⟨h', hmem, rfl⟩ | hqueue)
    · have hh : h' ∈ (sendToPeer S (answers.stream 0) peer id msg).filterMap Effect.handOff? :=
        List.mem_filterMap.mpr ⟨_, by simpa using hmem, rfl⟩
      rw [h, List.mem_singleton] at hh
      exact hne (by rw [hh])
    · exact hqueue rfl
  | false =>
    cases hdial : answers.dial with
    | ok c =>
      refine ⟨?_, .inl (.inr ⟨rfl, ⟨peer, c, by simp⟩, rfl, ?_⟩)⟩
      · rintro other hne (⟨h, hmem, -⟩ | hqueue)
        · simp at hmem
        · exact hqueue (QueueMap.get_push_ne _ _ hne)
      · intro callbacks answers'
        exact connectionEstablished_handOffs (QueueMap.get_push_self _ _ _)
    | error e =>
      refine ⟨?_, .inr ⟨e, rfl, rfl, rfl⟩⟩
      rintro other hne (⟨h, hmem, -⟩ | hqueue)
      · simp at hmem
      · exact hqueue (by simp [hne])

/-- A connected peer gets the message. -/
theorem handleSend_reaches {addr : GlobalAddress} {m : Multiaddr PeerId} {peer : PeerId}
    (hparse : F.parse addr.text = .ok m) (hpeer : extractPeerId m = some peer)
    (s : LoopState PeerId) {answers : Answers} (hconn : answers.isConnected = true)
    (id : MessageId) (msg : MeerkatMessage) :
    Reaches s (handleSend F S answers s id addr msg) peer := by
  have hok : parseGlobalAddress F addr = .ok m := by simp [parseGlobalAddress, hparse,
    Except.mapError]
  obtain ⟨written, h⟩ := sendToPeer_handOffs S (answers.stream 0) peer id msg
  obtain ⟨e, he, hhandOff⟩ := List.mem_filterMap.mp
    (h ▸ List.mem_singleton_self (⟨peer, id, msg, written⟩ : HandOff PeerId))
  cases e with
  | handOff h' =>
    obtain rfl := Option.some.inj hhandOff
    refine .inl ⟨⟨peer, id, msg, written⟩, ?_, rfl⟩
    simpa only [handleSend, hok, hpeer, hconn, if_pos] using he
  | _ => cases hhandOff

/-- Every send to an address goes to its last peer exactly if no other peer comes first in it. -/
theorem handleSend_goesTo_last_iff {addr : GlobalAddress} {pre : Multiaddr PeerId}
    {dest : PeerId} (hparse : F.parse addr.text = .ok (pre ++ [.p2p dest]))
    (s : LoopState PeerId) :
    (∀ answers id msg,
      (∀ other ≠ dest, ¬ Reaches s (handleSend F S answers s id addr msg) other) ∧
      (GoesTo F S s (handleSend F S answers s id addr msg) (pre ++ [.p2p dest]) dest id msg ∨
        ∃ e, answers.isConnected = false ∧ answers.dial = .error e ∧
          (handleSend F S answers s id addr msg).2.filterMap Effect.failure? =
            [(id, .protocolError ("Dial failed: " ++ e))])) ↔
    ∀ peer, (V2.peers pre).head? = some peer → peer = dest := by
  rw [← extractPeerId_concat_iff]
  constructor
  · intro h
    by_contra hne
    obtain ⟨peer, hpeer⟩ : ∃ peer, extractPeerId (pre ++ [.p2p dest]) = some peer := by
      rw [← Option.isSome_iff_exists, extractPeerId_eq_head?, peers_concat]
      cases V2.peers pre <;> rfl
    have hother : peer ≠ dest := by
      rintro rfl
      exact hne hpeer
    -- with the first peer connected, it gets the message
    obtain ⟨hreach, -⟩ := h { Answers.refused with isConnected := true } ⟨0⟩ (.ping "")
    exact hreach peer hother (handleSend_reaches hparse hpeer s rfl _ _)
  · intro hpeer answers id msg
    exact handleSend_goesTo hparse hpeer s answers id msg

/-- The earlier components of a circuit address through the relay `176`. -/
def relayed : Multiaddr String :=
  [.other "ip4" (some "10.0.0.1"), .other "tcp" (some "9001"), .p2p "176", .p2pCircuit]

/-- With the relay connected, it is handed the message for the peer behind it. With nobody
connected, the message waits under the relay while a connection with its destination is dialled,
and that connection does not flush it. -/
theorem handleSend_relayed_misdelivers :
    Formats.plain.parse "/ip4/10.0.0.1/tcp/9001/p2p/176/p2p-circuit/p2p/177" =
      .ok (relayed ++ [.p2p "177"]) ∧
    ((handleSend Formats.plain (derived V2.jsonFormat)
        { Answers.refused with isConnected := true } .init ⟨1⟩
        ⟨"/ip4/10.0.0.1/tcp/9001/p2p/176/p2p-circuit/p2p/177"⟩ (.ping "hi")).2.filterMap
      Effect.handOff? = [⟨"176", ⟨1⟩, .ping "hi", none⟩]) ∧
    let out := handleSend Formats.plain (derived V2.jsonFormat)
      { Answers.refused with dial := .ok 0 } .init ⟨1⟩
      ⟨"/ip4/10.0.0.1/tcp/9001/p2p/176/p2p-circuit/p2p/177"⟩ (.ping "hi")
    out.1.pendingSends.get "176" = some [(⟨1⟩, .ping "hi")] ∧
    out.1.pendingSends.get "177" = none ∧
    ((handleSwarmEvent Formats.plain (derived V2.jsonFormat) ⟨false, false⟩ .refused out.1
      (.connectionEstablished "177")).2.filterMap Effect.handOff?) = [] :=
  ⟨rfl, rfl, rfl, rfl, rfl⟩

theorem handleSend_goesTo_last_iff_relayed :
    (∀ answers id msg,
      (∀ other ≠ "177", ¬ Reaches .init (handleSend Formats.plain (derived V2.jsonFormat) answers
        .init id ⟨"/ip4/10.0.0.1/tcp/9001/p2p/176/p2p-circuit/p2p/177"⟩ msg) other) ∧
      (GoesTo Formats.plain (derived V2.jsonFormat) .init (handleSend Formats.plain
          (derived V2.jsonFormat) answers .init id
          ⟨"/ip4/10.0.0.1/tcp/9001/p2p/176/p2p-circuit/p2p/177"⟩ msg)
          (relayed ++ [.p2p "177"]) "177" id msg ∨
        ∃ e, answers.isConnected = false ∧ answers.dial = .error e ∧
          (handleSend Formats.plain (derived V2.jsonFormat) answers .init id
            ⟨"/ip4/10.0.0.1/tcp/9001/p2p/176/p2p-circuit/p2p/177"⟩ msg).2.filterMap
              Effect.failure? = [(id, .protocolError ("Dial failed: " ++ e))])) ↔
    ∀ peer, (V2.peers relayed).head? = some peer → peer = "177" :=
  handleSend_goesTo_last_iff rfl .init

end MeerkatNet.V1
