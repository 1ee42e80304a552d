import MeerkatNet.V2.PendingSends
import MeerkatNet.V2.SwarmSteps

/-!
# Presence events

The loop reports every connection as `PeerConnected` and every closed one as
`PeerDisconnected`, so the reports are about peers exactly in the runs that never open
a second connection to a connected peer.
-/

namespace MeerkatNet.V2

open Libp2p KeyedQueues Runs

variable {PeerId : Type}

/-- Whether an event reports a peer, given by its text, as connected or disconnected. -/
def NetworkEvent.presenceOf? (peer : String) : NetworkEvent → Option Bool
  | .peerConnected p => if p = peer then some true else none
  | .peerDisconnected p => if p = peer then some false else none
  | _ => none

/-- The change of a peer's connections that an input reports. -/
def Input.presenceOf? [DecidableEq PeerId] (peer : PeerId) : Input PeerId → Option Bool
  | .event (.connectionEstablished p _) _ => if p = peer then some true else none
  | .event (.connectionClosed p _) _ => if p = peer then some false else none
  | _ => none

/-- The presence reports of a peer among the effects of an iteration. -/
def reports (F : Formats PeerId) (peer : PeerId) (es : List (Effect PeerId)) : List Bool :=
  (es.filterMap Effect.event?).filterMap (NetworkEvent.presenceOf? (F.peerText peer))

@[simp] theorem reports_nil (F : Formats PeerId) (peer : PeerId) : reports F peer [] = [] := rfl

@[simp] theorem reports_cons (F : Formats PeerId) (peer : PeerId) (e : Effect PeerId)
    (es : List (Effect PeerId)) :
    reports F peer (e :: es) =
      (e.event?.bind (NetworkEvent.presenceOf? (F.peerText peer))).toList ++ reports F peer es := by
  cases e with
  | event e => cases h : e.presenceOf? (F.peerText peer) <;> simp [reports, Effect.event?, h]
  | _ => rfl

@[simp] theorem reports_append (F : Formats PeerId) (peer : PeerId)
    (es es' : List (Effect PeerId)) :
    reports F peer (es ++ es') = reports F peer es ++ reports F peer es' := by
  simp [reports]

@[simp] theorem reports_sendToPeer (F : Formats PeerId) (peer : PeerId) (S : Serde)
    (answer : StreamAnswer) (p : PeerId) (id : MessageId) (msg : MeerkatMessage) :
    reports F peer (sendToPeer S answer p id msg) = [] := by
  obtain ⟨written, h | ⟨e, h, -⟩⟩ := sendToPeer_cases S answer p id msg <;> rw [h] <;> rfl

@[simp] theorem reports_flush (F : Formats PeerId) (peer : PeerId) (S : Serde)
    (stream : ℕ → StreamAnswer) (p : PeerId) (messages : List (MessageId × MeerkatMessage)) :
    reports F peer (flush S stream p messages) = [] := by
  induction messages generalizing stream with
  | nil => rfl
  | cons m messages ih => simp [flush, ih]

@[simp] theorem reports_dropped (F : Formats PeerId) (peer : PeerId) (old : Option ReplyTx) :
    reports F peer (dropped old) = [] := by
  cases old <;> rfl

variable [DecidableEq PeerId] (F : Formats PeerId) (S : Serde)

@[simp] theorem reports_relayListen (peer : PeerId) (answers : Answers) (s : LoopState PeerId)
    (p : PeerId) : reports F peer (relayListen F answers s p) = [] := by
  unfold relayListen
  split
  · rfl
  · split
    · rfl
    · split_ifs <;> rfl

/-- An iteration reports exactly the connection event that it handles. -/
theorem reports_eventLoop (peer : PeerId) (s : LoopState PeerId) (i : Input PeerId) :
    reports F peer (eventLoop F S s i).2 = (i.presenceOf? peer).toList := by
  rcases i with ⟨⟨id, addr, msg⟩ | ⟨addr, tx⟩ | ⟨addr, tx⟩, answers⟩ | ⟨ev, answers⟩
  · simp only [eventLoop, doSend]
    split
    · rfl
    · split
      · rfl
      · split_ifs
        · rw [reports_sendToPeer]; rfl
        · split <;> rfl
  · simp only [eventLoop, doListen]
    split
    · rfl
    · split
      · rfl
      · rw [reports_cons, reports_dropped]; rfl
  · simp only [eventLoop, doListenViaRelay]
    split
    · rfl
    · split
      · rfl
      · rw [reports_cons, reports_dropped]; rfl
  · cases ev with
    | connectionEstablished p c =>
      simp only [eventLoop, handleSwarmEvent]
      split <;>
        simp [Effect.event?, NetworkEvent.presenceOf?, Input.presenceOf?,
          F.peerText_injective.eq_iff]
    | connectionClosed p c =>
      simp [eventLoop, handleSwarmEvent, reports_nil, Effect.event?, NetworkEvent.presenceOf?,
        Input.presenceOf?, F.peerText_injective.eq_iff]
    | newListenAddr l address =>
      simp only [eventLoop, handleSwarmEvent]
      split
      · rfl
      · split <;> rfl
    | identifyReceived | expiredListenAddr | listenerClosed | listenerError
    | outgoingConnectionError | relayClient | relay | identifyOther | other => rfl

namespace World

/-- The `PeerConnected` and `PeerDisconnected` events of a peer, in order. -/
def presence (w : World PeerId) (peer : PeerId) : List Bool := reports F peer w.effects

/-- The presence events of a peer alternate, the first is `PeerConnected`, and the last one is
exactly when a connection is open. -/
structure Truthful (w : World PeerId) (peer : PeerId) : Prop where
  alternating : (w.presence F peer).IsChain (· ≠ ·)
  first : ∀ b ∈ (w.presence F peer).head?, b = true
  latest : (w.presence F peer).getLast? = some true ↔ 0 < w.swarm.connections peer

/-- A connection is established only with a peer that has none. -/
def FirstConnection (w : World PeerId) (i : Input PeerId) : Prop :=
  ∀ peer, i.established? = some peer → w.swarm.connections peer = 0

@[simp] theorem presence_next (w : World PeerId) (i : Input PeerId) (peer : PeerId) :
    (w.next F S i).presence F peer = w.presence F peer ++ (i.presenceOf? peer).toList := by
  simp [presence, reports_eventLoop]

theorem connections_next (w : World PeerId) (i : Input PeerId) (peer : PeerId) :
    (w.next F S i).swarm.connections peer = match i.presenceOf? peer with
      | none => w.swarm.connections peer
      | some true => w.swarm.connections peer + 1
      | some false => w.swarm.connections peer - 1 := by
  rw [next_connections]
  rcases i with _ | ⟨ev, _⟩
  · rfl
  · cases ev with
    | connectionEstablished p c | connectionClosed p c =>
      by_cases hp : p = peer
      · subst p
        simp [Swarm.react, Swarm.observe, Input.presenceOf?]
      · simp [Swarm.react, Swarm.observe, Input.presenceOf?, hp, Ne.symm hp]
    | _ => rfl

theorem report_of_firstConnection {w : World PeerId} {i : Input PeerId} {peer : PeerId} {b : Bool}
    (hlegal : w.Legal i) (hfirst : w.FirstConnection i) (hi : i.presenceOf? peer = some b) :
    b = true ↔ w.swarm.connections peer = 0 := by
  unfold Input.presenceOf? at hi
  split at hi
  · obtain ⟨rfl, rfl⟩ := by simpa using hi
    simpa using hfirst _ rfl
  · obtain ⟨rfl, rfl⟩ := by simpa using hi
    have hopen : 0 < w.swarm.connections _ := hlegal.2
    simp only [Bool.false_eq_true, false_iff]
    omega
  · simp at hi

theorem connections_le_one {w : World PeerId} {i : Input PeerId} {peer : PeerId}
    (hw : w.swarm.connections peer ≤ 1) (hlegal : w.Legal i) (hfirst : w.FirstConnection i) :
    (w.next F S i).swarm.connections peer ≤ 1 := by
  rw [connections_next]
  split
  · exact hw
  · rename_i hi
    rw [(report_of_firstConnection hlegal hfirst hi).mp rfl]
  · exact (Nat.sub_le _ _).trans hw

/-- Reports that are about peers keep being so as long as no peer is connected twice. -/
theorem truthful_next {w : World PeerId} {i : Input PeerId} {peer : PeerId}
    (hw : w.Truthful F peer) (hone : w.swarm.connections peer ≤ 1) (hlegal : w.Legal i)
    (hfirst : w.FirstConnection i) : (w.next F S i).Truthful F peer := by
  have hpresence := presence_next F S w i peer
  have hconnections := connections_next F S w i peer
  have hlatest := hw.latest
  cases hi : i.presenceOf? peer with
  | none =>
    rw [hi, Option.toList_none, List.append_nil] at hpresence
    rw [hi] at hconnections
    exact ⟨hpresence ▸ hw.alternating, hpresence ▸ hw.first, by
      rw [hpresence, hconnections, hlatest]⟩
  | some b =>
    have hreport := report_of_firstConnection hlegal hfirst hi
    rw [hi, Option.toList_some] at hpresence
    rw [hi] at hconnections
    refine ⟨?_, ?_, ?_⟩
    · rw [hpresence]
      apply hw.alternating.append (List.isChain_singleton b)
      intro x hx y hy
      simp only [List.head?_cons, Option.mem_some_iff] at hy
      subst y
      rintro rfl
      rw [Option.mem_def] at hx
      cases x with
      | true =>
        have hopen := hlatest.mp hx
        have hclosed := hreport.mp rfl
        omega
      | false =>
        have hclosed : ¬ 0 < w.swarm.connections peer := by
          intro hopen
          simp [hlatest.mpr hopen] at hx
        exact Bool.false_ne_true (hreport.mpr (by omega))
    · rw [hpresence]
      cases hempty : w.presence F peer with
      | nil =>
        have hclosed : ¬ 0 < w.swarm.connections peer := by
          intro hopen
          simpa [hempty] using hlatest.mpr hopen
        simpa using hreport.mpr (by omega)
      | cons x xs =>
        have hfirst' := hw.first
        rw [hempty] at hfirst'
        simpa using hfirst'
    · rw [hpresence, hconnections, List.getLast?_concat, Option.some.injEq]
      cases b with
      | true => simp
      | false =>
        simp only [Bool.false_eq_true, false_iff]
        omega

/-- A second connection to a connected peer is reported like a first one. -/
theorem not_truthful_next {w : World PeerId} {i : Input PeerId} {peer : PeerId}
    (hw : w.Truthful F peer) (hi : i.established? = some peer)
    (hopen : 0 < w.swarm.connections peer) : ¬ (w.next F S i).Truthful F peer := by
  intro hnext
  have hreport : i.presenceOf? peer = some true := by
    unfold Input.established? at hi
    split at hi
    · simpa [Input.presenceOf?] using hi
    · simp at hi
  have hchain := hnext.alternating
  rw [presence_next, hreport, Option.toList_some, List.isChain_append] at hchain
  exact hchain.2.2 true (hw.latest.mpr hopen) true rfl rfl

/-- In every state of a run the presence events are truthful exactly if every connection of the
run is established with a peer that has none. -/
theorem truthful_iff_firstConnection {inputs : List (Input PeerId)}
    (h : (machine F S).Along Legal init inputs) :
    (∀ reached, reached <+: inputs → ∀ peer, ((machine F S).run reached).Truthful F peer) ↔
      (machine F S).Along FirstConnection init inputs := by
  constructor
  · intro htruthful
    rw [Machine.along_iff_isPrefix]
    intro before i hpre peer hpeer
    by_contra hopen
    apply not_truthful_next F S
      (htruthful before ((List.prefix_append before [i]).trans hpre) peer) hpeer
      (Nat.pos_of_ne_zero hopen)
    have hafter := htruthful _ hpre peer
    rwa [Machine.run_concat] at hafter
  · intro hfirst reached hpre peer
    have hrun := (h.and hfirst).of_isPrefix hpre
    exact (hrun.invariant
      (P := fun w => w.Truthful F peer ∧ w.swarm.connections peer ≤ 1)
      ⟨⟨.nil, by simp [presence, reports_nil, effects, init],
          by simp [presence, reports_nil, effects, init, Swarm.init]⟩,
        Nat.zero_le _⟩
      fun w i hw hi => ⟨truthful_next F S hw.1 hw.2 hi.1 hi.2,
        connections_le_one F S hw.2 hi.1 hi.2⟩).1

/-- Two connections with a peer, the first of which closes. -/
def overlappingConnections : List (Input String) :=
  [.event (.connectionEstablished "177" 0) Answers.refused,
    .event (.connectionEstablished "177" 1) Answers.refused,
    .event (.connectionClosed "177" 0) Answers.refused]

theorem truthful_iff_overlappingConnections :
    (∀ reached, reached <+: overlappingConnections → ∀ peer,
      ((machine Formats.plain json).run reached).Truthful Formats.plain peer) ↔
      (machine Formats.plain json).Along FirstConnection init overlappingConnections :=
  truthful_iff_firstConnection Formats.plain json (by decide)

/-- The peer is reported disconnected, after two connections, while one of them is open. -/
theorem presence_overlappingConnections :
    (machine Formats.plain json).Along Legal init overlappingConnections ∧
    ((machine Formats.plain json).run overlappingConnections).presence Formats.plain "177" =
      [true, true, false] ∧
    ((machine Formats.plain json).run overlappingConnections).swarm.connections "177" = 1 := by
  decide

end World
end MeerkatNet.V2
