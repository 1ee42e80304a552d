import MeerkatNet.V2.Delivery
import MeerkatNet.V2.Destinations

/-!
# Sends through a relay

`do_send` resolves an address to its last peer id, wherever the circuit hops are. For
an address that ends behind its last circuit hop this is the destination; for one that
ends with the hop itself it is the relay.
-/

namespace MeerkatNet.V2

open Libp2p SlashText KeyedQueues

variable {PeerId : Type}

/-- A circuit hop with no peer after it. -/
def EndsInCircuit (m : Multiaddr PeerId) : Prop :=
  ∃ pre post, m = pre ++ .p2pCircuit :: post ∧ ∀ peer, .p2p peer ∉ post

/-- The peer occurs in the address with no circuit hop after it. -/
def BehindCircuits (m : Multiaddr PeerId) (peer : PeerId) : Prop :=
  ∃ pre post, m = pre ++ .p2p peer :: post ∧ .p2pCircuit ∉ post

theorem mem_peers {m : Multiaddr PeerId} {peer : PeerId} : peer ∈ peers m ↔ .p2p peer ∈ m := by
  rw [peers, List.mem_filterMap]
  constructor
  · rintro ⟨p, hp, h⟩
    cases p with
    | p2p q => exact Option.some.inj h ▸ hp
    | p2pCircuit | other => cases h
  · exact fun h => ⟨_, h, rfl⟩

theorem peers_eq_nil_iff {m : Multiaddr PeerId} : peers m = [] ↔ ∀ peer, .p2p peer ∉ m := by
  simp only [List.eq_nil_iff_forall_not_mem, mem_peers]

theorem extractPeerId_eq_none_iff {m : Multiaddr PeerId} :
    extractPeerId m = none ↔ ∀ peer, .p2p peer ∉ m := by
  rw [extractPeerId_eq, List.getLast?_eq_none_iff, peers_eq_nil_iff]

/-- The peer that is taken is the one behind which no peer follows. -/
theorem extractPeerId_eq_some_iff {m : Multiaddr PeerId} {peer : PeerId} :
    extractPeerId m = some peer ↔
      ∃ pre post, m = pre ++ .p2p peer :: post ∧ ∀ other, .p2p other ∉ post := by
  have happend : ∀ pre post : Multiaddr PeerId,
      peers (pre ++ .p2p peer :: post) = peers pre ++ peer :: peers post := by simp [peers]
  constructor
  · intro h
    induction m using List.reverseRecOn with
    | nil => cases h
    | append_singleton m p ih =>
      by_cases hp : p = .p2p peer
      · exact ⟨m, [], by rw [hp], by simp⟩
      · have hnone : ∀ other, p ≠ .p2p other := by
          rintro other rfl
          have hlast : peers (m ++ [.p2p other]) = peers m ++ [other] := by simp [peers]
          rw [extractPeerId_eq, hlast, List.getLast?_concat, Option.some.injEq] at h
          exact hp (by rw [h])
        have hsame : peers (m ++ [p]) = peers m := by
          cases p with
          | p2p other => exact absurd rfl (hnone other)
          | p2pCircuit | other => simp [peers]
        obtain ⟨pre, post, rfl, hpost⟩ := ih (by rwa [extractPeerId_eq, hsame] at h)
        refine ⟨pre, post ++ [p], by simp, ?_⟩
        intro other hother
        rcases List.mem_append.mp hother with hother | hother
        · exact hpost other hother
        · exact hnone other (List.mem_singleton.mp hother).symm
  · rintro ⟨pre, post, rfl, hpost⟩
    rw [extractPeerId_eq, happend, peers_eq_nil_iff.mpr hpost, List.getLast?_concat]

/-- Unless the address ends in a circuit, its last peer id is no relay hop. -/
theorem behindCircuits_of_extractPeerId {m : Multiaddr PeerId} {peer : PeerId}
    (h : extractPeerId m = some peer) (hm : ¬ EndsInCircuit m) : BehindCircuits m peer := by
  obtain ⟨pre, post, rfl, hpost⟩ := extractPeerId_eq_some_iff.mp h
  refine ⟨pre, post, rfl, ?_⟩
  intro hcircuit
  obtain ⟨before, after, rfl⟩ := List.append_of_mem hcircuit
  refine hm ⟨pre ++ .p2p peer :: before, after, by simp, ?_⟩
  intro other hother
  exact hpost other (by simp [hother])

variable [DecidableEq PeerId] (F : Formats PeerId) (S : Serde)

/-- A step hands a message to the peer, or changes what is queued for it. -/
def Reaches (s : LoopState PeerId) (out : LoopState PeerId × List (Effect PeerId))
    (peer : PeerId) : Prop :=
  (∃ h, .handOff h ∈ out.2 ∧ h.peer = peer) ∨
    out.1.pendingSends.get peer ≠ s.pendingSends.get peer

variable {F S} {s : LoopState PeerId} {answers : Answers} {id : MessageId} {addr : Address}
variable {msg : MeerkatMessage} {m : Multiaddr PeerId}

theorem Reaches.destination {peer : PeerId}
    (h : Reaches s (doSend F S answers s id addr msg) peer) :
    destination F addr = some peer := by
  have hstep := doSend_sendStep F S s answers id addr msg
  unfold Reaches at h
  generalize (doSend F S answers s id addr msg).1.pendingSends = pending' at hstep h
  generalize (doSend F S answers s id addr msg).2 = es at hstep h
  cases hstep with
  | rejected => simp at h
  | @direct _ _ _ _ peer' hdest =>
    obtain ⟨h, hmem, rfl⟩ : ∃ h, .handOff h ∈ sendToPeer S (answers.stream 0) peer' id msg ∧
        h.peer = peer := by simpa using h
    rw [hdest, sendToPeer_peer (List.mem_filterMap.mpr ⟨_, hmem, rfl⟩)]
  | queued hdest | dialFailed hdest =>
    rw [hdest, Option.some.injEq]
    by_contra hne
    simp [Ne.symm hne] at h
  | quiet hi => cases hi

/-- A parsed address goes to no relay hop exactly if an address that ends in a circuit names no
peer at all. -/
theorem doSend_behindCircuits_iff (hparse : F.parse addr.text = .ok m) (s : LoopState PeerId)
    (answers : Answers) (id : MessageId) (msg : MeerkatMessage) :
    ((∀ peer, Reaches s (doSend F S answers s id addr msg) peer → BehindCircuits m peer) ∧
      (EndsInCircuit m → doSend F S answers s id addr msg =
        (s, [.event (.sendFailed id (.protocolError "No peer ID in address"))]))) ↔
    (EndsInCircuit m → ∀ peer, .p2p peer ∉ m) := by
  have hdest : destination F addr = extractPeerId m := by simp [destination, hparse]
  constructor
  · rintro ⟨-, hfailed⟩ hends
    rw [← extractPeerId_eq_none_iff]
    by_contra hsome
    obtain ⟨peer, hpeer⟩ := Option.ne_none_iff_exists'.mp hsome
    have hout := hfailed hends
    have hne : ∀ e, Effect.event e ∉ (doSend F S answers s id addr msg).2.head? := by
      simp only [doSend, hparse, hpeer]
      split_ifs
      · obtain ⟨written, h | ⟨e, h, -⟩⟩ := sendToPeer_cases S (answers.stream 0) peer id msg <;>
          simp [h]
      · split <;> simp
    exact hne _ (by rw [hout]; rfl)
  · intro hnames
    refine ⟨?_, ?_⟩
    · intro peer hreach
      have hpeer : extractPeerId m = some peer := hdest.symm.trans hreach.destination
      refine behindCircuits_of_extractPeerId hpeer fun hends => ?_
      rw [extractPeerId_eq_none_iff.mpr (hnames hends)] at hpeer
      cases hpeer
    · intro hends
      simp only [doSend, hparse, extractPeerId_eq_none_iff.mpr (hnames hends)]

/-- The address of the relay's own circuit hop, with nobody behind it. -/
def relayHop : Multiaddr String :=
  [.other "ip4" (some "10.0.0.1"), .other "tcp" (some "9001"), .other "ws" none, .p2p "176",
    .p2pCircuit]

omit [DecidableEq PeerId] in
theorem not_behindCircuits_concat (m : Multiaddr PeerId) (peer : PeerId) :
    ¬ BehindCircuits (m ++ [.p2pCircuit]) peer := by
  rintro ⟨pre, post, h, hpost⟩
  rcases post.eq_nil_or_concat with rfl | ⟨post, p, rfl⟩
  · obtain ⟨-, hlast⟩ := List.append_inj' h rfl
    cases hlast
  · rw [List.concat_eq_append, ← List.cons_append, ← List.append_assoc] at h
    obtain ⟨-, hlast⟩ := List.append_inj' h rfl
    rw [List.singleton_inj] at hlast
    exact hpost (by simp [hlast])

/-- The message is handed to the relay, which has a circuit hop after it. -/
theorem doSend_relayHop_reaches :
    Formats.plain.parse "/ip4/10.0.0.1/tcp/9001/ws/p2p/176/p2p-circuit" = .ok relayHop ∧
    EndsInCircuit relayHop ∧ ¬ BehindCircuits relayHop "176" ∧
    Reaches .init (doSend Formats.plain json Pair.connectedAnswers .init ⟨1⟩
      ⟨"/ip4/10.0.0.1/tcp/9001/ws/p2p/176/p2p-circuit"⟩ (.ping "hi")) "176" := by
  have hout : doSend Formats.plain json Pair.connectedAnswers .init ⟨1⟩
      ⟨"/ip4/10.0.0.1/tcp/9001/ws/p2p/176/p2p-circuit"⟩ (.ping "hi") =
      (.init, sendToPeer json (Pair.connectedAnswers.stream 0) "176" ⟨1⟩ (.ping "hi")) := rfl
  refine ⟨rfl, ⟨relayHop.take 4, [], rfl, by simp⟩,
    not_behindCircuits_concat (relayHop.take 4) "176", .inl ?_⟩
  rw [hout]
  obtain ⟨written, h | ⟨e, h, -⟩⟩ :=
    sendToPeer_cases json (Pair.connectedAnswers.stream 0) "176" ⟨1⟩ (.ping "hi") <;>
    exact ⟨⟨"176", ⟨1⟩, .ping "hi", written⟩, by simp [h], rfl⟩

theorem doSend_behindCircuits_iff_relayHop :
    ((∀ peer, Reaches .init (doSend Formats.plain json Pair.connectedAnswers .init ⟨1⟩
          ⟨"/ip4/10.0.0.1/tcp/9001/ws/p2p/176/p2p-circuit"⟩ (.ping "hi")) peer →
        BehindCircuits relayHop peer) ∧
      (EndsInCircuit relayHop → doSend Formats.plain json Pair.connectedAnswers .init ⟨1⟩
          ⟨"/ip4/10.0.0.1/tcp/9001/ws/p2p/176/p2p-circuit"⟩ (.ping "hi") =
        (.init, [.event (.sendFailed ⟨1⟩ (.protocolError "No peer ID in address"))]))) ↔
    (EndsInCircuit relayHop → ∀ peer, .p2p peer ∉ relayHop) :=
  doSend_behindCircuits_iff rfl .init Pair.connectedAnswers ⟨1⟩ (.ping "hi")

/-! ### Destinations behind the own relay -/

/-- The address of a peer behind a relay, with the peer id spelled as `text`. -/
def behindRelay (relay : Address) (text : String) : Address :=
  ⟨relay.text ++ "/p2p-circuit/p2p/" ++ text⟩

theorem behindRelay_text (relay : Address) (text : String) :
    (behindRelay relay text).text =
      relay.text ++ "/" ++ ("p2p-circuit" ++ "/" ++ ("p2p" ++ "/" ++ text)) := by
  simp [behindRelay, ← String.toList_inj]

omit [DecidableEq PeerId] in
theorem parse_behindRelay {relay : Address} {text : String} {peer : PeerId}
    (hrelay : F.parse relay.text = .ok m) (htext : SlashFree text)
    (hread : F.peerFromText text = some peer) :
    F.parse (behindRelay relay text).text = .ok (m ++ [.p2pCircuit, .p2p peer]) := by
  have hparts : F.fromStrParts none ["p2p-circuit", "p2p", text] =
      .ok [.p2pCircuit, .p2p peer] := by
    simp [Formats.fromStrParts, hread, Except.map]
  rw [behindRelay_text, F.parse_slash hrelay, components_slash, components_slash,
    components_of_slashFree htext, components_of_slashFree (by decide : SlashFree "p2p"),
    components_of_slashFree (by decide : SlashFree "p2p-circuit")]
  simp [hparts, Except.map]

/-- The address begins with the relay's text and contains a circuit hop. -/
theorem translateAddress_behindRelay {nodeType : NodeType} {relay : Address}
    (hnode : nodeType = .server ∨ nodeType = .browserClient relay) (text : String) :
    translateAddress nodeType (behindRelay relay text) = .ok (behindRelay relay text) := by
  rcases hnode with rfl | rfl
  · rfl
  · have hshares : SharesRelayText relay (behindRelay relay text) := by
      refine ⟨startsWith_iff_append.mpr ⟨"/p2p-circuit/p2p/" ++ text, ?_⟩,
        decide_eq_true ⟨relay.text.toList, ("/p2p/" ++ text).toList, ?_⟩⟩
      · simp [behindRelay, ← String.toList_inj]
      · simp [behindRelay]
    rw [translateAddress_browserClient, if_neg fun h => h.1 hshares]

/-- A message for a peer behind the own relay is handed to that peer, or queued under it while
the whole address is dialled. The relay gets nothing, and its queue stays as it is. -/
theorem doSend_behindRelay {relay : Address} {relayPeer peer : PeerId} {text : String}
    (hrelay : F.parse relay.text = .ok (m ++ [.p2p relayPeer])) (hne : peer ≠ relayPeer)
    (htext : SlashFree text) (hread : F.peerFromText text = some peer)
    {nodeType : NodeType} (hnode : nodeType = .server ∨ nodeType = .browserClient relay)
    (s : LoopState PeerId) (answers : Answers) (id : MessageId) (msg : MeerkatMessage) :
    translateAddress nodeType (behindRelay relay text) = .ok (behindRelay relay text) ∧
    let out := doSend F S answers s id (behindRelay relay text) msg
    ((answers.isConnected = true ∧ out.1 = s ∧
        ∃ written, out.2.filterMap Effect.handOff? = [⟨peer, id, msg, written⟩]) ∨
      (answers.isConnected = false ∧ out.2.filterMap Effect.handOff? = [] ∧
        (∃ circuit, F.parse (behindRelay relay text).text = .ok circuit ∧
          .dial (.send peer) circuit answers.dial ∈ out.2) ∧
        match answers.dial with
        | .ok _ => out.1.pendingSends = s.pendingSends.push peer (id, msg)
        | .error e => out.1.pendingSends = (s.pendingSends.push peer (id, msg)).remove peer ∧
            .event (.sendFailed id (.protocolError ("Dial failed: " ++ e))) ∈ out.2)) ∧
    ¬ Reaches s out relayPeer := by
  have hparse := parse_behindRelay hrelay htext hread
  have hpeer : extractPeerId (m ++ [.p2p relayPeer] ++ [.p2pCircuit, .p2p peer]) = some peer :=
    extractPeerId_eq_some_iff.mpr ⟨m ++ [.p2p relayPeer, .p2pCircuit], [], by simp, by simp⟩
  refine ⟨translateAddress_behindRelay hnode text, ?_, ?_⟩
  · simp only [hparse, doSend, hpeer]
    cases hconn : answers.isConnected with
    | true =>
      refine .inl ⟨rfl, rfl, ?_⟩
      obtain ⟨written, h | ⟨e, h, -⟩⟩ := sendToPeer_cases S (answers.stream 0) peer id msg <;>
        exact ⟨written, by simp [h, Effect.handOff?]⟩
    | false =>
      refine .inr ⟨rfl, ?_⟩
      cases hdial : answers.dial <;> simp [Effect.handOff?]
  · intro hreach
    have hdest : destination F (behindRelay relay text) = some peer := by
      rw [destination, hparse]
      exact hpeer
    exact hne (Option.some.inj (hdest.symm.trans hreach.destination))

/-- The relay of the samples, and a connected peer behind it. -/
theorem doSend_behindRelay_sampleRelay :
    translateAddress (.browserClient sampleRelay) (behindRelay sampleRelay "177") =
      .ok (behindRelay sampleRelay "177") ∧
    let out := doSend Formats.plain json Pair.connectedAnswers .init ⟨1⟩
      (behindRelay sampleRelay "177") (.ping "hi")
    ((Pair.connectedAnswers.isConnected = true ∧ out.1 = .init ∧
        ∃ written, out.2.filterMap Effect.handOff? = [⟨"177", ⟨1⟩, .ping "hi", written⟩]) ∨
      (Pair.connectedAnswers.isConnected = false ∧ out.2.filterMap Effect.handOff? = [] ∧
        (∃ circuit, Formats.plain.parse (behindRelay sampleRelay "177").text = .ok circuit ∧
          .dial (.send "177") circuit Pair.connectedAnswers.dial ∈ out.2) ∧
        match Pair.connectedAnswers.dial with
        | .ok _ => out.1.pendingSends = LoopState.init.pendingSends.push "177" (⟨1⟩, .ping "hi")
        | .error e => out.1.pendingSends =
              (LoopState.init.pendingSends.push "177" (⟨1⟩, .ping "hi")).remove "177" ∧
            .event (.sendFailed ⟨1⟩ (.protocolError ("Dial failed: " ++ e))) ∈ out.2)) ∧
    ¬ Reaches .init out "176" :=
  doSend_behindRelay (m := [.other "ip4" (some "10.0.0.1"), .other "tcp" (some "9001"),
    .other "ws" none]) rfl (by decide) (by decide) rfl (.inr rfl) .init Pair.connectedAnswers ⟨1⟩
    (.ping "hi")

end MeerkatNet.V2
