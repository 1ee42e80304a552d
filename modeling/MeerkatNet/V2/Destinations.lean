import MeerkatNet.Libp2p.AddressText
import MeerkatNet.V2.ListenReplies
import MeerkatNet.V2.MockIdentity
import MeerkatNet.V2.SendOrder

/-!
# Where an address leads

The real network takes the last peer id of the parsed address, the mock the piece
behind the first `p2p` piece of its text. The two agree on addresses whose first and
last peer id are the same and whose values do not read like `p2p` before that. What a
listening node returns leads to it once its peer id is appended, as the mock does.
-/

namespace MeerkatNet.V2

open Libp2p SlashText KeyedQueues Runs

variable {PeerId : Type}

/-! ### Two readings of an address -/

def peers (m : Multiaddr PeerId) : List PeerId :=
  m.filterMap fun
    | .p2p peer => some peer
    | _ => none

theorem extractPeerId_eq (m : Multiaddr PeerId) : extractPeerId m = (peers m).getLast? := rfl

/-- Before any peer id, and not at the end of the address, a value reads `p2p`. -/
def Misread (m : Multiaddr PeerId) : Prop :=
  ∃ pre name post, m = pre ++ .other name (some "p2p") :: post ∧ post ≠ [] ∧
    ∀ peer, .p2p peer ∉ pre

theorem misread_cons_iff {p : Protocol PeerId} {m : Multiaddr PeerId}
    (hp : ∀ name, p = .other name (some "p2p") → m = []) :
    Misread (p :: m) ↔ (∀ peer, p ≠ .p2p peer) ∧ Misread m := by
  constructor
  · rintro ⟨pre, name, post, h, hpost, hpre⟩
    cases pre with
    | nil =>
      obtain ⟨rfl, rfl⟩ := List.cons.inj h
      exact absurd (hp name rfl) hpost
    | cons q pre =>
      obtain ⟨rfl, rfl⟩ := List.cons.inj h
      refine ⟨?_, pre, name, post, rfl, hpost, fun peer hmem => hpre peer (by simp [hmem])⟩
      rintro peer rfl
      exact hpre peer (by simp)
  · rintro ⟨hpeer, pre, name, post, rfl, hpost, hpre⟩
    refine ⟨p :: pre, name, post, rfl, hpost, ?_⟩
    intro peer hmem
    rcases List.mem_cons.mp hmem with h | h
    · exact hpeer peer h.symm
    · exact hpre peer h

theorem firstAfterP2p_cons {name : String} (h : name ≠ "p2p") (parts : List String) :
    firstAfterP2p (name :: parts) = firstAfterP2p parts := by
  cases parts with
  | nil => rfl
  | cons part parts => simp [firstAfterP2p, h]

variable {F : Formats PeerId}

/-- What the mock reads in the pieces of an address. -/
theorem firstAfterP2p_pieces {m : Multiaddr PeerId} (hm : ∀ p ∈ m, F.WellFormed p) :
    (Misread m → ∃ name, firstAfterP2p (m.flatMap F.pieces) = some name ∧ F.piece name ≠ none) ∧
    (¬ Misread m → firstAfterP2p (m.flatMap F.pieces) = (peers m).head?.map F.peerText) := by
  induction m with
  | nil =>
    refine ⟨?_, fun _ => rfl⟩
    rintro ⟨pre, name, post, h, -⟩
    simp at h
  | cons p m ih =>
    rw [List.forall_mem_cons] at hm
    obtain ⟨hmisread, hread⟩ := ih hm.2
    cases p with
    | p2p peer =>
      rw [misread_cons_iff (by simp)]
      exact ⟨fun h => absurd rfl (h.1 peer), fun _ => rfl⟩
    | p2pCircuit =>
      rw [misread_cons_iff (by simp), List.flatMap_cons, Formats.pieces, List.singleton_append,
        firstAfterP2p_cons (by decide)]
      exact ⟨fun h => hmisread h.2, fun h => hread fun hm => h ⟨by simp, hm⟩⟩
    | other name value =>
      have hname := Formats.WellFormed.name_ne_p2p hm.1
      by_cases hvalue : value = some "p2p" ∧ m ≠ []
      · -- the piece behind the value is the name of the next protocol
        obtain ⟨rfl, hne⟩ := hvalue
        have hmis : Misread (.other name (some "p2p") :: m) := ⟨[], name, m, rfl, hne, by simp⟩
        obtain ⟨q, m, rfl⟩ := List.exists_cons_of_ne_nil hne
        obtain ⟨next, parts, hpieces, hpiece⟩ :=
          Formats.WellFormed.pieces_eq_cons (List.forall_mem_cons.mp hm.2).1
        refine ⟨fun _ => ⟨next, ?_, hpiece⟩, fun h => absurd hmis h⟩
        rw [List.flatMap_cons, List.flatMap_cons, hpieces, Formats.pieces]
        simp only [List.cons_append, List.nil_append, firstAfterP2p_cons hname]
        rfl
      · have hskip : firstAfterP2p ((.other name value :: m : Multiaddr PeerId).flatMap F.pieces) =
            firstAfterP2p (m.flatMap F.pieces) := by
          rw [List.flatMap_cons]
          cases value with
          | none => exact firstAfterP2p_cons hname _
          | some v =>
            refine (firstAfterP2p_cons hname _).trans ?_
            by_cases hv : v = "p2p"
            · subst v
              obtain rfl : m = [] := by simpa using hvalue
              rfl
            · exact firstAfterP2p_cons hv _
        rw [misread_cons_iff, hskip]
        · exact ⟨fun h => hmisread h.2, fun h => hread fun hm => h ⟨by simp, hm⟩⟩
        · intro name' h
          by_contra hne
          exact hvalue ⟨by cases h; rfl, hne⟩

/-- The mock and the real network read the same peer, or both none, exactly from the addresses
whose first and last peer id agree and that have no value `p2p` before them. -/
theorem extractPeerId_agree_iff (hF : F.PeerTextsApart) {m : Multiaddr PeerId}
    (hm : ∀ p ∈ m, F.WellFormed p) :
    extractPeerIdFromAddr (F.display m) =
        (destination F ⟨F.display m⟩).map F.peerText ↔
      (peers m).head? = (peers m).getLast? ∧ ¬ Misread m := by
  have hreal : destination F ⟨F.display m⟩ = (peers m).getLast? := by
    simp [destination, Formats.parse_display hF hm, extractPeerId_eq]
  have hmock : extractPeerIdFromAddr (F.display m) = firstAfterP2p (m.flatMap F.pieces) := by
    rw [extractPeerIdFromAddr, Formats.components_display hF hm]
    exact firstAfterP2p_cons (by decide) _
  obtain ⟨hmisread, hread⟩ := firstAfterP2p_pieces hm
  rw [hreal, hmock]
  by_cases h : Misread m
  · obtain ⟨name, hname, hpiece⟩ := hmisread h
    simp only [h, not_true_eq_false, and_false, iff_false, hname]
    intro hsame
    obtain ⟨peer, -, hpeer⟩ := Option.map_eq_some_iff.mp hsame.symm
    exact hpiece (hpeer ▸ hF.noProtocol peer)
  · rw [hread h]
    simp only [h, not_false_eq_true, and_true]
    exact (Option.map_injective F.peerText_injective).eq_iff

def relayPeer : Formats.SeparatePeer := ⟨"177", by decide⟩

def destPeer : Formats.SeparatePeer := ⟨"178", by decide⟩

/-- A peer behind a relay. -/
def circuitAddress : Multiaddr Formats.SeparatePeer :=
  [.other "ip4" (some "10.0.0.2"), .other "tcp" (some "90"), .p2p relayPeer, .p2pCircuit,
    .p2p destPeer]

theorem wellFormed_circuitAddress : ∀ p ∈ circuitAddress, Formats.separate.WellFormed p := by
  simp only [circuitAddress, List.forall_mem_cons, Formats.WellFormed, List.not_mem_nil]
  exact ⟨⟨by decide, by decide, _, rfl, rfl⟩, ⟨by decide, by decide, _, rfl, rfl⟩, trivial,
    trivial, trivial, by simp⟩

/-- The real network sends to the peer behind the relay, the mock to the relay. -/
theorem extractPeerId_disagree_circuit :
    (∀ p ∈ circuitAddress, Formats.separate.WellFormed p) ∧
    extractPeerIdFromAddr (Formats.separate.display circuitAddress) = some "177" ∧
    (destination Formats.separate ⟨Formats.separate.display circuitAddress⟩).map
      Formats.separate.peerText = some "178" :=
  ⟨wellFormed_circuitAddress, by decide +kernel⟩

theorem extractPeerId_agree_iff_circuit :
    extractPeerIdFromAddr (Formats.separate.display circuitAddress) =
        (destination Formats.separate ⟨Formats.separate.display circuitAddress⟩).map
          Formats.separate.peerText ↔
      (peers circuitAddress).head? = (peers circuitAddress).getLast? ∧ ¬ Misread circuitAddress :=
  extractPeerId_agree_iff Formats.separate_peerTextsApart wellFormed_circuitAddress

/-! ### Addresses returned by listening -/

/-- Appending the peer protocol makes its peer the destination. -/
theorem destination_withPeer {addr : Address} {m : Multiaddr PeerId}
    (hparse : F.parse addr.text = .ok m) {peer : PeerId} (hpeer : SlashFree (F.peerText peer)) :
    destination F ⟨addr.text ++ "/p2p/" ++ F.peerText peer⟩ = some peer := by
  have htext : addr.text ++ "/p2p/" ++ F.peerText peer =
      addr.text ++ "/" ++ ("p2p" ++ "/" ++ F.peerText peer) := by
    simp [← String.toList_inj]
  have hparts : F.fromStrParts none (components ("p2p" ++ "/" ++ F.peerText peer)) =
      .ok [.p2p peer] := by
    rw [components_slash, components_of_slashFree hpeer, components_of_slashFree (by decide)]
    simp [Formats.fromStrParts, F.peerFromText_peerText, Except.map]
  have hlast : peers (m ++ [.p2p peer]) = peers m ++ [peer] := by simp [peers]
  rw [destination, htext, F.parse_slash hparse, hparts]
  simp [Except.map, extractPeerId_eq, hlast]

theorem extractPeerIdFromAddr_withPeer {s peer : String} (hs : "p2p" ∉ components s)
    (hpeer : SlashFree peer) : extractPeerIdFromAddr (s ++ "/p2p/" ++ peer) = some peer := by
  have htext : s ++ "/p2p/" ++ peer = s ++ "/" ++ ("p2p" ++ "/" ++ peer) := by
    simp [← String.toList_inj]
  have hname : components "p2p" = ["p2p"] := components_of_slashFree (by decide)
  rw [extractPeerIdFromAddr, htext, components_slash, components_slash, hname,
    components_of_slashFree hpeer]
  generalize components s = parts at hs
  induction parts with
  | nil => rfl
  | cons part parts ih =>
    rw [List.mem_cons, not_or] at hs
    exact (firstAfterP2p_cons (Ne.symm hs.1) _).trans (ih hs.2)

theorem slashFree_mockPeer (now : ℕ) : SlashFree ("mock-peer-" ++ uuidSimple now) := by
  intro h
  rw [String.toList_append, List.mem_append] at h
  rcases h with h | h
  · exact absurd h (by decide)
  · exact absurd (HexText.paddedHex_subset 8 _ h) (by decide)

theorem MockWorld.slashFree_peerIds (inputs : List MockInput) :
    ∀ peer ∈ (machine.run inputs).peerIds, SlashFree peer := by
  rw [peerIds_run]
  intro peer hpeer
  obtain ⟨now, -, rfl⟩ := List.mem_map.mp hpeer
  exact slashFree_mockPeer now

/-- An announced address is read back from its text. -/
def ReadsBackAnnounced (F : Formats PeerId) (_ : World PeerId) (i : Input PeerId) : Prop :=
  ∀ a ∈ i.announced?, F.parse (F.display a.2) = .ok a.2

instance [DecidableEq PeerId] (w : World PeerId) (i : Input PeerId) :
    Decidable (ReadsBackAnnounced F w i) :=
  inferInstanceAs (Decidable (∀ a ∈ i.announced?, F.parse (F.display a.2) = .ok a.2))

variable [DecidableEq PeerId] (S : Serde)

/-- The address is the text of an announced one. -/
def AnnouncedText (F : Formats PeerId) (addr : Address) : Prop :=
  ∃ m, addr.text = F.display m ∧ F.parse addr.text = .ok m

theorem replies_next {w : World PeerId} {i : Input PeerId}
    (hw : ∀ tx addr, .reply tx (.ok addr) ∈ w.effects → AnnouncedText F addr)
    (hi : ReadsBackAnnounced F w i) :
    ∀ tx addr, .reply tx (.ok addr) ∈ (w.next F S i).effects → AnnouncedText F addr := by
  intro tx addr hmem
  rw [World.next_effects, List.mem_append] at hmem
  rcases hmem with hmem | hmem
  · exact hw tx addr hmem
  · obtain ⟨l, address, answers, rfl, rfl, -⟩ :=
      (eventLoop_listenStep F S w.loop i).reply_source F hmem
    exact ⟨address, rfl, hi (l, address) rfl⟩

namespace Node

/-- The addresses that the loop and the actor have answered with were announced. -/
structure AnswersAnnounced (F : Formats PeerId) (n : Node PeerId) : Prop where
  effects : ∀ tx addr, .reply tx (.ok addr) ∈ n.world.effects → AnnouncedText F addr
  replies : ∀ request addr, (request, .listenSuccess addr) ∈ n.replies → AnnouncedText F addr

theorem answersAnnounced_next {n : Node PeerId} (hn : n.AnswersAnnounced F) {i : NodeInput PeerId}
    (hi : Iterates (ReadsBackAnnounced F) n i) : (n.next F S i).AnswersAnnounced F := by
  have hstep := next_nodeStep F S n i
  generalize n.next F S i = n' at hstep
  cases hstep with
  | taken hrunning hrx =>
    exact ⟨replies_next S hn.effects (hi _ (by simp [iteration?, hrunning, hrx])), hn.replies⟩
  | iterated hrunning =>
    exact ⟨replies_next S hn.effects (hi _ (by simp [iteration?, hrunning])), hn.replies⟩
  | listened hwaiting hanswer =>
    refine ⟨hn.effects, ?_⟩
    intro request addr hmem
    rcases List.mem_append.mp hmem with hmem | hmem
    · exact hn.replies request addr hmem
    · obtain ⟨-, hreply⟩ := Prod.mk.inj (List.mem_singleton.mp hmem)
      rw [NetworkReply.listenSuccess.inj hreply]
      exact hn.effects _ _ (mem_effects_of_answer? hanswer)
  | issued | listed | failed =>
    refine ⟨hn.effects, ?_⟩
    intro request addr hmem
    exact hn.replies request addr (by simpa using hmem)
  | _ => exact ⟨hn.effects, hn.replies⟩

/-- An address that a node returns from a listen request leads to it: on the real network once
its peer id is appended, on the mock as it is if the requested address had no piece `p2p`. -/
theorem listenSuccess_leads {me : PeerId} {nodeType : NodeType}
    {inputs : List (NodeInput PeerId)} (hpeer : SlashFree (F.peerText me))
    (h : (machine F S me nodeType).Along (Iterates (ReadsBackAnnounced F)) (init me nodeType)
      inputs) (mockInputs : List MockInput) :
    (∀ request addr, (request, .listenSuccess addr) ∈
        ((machine F S me nodeType).run inputs).replies →
      recipient F .server ⟨addr.text ++ "/p2p/" ++ F.peerText me⟩ = some me) ∧
    let w := MockWorld.machine.run mockInputs
    ∀ k self addr, w.nodes[k]? = some self → "p2p" ∉ components addr.text →
      ∃ bound, (w.handleCommand k self (.listen addr)).2 = .listenSuccess bound ∧
        extractPeerIdFromAddr bound.text = some self.peerId := by
  constructor
  · have hannounced := h.invariant (P := AnswersAnnounced F)
      ⟨fun tx addr hmem => by simp [World.effects, World.init, init] at hmem,
        fun request addr hmem => by simp [init] at hmem⟩
      fun n i hn hi => answersAnnounced_next S hn hi
    intro request addr hmem
    obtain ⟨m, -, hparse⟩ := hannounced.replies request addr hmem
    exact destination_withPeer hparse hpeer
  · intro w k self addr hself hp2p
    have hid := MockWorld.slashFree_peerIds mockInputs self.peerId
      (List.mem_of_getElem? (MockWorld.peerIds_getElem? hself))
    exact ⟨_, rfl, extractPeerIdFromAddr_withPeer hp2p hid⟩

/-- A listen request that is answered with the one address of its listener. -/
def plainListen : List (NodeInput String) :=
  [.command (.listen ⟨"/ip4/10.0.0.2/tcp/90"⟩), .take { Answers.refused with listenOn := .ok 0 },
    .event (.newListenAddr 0 [.other "ip4" (some "10.0.0.2"), .other "tcp" (some "90")])
      Answers.refused,
    .resume]

/-- The address is announced without a peer id, so a send to it as it is resolves to nobody. -/
theorem listenSuccess_plainListen_nobody :
    (machine Formats.plain json "176" .server).Along
      (Iterates fun w i => w.Legal i ∧ ReadsBackAnnounced Formats.plain w i)
      (init "176" .server) plainListen ∧
    (some 0, .listenSuccess ⟨"/ip4/10.0.0.2/tcp/90"⟩) ∈
      ((machine Formats.plain json "176" .server).run plainListen).replies ∧
    recipient Formats.plain .server ⟨"/ip4/10.0.0.2/tcp/90"⟩ = none :=
  ⟨by decide, by decide, by decide⟩

theorem listenSuccess_leads_plainListen :
    (∀ request addr, (request, .listenSuccess addr) ∈
        ((machine Formats.plain json "176" .server).run plainListen).replies →
      recipient Formats.plain .server
        ⟨addr.text ++ "/p2p/" ++ Formats.plain.peerText "176"⟩ = some "176") ∧
    let w := MockWorld.machine.run [.create 5]
    ∀ k self addr, w.nodes[k]? = some self → "p2p" ∉ components addr.text →
      ∃ bound, (w.handleCommand k self (.listen addr)).2 = .listenSuccess bound ∧
        extractPeerIdFromAddr bound.text = some self.peerId :=
  listenSuccess_leads json (by decide) (by decide) [.create 5]

end Node
end MeerkatNet.V2
