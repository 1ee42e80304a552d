import MeerkatNet.Libp2p.Multiaddr

/-!
# The text of an address

A well-formed address is written as the pieces of its protocols, and parsing its text
gives it back. What this needs of the formats is that the text of a peer id has no
slash; that it is not the name of a protocol either is used where pieces are read
without parsing.
-/

namespace MeerkatNet.Libp2p

open SlashText

variable {PeerId : Type}

namespace Formats

variable (F : Formats PeerId)

/-- The texts of peer ids have no slash and are not names of protocols. -/
structure PeerTextsApart : Prop where
  slashFree : ∀ peer, SlashFree (F.peerText peer)
  noProtocol : ∀ peer, F.piece (F.peerText peer) = none

/-- A protocol that exists, with a value that is read back from its text. -/
def WellFormed : Protocol PeerId → Prop
  | .p2p _ => True
  | .p2pCircuit => True
  | .other name none => SlashFree name ∧ F.piece name = some (.complete (.other name none))
  | .other name (some v) => SlashFree name ∧ SlashFree v ∧
      ∃ read, F.piece name = some (.wants read) ∧ read v = some (.other name (some v))

/-- The pieces of the text of a protocol, its name first. -/
def pieces : Protocol PeerId → List String
  | .p2p peer => ["p2p", F.peerText peer]
  | .p2pCircuit => ["p2p-circuit"]
  | .other name none => [name]
  | .other name (some v) => [name, v]

theorem protocolText_eq (p : Protocol PeerId) : F.protocolText p = slashed (F.pieces p) := by
  cases p with
  | p2p peer => simp [protocolText, pieces, slashed, ← String.toList_inj]
  | p2pCircuit => rfl
  | other name value =>
    cases value <;> simp [protocolText, pieces, slashed, String.append_assoc]

theorem display_eq (m : Multiaddr PeerId) : F.display m = slashed (m.flatMap F.pieces) := by
  induction m with
  | nil => rfl
  | cons p m ih =>
    rw [List.flatMap_cons, slashed_append, ← ih, ← protocolText_eq]
    rfl

variable {F}

theorem WellFormed.name_ne_p2p {name : String} {value : Option String}
    (h : F.WellFormed (.other name value)) : name ≠ "p2p" := by
  rintro rfl
  cases value with
  | none =>
    have hname := h.2
    simp at hname
  | some v =>
    obtain ⟨-, -, read, hname, hread⟩ := h
    simp only [piece_p2p, Option.some.injEq, Piece.wants.injEq] at hname
    subst hname
    simp at hread

/-- The first piece of a protocol is its name. -/
theorem WellFormed.pieces_eq_cons {p : Protocol PeerId} (h : F.WellFormed p) :
    ∃ name parts, F.pieces p = name :: parts ∧ F.piece name ≠ none := by
  cases p with
  | p2p peer => exact ⟨_, _, rfl, by simp⟩
  | p2pCircuit => exact ⟨_, _, rfl, by simp⟩
  | other name value =>
    cases value with
    | none => exact ⟨_, _, rfl, by simp [h.2]⟩
    | some v =>
      obtain ⟨-, -, read, hname, -⟩ := h
      exact ⟨_, _, rfl, by simp [hname]⟩

theorem slashFree_pieces (hF : F.PeerTextsApart) {m : Multiaddr PeerId}
    (hm : ∀ p ∈ m, F.WellFormed p) : ∀ part ∈ m.flatMap F.pieces, SlashFree part := by
  intro part hpart
  obtain ⟨p, hp, hpart⟩ := List.mem_flatMap.mp hpart
  have hwell := hm p hp
  cases p with
  | p2p peer =>
    rcases List.mem_cons.mp hpart with rfl | hpart
    · decide
    · rw [List.mem_singleton.mp hpart]
      exact hF.slashFree peer
  | p2pCircuit =>
    rw [List.mem_singleton.mp hpart]
    decide
  | other name value =>
    cases value with
    | none =>
      rw [List.mem_singleton.mp hpart]
      exact hwell.1
    | some v =>
      rcases List.mem_cons.mp hpart with rfl | hpart
      · exact hwell.1
      · rw [List.mem_singleton.mp hpart]
        exact hwell.2.1

/-- The text of a well-formed address splits into the pieces of its protocols. -/
theorem components_display (hF : F.PeerTextsApart) {m : Multiaddr PeerId}
    (hm : ∀ p ∈ m, F.WellFormed p) : components (F.display m) = "" :: m.flatMap F.pieces := by
  rw [display_eq, components_slashed (slashFree_pieces hF hm)]

theorem fromStrParts_pieces {m : Multiaddr PeerId} (hm : ∀ p ∈ m, F.WellFormed p) :
    F.fromStrParts none (m.flatMap F.pieces) = .ok m := by
  induction m with
  | nil => rfl
  | cons p m ih =>
    rw [List.forall_mem_cons] at hm
    have hrest := ih hm.2
    have hwell := hm.1
    cases p with
    | p2p peer =>
      simp [pieces, fromStrParts, F.peerFromText_peerText, hrest, Except.map]
    | p2pCircuit => simp [pieces, fromStrParts, hrest, Except.map]
    | other name value =>
      cases value with
      | none => simp [pieces, fromStrParts, hwell.2, hrest, Except.map]
      | some v =>
        obtain ⟨-, -, read, hname, hread⟩ := hwell
        simp [pieces, fromStrParts, hname, hread, hrest, Except.map]

/-- Parsing the text of a well-formed address gives it back. -/
theorem parse_display (hF : F.PeerTextsApart) {m : Multiaddr PeerId}
    (hm : ∀ p ∈ m, F.WellFormed p) : F.parse (F.display m) = .ok m := by
  rw [parse, components_display hF hm]
  exact fromStrParts_pieces hm

/-- The names that `plain` knows. -/
def plainNames : List String :=
  ["", "p2p", "ipfs", "p2p-circuit", "ip4", "ip6", "dns4", "tcp", "udp", "ws", "quic-v1"]

abbrev SeparatePeer := {text : String // SlashFree text ∧ text ∉ plainNames}

/-- `plain` with peer ids that read like no other piece. -/
def separate : Formats SeparatePeer where
  peerFromText text := if h : SlashFree text ∧ text ∉ plainNames then some ⟨text, h⟩ else none
  peerText peer := peer.val
  argument := plain.argument
  errorText := plain.errorText
  argument_empty := rfl
  peerFromText_peerText peer := dif_pos peer.property

theorem separate_peerTextsApart : separate.PeerTextsApart where
  slashFree peer := peer.property.1
  noProtocol peer := by
    have h := peer.property.2
    simp only [plainNames, List.mem_cons, List.not_mem_nil, or_false, not_or] at h
    simp [piece, separate, plain, h]

end Formats
end MeerkatNet.Libp2p
