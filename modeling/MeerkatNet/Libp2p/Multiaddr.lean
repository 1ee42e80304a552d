import MeerkatNet.Foundations.SlashText

/-!
# Multiaddresses

An address is its list of protocols. Its text form is split at slashes, the first
piece is empty, and each protocol name is followed by at most one value piece.
Which other names exist and how their values are written belongs to libp2p and is
a parameter; no protocol has an empty name.
-/

namespace MeerkatNet.Libp2p

open SlashText

inductive Protocol (PeerId : Type) where
  | p2p (peer : PeerId)
  | p2pCircuit
  | other (name : String) (value : Option String)
  deriving DecidableEq, Repr

abbrev Multiaddr (PeerId : Type) := List (Protocol PeerId)

inductive MultiaddrError where
  | invalidMultiaddr
  | invalidProtocolString
  | unknownProtocolString (name : String)
  | invalidValue (text : String)
  deriving DecidableEq, Repr

/-- How the text of a protocol goes on after its name. -/
inductive Argument where
  | absent
  | value (read : String → Option String)

/-- The text formats of libp2p: peer ids and the remaining protocols. -/
structure Formats (PeerId : Type) where
  peerFromText : String → Option PeerId
  peerText : PeerId → String
  argument : String → Option Argument
  errorText : MultiaddrError → String
  argument_empty : argument "" = none
  peerFromText_peerText : ∀ p, peerFromText (peerText p) = some p

variable {PeerId : Type}

/-- A protocol that is complete, or the reader of its value. -/
inductive Piece (PeerId : Type) where
  | complete (protocol : Protocol PeerId)
  | wants (read : String → Option (Protocol PeerId))

namespace Formats

variable (F : Formats PeerId)

theorem peerText_injective : Function.Injective F.peerText := by
  intro p q h
  have hp := F.peerFromText_peerText p
  rw [h, F.peerFromText_peerText q] at hp
  exact (Option.some.inj hp).symm

/-- The protocol name at the head of the remaining pieces. A peer id is also read
under the older name `ipfs`, which is never written. -/
def piece (name : String) : Option (Piece PeerId) :=
  if name = "p2p" ∨ name = "ipfs" then some (.wants fun text => (F.peerFromText text).map .p2p)
  else if name = "p2p-circuit" then some (.complete .p2pCircuit)
  else match F.argument name with
    | none => none
    | some .absent => some (.complete (.other name none))
    | some (.value read) => some (.wants fun text => (read text).map fun v => .other name (some v))

/-- `Protocol::from_str_parts`, repeated until the pieces are used up. The first
argument is the reader of a value that is still missing. -/
def fromStrParts : Option (String → Option (Protocol PeerId)) → List String →
    Except MultiaddrError (Multiaddr PeerId)
  | none, [] => .ok []
  | some _, [] => .error .invalidProtocolString
  | none, name :: rest =>
    match F.piece name with
    | none => .error (.unknownProtocolString name)
    | some (.complete p) => (fromStrParts none rest).map (p :: ·)
    | some (.wants read) => fromStrParts (some read) rest
  | some read, text :: rest =>
    match read text with
    | none => .error (.invalidValue text)
    | some p => (fromStrParts none rest).map (p :: ·)

/-- `Multiaddr::from_str`. -/
def parse (s : String) : Except MultiaddrError (Multiaddr PeerId) :=
  match components s with
  | "" :: parts => F.fromStrParts none parts
  | _ => .error .invalidMultiaddr

/-- `Protocol::fmt`. -/
def protocolText : Protocol PeerId → String
  | .p2p peer => "/p2p/" ++ F.peerText peer
  | .p2pCircuit => "/p2p-circuit"
  | .other name none => "/" ++ name
  | .other name (some v) => "/" ++ name ++ "/" ++ v

/-- `Multiaddr::to_string`. -/
def display (addr : Multiaddr PeerId) : String :=
  addr.foldr (fun p text => F.protocolText p ++ text) ""

@[simp] theorem piece_empty : F.piece "" = none := by
  simp [piece, F.argument_empty]

@[simp] theorem piece_p2p :
    F.piece "p2p" = some (.wants fun text => (F.peerFromText text).map .p2p) := rfl

@[simp] theorem piece_circuit : F.piece "p2p-circuit" = some (.complete .p2pCircuit) := rfl

/-- Pieces that parse completely are read the same way in front of any others. -/
theorem fromStrParts_append {reader : Option (String → Option (Protocol PeerId))}
    {xs : List String} {m : Multiaddr PeerId} (h : F.fromStrParts reader xs = .ok m)
    (ys : List String) :
    F.fromStrParts reader (xs ++ ys) = (F.fromStrParts none ys).map (m ++ ·) := by
  induction xs generalizing reader m with
  | nil =>
    cases reader with
    | none =>
      cases h
      cases hys : F.fromStrParts none ys <;> simp [hys, Except.map]
    | some read => simp [fromStrParts] at h
  | cons x xs ih =>
    have step : ∀ p : Protocol PeerId, (F.fromStrParts none xs).map (p :: ·) = .ok m →
        (F.fromStrParts none (xs ++ ys)).map (p :: ·) =
          (F.fromStrParts none ys).map (m ++ ·) := by
      intro p hp
      cases hxs : F.fromStrParts none xs with
      | error e => simp [hxs, Except.map] at hp
      | ok tail =>
        simp only [hxs, Except.map, Except.ok.injEq] at hp
        subst m
        rw [ih hxs]
        cases F.fromStrParts none ys <;> simp [Except.map]
    cases reader with
    | none =>
      simp only [List.cons_append, fromStrParts] at h ⊢
      split at h
      · simp at h
      · exact step _ h
      · exact ih h
    | some read =>
      simp only [List.cons_append, fromStrParts] at h ⊢
      split at h
      · simp at h
      · exact step _ h

/-- Appending `/t` to the text of an address appends the protocols of the pieces of `t`. -/
theorem parse_slash {s : String} {m : Multiaddr PeerId} (h : F.parse s = .ok m) (t : String) :
    F.parse (s ++ "/" ++ t) = (F.fromStrParts none (components t)).map (m ++ ·) := by
  unfold parse at h ⊢
  rw [components_slash]
  split at h
  · rename_i parts hs
    rw [hs]
    exact F.fromStrParts_append h _
  · simp at h

/-- A nonempty value is its own text. -/
def plainValue : Argument := .value fun text => if text = "" then none else some text

/-- Formats with peer ids that are their own text, for runs on concrete addresses. -/
def plain : Formats String where
  peerFromText := some
  peerText := id
  argument name :=
    if name ∈ ["ip4", "ip6", "dns4", "tcp", "udp"] then some plainValue
    else if name ∈ ["ws", "quic-v1"] then some .absent
    else none
  errorText _ := "invalid multiaddr"
  argument_empty := rfl
  peerFromText_peerText _ := rfl

end Formats
end MeerkatNet.Libp2p
