import MeerkatNet.Libp2p.Multiaddr

/-!
# The types of the first crate

`types.rs` and `interface.rs` of `meerkat-net`, the commands of its event loop, and
what the loop reads of a swarm event. A oneshot sender is identified by a number.
-/

namespace MeerkatNet.V1

open Libp2p

structure MessageId where
  val : UInt64
  deriving DecidableEq, Repr

/-- How to reach a peer from the public internet. -/
structure GlobalAddress where
  text : String
  deriving DecidableEq, Repr

inductive MeerkatMessage where
  | ping (content : String)
  | pong (content : String)
  | announce (peerAddr : GlobalAddress)
  deriving DecidableEq, Repr

inductive SendError where
  | unreachableAddress (addr : GlobalAddress)
  | connectionLost (text : String)
  | protocolError (text : String)
  deriving DecidableEq, Repr

inductive NetworkError where
  | invalidAddress (text : String)
  | bindFailed (text : String)
  | alreadyListening
  deriving DecidableEq, Repr

/-- Which of the optional callbacks are provided; `on_message` and `on_send_error` always
are. -/
structure NetworkCallbacks where
  onPeerConnected : Bool
  onPeerDisconnected : Bool
  deriving DecidableEq, Repr

/-- The identity of a oneshot response channel. -/
abbrev ResponseTx := ℕ

inductive NetworkCommand where
  | send (id : MessageId) (addr : GlobalAddress) (msg : MeerkatMessage)
  | listen (addr : GlobalAddress) (responseTx : ResponseTx)
  deriving DecidableEq, Repr

/-- `libp2p::swarm::SwarmEvent<()>`, with the fields that the loop reads. -/
inductive SwarmEvent (PeerId : Type) where
  | newListenAddr (address : Multiaddr PeerId)
  | connectionEstablished (peer : PeerId)
  | connectionClosed (peer : PeerId)
  | other
  deriving DecidableEq, Repr

end MeerkatNet.V1
