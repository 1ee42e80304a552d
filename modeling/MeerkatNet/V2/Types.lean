import MeerkatNet.Libp2p.Multiaddr

/-!
# Messages, commands and events

The data types of `types.rs` and `messages.rs`, and the commands that the actor
sends to its event loop. A oneshot sender is identified by a number.
-/

namespace MeerkatNet.V2

open Libp2p

structure MessageId where
  val : UInt64
  deriving DecidableEq, Repr

/-- Canonical internet-routable address. -/
structure Address where
  text : String
  deriving DecidableEq, Repr

inductive MeerkatMessage where
  | ping (content : String)
  | pong (content : String)
  | announce (peerAddr : Address)
  | transaction (txId : UInt64) (payload : List UInt8)
  | propagation (varId : UInt64) (newValue : List UInt8)
  deriving DecidableEq, Repr

inductive SendError where
  | unreachableAddress (addr : Address)
  | connectionLost (text : String)
  | protocolError (text : String)
  deriving DecidableEq, Repr

inductive NodeType where
  | server
  | browserClient (relayServer : Address)
  deriving DecidableEq, Repr

inductive NetworkCommand where
  | sendMessage (addr : Address) (msg : MeerkatMessage)
  | listen (addr : Address)
  | getLocalAddresses
  | listenViaRelay (relayAddr : Address)
  deriving DecidableEq, Repr

inductive NetworkReply where
  | messageSent (msgId : MessageId)
  | listenSuccess (addr : Address)
  | localAddresses (addrs : List Address)
  | failure (text : String)
  deriving DecidableEq, Repr

inductive NetworkEvent where
  | messageReceived (peer : String) (msg : MeerkatMessage)
  | sendFailed (msgId : MessageId) (error : SendError)
  | peerConnected (peer : String)
  | peerDisconnected (peer : String)
  deriving DecidableEq, Repr

/-- The identity of a oneshot reply channel. -/
abbrev ReplyTx := ℕ

inductive SwarmCommand where
  | send (id : MessageId) (addr : Address) (msg : MeerkatMessage)
  | listen (addr : Address) (replyTx : ReplyTx)
  | listenViaRelay (relayAddr : Address) (replyTx : ReplyTx)
  deriving DecidableEq, Repr

abbrev ConnectionId := ℕ

abbrev ListenerId := ℕ

/-- `libp2p::swarm::SwarmEvent`, with the fields that the loop or its environment reads. -/
inductive SwarmEvent (PeerId : Type) where
  | newListenAddr (listener : ListenerId) (address : Multiaddr PeerId)
  | expiredListenAddr (listener : ListenerId) (address : Multiaddr PeerId)
  | listenerClosed (listener : ListenerId)
  | listenerError (listener : ListenerId)
  | connectionEstablished (peer : PeerId) (connection : ConnectionId)
  | connectionClosed (peer : PeerId) (connection : ConnectionId)
  | outgoingConnectionError (connection : ConnectionId) (peer : Option PeerId)
  | relayClient
  | relay
  | identifyReceived (observedAddr : Multiaddr PeerId)
  | identifyOther
  | other
  deriving DecidableEq, Repr

end MeerkatNet.V2
