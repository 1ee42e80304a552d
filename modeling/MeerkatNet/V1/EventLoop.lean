import MeerkatNet.Foundations.KeyedQueues
import MeerkatNet.Foundations.Machine
import MeerkatNet.V1.Protocol

/-!
# The event loop of the first crate

One iteration of `LibP2PNetwork::event_loop` as a function of the loop's variables, the
branch that fired and the answers of libp2p. Failures go to a callback instead of an
event channel, the peer of an address is the first one that it names, and an outgoing
stream is closed only after a successful write.
-/

namespace MeerkatNet.V1

open Libp2p KeyedQueues Runs
open V2 (Answers ConnectionId ListenerId StreamAnswer)

variable {PeerId : Type}

/-- One call of `send_to_peer`, with what the opened stream took of the frame. -/
structure HandOff (PeerId : Type) where
  peer : PeerId
  msgId : MessageId
  msg : MeerkatMessage
  written : Option (List UInt8)
  deriving DecidableEq

inductive Effect (PeerId : Type) where
  | sendError (msgId : MessageId) (error : SendError)
  | peerConnected (peer : String)
  | peerDisconnected (peer : String)
  | handOff (h : HandOff PeerId)
  | close (peer : PeerId)
  | dial (peer : PeerId) (addr : Multiaddr PeerId) (answer : Except String ConnectionId)
  | listenOn (owner : ResponseTx) (addr : Multiaddr PeerId) (answer : Except String ListenerId)
  | reply (responseTx : ResponseTx) (answer : Except NetworkError GlobalAddress)
  | drop (responseTx : ResponseTx)

/-- The variables of the loop, and the address list it shares with the handle. -/
structure LoopState (PeerId : Type) where
  pendingSends : QueueMap PeerId (MessageId × MeerkatMessage)
  pendingListen : Option ResponseTx
  localAddrs : List GlobalAddress

def LoopState.init : LoopState PeerId := ⟨QueueMap.empty, none, []⟩

/-- The branch of `select!` that fired. -/
inductive Input (PeerId : Type) where
  | command (cmd : NetworkCommand) (answers : Answers)
  | event (ev : SwarmEvent PeerId) (answers : Answers)

/-- The first peer id of an address. -/
def extractPeerId (addr : Multiaddr PeerId) : Option PeerId :=
  addr.findSome? fun
    | .p2p peer => some peer
    | _ => none

def sendToPeer (S : Serde) (answer : StreamAnswer) (peer : PeerId) (msgId : MessageId)
    (msg : MeerkatMessage) : List (Effect PeerId) :=
  match answer with
  | .refused e =>
    [.handOff ⟨peer, msgId, msg, none⟩,
      .sendError msgId (.protocolError ("Stream open failed: " ++ e))]
  | .opened room error flushed =>
    let out := sendMessage S ⟨[], room, error, flushed⟩ msg
    .handOff ⟨peer, msgId, msg, some out.1.accepted⟩ ::
      match out.2 with
      | .ok () => [.close peer]
      | .error e => [.sendError msgId (.protocolError ("Send failed: " ++ e))]

/-- The loop over the removed queue when a connection is established. -/
def flush (S : Serde) (stream : ℕ → StreamAnswer) (peer : PeerId) :
    List (MessageId × MeerkatMessage) → List (Effect PeerId)
  | [] => []
  | (msgId, msg) :: messages =>
    sendToPeer S (stream 0) peer msgId msg ++ flush S (fun n => stream (n + 1)) peer messages

/-- Assigning to a slot drops the sender it held. -/
def dropped (old : Option ResponseTx) : List (Effect PeerId) :=
  (old.map Effect.drop).toList

/-- The call of an optional callback. -/
def callback (provided : Bool) (call : Effect PeerId) : List (Effect PeerId) :=
  if provided then [call] else []

variable (F : Formats PeerId)

def parseGlobalAddress (addr : GlobalAddress) : Except NetworkError (Multiaddr PeerId) :=
  (F.parse addr.text).mapError fun _ => .invalidAddress addr.text

variable [DecidableEq PeerId] (S : Serde) (callbacks : NetworkCallbacks)

def handleSend (answers : Answers) (s : LoopState PeerId) (msgId : MessageId)
    (addr : GlobalAddress) (msg : MeerkatMessage) : LoopState PeerId × List (Effect PeerId) :=
  match parseGlobalAddress F addr with
  | .error _ => (s, [.sendError msgId (.unreachableAddress addr)])
  | .ok multiaddr =>
    match extractPeerId multiaddr with
    | none => (s, [.sendError msgId (.protocolError "No peer ID in address")])
    | some peer =>
      if answers.isConnected then (s, sendToPeer S (answers.stream 0) peer msgId msg)
      else
        let pending := s.pendingSends.push peer (msgId, msg)
        match answers.dial with
        | .ok c => ({ s with pendingSends := pending }, [.dial peer multiaddr (.ok c)])
        | .error e =>
          ({ s with pendingSends := pending.remove peer },
            [.dial peer multiaddr (.error e),
              .sendError msgId (.protocolError ("Dial failed: " ++ e))])

def handleListen (answers : Answers) (s : LoopState PeerId) (addr : GlobalAddress)
    (responseTx : ResponseTx) : LoopState PeerId × List (Effect PeerId) :=
  match parseGlobalAddress F addr with
  | .error e => (s, [.reply responseTx (.error e)])
  | .ok multiaddr =>
    match answers.listenOn with
    | .error e =>
      (s, [.listenOn responseTx multiaddr (.error e), .reply responseTx (.error (.bindFailed e))])
    | .ok l =>
      ({ s with pendingListen := some responseTx },
        .listenOn responseTx multiaddr (.ok l) :: dropped s.pendingListen)

def handleSwarmEvent (answers : Answers) (s : LoopState PeerId) :
    SwarmEvent PeerId → LoopState PeerId × List (Effect PeerId)
  | .newListenAddr address =>
    let addr : GlobalAddress := ⟨F.display address⟩
    let s := { s with localAddrs := s.localAddrs ++ [addr] }
    match s.pendingListen with
    | some responseTx => ({ s with pendingListen := none }, [.reply responseTx (.ok addr)])
    | none => (s, [])
  | .connectionEstablished peer =>
    let announced := callback callbacks.onPeerConnected (.peerConnected (F.peerText peer))
    match s.pendingSends.get peer with
    | some messages =>
      ({ s with pendingSends := s.pendingSends.remove peer },
        announced ++ flush S answers.stream peer messages)
    | none => (s, announced)
  | .connectionClosed peer =>
    (s, callback callbacks.onPeerDisconnected (.peerDisconnected (F.peerText peer)))
  | .other => (s, [])

/-- One iteration of the loop. -/
def eventLoop (s : LoopState PeerId) : Input PeerId → LoopState PeerId × List (Effect PeerId)
  | .command (.send id addr msg) answers => handleSend F S answers s id addr msg
  | .command (.listen addr responseTx) answers => handleListen F answers s addr responseTx
  | .event ev answers => handleSwarmEvent F S callbacks answers s ev

/-! ### Runs of the loop -/

/-- The loop with everything it has done to the outside, in order. -/
structure World (PeerId : Type) where
  loop : LoopState PeerId
  effects : List (Effect PeerId)

def Effect.handOff? : Effect PeerId → Option (HandOff PeerId)
  | .handOff h => some h
  | _ => none

def Effect.failure? : Effect PeerId → Option (MessageId × SendError)
  | .sendError msgId error => some (msgId, error)
  | _ => none

def Effect.answer? : Effect PeerId → Option (ResponseTx × Except NetworkError GlobalAddress)
  | .reply responseTx answer => some (responseTx, answer)
  | _ => none

namespace World

def init : World PeerId := ⟨.init, []⟩

def handOffs (w : World PeerId) : List (HandOff PeerId) := w.effects.filterMap Effect.handOff?

def failures (w : World PeerId) : List (MessageId × SendError) :=
  w.effects.filterMap Effect.failure?

def answers (w : World PeerId) : List (ResponseTx × Except NetworkError GlobalAddress) :=
  w.effects.filterMap Effect.answer?

def next (w : World PeerId) (i : Input PeerId) : World PeerId :=
  let out := eventLoop F S callbacks w.loop i
  ⟨out.1, w.effects ++ out.2⟩

/-- The event loop from the empty state. -/
def machine : Machine (World PeerId) (Input PeerId) := ⟨init, next F S callbacks⟩

end World
end MeerkatNet.V1
