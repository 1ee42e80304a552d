import MeerkatNet.Foundations.KeyedQueues
import MeerkatNet.V2.Protocol
import MeerkatNet.V2.Translation

/-!
# The event loop

One iteration of `NetworkActor::event_loop` as a function of the loop's variables,
the branch that fired and the answers of the calls it makes into libp2p. It returns
the new variables and everything it did to the outside, in order: events sent,
messages handed to `send_to_peer`, dials, listens and replies. The calls of an
iteration return here; what follows when one does not is the subject of `V2.Stalls`.
-/

namespace MeerkatNet.V2

open Libp2p SlashText KeyedQueues

variable {PeerId : Type}

/-- One call of `send_to_peer`, with what the opened stream took of the frame. -/
structure HandOff (PeerId : Type) where
  peer : PeerId
  msgId : MessageId
  msg : MeerkatMessage
  written : Option (List UInt8)
  deriving DecidableEq

/-- The call site of a dial: a send to a peer, or a relay request. -/
inductive Dialler (PeerId : Type) where
  | send (peer : PeerId)
  | relay (replyTx : ReplyTx)
  deriving DecidableEq

inductive Effect (PeerId : Type) where
  | event (e : NetworkEvent)
  | handOff (h : HandOff PeerId)
  | dial (who : Dialler PeerId) (addr : Multiaddr PeerId) (answer : Except String ConnectionId)
  | listenOn (owner : ReplyTx) (addr : Multiaddr PeerId) (answer : Except String ListenerId)
  | reply (replyTx : ReplyTx) (answer : Except String Address)
  | drop (replyTx : ReplyTx)
  | addExternalAddress (addr : Multiaddr PeerId)

/-- What `open_stream` answers: an error, or a fresh stream. -/
inductive StreamAnswer where
  | refused (error : String)
  | opened (room : Option ℕ) (error : String) (flushed : Except String Unit)

/-- The answers of libp2p during one iteration. An iteration asks for at most one dial,
one listen and one connection test; `stream n` belongs to its `n`-th hand-off. -/
structure Answers where
  isConnected : Bool
  dial : Except String ConnectionId
  listenOn : Except String ListenerId
  stream : ℕ → StreamAnswer

/-- Every call fails. -/
def Answers.refused : Answers := ⟨false, .error "refused", .error "refused", fun _ => .refused ""⟩

/-- The variables of the loop. -/
structure LoopState (PeerId : Type) where
  pendingSends : QueueMap PeerId (MessageId × MeerkatMessage)
  pendingListen : Option ReplyTx
  pendingRelay : Option (Address × ReplyTx)

def LoopState.init : LoopState PeerId := ⟨QueueMap.empty, none, none⟩

/-- The branch of `select!` that fired. -/
inductive Input (PeerId : Type) where
  | command (cmd : SwarmCommand) (answers : Answers)
  | event (ev : SwarmEvent PeerId) (answers : Answers)

def sendToPeer (S : Serde) (answer : StreamAnswer) (peer : PeerId) (msgId : MessageId)
    (msg : MeerkatMessage) : List (Effect PeerId) :=
  match answer with
  | .refused e =>
    [.handOff ⟨peer, msgId, msg, none⟩,
      .event (.sendFailed msgId (.protocolError ("Stream open: " ++ e)))]
  | .opened room error flushed =>
    let out := sendMessage S ⟨[], room, error, flushed⟩ msg
    .handOff ⟨peer, msgId, msg, some out.1.accepted⟩ ::
      match out.2 with
      | .ok () => []
      | .error e => [.event (.sendFailed msgId (.protocolError ("Send failed: " ++ e)))]

/-- The loop over the removed queue when a connection is established. -/
def flush (S : Serde) (stream : ℕ → StreamAnswer) (peer : PeerId) :
    List (MessageId × MeerkatMessage) → List (Effect PeerId)
  | [] => []
  | (msgId, msg) :: messages =>
    sendToPeer S (stream 0) peer msgId msg ++ flush S (fun n => stream (n + 1)) peer messages

/-- What holds of all effects of a `send_to_peer` holds of all effects of a flush. -/
theorem forall_mem_flush {S : Serde} {peer : PeerId} {P : Effect PeerId → Prop}
    (hsend : ∀ answer id msg, ∀ e ∈ sendToPeer S answer peer id msg, P e)
    (stream : ℕ → StreamAnswer) (messages : List (MessageId × MeerkatMessage)) :
    ∀ e ∈ flush S stream peer messages, P e := by
  induction messages generalizing stream with
  | nil => simp [flush]
  | cons m messages ih =>
    intro e he
    rcases List.mem_append.mp he with he | he
    · exact hsend _ _ _ e he
    · exact ih _ e he

variable [DecidableEq PeerId]
variable (F : Formats PeerId) (S : Serde)

def doSend (answers : Answers) (s : LoopState PeerId) (msgId : MessageId) (addr : Address)
    (msg : MeerkatMessage) : LoopState PeerId × List (Effect PeerId) :=
  match F.parse addr.text with
  | .error _ => (s, [.event (.sendFailed msgId (.unreachableAddress addr))])
  | .ok multiaddr =>
    match extractPeerId multiaddr with
    | none => (s, [.event (.sendFailed msgId (.protocolError "No peer ID in address"))])
    | some peer =>
      if answers.isConnected then (s, sendToPeer S (answers.stream 0) peer msgId msg)
      else
        let pending := s.pendingSends.push peer (msgId, msg)
        match answers.dial with
        | .ok c => ({ s with pendingSends := pending }, [.dial (.send peer) multiaddr (.ok c)])
        | .error e =>
          -- the whole queue of the peer goes, but only this message is reported
          ({ s with pendingSends := pending.remove peer },
            [.dial (.send peer) multiaddr (.error e),
              .event (.sendFailed msgId (.protocolError ("Dial failed: " ++ e)))])

/-- Assigning to a slot drops the sender it held. -/
def dropped (old : Option ReplyTx) : List (Effect PeerId) :=
  (old.map Effect.drop).toList

def doListen (answers : Answers) (s : LoopState PeerId) (addr : Address) (replyTx : ReplyTx) :
    LoopState PeerId × List (Effect PeerId) :=
  match F.parse addr.text with
  | .error e => (s, [.reply replyTx (.error ("Invalid address: " ++ F.errorText e))])
  | .ok multiaddr =>
    match answers.listenOn with
    | .error e => (s, [.listenOn replyTx multiaddr (.error e), .reply replyTx (.error e)])
    | .ok l =>
      ({ s with pendingListen := some replyTx },
        .listenOn replyTx multiaddr (.ok l) :: dropped s.pendingListen)

def doListenViaRelay (answers : Answers) (s : LoopState PeerId) (relayAddr : Address)
    (replyTx : ReplyTx) : LoopState PeerId × List (Effect PeerId) :=
  match F.parse relayAddr.text with
  | .error e => (s, [.reply replyTx (.error ("Invalid relay address: " ++ F.errorText e))])
  | .ok multiaddr =>
    match answers.dial with
    | .error e =>
      (s, [.dial (.relay replyTx) multiaddr (.error e),
        .reply replyTx (.error ("Failed to dial relay: " ++ e))])
    | .ok c =>
      ({ s with pendingRelay := some (relayAddr, replyTx) },
        .dial (.relay replyTx) multiaddr (.ok c) :: dropped (s.pendingRelay.map Prod.snd))

/-- The circuit listen of a waiting relay request, once its relay is connected; the
answer of `listen_on` is discarded. -/
def relayListen (answers : Answers) (s : LoopState PeerId) (peer : PeerId) :
    List (Effect PeerId) :=
  match s.pendingRelay with
  | none => []
  | some (relayAddr, replyTx) =>
    match F.parse relayAddr.text with
    | .error _ => []
    | .ok multiaddr =>
      if extractPeerId multiaddr = some peer then
        [.listenOn replyTx (multiaddr ++ [.p2pCircuit]) answers.listenOn]
      else []

def handleSwarmEvent (answers : Answers) (s : LoopState PeerId) :
    SwarmEvent PeerId → LoopState PeerId × List (Effect PeerId)
  | .newListenAddr _ address =>
    let addr : Address := ⟨F.display address⟩
    match if contains addr.text "/p2p-circuit" then s.pendingRelay else none with
    | some (_, replyTx) => ({ s with pendingRelay := none }, [.reply replyTx (.ok addr)])
    | none =>
      match s.pendingListen with
      | some replyTx => ({ s with pendingListen := none }, [.reply replyTx (.ok addr)])
      | none => (s, [])
  | .connectionEstablished peer _ =>
    let announced := .event (.peerConnected (F.peerText peer)) :: relayListen F answers s peer
    match s.pendingSends.get peer with
    | some messages =>
      ({ s with pendingSends := s.pendingSends.remove peer },
        announced ++ flush S answers.stream peer messages)
    | none => (s, announced)
  | .connectionClosed peer _ => (s, [.event (.peerDisconnected (F.peerText peer))])
  | .identifyReceived observedAddr => (s, [.addExternalAddress observedAddr])
  | _ => (s, [])

/-- One iteration of the loop. -/
def eventLoop (s : LoopState PeerId) : Input PeerId → LoopState PeerId × List (Effect PeerId)
  | .command (.send id addr msg) answers => doSend F S answers s id addr msg
  | .command (.listen addr replyTx) answers => doListen F answers s addr replyTx
  | .command (.listenViaRelay relayAddr replyTx) answers =>
    doListenViaRelay F answers s relayAddr replyTx
  | .event ev answers => handleSwarmEvent F S answers s ev

end MeerkatNet.V2
