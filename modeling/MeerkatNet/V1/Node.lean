import MeerkatNet.V1.EventLoop
import MeerkatNet.V2.Actor

/-!
# A node of the first crate

`LibP2PNetwork` is a handle: its calls put commands into the channel of the event loop
and wait for nothing but the response to a listen request. The list of addresses is the
loop's, so a listener that nobody asked for shows up in it as well. A waiting call may be
given up. Every task step is one input of the node, and the results of the calls are
recorded.
-/

namespace MeerkatNet.V1

open Libp2p KeyedQueues Runs Framing
open V2 (Answers Reader ReaderState)

variable {PeerId : Type}

/-- The result of a call of the handle. -/
inductive Returned where
  | sent (msgId : MessageId)
  | listened (result : Except NetworkError Unit)
  | addresses (addrs : List GlobalAddress)
  deriving DecidableEq

/-- `LibP2PNetwork` with its tasks. `called` are the calls of `on_message`. -/
structure Node (PeerId : Type) where
  nextMessageId : UInt64
  localPeerId : PeerId
  world : World PeerId
  /-- The event loop has not been stopped. -/
  running : Bool
  commandRx : List NetworkCommand
  /-- The oneshot receiver that a call of `listen` awaits. -/
  waiting : Option ResponseTx
  nextTx : ResponseTx
  returned : List Returned
  readers : List (Reader PeerId)
  called : List (String × MeerkatMessage)

/-- The calls of the handle, the future of `listen` being polled or dropped, the three branches of
`select!`, the progress of the readers, and the end of the event loop. -/
inductive NodeInput (PeerId : Type) where
  | send (addr : GlobalAddress) (msg : MeerkatMessage)
  | listen (addr : GlobalAddress)
  | localAddresses
  | resume
  | cancel
  | take (answers : Answers)
  | event (ev : SwarmEvent PeerId) (answers : Answers)
  | accept (peer : PeerId)
  | arrive (reader : ℕ) (bytes : List UInt8)
  | read (reader : ℕ)
  | fail (reader : ℕ)
  | stop

/-- The first answer that some effects send to a response channel. -/
def answerIn (tx : ResponseTx) (es : List (Effect PeerId)) :
    Option (Except NetworkError GlobalAddress) :=
  es.findSome? fun
    | .reply tx' answer => if tx' = tx then some answer else none
    | _ => none

def dropsIn (tx : ResponseTx) (es : List (Effect PeerId)) : Bool :=
  es.any fun
    | .drop tx' => decide (tx' = tx)
    | _ => false

def World.answer? (w : World PeerId) (tx : ResponseTx) :
    Option (Except NetworkError GlobalAddress) := answerIn tx w.effects

def World.dropsSender (w : World PeerId) (tx : ResponseTx) : Bool := dropsIn tx w.effects

/-- What `recv_message` makes of the bytes that have arrived, once they are a whole frame. -/
def received? (S : Serde) (arrived : List UInt8) : Option (Except String MeerkatMessage) :=
  (readFrame arrived).map fun r => S.fromSlice r.1

namespace Node

/-- `LibP2PNetwork::new`. -/
def init (localPeerId : PeerId) : Node PeerId where
  nextMessageId := 1
  localPeerId := localPeerId
  world := .init
  running := true
  commandRx := []
  waiting := none
  nextTx := 0
  returned := []
  readers := []
  called := []

/-- `LibP2PNetwork::send`; a command for a stopped loop is lost. -/
def send (n : Node PeerId) (addr : GlobalAddress) (msg : MeerkatMessage) : Node PeerId :=
  let id : MessageId := ⟨n.nextMessageId⟩
  { n with
    nextMessageId := n.nextMessageId + 1
    commandRx := if n.running then n.commandRx ++ [.send id addr msg] else n.commandRx
    returned := n.returned ++ [.sent id] }

/-- `LibP2PNetwork::listen`, up to the await. -/
def listen (n : Node PeerId) (addr : GlobalAddress) : Node PeerId :=
  if n.running then
    { n with
      commandRx := n.commandRx ++ [.listen addr n.nextTx]
      waiting := some n.nextTx
      nextTx := n.nextTx + 1 }
  else
    { n with
      nextTx := n.nextTx + 1
      returned := n.returned ++ [.listened (.error (.bindFailed "Channel closed"))] }

def localAddresses (n : Node PeerId) : Node PeerId :=
  { n with returned := n.returned ++ [.addresses n.world.loop.localAddrs] }

/-- The rest of `LibP2PNetwork::listen`, once its channel is answered or closed. -/
def resume (n : Node PeerId) : Node PeerId :=
  match n.waiting with
  | none => n
  | some tx =>
    match n.world.answer? tx with
    | some answer =>
      { n with
        waiting := none
        returned := n.returned ++ [.listened (answer.map fun _ => ())] }
    | none =>
      if n.world.dropsSender tx || !n.running then
        { n with
          waiting := none
          returned := n.returned ++
            [.listened (.error (.bindFailed "Response channel closed"))] }
      else n

def setReader (n : Node PeerId) (k : ℕ) (r : Reader PeerId) : Node PeerId :=
  { n with readers := n.readers.set k r }

variable [DecidableEq PeerId] (F : Formats PeerId) (S : Serde) (callbacks : NetworkCallbacks)

/-- One iteration of the event loop. -/
def iterate (n : Node PeerId) (i : Input PeerId) : Node PeerId :=
  { n with world := n.world.next F S callbacks i }

/-- `handle_incoming_stream` on what has arrived; it goes on waiting if that is not a whole
frame. -/
def handleIncomingStream (n : Node PeerId) (k : ℕ) (r : Reader PeerId) : Node PeerId :=
  match received? S r.arrived with
  | none => n
  | some (.error _) => n.setReader k { r with state := .finished }
  | some (.ok msg) =>
    { n.setReader k { r with state := .finished } with
      called := n.called ++ [(F.peerText r.peer, msg)] }

/-- A step of a reader that has not ended. -/
def withReader (n : Node PeerId) (k : ℕ) (f : Reader PeerId → Node PeerId) : Node PeerId :=
  match n.readers[k]? with
  | none => n
  | some r => if r.state = .reading then f r else n

/-- A call takes the handle by `&mut`, so there is none while another one awaits its response. -/
def withHandle (n : Node PeerId) (f : Node PeerId → Node PeerId) : Node PeerId :=
  if n.waiting = none then f n else n

def next (n : Node PeerId) : NodeInput PeerId → Node PeerId
  | .send addr msg => n.withHandle fun n => n.send addr msg
  | .listen addr => n.withHandle fun n => n.listen addr
  | .localAddresses => n.withHandle localAddresses
  | .resume => n.resume
  | .cancel => { n with waiting := none }
  | .take answers =>
    match n.commandRx with
    | [] => n
    | cmd :: rest =>
      if n.running then { n.iterate F S callbacks (.command cmd answers) with commandRx := rest }
      else n
  | .event ev answers => if n.running then n.iterate F S callbacks (.event ev answers) else n
  | .accept peer =>
    if n.running then { n with readers := n.readers ++ [⟨peer, [], .reading⟩] } else n
  | .arrive k bytes =>
    n.withReader k fun r => n.setReader k { r with arrived := r.arrived ++ bytes }
  | .read k => n.withReader k (n.handleIncomingStream F S k)
  | .fail k => n.withReader k fun r => n.setReader k { r with state := .broken }
  | .stop => { n with running := false, commandRx := [] }

/-- A node from its creation. -/
def machine (localPeerId : PeerId) : Machine (Node PeerId) (NodeInput PeerId) :=
  ⟨init localPeerId, next F S callbacks⟩

@[simp] theorem machine_init (localPeerId : PeerId) :
    (machine F S callbacks localPeerId).init = init localPeerId := rfl

@[simp] theorem machine_next (localPeerId : PeerId) (n : Node PeerId) (i : NodeInput PeerId) :
    (machine F S callbacks localPeerId).next n i = n.next F S callbacks i := rfl

end Node
end MeerkatNet.V1
