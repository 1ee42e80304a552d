import MeerkatNet.V2.World

/-!
# The actor and its tasks

A node is the actor, the event loop, the tasks that read incoming streams and the
channels between them. Every task step is one input of the node, so all schedules
are runs. The actor handles one command at a time and awaits the reply to a listen
request before the next one. Who posted an event, and which sends were issued, is
recorded for the statements.
-/

namespace MeerkatNet.V2

open Libp2p SlashText KeyedQueues Runs

variable {PeerId : Type}

/-- The fields of `NetworkActor` other than its channel ends. -/
structure NetworkActor (PeerId : Type) where
  nextMessageId : UInt64
  localPeerId : PeerId
  localAddrs : List Address
  nodeType : NodeType

inductive ReaderState where
  | reading
  | finished
  | broken
  deriving DecidableEq, Repr

/-- A spawned `handle_incoming`, with the bytes that have arrived on its stream. -/
structure Reader (PeerId : Type) where
  peer : PeerId
  arrived : List UInt8
  state : ReaderState

/-- An event in the channel to the application, with the reader that posted it. -/
structure Posted where
  reader : Option ℕ
  event : NetworkEvent
  deriving DecidableEq, Repr

/-- A `SendMessage` command with the id that it was given. -/
structure Issued where
  msgId : MessageId
  addr : Address
  msg : MeerkatMessage
  deriving DecidableEq, Repr

structure Node (PeerId : Type) where
  actor : NetworkActor PeerId
  world : World PeerId
  /-- The event loop has not been stopped. -/
  running : Bool
  commandRx : List SwarmCommand
  /-- The oneshot receiver that the actor awaits. -/
  waiting : Option ReplyTx
  nextTx : ReplyTx
  replies : List (Option ReplyTx × NetworkReply)
  issued : List Issued
  readers : List (Reader PeerId)
  posted : List Posted
  received : ℕ

/-- The steps of a node: a command to the actor, the three branches of `select!`, the
progress of the readers, the return of the awaited reply, a `try_recv_event`, and the end
of the event loop. -/
inductive NodeInput (PeerId : Type) where
  | command (cmd : NetworkCommand)
  | take (answers : Answers)
  | event (ev : SwarmEvent PeerId) (answers : Answers)
  | accept (peer : PeerId)
  | arrive (reader : ℕ) (bytes : List UInt8)
  | read (reader : ℕ)
  | fail (reader : ℕ)
  | resume
  | tryRecv
  | stop

/-- The answer that was sent to a reply channel. -/
def World.answer? (w : World PeerId) (tx : ReplyTx) : Option (Except String Address) :=
  w.effects.findSome? fun
    | .reply tx' answer => if tx' = tx then some answer else none
    | _ => none

def World.dropsSender (w : World PeerId) (tx : ReplyTx) : Bool :=
  w.effects.any fun
    | .drop tx' => decide (tx' = tx)
    | _ => false

namespace Node

/-- `NetworkActor::new`. -/
def init (localPeerId : PeerId) (nodeType : NodeType) : Node PeerId where
  actor := ⟨1, localPeerId, [], nodeType⟩
  world := .init
  running := true
  commandRx := []
  waiting := none
  nextTx := 0
  replies := []
  issued := []
  readers := []
  posted := []
  received := 0

/-- `command_tx.send`, whose result is ignored. -/
def send (n : Node PeerId) (cmd : SwarmCommand) : Node PeerId :=
  if n.running then { n with commandRx := n.commandRx ++ [cmd] } else n

def reply (n : Node PeerId) (request : Option ReplyTx) (answer : NetworkReply) : Node PeerId :=
  { n with replies := n.replies ++ [(request, answer)] }

/-- Create a oneshot channel, send the command with its sender and await its receiver. -/
def request (n : Node PeerId) (cmd : ReplyTx → SwarmCommand) : Node PeerId :=
  { n.send (cmd n.nextTx) with waiting := some n.nextTx, nextTx := n.nextTx + 1 }

def sendMessage (n : Node PeerId) (addr : Address) (msg : MeerkatMessage) : Node PeerId :=
  let msgId : MessageId := ⟨n.actor.nextMessageId⟩
  let n : Node PeerId := { n with
    actor := { n.actor with nextMessageId := n.actor.nextMessageId + 1 }
    issued := n.issued ++ [⟨msgId, addr, msg⟩] }
  match translateAddress n.actor.nodeType addr with
  | .error e => n.reply none (.failure e)
  | .ok localAddr => (n.send (.send msgId localAddr msg)).reply none (.messageSent msgId)

/-- `NetworkActor::handle_command`, up to the await of a listen request. -/
def handleCommand (n : Node PeerId) : NetworkCommand → Node PeerId
  | .sendMessage addr msg => n.sendMessage addr msg
  | .listen addr => n.request (.listen addr)
  | .getLocalAddresses => n.reply none (.localAddresses n.actor.localAddrs)
  | .listenViaRelay relayAddr => n.request (.listenViaRelay relayAddr)

/-- The rest of `NetworkActor::handle_command`, once the awaited channel is answered or
closed. -/
def resume (n : Node PeerId) : Node PeerId :=
  match n.waiting with
  | none => n
  | some tx =>
    match n.world.answer? tx with
    | some (.ok addr) =>
      { n with
        actor := { n.actor with localAddrs := n.actor.localAddrs ++ [addr] }
        waiting := none
        replies := n.replies ++ [(some tx, .listenSuccess addr)] }
    | some (.error e) =>
      { n with waiting := none, replies := n.replies ++ [(some tx, .failure e)] }
    | none =>
      if n.world.dropsSender tx || !n.running then
        { n with
          waiting := none
          replies := n.replies ++ [(some tx, .failure "Event loop dropped")] }
      else n

def setReader (n : Node PeerId) (k : ℕ) (r : Reader PeerId) : Node PeerId :=
  { n with readers := n.readers.set k r }

variable [DecidableEq PeerId] (F : Formats PeerId) (S : Serde)

/-- One iteration of the event loop. -/
def iterate (n : Node PeerId) (i : Input PeerId) : Node PeerId :=
  { n with
    world := n.world.next F S i
    posted := n.posted ++
      ((eventLoop F S n.world.loop i).2.filterMap Effect.event?).map (⟨none, ·⟩) }

def accept (n : Node PeerId) (peer : PeerId) : Node PeerId :=
  if n.running then { n with readers := n.readers ++ [⟨peer, [], .reading⟩] } else n

/-- `handle_incoming` on what has arrived; it goes on waiting if that is not a whole frame. -/
def handleIncoming (n : Node PeerId) (k : ℕ) (r : Reader PeerId) : Node PeerId :=
  match recvMessage S r.arrived with
  | none => n
  | some (.error _, _) => n.setReader k { r with state := .finished }
  | some (.ok msg, _) =>
    { n.setReader k { r with state := .finished } with
      posted := n.posted ++ [⟨some k, .messageReceived (F.peerText r.peer) msg⟩] }

/-- A step of a reader that has not ended. -/
def withReader (n : Node PeerId) (k : ℕ) (f : Reader PeerId → Node PeerId) : Node PeerId :=
  match n.readers[k]? with
  | none => n
  | some r => if r.state = .reading then f r else n

/-- The iteration of the event loop that an input of the node stands for. -/
def iteration? (n : Node PeerId) : NodeInput PeerId → Option (Input PeerId)
  | .take answers =>
    if n.running then n.commandRx.head?.map fun cmd => .command cmd answers else none
  | .event ev answers => if n.running then some (.event ev answers) else none
  | _ => none

def next (n : Node PeerId) : NodeInput PeerId → Node PeerId
  | .command cmd => if n.waiting = none then n.handleCommand cmd else n
  | .take answers =>
    match n.iteration? (.take answers) with
    | none => n
    | some i => { n.iterate F S i with commandRx := n.commandRx.tail }
  | .event ev answers =>
    match n.iteration? (.event ev answers) with
    | none => n
    | some i => n.iterate F S i
  | .accept peer => n.accept peer
  | .arrive k bytes =>
    n.withReader k fun r => n.setReader k { r with arrived := r.arrived ++ bytes }
  | .read k => n.withReader k (n.handleIncoming F S k)
  | .fail k => n.withReader k fun r => n.setReader k { r with state := .broken }
  | .resume => n.resume
  | .tryRecv => { n with received := min (n.received + 1) n.posted.length }
  | .stop => { n with running := false, commandRx := [] }

/-- A node from its creation. -/
def machine (localPeerId : PeerId) (nodeType : NodeType) :
    Machine (Node PeerId) (NodeInput PeerId) :=
  ⟨init localPeerId nodeType, next F S⟩

@[simp] theorem machine_init (localPeerId : PeerId) (nodeType : NodeType) :
    (machine F S localPeerId nodeType).init = init localPeerId nodeType := rfl

@[simp] theorem machine_next (localPeerId : PeerId) (nodeType : NodeType) (n : Node PeerId)
    (i : NodeInput PeerId) : (machine F S localPeerId nodeType).next n i = n.next F S i := rfl

end Node
end MeerkatNet.V2
