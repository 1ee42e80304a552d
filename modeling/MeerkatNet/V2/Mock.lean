import MeerkatNet.Foundations.HexText
import MeerkatNet.Foundations.Machine
import MeerkatNet.V2.Types

/-!
# The mock network

Mock nodes on one registry. A node is known by its place in the order of creation,
and a registry entry names the node whose event channel it sends to. Commands, polls,
creations and drops are the steps of the whole, and each handled command is recorded
with its reply.
-/

namespace MeerkatNet.V2

open SlashText HexText Runs

/-- The loop of `extract_peer_id_from_addr` over the pieces of the address. -/
def firstAfterP2p : List String → Option String
  | [] => none
  | [_] => none
  | name :: next :: rest => if name = "p2p" then some next else firstAfterP2p (next :: rest)

def extractPeerIdFromAddr (addr : String) : Option String := firstAfterP2p (components addr)

/-- The hexadecimal text of the nanoseconds within the second, `now` in nanoseconds. -/
def uuidSimple (now : ℕ) : String := paddedHex 8 (now % 10 ^ 9)

/-- An unbounded channel of events; `isOpen` until its receiver is dropped. -/
structure EventChannel where
  queue : List NetworkEvent
  received : List NetworkEvent
  isOpen : Bool
  deriving DecidableEq, Repr

namespace EventChannel

def unboundedChannel : EventChannel := ⟨[], [], true⟩

/-- `tx.send`, whose result is ignored. -/
def send (c : EventChannel) (e : NetworkEvent) : EventChannel :=
  if c.isOpen then { c with queue := c.queue ++ [e] } else c

def tryRecv (c : EventChannel) : EventChannel :=
  match c.queue with
  | [] => c
  | e :: rest => { c with queue := rest, received := c.received ++ [e] }

def close (c : EventChannel) : EventChannel := { c with queue := [], isOpen := false }

@[simp] theorem isOpen_send (c : EventChannel) (e : NetworkEvent) :
    (c.send e).isOpen = c.isOpen := by
  unfold send
  split_ifs <;> rfl

@[simp] theorem isOpen_tryRecv (c : EventChannel) : c.tryRecv.isOpen = c.isOpen := by
  unfold tryRecv
  split <;> rfl

/-- A poll moves an event from the queue to the received ones. -/
theorem tryRecv_events (c : EventChannel) :
    c.tryRecv.received ++ c.tryRecv.queue = c.received ++ c.queue := by
  unfold tryRecv
  split
  · rfl
  · rename_i e rest hqueue
    simp [hqueue]

end EventChannel

structure MockNetwork where
  peerId : String
  localAddrs : List Address
  nextMessageId : UInt64
  eventRx : EventChannel
  deriving DecidableEq, Repr

/-- A call of `handle_command` that has returned. -/
structure MockCall where
  node : ℕ
  cmd : NetworkCommand
  reply : NetworkReply
  deriving DecidableEq, Repr

structure MockWorld where
  nodes : List MockNetwork
  registry : String → Option ℕ
  calls : List MockCall

inductive MockInput where
  | create (now : ℕ)
  | command (node : ℕ) (cmd : NetworkCommand)
  | tryRecv (node : ℕ)
  | drop (node : ℕ)
  deriving DecidableEq, Repr

namespace MockWorld

/-- `MockNetwork::new_registry`. -/
def newRegistry : MockWorld := ⟨[], fun _ => none, []⟩

def modify (w : MockWorld) (k : ℕ) (f : MockNetwork → MockNetwork) : MockWorld :=
  { w with nodes := w.nodes.modify k f }

def send (w : MockWorld) (tx : ℕ) (e : NetworkEvent) : MockWorld :=
  w.modify tx fun n => { n with eventRx := n.eventRx.send e }

/-- Send to whatever channel the registry holds for a peer id, if it holds one. -/
def sendTo (w : MockWorld) (peer : String) (e : NetworkEvent) : MockWorld :=
  match w.registry peer with
  | some tx => w.send tx e
  | none => w

def newWithRegistry (w : MockWorld) (now : ℕ) : MockWorld :=
  let peerId := "mock-peer-" ++ uuidSimple now
  { w with
    nodes := w.nodes ++ [⟨peerId, [], 1, .unboundedChannel⟩]
    registry := Function.update w.registry peerId (some w.nodes.length) }

/-- `next_message_id += 1` of node `k`. -/
def numbered (w : MockWorld) (k : ℕ) : MockWorld :=
  w.modify k fun n => { n with nextMessageId := n.nextMessageId + 1 }

/-- `MockNetwork::handle_command` of node `k`. -/
def handleCommand (w : MockWorld) (k : ℕ) (self : MockNetwork) :
    NetworkCommand → MockWorld × NetworkReply
  | .listen addr =>
    let bound : Address := ⟨addr.text ++ "/p2p/" ++ self.peerId⟩
    (w.modify k fun n => { n with localAddrs := n.localAddrs ++ [bound] }, .listenSuccess bound)
  | .sendMessage addr msg =>
    let msgId : MessageId := ⟨self.nextMessageId⟩
    let w := w.numbered k
    match extractPeerIdFromAddr addr.text with
    | some peer =>
      match w.registry peer with
      | some tx => (w.send tx (.messageReceived self.peerId msg), .messageSent msgId)
      | none =>
        (w.sendTo self.peerId (.sendFailed msgId (.unreachableAddress addr)), .messageSent msgId)
    | none =>
      (w.sendTo self.peerId (.sendFailed msgId (.protocolError "No peer ID in address")),
        .messageSent msgId)
  | .listenViaRelay _ => (w, .failure "Mock does not support relay")
  | .getLocalAddresses => (w, .localAddresses self.localAddrs)

def logged (w : MockWorld) (call : MockCall) : MockWorld := { w with calls := w.calls ++ [call] }

/-- A dropped node does nothing any more. -/
def next (w : MockWorld) : MockInput → MockWorld
  | .create now => w.newWithRegistry now
  | .command k cmd =>
    match w.nodes[k]? with
    | none => w
    | some self =>
      if self.eventRx.isOpen then
        let out := w.handleCommand k self cmd
        out.1.logged ⟨k, cmd, out.2⟩
      else w
  | .tryRecv k => w.modify k fun n => { n with eventRx := n.eventRx.tryRecv }
  | .drop k => w.modify k fun n => { n with eventRx := n.eventRx.close }

def machine : Machine MockWorld MockInput := ⟨newRegistry, next⟩

@[simp] theorem machine_init : machine.init = newRegistry := rfl

@[simp] theorem machine_next (w : MockWorld) (i : MockInput) : machine.next w i = w.next i := rfl

/-! ### What a step leaves alone -/

def peerIds (w : MockWorld) : List String := w.nodes.map MockNetwork.peerId

theorem peerIds_getElem? {w : MockWorld} {k : ℕ} {n : MockNetwork} (h : w.nodes[k]? = some n) :
    w.peerIds[k]? = some n.peerId := by
  simp [peerIds, h]

theorem peerIds_modify (w : MockWorld) (k : ℕ) {f : MockNetwork → MockNetwork}
    (hf : ∀ n, (f n).peerId = n.peerId) : (w.modify k f).peerIds = w.peerIds := by
  apply List.ext_getElem?
  intro j
  simp only [peerIds, modify, List.getElem?_map, List.getElem?_modify]
  cases w.nodes[j]? with
  | none => simp
  | some n => by_cases hj : k = j <;> simp [hj, hf]

@[simp] theorem peerIds_numbered (w : MockWorld) (k : ℕ) : (w.numbered k).peerIds = w.peerIds :=
  w.peerIds_modify k fun _ => rfl

@[simp] theorem peerIds_send (w : MockWorld) (tx : ℕ) (e : NetworkEvent) :
    (w.send tx e).peerIds = w.peerIds := w.peerIds_modify tx fun _ => rfl

@[simp] theorem peerIds_sendTo (w : MockWorld) (peer : String) (e : NetworkEvent) :
    (w.sendTo peer e).peerIds = w.peerIds := by
  unfold sendTo
  split <;> simp

@[simp] theorem registry_modify (w : MockWorld) (k : ℕ) (f : MockNetwork → MockNetwork) :
    (w.modify k f).registry = w.registry := rfl

@[simp] theorem registry_numbered (w : MockWorld) (k : ℕ) :
    (w.numbered k).registry = w.registry := rfl

@[simp] theorem registry_send (w : MockWorld) (tx : ℕ) (e : NetworkEvent) :
    (w.send tx e).registry = w.registry := rfl

@[simp] theorem registry_sendTo (w : MockWorld) (peer : String) (e : NetworkEvent) :
    (w.sendTo peer e).registry = w.registry := by
  unfold sendTo
  split <;> rfl

/-- Commands leave the registry and all peer ids alone. -/
theorem handleCommand_peers (w : MockWorld) (k : ℕ) (self : MockNetwork) (cmd : NetworkCommand) :
    (w.handleCommand k self cmd).1.registry = w.registry ∧
    (w.handleCommand k self cmd).1.peerIds = w.peerIds := by
  cases cmd with
  | listen addr => exact ⟨rfl, w.peerIds_modify k fun _ => rfl⟩
  | sendMessage addr msg =>
    simp only [handleCommand]
    split
    · split <;> simp
    · simp
  | listenViaRelay | getLocalAddresses => exact ⟨rfl, rfl⟩

theorem peerIds_newWithRegistry (w : MockWorld) (now : ℕ) :
    (w.newWithRegistry now).peerIds = w.peerIds ++ ["mock-peer-" ++ uuidSimple now] := by
  simp [peerIds, newWithRegistry]

/-- Only a creation changes the registry or adds a node. -/
theorem next_peers (w : MockWorld) {i : MockInput} (hi : ∀ now, i ≠ .create now) :
    (w.next i).registry = w.registry ∧ (w.next i).peerIds = w.peerIds := by
  cases i with
  | create now => exact absurd rfl (hi now)
  | command k cmd =>
    simp only [next]
    split
    · exact ⟨rfl, rfl⟩
    · rename_i self hself
      split_ifs
      · exact w.handleCommand_peers k self cmd
      · exact ⟨rfl, rfl⟩
  | tryRecv k | drop k => exact ⟨rfl, w.peerIds_modify k fun _ => rfl⟩

end MockWorld
end MeerkatNet.V2
