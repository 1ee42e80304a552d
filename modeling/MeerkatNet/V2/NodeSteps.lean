import MeerkatNet.V2.Actor
import MeerkatNet.V2.ListenSteps

/-!
# What one step does to a node

`NodeStep` lists the steps of a node with the fields they change. A run of a node
projects to a run of its event loop.
-/

namespace MeerkatNet.V2

open Libp2p SlashText KeyedQueues Runs

variable {PeerId : Type}

/-- The reply sender that a command carries. -/
def SwarmCommand.request? : SwarmCommand → Option ReplyTx
  | .send _ _ _ => none
  | .listen _ tx => some tx
  | .listenViaRelay _ tx => some tx

@[simp] theorem request?_command (cmd : SwarmCommand) (answers : Answers) :
    (.command cmd answers : Input PeerId).request? = cmd.request? := by
  cases cmd <;> rfl

namespace Node

/-- The command channel after a send to it; a stopped loop has dropped its end. -/
def queued (n : Node PeerId) (cmd : SwarmCommand) : List SwarmCommand :=
  if n.running then n.commandRx ++ [cmd] else n.commandRx

theorem send_eq (n : Node PeerId) (cmd : SwarmCommand) :
    n.send cmd = { n with commandRx := n.queued cmd } := by
  unfold send queued
  split_ifs <;> rfl

end Node

variable [DecidableEq PeerId] (F : Formats PeerId) (S : Serde)

inductive NodeStep (n : Node PeerId) : NodeInput PeerId → Node PeerId → Prop where
  | idle {i} (hi : n.iteration? i = none) : NodeStep n i n
  | issued {addr msg localAddr} (hwaiting : n.waiting = none)
      (htranslate : translateAddress n.actor.nodeType addr = .ok localAddr) :
      NodeStep n (.command (.sendMessage addr msg)) { n with
        actor := { n.actor with nextMessageId := n.actor.nextMessageId + 1 }
        issued := n.issued ++ [⟨⟨n.actor.nextMessageId⟩, addr, msg⟩]
        commandRx := n.queued (.send ⟨n.actor.nextMessageId⟩ localAddr msg)
        replies := n.replies ++ [(none, .messageSent ⟨n.actor.nextMessageId⟩)] }
  | requested {cmd c} (hwaiting : n.waiting = none) (hc : c.request? = some n.nextTx) :
      NodeStep n (.command cmd) { n with
        commandRx := n.queued c
        waiting := some n.nextTx
        nextTx := n.nextTx + 1 }
  | listed (hwaiting : n.waiting = none) :
      NodeStep n (.command .getLocalAddresses) { n with
        replies := n.replies ++ [(none, .localAddresses n.actor.localAddrs)] }
  | taken {cmd rest answers} (hrunning : n.running = true) (hrx : n.commandRx = cmd :: rest) :
      NodeStep n (.take answers) { n.iterate F S (.command cmd answers) with commandRx := rest }
  | iterated {ev answers} (hrunning : n.running = true) :
      NodeStep n (.event ev answers) (n.iterate F S (.event ev answers))
  | accepted {peer} (hrunning : n.running = true) :
      NodeStep n (.accept peer) { n with readers := n.readers ++ [⟨peer, [], .reading⟩] }
  | arrived {k bytes r} (hr : n.readers[k]? = some r) (hreading : r.state = .reading) :
      NodeStep n (.arrive k bytes) { n with
        readers := n.readers.set k { r with arrived := r.arrived ++ bytes } }
  | rejected {k r e rest} (hr : n.readers[k]? = some r) (hreading : r.state = .reading)
      (hrecv : recvMessage S r.arrived = some (.error e, rest)) :
      NodeStep n (.read k) { n with readers := n.readers.set k { r with state := .finished } }
  | posted {k r msg rest} (hr : n.readers[k]? = some r) (hreading : r.state = .reading)
      (hrecv : recvMessage S r.arrived = some (.ok msg, rest)) :
      NodeStep n (.read k) { n with
        readers := n.readers.set k { r with state := .finished }
        posted := n.posted ++ [⟨some k, .messageReceived (F.peerText r.peer) msg⟩] }
  | broken {k r} (hr : n.readers[k]? = some r) (hreading : r.state = .reading) :
      NodeStep n (.fail k) { n with readers := n.readers.set k { r with state := .broken } }
  | listened {tx addr} (hwaiting : n.waiting = some tx)
      (hanswer : n.world.answer? tx = some (.ok addr)) :
      NodeStep n .resume { n with
        actor := { n.actor with localAddrs := n.actor.localAddrs ++ [addr] }
        waiting := none
        replies := n.replies ++ [(some tx, .listenSuccess addr)] }
  | failed {tx text} (hwaiting : n.waiting = some tx)
      (hclosed : (∃ e, n.world.answer? tx = some (.error e)) ∨ n.world.dropsSender tx = true ∨
        n.running = false) :
      NodeStep n .resume { n with
        waiting := none
        replies := n.replies ++ [(some tx, .failure text)] }
  | polled : NodeStep n .tryRecv { n with received := min (n.received + 1) n.posted.length }
  | stopped : NodeStep n .stop { n with running := false, commandRx := [] }

namespace Node

/-- Every step is one of the cases of `NodeStep`. -/
theorem next_nodeStep (n : Node PeerId) (i : NodeInput PeerId) :
    NodeStep F S n i (n.next F S i) := by
  cases i with
  | command cmd =>
    simp only [next]
    split_ifs with hwaiting
    · cases cmd with
      | sendMessage addr msg =>
        obtain ⟨localAddr, htranslate⟩ := translateAddress_ok n.actor.nodeType addr
        simp only [handleCommand, sendMessage, htranslate, send_eq, reply]
        exact .issued hwaiting htranslate
      | listen addr | listenViaRelay addr =>
        simp only [handleCommand, request, send_eq]
        exact .requested hwaiting rfl
      | getLocalAddresses => exact .listed hwaiting
    · exact .idle rfl
  | take answers =>
    simp only [next]
    split
    · rename_i hnone
      exact .idle hnone
    · rename_i j hj
      simp only [iteration?, Option.ite_none_right_eq_some, Option.map_eq_some_iff] at hj
      obtain ⟨hrunning, cmd, hhead, rfl⟩ := hj
      obtain ⟨rest, hrx⟩ := List.head?_eq_some_iff.mp hhead
      have hstep : NodeStep F S n (.take answers) _ := .taken hrunning hrx
      simpa only [hrx, List.tail_cons] using hstep
  | event ev answers =>
    simp only [next]
    split
    · rename_i hnone
      exact .idle hnone
    · rename_i j hj
      simp only [iteration?, Option.ite_none_right_eq_some, Option.some.injEq] at hj
      obtain ⟨hrunning, rfl⟩ := hj
      exact .iterated hrunning
  | accept peer =>
    simp only [next, accept]
    split_ifs with hrunning
    · exact .accepted hrunning
    · exact .idle rfl
  | arrive k bytes =>
    simp only [next, withReader]
    split
    · exact .idle rfl
    · split_ifs with hreading
      · exact .arrived ‹_› hreading
      · exact .idle rfl
  | read k =>
    simp only [next, withReader]
    split
    · exact .idle rfl
    · split_ifs with hreading
      · unfold handleIncoming
        split
        · exact .idle rfl
        · exact .rejected ‹_› hreading ‹_›
        · exact .posted ‹_› hreading ‹_›
      · exact .idle rfl
  | fail k =>
    simp only [next, withReader]
    split
    · exact .idle rfl
    · split_ifs with hreading
      · exact .broken ‹_› hreading
      · exact .idle rfl
  | resume =>
    simp only [next, resume]
    split
    · exact .idle rfl
    · rename_i tx hwaiting
      split
      · exact .listened hwaiting ‹_›
      · exact .failed hwaiting (.inl ⟨_, ‹_›⟩)
      · split_ifs with hclosed
        · rw [Bool.or_eq_true, Bool.not_eq_true'] at hclosed
          exact .failed hwaiting (.inr hclosed)
        · exact .idle rfl
  | tryRecv => exact .polled
  | stop => exact .stopped

@[simp] theorem iterate_world (n : Node PeerId) (i : Input PeerId) :
    (n.iterate F S i).world = n.world.next F S i := rfl

/-- A step of the node is an iteration of its loop, or leaves the loop and its swarm alone. -/
theorem next_world (n : Node PeerId) (i : NodeInput PeerId) :
    (n.next F S i).world = match n.iteration? i with
      | none => n.world
      | some j => n.world.next F S j := by
  have hstep := next_nodeStep F S n i
  generalize n.next F S i = n' at hstep
  cases hstep with
  | idle hi => rw [hi]
  | taken hrunning hrx => simp [iteration?, hrunning, hrx]
  | iterated hrunning => simp [iteration?, hrunning]
  | _ => rfl

/-- The iteration that an input stands for, if it is one, meets the condition. -/
def Iterates (C : World PeerId → Input PeerId → Prop) (n : Node PeerId) (i : NodeInput PeerId) :
    Prop := ∀ j, n.iteration? i = some j → C n.world j

instance decidableIterates (C : World PeerId → Input PeerId → Prop)
    [∀ w j, Decidable (C w j)] (n : Node PeerId) (i : NodeInput PeerId) :
    Decidable (Iterates C n i) :=
  match h : n.iteration? i with
  | none => isTrue fun j hj => by simp [h] at hj
  | some j => decidable_of_iff (C n.world j) ⟨fun hc j' hj => by
      rw [h] at hj
      exact Option.some.inj hj ▸ hc, fun hc => hc j h⟩

/-- The loop of a node makes a run of its own. -/
theorem exists_world_run {C : World PeerId → Input PeerId → Prop} {me : PeerId}
    {nodeType : NodeType} {inputs : List (NodeInput PeerId)}
    (h : (machine F S me nodeType).Along (Iterates C) (init me nodeType) inputs) :
    ∃ js, (World.machine F S).Along C World.init js ∧
      ((machine F S me nodeType).run inputs).world = (World.machine F S).run js := by
  apply h.exec_simulate (N := World.machine F S) (E := C) Node.world
  intro n i hi
  rw [machine_next, next_world]
  cases hj : n.iteration? i with
  | none => exact ⟨[], trivial, rfl⟩
  | some j => exact ⟨[j], ⟨hi j hj, trivial⟩, rfl⟩

end Node
end MeerkatNet.V2
