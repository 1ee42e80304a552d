import MeerkatNet.V2.MockIdentity

/-!
# Delivery between mock nodes

While all nodes live and their peer ids differ, the registry holds exactly the nodes
under their own ids. Every send then puts one event into one queue: its message at the
node that the address names, or its failure at the sender. Nothing else adds an event,
so each queue holds its share of the sends in the order in which they happened.
-/

namespace MeerkatNet.V2

open Runs

/-- The commands and polls of living nodes. -/
def MockInput.IsOperation : MockInput → Prop
  | .command _ _ | .tryRecv _ => True
  | .create _ | .drop _ => False

instance (i : MockInput) : Decidable i.IsOperation :=
  match i with
  | .command _ _ | .tryRecv _ => inferInstanceAs (Decidable True)
  | .create _ | .drop _ => inferInstanceAs (Decidable False)

def MockCall.isSend (c : MockCall) : Bool :=
  match c.cmd with
  | .sendMessage _ _ => true
  | _ => false

/-- A command that is given to one of the nodes there are. -/
def MockInput.given? (nodes : ℕ) : MockInput → Option (ℕ × NetworkCommand)
  | .command k cmd => if k < nodes then some (k, cmd) else none
  | _ => none

/-- What a send between nodes with these peer ids leads to: one event in the queue of one node. -/
inductive Settles (peers : List String) : MockCall → ℕ × NetworkEvent → Prop where
  | delivered {k addr msg id sender j peer} (hsender : peers[k]? = some sender)
      (hpeer : extractPeerIdFromAddr addr.text = some peer) (htarget : peers[j]? = some peer) :
      Settles peers ⟨k, .sendMessage addr msg, .messageSent id⟩ (j, .messageReceived sender msg)
  | unreachable {k addr msg id peer} (hpeer : extractPeerIdFromAddr addr.text = some peer)
      (hnone : peer ∉ peers) :
      Settles peers ⟨k, .sendMessage addr msg, .messageSent id⟩
        (k, .sendFailed id (.unreachableAddress addr))
  | noPeer {k addr msg id} (hpeer : extractPeerIdFromAddr addr.text = none) :
      Settles peers ⟨k, .sendMessage addr msg, .messageSent id⟩
        (k, .sendFailed id (.protocolError "No peer ID in address"))

/-- The events of the sends that were settled at a node, in the order of the sends. -/
def eventsFor (k : ℕ) (outcomes : List (ℕ × NetworkEvent)) : List NetworkEvent :=
  (outcomes.filter fun o => o.1 = k).map Prod.snd

@[simp] theorem eventsFor_append (k : ℕ) (outcomes outcomes' : List (ℕ × NetworkEvent)) :
    eventsFor k (outcomes ++ outcomes') = eventsFor k outcomes ++ eventsFor k outcomes' := by
  simp [eventsFor]

namespace MockWorld

/-- Everything that ever came into the queue of a node, the received events first. -/
def enqueued (w : MockWorld) (k : ℕ) : List NetworkEvent :=
  match w.nodes[k]? with
  | none => []
  | some n => n.eventRx.received ++ n.eventRx.queue

def received (w : MockWorld) (k : ℕ) : List NetworkEvent :=
  match w.nodes[k]? with
  | none => []
  | some n => n.eventRx.received

/-- The commands that were handled, each with its node, in order. -/
def handled (w : MockWorld) : List (ℕ × NetworkCommand) := w.calls.map fun c => (c.node, c.cmd)

/-- All nodes live, and the registry holds each of them under its own peer id. -/
structure Registered (w : MockWorld) : Prop where
  registry : ∀ peer k, w.registry peer = some k ↔ w.peerIds[k]? = some peer
  isOpen : ∀ n ∈ w.nodes, n.eventRx.isOpen = true

theorem registry_eq_none_iff {w : MockWorld}
    (hw : ∀ peer k, w.registry peer = some k ↔ w.peerIds[k]? = some peer) {peer : String} :
    w.registry peer = none ↔ peer ∉ w.peerIds := by
  rw [List.mem_iff_getElem?, not_exists, Option.eq_none_iff_forall_ne_some]
  apply forall_congr'
  intro k
  rw [← hw peer k]

/-! ### Queues under updates -/

theorem enqueued_modify (w : MockWorld) (k : ℕ) {f : MockNetwork → MockNetwork}
    (hf : ∀ n, (f n).eventRx.received ++ (f n).eventRx.queue =
      n.eventRx.received ++ n.eventRx.queue) (j : ℕ) :
    (w.modify k f).enqueued j = w.enqueued j := by
  simp only [enqueued, modify, List.getElem?_modify]
  cases w.nodes[j]? with
  | none => simp
  | some n => by_cases hj : k = j <;> simp [hj, hf]

theorem isOpen_modify {w : MockWorld} {k : ℕ} {f : MockNetwork → MockNetwork}
    (hf : ∀ n, (f n).eventRx.isOpen = n.eventRx.isOpen)
    (hopen : ∀ n ∈ w.nodes, n.eventRx.isOpen = true) :
    ∀ n ∈ (w.modify k f).nodes, n.eventRx.isOpen = true := by
  intro n hn
  obtain ⟨j, hj⟩ := List.mem_iff_getElem?.mp hn
  simp only [modify, List.getElem?_modify, Option.map_eq_map, Option.map_eq_some_iff] at hj
  obtain ⟨m, hm, rfl⟩ := hj
  split_ifs
  · rw [hf]
    exact hopen m (List.mem_of_getElem? hm)
  · exact hopen m (List.mem_of_getElem? hm)

/-- A send to a living node puts its event behind the others, and into no other queue. -/
theorem Registered.enqueued_send {w : MockWorld} (hw : w.Registered) {tx : ℕ} {peer : String}
    (htx : w.peerIds[tx]? = some peer) (e : NetworkEvent) (j : ℕ) :
    (w.send tx e).enqueued j = w.enqueued j ++ eventsFor j [(tx, e)] := by
  simp only [enqueued, send, modify, List.getElem?_modify]
  cases hj : w.nodes[j]? with
  | none =>
    have hne : tx ≠ j := by
      rintro rfl
      simp [peerIds, hj] at htx
    simp [eventsFor, hne]
  | some n =>
    have hopen := hw.isOpen n (List.mem_of_getElem? hj)
    by_cases hne : tx = j <;> simp [hne, eventsFor, EventChannel.send, hopen]

theorem Registered.modify {w : MockWorld} (hw : w.Registered) (k : ℕ)
    {f : MockNetwork → MockNetwork} (hpeer : ∀ n, (f n).peerId = n.peerId)
    (hopen : ∀ n, (f n).eventRx.isOpen = n.eventRx.isOpen) : (w.modify k f).Registered where
  registry peer j := by
    rw [registry_modify, peerIds_modify w k hpeer]
    exact hw.registry peer j
  isOpen := isOpen_modify hopen hw.isOpen

theorem Registered.send {w : MockWorld} (hw : w.Registered) (tx : ℕ) (e : NetworkEvent) :
    (w.send tx e).Registered :=
  hw.modify tx (fun _ => rfl) fun _ => EventChannel.isOpen_send _ e

/-! ### One step -/

/-- Where every node is registered under its own peer id, a send is one event sent to one node. -/
theorem sendMessage_settles {w : MockWorld}
    (hw : ∀ peer k, w.registry peer = some k ↔ w.peerIds[k]? = some peer) {k : ℕ}
    {self : MockNetwork} (hself : w.nodes[k]? = some self) (addr : Address)
    (msg : MeerkatMessage) :
    ∃ o peer, w.peerIds[o.1]? = some peer ∧
      w.handleCommand k self (.sendMessage addr msg) =
        ((w.numbered k).send o.1 o.2, .messageSent ⟨self.nextMessageId⟩) ∧
      Settles w.peerIds ⟨k, .sendMessage addr msg, .messageSent ⟨self.nextMessageId⟩⟩ o := by
  have hsender := peerIds_getElem? hself
  -- the registry holds the sender itself
  have hown : ∀ e, (w.numbered k).sendTo self.peerId e = (w.numbered k).send k e := by
    intro e
    simp [sendTo, (hw self.peerId k).mpr hsender]
  simp only [MockWorld.handleCommand, registry_numbered, hown]
  cases hpeer : extractPeerIdFromAddr addr.text with
  | none => exact ⟨(k, _), _, hsender, rfl, .noPeer hpeer⟩
  | some peer =>
    cases hregistry : w.registry peer with
    | none =>
      have hnone := (registry_eq_none_iff hw).mp hregistry
      exact ⟨(k, _), _, hsender, by simp only [hregistry], .unreachable hpeer hnone⟩
    | some tx =>
      have htarget := (hw peer tx).mp hregistry
      exact ⟨(tx, _), peer, htarget, by simp only [hregistry], .delivered hsender hpeer htarget⟩

/-- No other command touches a queue. -/
theorem Registered.otherCommand {w : MockWorld} (hw : w.Registered) (k : ℕ) (self : MockNetwork)
    {cmd : NetworkCommand} (hcmd : ∀ addr msg, cmd ≠ .sendMessage addr msg) :
    (w.handleCommand k self cmd).1.Registered ∧
    (w.handleCommand k self cmd).1.calls = w.calls ∧
    ∀ j, (w.handleCommand k self cmd).1.enqueued j = w.enqueued j := by
  cases cmd with
  | sendMessage addr msg => exact absurd rfl (hcmd addr msg)
  | listen addr =>
    refine ⟨hw.modify k (fun _ => rfl) fun _ => rfl, rfl, ?_⟩
    intro j
    exact w.enqueued_modify k (fun _ => by rfl) j
  | listenViaRelay | getLocalAddresses => exact ⟨hw, rfl, fun _ => rfl⟩

theorem Registered.logged {w : MockWorld} (hw : w.Registered) (call : MockCall) :
    (w.logged call).Registered := ⟨hw.registry, hw.isOpen⟩

/-- The sends of the run so far are settled by one event each, and these events are what came
into the queues. -/
def AccountedBy (w : MockWorld) (outcomes : List (ℕ × NetworkEvent)) : Prop :=
  List.Forall₂ (Settles w.peerIds) (w.calls.filter MockCall.isSend) outcomes ∧
    ∀ k, w.enqueued k = eventsFor k outcomes

theorem AccountedBy.command {w : MockWorld} {outcomes : List (ℕ × NetworkEvent)}
    (haccounts : w.AccountedBy outcomes) (hw : w.Registered) {k : ℕ} {self : MockNetwork}
    (hself : w.nodes[k]? = some self) (cmd : NetworkCommand) :
    let out := w.handleCommand k self cmd
    out.1.Registered ∧ ∃ outcomes', (out.1.logged ⟨k, cmd, out.2⟩).AccountedBy outcomes' := by
  obtain ⟨hsettles, hqueues⟩ := haccounts
  have hpeers := (w.handleCommand_peers k self cmd).2
  by_cases hcmd : ∃ addr msg, cmd = .sendMessage addr msg
  · obtain ⟨addr, msg, rfl⟩ := hcmd
    obtain ⟨o, peer, htarget, hout, hsettle⟩ := sendMessage_settles hw.registry hself addr msg
    have hnumbered : (w.numbered k).Registered := hw.modify k (fun _ => rfl) fun _ => rfl
    rw [hout] at hpeers
    simp only [hout]
    refine ⟨hnumbered.send o.1 o.2, outcomes ++ [o], ?_, ?_⟩
    · change List.Forall₂ (Settles ((w.numbered k).send o.1 o.2).peerIds)
        ((w.calls ++ [_]).filter MockCall.isSend) _
      rw [hpeers, List.filter_append]
      exact List.rel_append hsettles (.cons hsettle .nil)
    · intro j
      have hbefore : (w.numbered k).enqueued j = w.enqueued j :=
        w.enqueued_modify k (fun _ => by rfl) j
      change ((w.numbered k).send o.1 o.2).enqueued j = _
      rw [hnumbered.enqueued_send (by simpa using htarget), hbefore, hqueues, eventsFor_append]
  · push Not at hcmd
    obtain ⟨hregistered, hcalls, hsame⟩ := hw.otherCommand k self hcmd
    refine ⟨hregistered, outcomes, ?_, fun j => (hsame j).trans (hqueues j)⟩
    have hother : (⟨k, cmd, (w.handleCommand k self cmd).2⟩ : MockCall).isSend = false := by
      cases cmd with
      | sendMessage addr msg => exact absurd rfl (hcmd addr msg)
      | listen | listenViaRelay | getLocalAddresses => rfl
    change List.Forall₂ (Settles (w.handleCommand k self cmd).1.peerIds)
      (((w.handleCommand k self cmd).1.calls ++ [_]).filter MockCall.isSend) _
    rw [hpeers, hcalls, List.filter_append, List.filter_singleton, hother]
    simpa using hsettles

theorem AccountedBy.operation {w : MockWorld} {i : MockInput} {outcomes : List (ℕ × NetworkEvent)}
    (haccounts : w.AccountedBy outcomes) (hw : w.Registered) (hi : i.IsOperation) :
    (w.next i).Registered ∧ ∃ outcomes', (w.next i).AccountedBy outcomes' := by
  cases i with
  | create | drop => exact absurd hi id
  | tryRecv k =>
    obtain ⟨hsettles, hqueues⟩ := haccounts
    refine ⟨hw.modify k (fun _ => rfl) fun _ => EventChannel.isOpen_tryRecv _, outcomes, ?_, ?_⟩
    · rw [(w.next_peers (by simp)).2]
      exact hsettles
    · intro j
      exact (w.enqueued_modify k (fun n => n.eventRx.tryRecv_events) j).trans (hqueues j)
  | command k cmd =>
    simp only [next]
    cases hself : w.nodes[k]? with
    | none => exact ⟨hw, outcomes, haccounts⟩
    | some self =>
      simp only [hw.isOpen self (List.mem_of_getElem? hself), if_true]
      obtain ⟨hregistered, haccounts'⟩ := haccounts.command hw hself cmd
      exact ⟨hregistered.logged _, haccounts'⟩

/-! ### Which commands are handled -/

theorem handleCommand_calls (w : MockWorld) (k : ℕ) (self : MockNetwork) (cmd : NetworkCommand) :
    (w.handleCommand k self cmd).1.calls = w.calls := by
  cases cmd with
  | sendMessage addr msg =>
    simp only [handleCommand, sendTo]
    split
    · split
      · rfl
      · split <;> rfl
    · split <;> rfl
  | listen | listenViaRelay | getLocalAddresses => rfl

/-- A living node handles every command it is given, and no operation handles another one. -/
theorem Registered.handled_next {w : MockWorld} (hw : w.Registered) {i : MockInput}
    (hi : i.IsOperation) :
    (w.next i).handled = w.handled ++ (i.given? w.peerIds.length).toList := by
  cases i with
  | create | drop => exact absurd hi id
  | tryRecv k => exact (List.append_nil _).symm
  | command k cmd =>
    have hlength : w.peerIds.length = w.nodes.length := List.length_map _
    simp only [next, MockInput.given?, hlength]
    cases hself : w.nodes[k]? with
    | none => simp [List.getElem?_eq_none_iff.mp hself]
    | some self =>
      have hlt : k < w.nodes.length := (List.getElem?_eq_some_iff.mp hself).1
      simp [hw.isOpen self (List.mem_of_getElem? hself), hlt, handled, MockWorld.logged,
        handleCommand_calls]

theorem handled_exec {w : MockWorld} {ops : List MockInput}
    (h : machine.Along (fun w i => w.Registered ∧ i.IsOperation) w ops) :
    (machine.exec w ops).handled =
      w.handled ++ ops.filterMap (MockInput.given? w.peerIds.length) := by
  induction ops generalizing w with
  | nil => simp
  | cons i ops ih =>
    obtain ⟨⟨hw, hi⟩, hrest⟩ := h
    have hpeers : (w.next i).peerIds = w.peerIds := by
      refine (w.next_peers ?_).2
      rintro now rfl
      exact hi
    rw [Machine.exec_cons, ih hrest, machine_next, hw.handled_next hi, hpeers, List.append_assoc,
      List.filterMap_cons]
    cases i.given? w.peerIds.length <;> rfl

/-- A poll takes the event that has waited longest. -/
theorem received_tryRecv {w : MockWorld} {k : ℕ} {n : MockNetwork} (hn : w.nodes[k]? = some n) :
    (w.next (.tryRecv k)).received k =
      (n.eventRx.received ++ n.eventRx.queue).take (n.eventRx.received.length + 1) := by
  simp only [received, next, modify, List.getElem?_modify, hn, Option.map_eq_map, Option.map_some,
    if_true, EventChannel.tryRecv]
  split
  · rename_i hqueue
    simp [hqueue]
  · rename_i e rest hqueue
    rw [hqueue, List.take_length_add_append]
    rfl

/-! ### Creation -/

/-- Nothing has been sent: no command was handled and all channels are new. -/
structure Untouched (w : MockWorld) : Prop where
  calls : w.calls = []
  channels : ∀ n ∈ w.nodes, n.eventRx = .unboundedChannel

theorem Untouched.newWithRegistry {w : MockWorld} (hw : w.Untouched) (now : ℕ) :
    (w.newWithRegistry now).Untouched where
  calls := hw.calls
  channels n hn := by
    rcases List.mem_append.mp hn with hn | hn
    · exact hw.channels n hn
    · rw [List.mem_singleton.mp hn]

theorem untouched_creations (clocks : List ℕ) : (machine.run (clocks.map .create)).Untouched := by
  induction clocks using List.reverseRecOn with
  | nil => exact ⟨rfl, fun n hn => by simp [newRegistry, Machine.run] at hn⟩
  | append_singleton clocks now ih =>
    rw [List.map_append, List.map_singleton, Machine.run_concat]
    exact ih.newWithRegistry now

theorem Untouched.accountedBy {w : MockWorld} (hw : w.Untouched) : w.AccountedBy [] := by
  constructor
  · rw [hw.calls]
    exact .nil
  · intro k
    unfold enqueued
    split
    · rfl
    · rename_i n hn
      rw [hw.channels n (List.mem_of_getElem? hn)]
      rfl

theorem clocks_creations (readings : List ℕ) :
    clocks (readings.map .create) = readings := by
  simp [clocks]

/-- Creations with distinct peer ids register all nodes. -/
theorem registered_creations {clocks : List ℕ}
    (hdistinct : (machine.run (clocks.map .create)).peerIds.Nodup) :
    (machine.run (clocks.map .create)).Registered where
  registry _ _ := (named_run _).registry_eq_some_iff hdistinct
  isOpen n hn := by rw [(untouched_creations clocks).channels n hn]; rfl

/-- Among living nodes with distinct peer ids, the commands handled are those that were given.
Every send is settled by exactly one event, what a node has received and will receive are its
events in the order of the sends, and a poll takes the next of them. -/
theorem sends_settled {clocks : List ℕ} {ops : List MockInput}
    (hdistinct : (machine.run (clocks.map .create)).peerIds.Nodup)
    (hops : ∀ i ∈ ops, i.IsOperation) :
    let w := machine.run (clocks.map .create ++ ops)
    w.handled = ops.filterMap (MockInput.given? clocks.length) ∧
    ∃ outcomes, List.Forall₂ (Settles w.peerIds) (w.calls.filter MockCall.isSend) outcomes ∧
      ∀ k n, w.nodes[k]? = some n →
        n.eventRx.received ++ n.eventRx.queue = eventsFor k outcomes ∧
        (w.next (.tryRecv k)).received k =
          (eventsFor k outcomes).take (n.eventRx.received.length + 1) := by
  have halong :
      machine.Along (fun _ i => i.IsOperation) (machine.run (clocks.map .create)) ops :=
    Machine.along_of_forall_mem _ (fun i hi _ => hops i hi) _
  have hstart : (machine.run (clocks.map .create)).Registered ∧
      ∃ outcomes, (machine.run (clocks.map .create)).AccountedBy outcomes :=
    ⟨registered_creations hdistinct, _, (untouched_creations clocks).accountedBy⟩
  have hstep : ∀ (w : MockWorld) (i : MockInput),
      (w.Registered ∧ ∃ outcomes, w.AccountedBy outcomes) → i.IsOperation →
      (w.next i).Registered ∧ ∃ outcomes, (w.next i).AccountedBy outcomes := by
    rintro w i ⟨hw, outcomes, haccounts⟩ hi
    exact haccounts.operation hw hi
  have hregistered : machine.Along (fun w i => w.Registered ∧ i.IsOperation)
      (machine.run (clocks.map .create)) ops :=
    (halong.strengthen hstep hstart).mono fun _ _ h => ⟨h.1.1, h.2⟩
  have hend := halong.exec_induction hstep hstart
  obtain ⟨-, outcomes, hsettles, hqueues⟩ := hend
  have hlength : (machine.run (clocks.map .create)).peerIds.length = clocks.length := by
    rw [peerIds_run, List.length_map, clocks_creations]
  have hnone : (machine.run (clocks.map .create)).handled = [] := by
    rw [handled, (untouched_creations clocks).calls, List.map_nil]
  rw [Machine.run_append]
  refine ⟨?_, outcomes, hsettles, ?_⟩
  · rw [handled_exec hregistered, hnone, hlength, List.nil_append]
  · intro k n hn
    have hevents : n.eventRx.received ++ n.eventRx.queue = eventsFor k outcomes := by
      rw [← hqueues, enqueued, hn]
    exact ⟨hevents, hevents ▸ received_tryRecv hn⟩

/-- Two nodes that send to each other, to themselves and to nobody, and poll in between. -/
def twoNodes : List MockInput :=
  [.command 0 (.sendMessage ⟨"/p2p/mock-peer-00000002"⟩ (.ping "a")),
    .command 1 (.sendMessage ⟨"/p2p/mock-peer-00000002"⟩ (.ping "b")),
    .tryRecv 1, .command 1 (.sendMessage ⟨"/ip4/10.0.0.1"⟩ (.ping "c")), .tryRecv 1]

theorem sends_settled_twoNodes :
    let w := machine.run ([1, 2].map .create ++ twoNodes)
    w.handled = twoNodes.filterMap (MockInput.given? 2) ∧
    ∃ outcomes, List.Forall₂ (Settles w.peerIds) (w.calls.filter MockCall.isSend) outcomes ∧
      eventsFor 0 outcomes = [] ∧
      eventsFor 1 outcomes =
        [.messageReceived "mock-peer-00000001" (.ping "a"),
          .messageReceived "mock-peer-00000002" (.ping "b"),
          .sendFailed ⟨2⟩ (.protocolError "No peer ID in address")] ∧
      (w.next (.tryRecv 1)).received 1 = eventsFor 1 outcomes := by
  have hdistinct : (machine.run ([1, 2].map .create)).peerIds.Nodup := by decide +kernel
  have hops : ∀ i ∈ twoNodes, i.IsOperation := by decide
  obtain ⟨hhandled, outcomes, hsettles, hevents⟩ := sends_settled hdistinct hops
  obtain ⟨hzero, -⟩ := hevents 0 _ rfl
  obtain ⟨hone, hpoll⟩ := hevents 1 _ rfl
  refine ⟨hhandled, outcomes, hsettles, hzero.symm.trans ?_, hone.symm.trans ?_, hpoll.trans ?_⟩
  · decide +kernel
  · decide +kernel
  · rw [← hone]
    decide +kernel

end MockWorld
end MeerkatNet.V2
