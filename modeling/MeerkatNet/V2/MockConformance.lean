import MeerkatNet.V2.Contract
import MeerkatNet.V2.MockFailures

/-!
# The mock keeps the contract

What the Manager of one mock node sees, while other nodes are created, used and dropped:
its own calls with their replies, and the events that it polls. As long as no two nodes
share a peer id, every such trace is one that the contract allows.
-/

namespace MeerkatNet.V2

open Runs NetworkLayer

namespace MockWorld

/-! ### What a node holds, under updates -/

theorem elim_modify {γ : Type} (w : MockWorld) (k : ℕ) {f : MockNetwork → MockNetwork} (d : γ)
    {g : MockNetwork → γ} (hf : ∀ n, g (f n) = g n) (j : ℕ) :
    (w.modify k f).nodes[j]?.elim d g = w.nodes[j]?.elim d g := by
  simp only [modify, List.getElem?_modify]
  cases w.nodes[j]? with
  | none => simp
  | some n => by_cases hj : k = j <;> simp [hj, hf]

def listening (w : MockWorld) (k : ℕ) : List Address :=
  w.nodes[k]?.elim [] MockNetwork.localAddrs

theorem received_eq (w : MockWorld) (k : ℕ) :
    w.received k = w.nodes[k]?.elim [] fun n => n.eventRx.received := by
  unfold received
  cases w.nodes[k]? <;> rfl

theorem listening_modify (w : MockWorld) (k : ℕ) {f : MockNetwork → MockNetwork}
    (hf : ∀ n, (f n).localAddrs = n.localAddrs) (j : ℕ) :
    (w.modify k f).listening j = w.listening j := w.elim_modify k [] hf j

theorem received_modify (w : MockWorld) (k : ℕ) {f : MockNetwork → MockNetwork}
    (hf : ∀ n, (f n).eventRx.received = n.eventRx.received) (j : ℕ) :
    (w.modify k f).received j = w.received j := by
  rw [received_eq, received_eq]
  exact w.elim_modify k [] hf j

/-- An event sent to a node goes behind the others, if the node still takes events. -/
theorem enqueued_send (w : MockWorld) (tx : ℕ) (e : NetworkEvent) (j : ℕ) :
    (w.send tx e).enqueued j = w.enqueued j ∨
      (tx = j ∧ (w.send tx e).enqueued j = w.enqueued j ++ [e]) := by
  simp only [enqueued, send, modify, List.getElem?_modify]
  cases hj : w.nodes[j]? with
  | none => exact .inl rfl
  | some n =>
    by_cases htx : tx = j
    · cases hopen : n.eventRx.isOpen <;> simp [htx, EventChannel.send, hopen]
    · exact .inl (by simp [htx])

theorem received_send (w : MockWorld) (tx : ℕ) (e : NetworkEvent) (j : ℕ) :
    (w.send tx e).received j = w.received j := by
  have hkept : ∀ c : EventChannel, (c.send e).received = c.received := by
    intro c
    unfold EventChannel.send
    split_ifs <;> rfl
  exact w.received_modify tx (fun n => hkept n.eventRx) j

/-! ### Failures and sends -/

/-- The ids of the failures that came to a node. -/
def failedIds (w : MockWorld) (k : ℕ) : List MessageId :=
  (w.enqueued k).filterMap NetworkEvent.failedId?

/-- The failures that come to a node are about its own sends, in their order. -/
def OwnFailures (w : MockWorld) : Prop :=
  ∀ k, ((w.failedIds k).map NetworkReply.messageSent).Sublist ((w.sentBy k).map MockCall.reply)

theorem OwnFailures.of_sublist {w w' : MockWorld} (hw : w.OwnFailures)
    (hcalls : w'.calls = w.calls)
    (hevents : ∀ k, (w'.enqueued k).Sublist (w.enqueued k)) : w'.OwnFailures := by
  intro k
  rw [sentBy, hcalls]
  exact (((hevents k).filterMap _).map _).trans (hw k)

theorem sentBy_logged (w : MockWorld) (call : MockCall) (k : ℕ) :
    (w.logged call).sentBy k = w.sentBy k ++ [call].filter (MockCall.countsFor k) := by
  simp [sentBy, logged]

/-- A send whose failure comes back to the sender, under the id that the call returned. -/
theorem OwnFailures.sendMessage {w : MockWorld} (hw : w.OwnFailures) (hnamed : w.Named)
    (hdistinct : w.peerIds.Nodup) {k : ℕ} {self : MockNetwork} (hself : w.nodes[k]? = some self)
    (addr : Address) (msg : MeerkatMessage) :
    let out := w.handleCommand k self (.sendMessage addr msg)
    (out.1.logged ⟨k, .sendMessage addr msg, out.2⟩).OwnFailures := by
  obtain ⟨o, peer, -, hout, hsettles⟩ := sendMessage_settles
    (fun peer k => hnamed.registry_eq_some_iff hdistinct) hself addr msg
  have hbefore : ∀ j, (w.numbered k).enqueued j = w.enqueued j :=
    fun j => w.enqueued_modify k (fun _ => by rfl) j
  simp only [hout]
  intro j
  have hsent : (((w.numbered k).send o.1 o.2).logged
      ⟨k, .sendMessage addr msg, .messageSent ⟨self.nextMessageId⟩⟩).sentBy j =
      w.sentBy j ++ if k = j then
        [⟨k, .sendMessage addr msg, .messageSent ⟨self.nextMessageId⟩⟩] else [] := by
    rw [sentBy_logged]
    by_cases hk : k = j <;> simp [MockCall.countsFor, MockCall.isSend, hk] <;> rfl
  have hfailed : o.1 = j → o.2.failedId? = none ∨
      (k = j ∧ o.2.failedId? = some ⟨self.nextMessageId⟩) := by
    rintro rfl
    cases hsettles with
    | delivered => exact .inl rfl
    | unreachable | noPeer => exact .inr ⟨rfl, rfl⟩
  change ((((w.numbered k).send o.1 o.2).enqueued j).filterMap _ |>.map _).Sublist _
  rw [hsent]
  rcases enqueued_send (w.numbered k) o.1 o.2 j with h | ⟨ho, h⟩ <;> rw [h, hbefore]
  · rw [List.map_append]
    exact (hw j).trans (List.sublist_append_left _ _)
  · rw [List.filterMap_append, List.map_append, List.map_append]
    rcases hfailed ho with hnone | ⟨rfl, hid⟩
    · refine List.Sublist.append (hw j) ?_
      simp [hnone]
    · refine List.Sublist.append (hw k) ?_
      simp [hid]

theorem OwnFailures.command {w : MockWorld} (hw : w.OwnFailures) (hnamed : w.Named)
    (hdistinct : w.peerIds.Nodup) {k : ℕ} {self : MockNetwork} (hself : w.nodes[k]? = some self)
    (cmd : NetworkCommand) :
    let out := w.handleCommand k self cmd
    (out.1.logged ⟨k, cmd, out.2⟩).OwnFailures := by
  have hother : ∀ w' : MockWorld, w'.OwnFailures → ∀ call : MockCall, call.isSend = false →
      (w'.logged call).OwnFailures := by
    intro w' hw' call hcall j
    change ((w'.failedIds j).map _).Sublist _
    rw [sentBy_logged]
    simpa [MockCall.countsFor, hcall] using hw' j
  cases cmd with
  | sendMessage addr msg => exact hw.sendMessage hnamed hdistinct hself addr msg
  | listen addr =>
    refine hother (w.modify k _) (hw.of_sublist rfl ?_) ⟨k, .listen addr, _⟩ rfl
    intro j
    rw [w.enqueued_modify k (fun _ => by rfl)]
  | listenViaRelay | getLocalAddresses => exact hother w hw _ rfl

theorem ownFailures_next {w : MockWorld} (hw : w.OwnFailures) (hnamed : w.Named)
    (hdistinct : w.peerIds.Nodup) (i : MockInput) : (w.next i).OwnFailures := by
  cases i with
  | create now =>
    refine hw.of_sublist rfl ?_
    intro j
    simp only [enqueued, next, newWithRegistry, List.getElem?_append]
    split_ifs with hj
    · exact List.Sublist.refl _
    · rw [List.getElem?_eq_none (not_lt.mp hj)]
      rcases j - w.nodes.length with _ | m <;> exact List.Sublist.refl _
  | tryRecv k =>
    refine hw.of_sublist rfl ?_
    intro j
    rw [next, w.enqueued_modify k (fun n => n.eventRx.tryRecv_events)]
  | drop k =>
    refine hw.of_sublist rfl ?_
    intro j
    simp only [enqueued, next, modify, List.getElem?_modify]
    cases w.nodes[j]? with
    | none => exact List.Sublist.refl _
    | some n => by_cases hj : k = j <;> simp [hj, EventChannel.close]
  | command k cmd =>
    cases hself : w.nodes[k]? with
    | none => simpa [next, hself] using hw
    | some self =>
      by_cases hopen : self.eventRx.isOpen = true
      · rw [next_command hself hopen]
        exact hw.command hnamed hdistinct hself cmd
      · simpa [next, hself, hopen] using hw

/-! ### The view of a Manager -/

/-- What the Manager of node `k` sees of a step. -/
def observe (k : ℕ) (w : MockWorld) : MockInput → List Observation
  | .command j cmd =>
    match w.nodes[k]? with
    | none => []
    | some self =>
      if j = k ∧ self.eventRx.isOpen = true then
        [.command cmd, .reply (w.handleCommand k self cmd).2]
      else []
  | .tryRecv j =>
    if j = k then ((w.nodes[k]?.bind fun n => n.eventRx.queue.head?).map .event).toList else []
  | .create _ | .drop _ => []

structure Shows (w : MockWorld) (k : ℕ) (l : Ledger) : Prop where
  sent : l.sent.map NetworkReply.messageSent = (w.sentBy k).map MockCall.reply
  failed : l.failed = (w.received k).filterMap NetworkEvent.failedId?
  listening : l.listening = w.listening k
  free : l.outstanding = none

theorem shows_newRegistry (k : ℕ) : newRegistry.Shows k .empty := ⟨rfl, rfl, rfl, rfl⟩

/-- The node of a Manager is touched only by its own commands, and by events sent to it. -/
theorem Shows.of_same {w w' : MockWorld} {k : ℕ} {l : Ledger} (hl : w.Shows k l)
    (hsent : w'.sentBy k = w.sentBy k) (hreceived : w'.received k = w.received k)
    (hlistening : w'.listening k = w.listening k) : w'.Shows k l := by
  refine ⟨?_, ?_, ?_, hl.free⟩
  · rw [hsent]
    exact hl.sent
  · rw [hreceived]
    exact hl.failed
  · rw [hlistening]
    exact hl.listening

/-- Commands leave alone what the nodes have polled. -/
theorem handleCommand_received (w : MockWorld) (k : ℕ) (self : MockNetwork) (cmd : NetworkCommand)
    (j : ℕ) : (w.handleCommand k self cmd).1.received j = w.received j := by
  cases cmd with
  | sendMessage addr msg =>
    have hnumbered : (w.numbered k).received j = w.received j :=
      w.received_modify k (fun _ => by rfl) j
    obtain ⟨-, h | ⟨tx, e, h⟩⟩ := handleCommand_sendMessage w k self addr msg <;> rw [h]
    · exact hnumbered
    · rw [received_send, hnumbered]
  | listen addr => exact w.received_modify k (fun _ => by rfl) j
  | listenViaRelay | getLocalAddresses => rfl

/-- A listen request adds its bound address to the list of its node, and nothing else does. -/
theorem handleCommand_listening {w : MockWorld} {k : ℕ} {self : MockNetwork}
    (hself : w.nodes[k]? = some self) (cmd : NetworkCommand) (j : ℕ) :
    (w.handleCommand k self cmd).1.listening j = w.listening j ++
      match (w.handleCommand k self cmd).2 with
      | .listenSuccess bound => if k = j then [bound] else []
      | _ => [] := by
  cases cmd with
  | sendMessage addr msg =>
    have hnumbered : (w.numbered k).listening j = w.listening j :=
      w.listening_modify k (fun _ => by rfl) j
    obtain ⟨hreply, h | ⟨tx, e, h⟩⟩ := handleCommand_sendMessage w k self addr msg <;>
      rw [hreply, h, List.append_nil]
    · exact hnumbered
    · exact ((w.numbered k).listening_modify tx (fun _ => by rfl) j).trans hnumbered
  | listenViaRelay | getLocalAddresses => simp [handleCommand]
  | listen addr =>
    simp only [handleCommand, listening, modify, List.getElem?_modify]
    by_cases hk : k = j
    · subst j
      simp [hself]
    · cases w.nodes[j]? <;> simp [hk]

/-- The trace of a step is allowed, and the ledger after it is that of the new state. -/
def Continues (w : MockWorld) (k : ℕ) (l : Ledger) (i : MockInput) : Prop :=
  contract.Along Ledger.Permits l (w.observe k i) ∧
    (w.next i).Shows k (contract.exec l (w.observe k i))

structure Accounted (w : MockWorld) : Prop where
  named : w.Named
  numbered : w.NumberedCalls
  failures : w.OwnFailures

/-- The reply to a command is one that the contract allows. -/
theorem Shows.answers {w : MockWorld} (hw : w.Accounted) {k : ℕ} {l : Ledger}
    (hl : w.Shows k l) {self : MockNetwork} (hself : w.nodes[k]? = some self)
    (cmd : NetworkCommand) : l.Answers cmd (w.handleCommand k self cmd).2 := by
  cases cmd with
  | sendMessage addr msg =>
    have hlength := congrArg List.length hl.sent
    simp only [List.length_map] at hlength
    rw [(w.handleCommand_sendMessage k self addr msg).1, Ledger.Answers,
      hw.numbered.counter k self hself, hlength]
  | listen | listenViaRelay => trivial
  | getLocalAddresses =>
    have hown : w.listening k = self.localAddrs := by rw [MockWorld.listening, hself]; rfl
    exact hown.symm.trans hl.listening.symm

/-- The ledger takes a command and its reply as the node does. -/
theorem Shows.ownCommand {w : MockWorld} {k : ℕ} {l : Ledger} (hl : w.Shows k l)
    {self : MockNetwork} (hself : w.nodes[k]? = some self) (cmd : NetworkCommand) :
    let out := w.handleCommand k self cmd
    (out.1.logged ⟨k, cmd, out.2⟩).Shows k
      ((l.record (.command cmd)).record (.reply out.2)) := by
  have hreceived := w.handleCommand_received k self cmd k
  have hlistening := handleCommand_listening hself cmd k
  have hsent : ((w.handleCommand k self cmd).1.logged
      ⟨k, cmd, (w.handleCommand k self cmd).2⟩).sentBy k = w.sentBy k ++
        [⟨k, cmd, (w.handleCommand k self cmd).2⟩].filter (MockCall.countsFor k) := by
    rw [sentBy_logged, sentBy, sentBy, w.handleCommand_calls]
  simp only [if_true] at hlistening
  constructor
  · rw [hsent, List.map_append, ← hl.sent]
    cases cmd with
    | sendMessage addr msg =>
      rw [(w.handleCommand_sendMessage k self addr msg).1]
      simp [Ledger.record, MockCall.countsFor, MockCall.isSend]
    | listen | listenViaRelay | getLocalAddresses =>
      simp [handleCommand, Ledger.record, MockCall.countsFor, MockCall.isSend]
  · refine Eq.trans ?_ (hl.failed.trans (congrArg _ hreceived.symm))
    cases (w.handleCommand k self cmd).2 <;> rfl
  · refine Eq.trans ?_ hlistening.symm
    rw [← hl.listening]
    cases (w.handleCommand k self cmd).2 <;> simp [Ledger.record]
  · cases (w.handleCommand k self cmd).2 <;> rfl

/-- A command of another node leaves the ledger as it is. -/
theorem Shows.otherCommand {w : MockWorld} {k j : ℕ} {l : Ledger} (hl : w.Shows k l)
    {self : MockNetwork} (hself : w.nodes[j]? = some self) (hj : j ≠ k) (cmd : NetworkCommand) :
    let out := w.handleCommand j self cmd
    (out.1.logged ⟨j, cmd, out.2⟩).Shows k l := by
  refine hl.of_same ?_ (w.handleCommand_received j self cmd k) ?_
  · rw [sentBy_logged, sentBy, w.handleCommand_calls]
    simp [sentBy, MockCall.countsFor, hj]
  · refine (handleCommand_listening hself cmd k).trans ?_
    simp only [if_neg hj]
    cases (w.handleCommand j self cmd).2 <;> exact List.append_nil _

/-- The failure that a poll returns is about an acknowledged send, and new to the Manager. -/
theorem Shows.permits {w : MockWorld} (hw : w.Accounted) (hcount : w.calls.length < 2 ^ 64)
    {k : ℕ} {l : Ledger} (hl : w.Shows k l) {self : MockNetwork}
    (hself : w.nodes[k]? = some self) {e : NetworkEvent} {rest : List NetworkEvent}
    (hqueue : self.eventRx.queue = e :: rest) : l.Permits (.event e) := by
  intro msgId hid
  have henqueued : w.enqueued k = w.received k ++ e :: rest := by
    simp [enqueued, received, hself, hqueue]
  have hfailed : w.failedIds k = l.failed ++ msgId :: rest.filterMap NetworkEvent.failedId? := by
    rw [failedIds, henqueued, List.filterMap_append, List.filterMap_cons, hid, hl.failed]
  have hsub := hw.failures k
  have hnodup := ((hw.numbered.nodup hcount k).sublist hsub).of_map
  rw [← hl.sent] at hsub
  rw [hfailed] at hsub hnodup
  constructor
  · have hmem := hsub.subset (List.mem_map_of_mem
      (List.mem_append_right _ (List.mem_cons_self (a := msgId))))
    simpa using hmem
  · intro hmem
    exact (List.nodup_append.mp hnodup).2.2 msgId hmem msgId (List.mem_cons_self ..) rfl

theorem Shows.tryRecv {w : MockWorld} (hw : w.Accounted) (hcount : w.calls.length < 2 ^ 64)
    {k : ℕ} {l : Ledger} (hl : w.Shows k l) (j : ℕ) : w.Continues k l (.tryRecv j) := by
  have hlistening : (w.next (.tryRecv j)).listening k = w.listening k :=
    w.listening_modify j (fun _ => by rfl) k
  by_cases hj : j = k
  · subst j
    cases hself : w.nodes[k]? with
    | none =>
      have hobserve : w.observe k (.tryRecv k) = [] := by simp [observe, hself]
      rw [Continues, hobserve]
      exact ⟨trivial, hl.of_same rfl (by simp [next, modify, received, hself]) hlistening⟩
    | some self =>
      have hreceived : (w.next (.tryRecv k)).received k = self.eventRx.tryRecv.received := by
        simp [next, modify, received, hself]
      have hbefore : w.received k = self.eventRx.received := by rw [received, hself]
      cases hqueue : self.eventRx.queue with
      | nil =>
        have hobserve : w.observe k (.tryRecv k) = [] := by simp [observe, hself, hqueue]
        rw [Continues, hobserve]
        refine ⟨trivial, hl.of_same rfl ?_ hlistening⟩
        rw [hreceived, hbefore, EventChannel.tryRecv, hqueue]
      | cons e rest =>
        have hobserve : w.observe k (.tryRecv k) = [.event e] := by simp [observe, hself, hqueue]
        have hone : [e].filterMap NetworkEvent.failedId? = e.failedId?.toList := by
          cases hid : e.failedId? <;> simp [hid]
        rw [Continues, hobserve]
        refine ⟨⟨hl.permits hw hcount hself hqueue, trivial⟩, hl.sent, ?_, ?_, hl.free⟩
        · rw [hreceived, EventChannel.tryRecv, hqueue, List.filterMap_append, hone, ← hbefore,
            ← hl.failed]
          rfl
        · exact hl.listening.trans hlistening.symm
  · have hobserve : w.observe k (.tryRecv j) = [] := by simp [observe, hj]
    rw [Continues, hobserve]
    refine ⟨trivial, hl.of_same rfl ?_ hlistening⟩
    simp only [next, modify, received, List.getElem?_modify, if_neg hj]
    cases w.nodes[k]? <;> rfl

theorem elim_newWithRegistry {γ : Type} (w : MockWorld) (now k : ℕ) {d : γ}
    {g : MockNetwork → γ} (hg : ∀ peerId, g ⟨peerId, [], 1, .unboundedChannel⟩ = d) :
    (w.newWithRegistry now).nodes[k]?.elim d g = w.nodes[k]?.elim d g := by
  simp only [newWithRegistry, List.getElem?_append]
  split_ifs with hk
  · rfl
  · rw [List.getElem?_eq_none (not_lt.mp hk)]
    rcases k - w.nodes.length with _ | m
    · exact hg _
    · rfl

theorem Shows.command {w : MockWorld} (hw : w.Accounted) {k : ℕ} {l : Ledger}
    (hl : w.Shows k l) (j : ℕ) (cmd : NetworkCommand) : w.Continues k l (.command j cmd) := by
  by_cases hopen : ∃ self, w.nodes[j]? = some self ∧ self.eventRx.isOpen = true
  · obtain ⟨self, hself, hopen⟩ := hopen
    rw [Continues, next_command hself hopen]
    by_cases hj : j = k
    · subst j
      have hobserve : w.observe k (.command k cmd) =
          [.command cmd, .reply (w.handleCommand k self cmd).2] := by
        simp [observe, hself, hopen]
      rw [hobserve]
      exact ⟨⟨hl.free, ⟨cmd, rfl, hl.answers hw hself cmd⟩, trivial⟩, hl.ownCommand hself cmd⟩
    · have hobserve : w.observe k (.command j cmd) = [] := by
        cases hk : w.nodes[k]? <;> simp [observe, hk, hj]
      rw [hobserve]
      exact ⟨trivial, hl.otherCommand hself hj cmd⟩
  · push Not at hopen
    have hnext : w.next (.command j cmd) = w := by
      cases hself : w.nodes[j]? with
      | none => simp [next, hself]
      | some self => simp [next, hself, hopen self hself]
    have hobserve : w.observe k (.command j cmd) = [] := by
      cases hk : w.nodes[k]? with
      | none => simp [observe, hk]
      | some self =>
        simp only [observe, hk]
        refine if_neg ?_
        rintro ⟨rfl, h⟩
        exact hopen self hk h
    rw [Continues, hobserve, hnext]
    exact ⟨trivial, hl⟩

theorem Shows.next {w : MockWorld} (hw : w.Accounted) (hcount : w.calls.length < 2 ^ 64)
    {k : ℕ} {l : Ledger} (hl : w.Shows k l) (i : MockInput) : w.Continues k l i := by
  cases i with
  | create now =>
    refine ⟨trivial, hl.of_same rfl ?_ (w.elim_newWithRegistry now k fun _ => rfl)⟩
    rw [received_eq, received_eq]
    exact w.elim_newWithRegistry now k fun _ => rfl
  | drop j =>
    refine ⟨trivial, hl.of_same rfl ?_ ?_⟩
    · exact w.received_modify j (fun _ => by rfl) k
    · exact w.listening_modify j (fun _ => by rfl) k
  | tryRecv j => exact hl.tryRecv hw hcount j
  | command j cmd => exact hl.command hw j cmd

/-! ### Runs -/

theorem accounted_newRegistry : newRegistry.Accounted where
  named := named_newRegistry
  numbered := ⟨fun _ => rfl, fun _ _ h => by simp [newRegistry] at h, fun _ h => by
    simp [newRegistry] at h, fun _ h => by simp [newRegistry] at h⟩
  failures _ := List.Sublist.refl _

theorem Accounted.next {w : MockWorld} (hw : w.Accounted) (hdistinct : w.peerIds.Nodup)
    (i : MockInput) : (w.next i).Accounted where
  named := named_next hw.named i
  numbered := numberedCalls_next hw.numbered i
  failures := ownFailures_next hw.failures hw.named hdistinct i

/-- Peer ids and calls are only added to. -/
theorem next_grows (w : MockWorld) (i : MockInput) :
    w.peerIds <+: (w.next i).peerIds ∧ w.calls.length ≤ (w.next i).calls.length := by
  by_cases hi : ∃ now, i = .create now
  · obtain ⟨now, rfl⟩ := hi
    rw [next, peerIds_newWithRegistry]
    exact ⟨List.prefix_append _ _, le_rfl⟩
  · push Not at hi
    rw [(w.next_peers hi).2]
    refine ⟨List.prefix_rfl, ?_⟩
    cases i with
    | create | tryRecv | drop => exact le_rfl
    | command k cmd =>
      simp only [next]
      split
      · exact le_rfl
      · split_ifs
        · simp [logged, handleCommand_calls]
        · exact le_rfl

/-- With distinct peer ids and fewer than 2⁶⁴ calls, whatever the Manager of any one node sees of
a run of all nodes, the contract allows. -/
theorem mock_conforms {inputs : List MockInput} (hdistinct : (machine.run inputs).peerIds.Nodup)
    (hcount : (machine.run inputs).calls.length < 2 ^ 64) (k : ℕ) :
    Allowed (machine.trace (observe k) newRegistry inputs) := by
  have hback : ∀ w i, (machine.next w i).peerIds.Nodup ∧ (machine.next w i).calls.length < 2 ^ 64 →
      w.peerIds.Nodup ∧ w.calls.length < 2 ^ 64 := by
    rintro w i ⟨hnodup, hlt⟩
    obtain ⟨hpeers, hcalls⟩ := w.next_grows i
    exact ⟨hnodup.sublist hpeers.sublist, hcalls.trans_lt hlt⟩
  have halong := machine.along_of_exec
    (P := fun w => w.peerIds.Nodup ∧ w.calls.length < 2 ^ 64) hback ⟨hdistinct, hcount⟩
  have hkeeps := (halong.mono hback).strengthen (P := Accounted)
    (fun w i hw hi => hw.next hi.1 i) accounted_newRegistry
  refine (hkeeps.trace_forward (N := contract) (E := Ledger.Permits) (R := fun w => w.Shows k) ?_
    (shows_newRegistry k)).1
  rintro w l i hl ⟨hw, -, hlt⟩
  exact hl.next hw hlt i

theorem mock_conforms_twoNodes :
    Allowed (machine.trace (observe 1) newRegistry ([1, 2].map .create ++ twoNodes)) :=
  mock_conforms (by decide +kernel) (by decide +kernel) 1

end MockWorld
end MeerkatNet.V2
