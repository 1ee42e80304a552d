import MeerkatNet.V2.MockDelivery

/-!
# Failures of mock sends

A dropped node leaves its entry in the registry, so a send to it ends in a channel that
nobody reads: it is neither delivered nor reported. A failure that is reported carries
the address and the id of the call it is about.
-/

namespace MeerkatNet.V2

open Runs

namespace MockWorld

def Live (w : MockWorld) (k : ℕ) : Prop := ∃ n, w.nodes[k]? = some n ∧ n.eventRx.isOpen = true

/-- The step puts exactly this event behind the queue of a node. -/
def Appends (w w' : MockWorld) (k : ℕ) (e : NetworkEvent) : Prop :=
  ∃ n n', w.nodes[k]? = some n ∧ w'.nodes[k]? = some n' ∧
    n'.eventRx.queue = n.eventRx.queue ++ [e]

/-- A send reaches the queue of the node that it is sent to, if that node lives. -/
theorem appends_send_iff {w : MockWorld} {k tx j : ℕ} {e e' : NetworkEvent} :
    w.Appends ((w.numbered k).send tx e) j e' ↔ j = tx ∧ e' = e ∧ w.Live tx := by
  have hchannel : ∀ n, w.nodes[j]? = some n → ∃ n', ((w.numbered k).send tx e).nodes[j]? = some n' ∧
      n'.eventRx = if tx = j then n.eventRx.send e else n.eventRx := by
    intro n hn
    by_cases hk : k = j <;> by_cases htx : tx = j <;>
      simp [send, numbered, modify, hn, hk, htx]
  constructor
  · rintro ⟨n, n', hn, hn', hqueue⟩
    obtain ⟨_, hsome, heq⟩ := hchannel n hn
    obtain rfl := Option.some.inj (hn'.symm.trans hsome)
    rw [heq] at hqueue
    split_ifs at hqueue with htx
    · subst htx
      unfold EventChannel.send at hqueue
      split_ifs at hqueue with hopen
      · exact ⟨rfl, by simpa using hqueue.symm, n, hn, hopen⟩
      · simp at hqueue
    · simp at hqueue
  · rintro ⟨rfl, rfl, n, hn, hopen⟩
    obtain ⟨n', hn', heq⟩ := hchannel n hn
    exact ⟨n, n', hn, hn', by simp [heq, EventChannel.send, hopen]⟩

theorem next_command {w : MockWorld} {k : ℕ} {self : MockNetwork}
    (hself : w.nodes[k]? = some self) (hopen : self.eventRx.isOpen = true) (cmd : NetworkCommand) :
    w.next (.command k cmd) =
      (w.handleCommand k self cmd).1.logged ⟨k, cmd, (w.handleCommand k self cmd).2⟩ := by
  simp [next, hself, hopen]

/-- With distinct peer ids, a send goes to a living node exactly if it names no dropped one. -/
theorem live_iff_of_settles {w : MockWorld} (hdistinct : w.peerIds.Nodup) {k tx : ℕ}
    {self : MockNetwork} (hself : w.nodes[k]? = some self) (hopen : self.eventRx.isOpen = true)
    {addr : Address} {msg : MeerkatMessage} {id : MessageId} {e : NetworkEvent}
    (hsettles : Settles w.peerIds ⟨k, .sendMessage addr msg, .messageSent id⟩ (tx, e)) :
    w.Live tx ↔ ∀ n ∈ w.nodes, extractPeerIdFromAddr addr.text = some n.peerId →
      n.eventRx.isOpen = true := by
  cases hsettles with
  | @delivered _ _ _ _ sender _ peer hsender hpeer htarget =>
    obtain ⟨n, hn, hid⟩ : ∃ n, w.nodes[tx]? = some n ∧ n.peerId = peer := by
      simpa [peerIds] using htarget
    constructor
    · rintro ⟨n', hn', hopen'⟩ m hm hnamed
      -- the node that the address names is the one that the send goes to
      rw [hpeer, Option.some.injEq] at hnamed
      obtain ⟨j, hj⟩ := List.mem_iff_getElem?.mp hm
      have hsame : j = tx := (List.getElem?_inj (List.getElem?_eq_some_iff.mp
        (peerIds_getElem? hj)).1 hdistinct).mp (by rw [peerIds_getElem? hj, htarget, hnamed])
      rw [hsame] at hj
      rwa [Option.some.inj (hj.symm.trans hn')]
    · intro hnamed
      exact ⟨n, hn, hnamed n (List.mem_of_getElem? hn) (by rw [hpeer, hid])⟩
  | unreachable hpeer hnone =>
    refine ⟨fun _ n hn hnamed => ?_, fun _ => ⟨self, hself, hopen⟩⟩
    rw [hpeer, Option.some.injEq] at hnamed
    exact absurd (List.mem_map.mpr ⟨n, hn, hnamed.symm⟩) hnone
  | noPeer hpeer =>
    refine ⟨fun _ n hn hnamed => ?_, fun _ => ⟨self, hself, hopen⟩⟩
    rw [hpeer] at hnamed
    cases hnamed

/-- Among nodes with distinct peer ids, a send that reaches no living node is reported by one
`SendFailed` to its sender exactly if it does not name a dropped node. -/
theorem undelivered_reported_iff {inputs : List MockInput}
    (hdistinct : (machine.run inputs).peerIds.Nodup) {k : ℕ} {self : MockNetwork}
    (hself : (machine.run inputs).nodes[k]? = some self) (hopen : self.eventRx.isOpen = true)
    (addr : Address) (msg : MeerkatMessage) :
    let w := machine.run inputs
    let w' := w.next (.command k (.sendMessage addr msg))
    (∃ id, w'.calls = w.calls ++ [⟨k, .sendMessage addr msg, .messageSent id⟩] ∧
      ((¬ ∃ j, w.Live j ∧ w.Appends w' j (.messageReceived self.peerId msg)) →
        ∃ error, w.Appends w' k (.sendFailed id error))) ↔
    ∀ n ∈ w.nodes, extractPeerIdFromAddr addr.text = some n.peerId → n.eventRx.isOpen = true := by
  intro w w'
  have hregistry : ∀ peer k, w.registry peer = some k ↔ w.peerIds[k]? = some peer :=
    fun _ _ => (named_run inputs).registry_eq_some_iff hdistinct
  obtain ⟨⟨tx, e⟩, _, -, hout, hsettles⟩ := sendMessage_settles hregistry hself addr msg
  have hw' : w' = ((w.numbered k).send tx e).logged
      ⟨k, .sendMessage addr msg, .messageSent ⟨self.nextMessageId⟩⟩ := by
    have hnext := next_command hself hopen (.sendMessage addr msg)
    rwa [hout] at hnext
  have happends : ∀ j e', w.Appends w' j e' ↔ j = tx ∧ e' = e ∧ w.Live tx := by
    intro j e'
    rw [hw']
    exact appends_send_iff
  have hcalls : w'.calls =
      w.calls ++ [⟨k, .sendMessage addr msg, .messageSent ⟨self.nextMessageId⟩⟩] := by
    rw [hw']
    rfl
  rw [← live_iff_of_settles hdistinct hself hopen hsettles]
  constructor
  · rintro ⟨id, -, hreported⟩
    by_contra hdead
    have hnone : ∀ j e', ¬ w.Appends w' j e' := fun j e' h => hdead ((happends j e').mp h).2.2
    obtain ⟨error, happend⟩ := hreported fun h => hnone _ _ h.choose_spec.2
    exact hnone _ _ happend
  · intro hlive
    refine ⟨⟨self.nextMessageId⟩, hcalls, ?_⟩
    intro hundelivered
    cases hsettles with
    | @delivered _ _ _ _ sender _ peer hsender hpeer htarget' =>
      obtain rfl : sender = self.peerId :=
        Option.some.inj (hsender.symm.trans (peerIds_getElem? hself))
      exact absurd ⟨tx, hlive, (happends _ _).mpr ⟨rfl, rfl, hlive⟩⟩ hundelivered
    | unreachable | noPeer => exact ⟨_, (happends _ _).mpr ⟨rfl, rfl, hlive⟩⟩

theorem not_appends_of_channels {w w' : MockWorld}
    (h : w'.nodes.map MockNetwork.eventRx = w.nodes.map MockNetwork.eventRx) (k : ℕ)
    (e : NetworkEvent) : ¬ w.Appends w' k e := by
  rintro ⟨n, n', hn, hn', hqueue⟩
  have hk := congrArg (fun channels => channels[k]?) h
  simp only [List.getElem?_map, hn, hn', Option.map_some, Option.some.injEq] at hk
  simp [hk] at hqueue

/-- Two nodes of which the second is dropped. -/
def oneDropped : List MockInput := [.create 1, .create 2, .drop 1]

/-- The message to the dropped node comes into no queue, and the sender is told nothing; the same
message to a node that never existed is reported. -/
theorem dropped_unreported :
    let w := machine.run oneDropped
    let w' := w.next (.command 0 (.sendMessage ⟨"/p2p/mock-peer-00000002"⟩ (.ping "a")))
    let v := w.next (.command 0 (.sendMessage ⟨"/p2p/mock-peer-00000003"⟩ (.ping "a")))
    w.peerIds.Nodup ∧ w.Live 0 ∧ w'.calls.map MockCall.reply = [.messageSent ⟨1⟩] ∧
    (∀ j e, ¬ w.Appends w' j e) ∧
    w.Appends v 0 (.sendFailed ⟨1⟩ (.unreachableAddress ⟨"/p2p/mock-peer-00000003"⟩)) := by
  refine ⟨by decide +kernel, ⟨_, rfl, rfl⟩, by decide +kernel, ?_, _, _, rfl, rfl, ?_⟩
  · intro j e
    exact not_appends_of_channels (by decide +kernel) j e
  · decide +kernel

theorem undelivered_reported_iff_oneDropped :
    let w := machine.run oneDropped
    let w' := w.next (.command 0 (.sendMessage ⟨"/p2p/mock-peer-00000002"⟩ (.ping "a")))
    (∃ id, w'.calls = w.calls ++
        [⟨0, .sendMessage ⟨"/p2p/mock-peer-00000002"⟩ (.ping "a"), .messageSent id⟩] ∧
      ((¬ ∃ j, w.Live j ∧ w.Appends w' j (.messageReceived "mock-peer-00000001" (.ping "a"))) →
        ∃ error, w.Appends w' 0 (.sendFailed id error))) ↔
    ∀ n ∈ w.nodes, extractPeerIdFromAddr "/p2p/mock-peer-00000002" = some n.peerId →
      n.eventRx.isOpen = true := by
  have hself : (machine.run oneDropped).nodes[0]? =
      some ⟨"mock-peer-00000001", [], 1, .unboundedChannel⟩ := by decide +kernel
  exact undelivered_reported_iff (by decide +kernel) hself rfl _ _

/-! ### The address of a failure -/

theorem mem_enqueued_send {w : MockWorld} {tx j : ℕ} {e e' : NetworkEvent}
    (h : e ∈ (w.send tx e').enqueued j) : e ∈ w.enqueued j ∨ (tx = j ∧ e = e') := by
  simp only [enqueued, send, modify, List.getElem?_modify] at h ⊢
  cases hj : w.nodes[j]? with
  | none => simp [hj] at h
  | some n =>
    by_cases htx : tx = j
    · simp only [hj, htx, if_true, Option.map_eq_map, Option.map_some, EventChannel.send] at h ⊢
      split_ifs at h
      · simpa [or_assoc] using h
      · exact .inl h
    · simpa [hj, htx] using h

/-- A send takes a number and sends at most one event. -/
theorem handleCommand_sendMessage (w : MockWorld) (k : ℕ) (self : MockNetwork) (addr : Address)
    (msg : MeerkatMessage) :
    (w.handleCommand k self (.sendMessage addr msg)).2 = .messageSent ⟨self.nextMessageId⟩ ∧
    ((w.handleCommand k self (.sendMessage addr msg)).1 = w.numbered k ∨
      ∃ tx e, (w.handleCommand k self (.sendMessage addr msg)).1 = (w.numbered k).send tx e) := by
  have hsendTo : ∀ peer e, (w.numbered k).sendTo peer e = w.numbered k ∨
      ∃ tx e', (w.numbered k).sendTo peer e = (w.numbered k).send tx e' := by
    intro peer e
    unfold sendTo
    split
    · exact .inr ⟨_, _, rfl⟩
    · exact .inl rfl
  simp only [handleCommand]
  split
  · split
    · exact ⟨rfl, .inr ⟨_, _, rfl⟩⟩
    · exact ⟨rfl, hsendTo _ _⟩
  · exact ⟨rfl, hsendTo _ _⟩

/-- A new failure about an address is one of the command, and goes to the entry of its sender. -/
theorem handleCommand_unreachable {w : MockWorld} {k j : ℕ} {self : MockNetwork}
    {cmd : NetworkCommand} {id : MessageId} {addr : Address}
    (h : .sendFailed id (.unreachableAddress addr) ∈ (w.handleCommand k self cmd).1.enqueued j) :
    .sendFailed id (.unreachableAddress addr) ∈ w.enqueued j ∨
      ((∃ msg, cmd = .sendMessage addr msg) ∧ (w.handleCommand k self cmd).2 = .messageSent id ∧
        w.registry self.peerId = some j) := by
  have hnumbered : ∀ e, e ∈ (w.numbered k).enqueued j → e ∈ w.enqueued j := by
    intro e he
    rwa [numbered, w.enqueued_modify k (fun _ => by rfl)] at he
  have hown : ∀ e, .sendFailed id (.unreachableAddress addr) ∈
      ((w.numbered k).sendTo self.peerId e).enqueued j →
      .sendFailed id (.unreachableAddress addr) ∈ w.enqueued j ∨
        (e = .sendFailed id (.unreachableAddress addr) ∧ w.registry self.peerId = some j) := by
    intro e he
    unfold sendTo at he
    split at he
    · rename_i tx htx
      rcases mem_enqueued_send he with he | ⟨rfl, rfl⟩
      · exact .inl (hnumbered _ he)
      · exact .inr ⟨rfl, htx⟩
    · exact .inl (hnumbered _ he)
  cases cmd with
  | listen bound =>
    refine .inl ?_
    simp only [handleCommand] at h
    rwa [w.enqueued_modify k (fun _ => by rfl)] at h
  | listenViaRelay | getLocalAddresses => exact .inl h
  | sendMessage addr' msg =>
    rw [(w.handleCommand_sendMessage k self addr' msg).1]
    simp only [handleCommand, registry_numbered] at h
    split at h
    · split at h
      · rcases mem_enqueued_send h with h | ⟨-, h⟩
        · exact .inl (hnumbered _ h)
        · cases h
      · refine (hown _ h).imp_right ?_
        rintro ⟨heq, hregistry⟩
        cases heq
        exact ⟨⟨msg, rfl⟩, rfl, hregistry⟩
    · refine (hown _ h).imp_right ?_
      rintro ⟨heq, -⟩
      cases heq

/-- Every failure about an address is about the address of a recorded call with its id; while the
peer ids differ, that call was made by the node whose channel it is in. -/
structure Attributed (w : MockWorld) : Prop where
  call : ∀ j id addr, .sendFailed id (.unreachableAddress addr) ∈ w.enqueued j →
    ∃ call ∈ w.calls, (∃ msg, call.cmd = .sendMessage addr msg) ∧ call.reply = .messageSent id ∧
      (w.peerIds.Nodup → call.node = j)

theorem Attributed.of_subset {w w' : MockWorld} (hw : w.Attributed) (hcalls : w'.calls = w.calls)
    (hpeers : w.peerIds <+: w'.peerIds) (hsub : ∀ j, w'.enqueued j ⊆ w.enqueued j) :
    w'.Attributed where
  call j id addr h := by
    obtain ⟨call, hmem, hcmd, hreply, hnode⟩ := hw.call j id addr (hsub j h)
    exact ⟨call, hcalls ▸ hmem, hcmd, hreply, fun hnodup => hnode (hnodup.sublist hpeers.sublist)⟩

theorem enqueued_modify_subset (w : MockWorld) (k : ℕ) {f : MockNetwork → MockNetwork}
    (hf : ∀ n, (f n).eventRx.received ++ (f n).eventRx.queue ⊆
      n.eventRx.received ++ n.eventRx.queue) (j : ℕ) :
    (w.modify k f).enqueued j ⊆ w.enqueued j := by
  simp only [enqueued, modify, List.getElem?_modify]
  cases w.nodes[j]? with
  | none => simp
  | some n =>
    by_cases hj : k = j
    · simpa [hj] using hf n
    · simp [hj]

theorem attributed_next {w : MockWorld} (hw : w.Attributed) (hnamed : w.Named) (i : MockInput) :
    (w.next i).Attributed := by
  cases i with
  | create now =>
    refine hw.of_subset rfl (peerIds_newWithRegistry w now ▸ List.prefix_append _ _) ?_
    intro j
    simp only [next, newWithRegistry, enqueued, List.getElem?_append]
    split_ifs with hj
    · exact List.Subset.refl _
    · cases j - w.nodes.length <;> simp [EventChannel.unboundedChannel]
  | tryRecv k =>
    have hpeers := (w.next_peers (i := .tryRecv k) (by simp)).2
    refine hw.of_subset rfl (hpeers ▸ List.prefix_rfl) ?_
    exact w.enqueued_modify_subset k fun n => by
      rw [EventChannel.tryRecv_events]
      exact List.Subset.refl _
  | drop k =>
    have hpeers := (w.next_peers (i := .drop k) (by simp)).2
    refine hw.of_subset rfl (hpeers ▸ List.prefix_rfl) ?_
    exact w.enqueued_modify_subset k fun n => by simp [EventChannel.close]
  | command k cmd =>
    cases hself : w.nodes[k]? with
    | none => simpa [next, hself] using hw
    | some self =>
      by_cases hopen : self.eventRx.isOpen = true
      · have hpeers := (w.handleCommand_peers k self cmd).2
        rw [next_command hself hopen]
        constructor
        intro j id addr h
        rcases handleCommand_unreachable h with hold | ⟨hcmd, hreply, hregistry⟩
        · obtain ⟨call, hmem, hcmd, hreply, hnode⟩ := hw.call j id addr hold
          refine ⟨call, List.mem_append_left _ ?_, hcmd, hreply, fun hnodup => hnode ?_⟩
          · rwa [handleCommand_calls]
          · exact hpeers ▸ hnodup
        · refine ⟨_, List.mem_append_right _ (List.mem_singleton_self _), hcmd, hreply, ?_⟩
          intro hnodup
          have hnodup' : w.peerIds.Nodup := hpeers ▸ hnodup
          have hk := (hnamed.registry_eq_some_iff hnodup').mpr (peerIds_getElem? hself)
          exact Option.some.inj (hk.symm.trans hregistry)
      · simpa [next, hself, hopen] using hw

/-! ### Ids -/

def MockCall.countsFor (k : ℕ) (c : MockCall) : Bool := decide (c.node = k) && c.isSend

/-- The sends of a node, in order. -/
def sentBy (w : MockWorld) (k : ℕ) : List MockCall := w.calls.filter (MockCall.countsFor k)

/-- Every node numbers its sends from one. -/
structure NumberedCalls (w : MockWorld) : Prop where
  replies : ∀ k, (w.sentBy k).map MockCall.reply =
    (List.range (w.sentBy k).length).map fun j => .messageSent ⟨UInt64.ofNat (j + 1)⟩
  counter : ∀ k n, w.nodes[k]? = some n →
    n.nextMessageId = UInt64.ofNat ((w.sentBy k).length + 1)
  sends : ∀ c ∈ w.calls, ∀ id, c.reply = .messageSent id → c.isSend = true
  nodes : ∀ c ∈ w.calls, c.node < w.nodes.length

theorem nextMessageId_modify {w : MockWorld} {k : ℕ} {f : MockNetwork → MockNetwork}
    (hf : ∀ n, (f n).nextMessageId = n.nextMessageId) {j : ℕ} {n : MockNetwork}
    (hn : (w.modify k f).nodes[j]? = some n) :
    ∃ m, w.nodes[j]? = some m ∧ n.nextMessageId = m.nextMessageId := by
  simp only [modify, List.getElem?_modify, Option.map_eq_map, Option.map_eq_some_iff] at hn
  obtain ⟨m, hm, rfl⟩ := hn
  refine ⟨m, hm, ?_⟩
  split_ifs
  · exact hf m
  · rfl

/-- A command raises the number of its node if it is a send, and no other. -/
theorem handleCommand_nextMessageId {w : MockWorld} {k j : ℕ} {self n : MockNetwork}
    {cmd : NetworkCommand} (hn : (w.handleCommand k self cmd).1.nodes[j]? = some n) :
    ∃ m, w.nodes[j]? = some m ∧ n.nextMessageId =
      if MockCall.countsFor j ⟨k, cmd, (w.handleCommand k self cmd).2⟩ then m.nextMessageId + 1
      else m.nextMessageId := by
  cases cmd with
  | sendMessage addr msg =>
    obtain ⟨m, hm, hid⟩ : ∃ m, (w.numbered k).nodes[j]? = some m ∧
        n.nextMessageId = m.nextMessageId := by
      obtain ⟨-, h | ⟨tx, e, h⟩⟩ := handleCommand_sendMessage w k self addr msg <;> rw [h] at hn
      · exact ⟨n, hn, rfl⟩
      · exact nextMessageId_modify (fun _ => by rfl) hn
    simp only [numbered, modify, List.getElem?_modify, Option.map_eq_map,
      Option.map_eq_some_iff] at hm
    obtain ⟨m', hm', rfl⟩ := hm
    refine ⟨m', hm', ?_⟩
    rw [hid]
    by_cases hk : k = j <;> simp [MockCall.countsFor, MockCall.isSend, hk]
  | listen addr =>
    obtain ⟨m, hm, hid⟩ := nextMessageId_modify (fun _ => by rfl) hn
    exact ⟨m, hm, by simpa [MockCall.countsFor, MockCall.isSend] using hid⟩
  | listenViaRelay | getLocalAddresses =>
    exact ⟨n, hn, by simp [MockCall.countsFor, MockCall.isSend]⟩

theorem length_handleCommand (w : MockWorld) (k : ℕ) (self : MockNetwork) (cmd : NetworkCommand) :
    (w.handleCommand k self cmd).1.nodes.length = w.nodes.length := by
  have hpeers := congrArg List.length (w.handleCommand_peers k self cmd).2
  simpa [peerIds] using hpeers

theorem NumberedCalls.command {w : MockWorld} (hw : w.NumberedCalls) {k : ℕ} {self : MockNetwork}
    (hself : w.nodes[k]? = some self) (cmd : NetworkCommand) :
    ((w.handleCommand k self cmd).1.logged
      ⟨k, cmd, (w.handleCommand k self cmd).2⟩).NumberedCalls := by
  have hsent : ∀ j, ((w.handleCommand k self cmd).1.logged
      ⟨k, cmd, (w.handleCommand k self cmd).2⟩).sentBy j =
      w.sentBy j ++ [⟨k, cmd, (w.handleCommand k self cmd).2⟩].filter (MockCall.countsFor j) := by
    intro j
    simp [sentBy, logged, handleCommand_calls]
  have hreply : ∀ j, MockCall.countsFor j ⟨k, cmd, (w.handleCommand k self cmd).2⟩ = true →
      j = k ∧ (w.handleCommand k self cmd).2 = .messageSent ⟨self.nextMessageId⟩ := by
    intro j hj
    simp only [MockCall.countsFor, Bool.and_eq_true, decide_eq_true_eq] at hj
    refine ⟨hj.1.symm, ?_⟩
    cases cmd with
    | sendMessage addr msg => exact (w.handleCommand_sendMessage k self addr msg).1
    | listen | listenViaRelay | getLocalAddresses => simp [MockCall.isSend] at hj
  constructor
  · intro j
    rw [hsent]
    by_cases hj : MockCall.countsFor j ⟨k, cmd, (w.handleCommand k self cmd).2⟩ = true
    · obtain ⟨rfl, hmessage⟩ := hreply j hj
      have hkept : [⟨j, cmd, (w.handleCommand j self cmd).2⟩].filter (MockCall.countsFor j) =
          [⟨j, cmd, (w.handleCommand j self cmd).2⟩] := by simp [hj]
      rw [hkept, List.map_append, hw.replies j, List.length_append, List.length_singleton,
        List.range_succ, List.map_append, List.map_singleton, List.map_singleton,
        ← hw.counter j self hself, hmessage]
    · rw [Bool.not_eq_true] at hj
      simpa [hj] using hw.replies j
  · intro j n hn
    obtain ⟨m, hm, hid⟩ := handleCommand_nextMessageId hn
    rw [hid, hsent, hw.counter j m hm]
    split_ifs with hj
    · simp [hj, UInt64.ofNat_add]
    · rw [Bool.not_eq_true] at hj
      simp [hj]
  · intro c hc id hid
    rcases List.mem_append.mp hc with hc | hc
    · exact hw.sends c (handleCommand_calls w k self cmd ▸ hc) id hid
    · obtain rfl := List.mem_singleton.mp hc
      cases cmd with
      | sendMessage => rfl
      | listen | listenViaRelay | getLocalAddresses => cases hid
  · intro c hc
    change c.node < (w.handleCommand k self cmd).1.nodes.length
    rw [length_handleCommand]
    rcases List.mem_append.mp hc with hc | hc
    · exact hw.nodes c (handleCommand_calls w k self cmd ▸ hc)
    · obtain rfl := List.mem_singleton.mp hc
      exact (List.getElem?_eq_some_iff.mp hself).1

theorem NumberedCalls.modify {w : MockWorld} (hw : w.NumberedCalls) (k : ℕ)
    {f : MockNetwork → MockNetwork} (hf : ∀ n, (f n).nextMessageId = n.nextMessageId) :
    (w.modify k f).NumberedCalls where
  replies := hw.replies
  counter j n hn := by
    obtain ⟨m, hm, hid⟩ := nextMessageId_modify hf hn
    rw [hid]
    exact hw.counter j m hm
  sends := hw.sends
  nodes c hc := by simpa [MockWorld.modify] using hw.nodes c hc

theorem numberedCalls_next {w : MockWorld} (hw : w.NumberedCalls) (i : MockInput) :
    (w.next i).NumberedCalls := by
  cases i with
  | create now =>
    refine ⟨hw.replies, ?_, hw.sends, ?_⟩
    · intro j n hn
      simp only [next, newWithRegistry, List.getElem?_append] at hn
      split_ifs at hn with hj
      · exact hw.counter j n hn
      · -- nothing was sent by the new node
        obtain ⟨hlt, rfl⟩ := List.getElem?_eq_some_iff.mp hn
        have hnone : w.sentBy j = [] := by
          rw [sentBy, List.filter_eq_nil_iff]
          intro c hc hcount
          have hnode := hw.nodes c hc
          simp only [MockCall.countsFor, Bool.and_eq_true, decide_eq_true_eq] at hcount
          omega
        change _ = UInt64.ofNat ((w.sentBy j).length + 1)
        simp [hnone]
    · intro c hc
      have hnode := hw.nodes c hc
      simp only [next, newWithRegistry, List.length_append]
      omega
  | tryRecv k | drop k => exact hw.modify k fun _ => rfl
  | command k cmd =>
    cases hself : w.nodes[k]? with
    | none => simpa [next, hself] using hw
    | some self =>
      by_cases hopen : self.eventRx.isOpen = true
      · rw [next_command hself hopen]
        exact hw.command hself cmd
      · simpa [next, hself, hopen] using hw

theorem NumberedCalls.nodup {w : MockWorld} (hw : w.NumberedCalls)
    (hcount : w.calls.length < 2 ^ 64) (k : ℕ) : ((w.sentBy k).map MockCall.reply).Nodup := by
  have hlength : (w.sentBy k).length ≤ w.calls.length := List.length_filter_le _ _
  rw [hw.replies]
  refine List.Nodup.map_on ?_ List.nodup_range
  intro i hi j hj h
  rw [List.mem_range] at hi hj
  have hval := congrArg (fun id : MessageId => id.val.toNat) (NetworkReply.messageSent.inj h)
  simp only [UInt64.toNat_ofNat'] at hval
  rw [Nat.mod_eq_of_lt (by omega), Nat.mod_eq_of_lt (by omega)] at hval
  omega

/-- A failure about an address is about the address of a call that returned its id; with distinct
peer ids and below 2⁶⁴ calls, of the only such call of the node that gets the failure. -/
theorem unreachable_of_call {inputs : List MockInput} {k : ℕ} {id : MessageId} {addr : Address}
    (h : .sendFailed id (.unreachableAddress addr) ∈ (machine.run inputs).enqueued k) :
    (∃ call ∈ (machine.run inputs).calls, call.reply = .messageSent id ∧
      ∃ msg, call.cmd = .sendMessage addr msg) ∧
    ((machine.run inputs).peerIds.Nodup → (machine.run inputs).calls.length < 2 ^ 64 →
      ∀ call ∈ (machine.run inputs).calls, call.node = k → call.reply = .messageSent id →
        ∃ msg, call.cmd = .sendMessage addr msg) := by
  have hinv := machine.run_invariant (P := fun w => w.Named ∧ w.Attributed ∧ w.NumberedCalls)
    ⟨named_newRegistry, ⟨fun j id addr h => by simp [enqueued, newRegistry] at h⟩,
      ⟨fun k => rfl, fun k n hn => by simp [newRegistry] at hn, fun c hc => by
        simp [newRegistry] at hc, fun c hc => by simp [newRegistry] at hc⟩⟩
    (fun w i hw => ⟨named_next hw.1 i, attributed_next hw.2.1 hw.1 i, numberedCalls_next hw.2.2 i⟩)
    inputs
  obtain ⟨-, hattributed, hnumbered⟩ := hinv
  obtain ⟨call, hmem, hcmd, hreply, hnode⟩ := hattributed.call k id addr h
  refine ⟨⟨call, hmem, hreply, hcmd⟩, ?_⟩
  intro hdistinct hcount call' hmem' hnode' hreply'
  have hsent : ∀ c ∈ (machine.run inputs).calls, c.node = k → c.reply = .messageSent id →
      c ∈ (machine.run inputs).sentBy k := by
    intro c hc hck hcreply
    rw [sentBy, List.mem_filter]
    exact ⟨hc, by simp [MockCall.countsFor, hck, hnumbered.sends c hc id hcreply]⟩
  have hsame : call' = call := List.inj_on_of_nodup_map (hnumbered.nodup hcount k)
    (hsent call' hmem' hnode' hreply') (hsent call hmem (hnode hdistinct) hreply)
    (hreply'.trans hreply.symm)
  rw [hsame]
  exact hcmd

end MockWorld
end MeerkatNet.V2
