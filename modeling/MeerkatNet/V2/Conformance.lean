import MeerkatNet.V2.Contract
import MeerkatNet.V2.MessageIds

/-!
# The actor keeps the contract

What the Manager sees of a run of the actor: each command that the actor accepts, the
replies, and the events as they are polled. However the event loop, the readers and the
polls are interleaved, every such trace is one that the contract allows.
-/

namespace MeerkatNet.V2

open Libp2p KeyedQueues Runs NetworkLayer

variable {PeerId : Type}

theorem failedId?_eq (e : NetworkEvent) : e.failedId? = e.failure?.map Prod.fst := by
  cases e <;> rfl

/-- A command whose reply is awaited from the loop. -/
def NetworkCommand.IsRequest : NetworkCommand → Prop
  | .listen _ | .listenViaRelay _ => True
  | .sendMessage _ _ | .getLocalAddresses => False

theorem NetworkCommand.IsRequest.answers {cmd : NetworkCommand} (h : cmd.IsRequest)
    (l : Ledger) :
    (∀ addr, l.Answers cmd (.listenSuccess addr)) ∧ ∀ text, l.Answers cmd (.failure text) := by
  cases cmd with
  | listen | listenViaRelay => exact ⟨fun _ => trivial, fun _ => trivial⟩
  | sendMessage | getLocalAddresses => exact h.elim

namespace Node

def accepted? (n : Node PeerId) : NodeInput PeerId → Option NetworkCommand
  | .command cmd => if n.waiting = none then some cmd else none
  | _ => none

/-- The event that `try_recv_event` returns. -/
def polled? (n : Node PeerId) : NodeInput PeerId → Option NetworkEvent
  | .tryRecv => n.posted[n.received]?.map Posted.event
  | _ => none

/-- The ids of the failures that were polled. -/
def polledFailures (n : Node PeerId) : List MessageId :=
  (n.posted.take n.received).filterMap fun p => p.event.failedId?

/-- The ledger of a Manager that has seen all that the node has shown. -/
structure Shows (n : Node PeerId) (l : Ledger) : Prop where
  sent : l.sent = n.issuedIds
  failed : l.failed = n.polledFailures
  listening : l.listening = n.actor.localAddrs
  free : n.waiting = none → l.outstanding = none
  awaiting : n.waiting ≠ none → ∃ cmd, l.outstanding = some cmd ∧ cmd.IsRequest

theorem shows_init (me : PeerId) (nodeType : NodeType) : (init me nodeType).Shows .empty :=
  ⟨rfl, rfl, rfl, fun _ => rfl, fun h => absurd rfl h⟩

variable [DecidableEq PeerId] (F : Formats PeerId) (S : Serde)

/-- What the Manager sees of a step. -/
def observe (n : Node PeerId) (i : NodeInput PeerId) : List Observation :=
  (n.accepted? i).toList.map .command ++
    ((n.next F S i).replies.drop n.replies.length).map (fun r => .reply r.2) ++
      (n.polled? i).toList.map .event

/-- The ids of the sends, and the events behind the polled ones, are as the loop left them. -/
structure Accounted (n : Node PeerId) : Prop where
  numbered : n.Numbered
  failures : n.sendFailures = n.world.failures
  once : n.world.OneOutcome
  received : n.received ≤ n.posted.length

omit [DecidableEq PeerId] in
theorem accounted_init (me : PeerId) (nodeType : NodeType) : (init me nodeType).Accounted :=
  ⟨numbered_init me nodeType, rfl, World.oneOutcome_init, le_rfl⟩

/-- Events are put behind the others, and only a poll takes one. -/
theorem polled_next (n : Node PeerId) (i : NodeInput PeerId) :
    n.posted <+: (n.next F S i).posted ∧ ((n.next F S i).received = n.received ∨
      (i = .tryRecv ∧ (n.next F S i).received = min (n.received + 1) n.posted.length)) := by
  have hstep := next_nodeStep F S n i
  generalize n.next F S i = n' at hstep
  cases hstep with
  | taken | iterated | posted => exact ⟨List.prefix_append _ _, .inl rfl⟩
  | polled => exact ⟨List.prefix_rfl, .inr ⟨rfl, rfl⟩⟩
  | _ => exact ⟨List.prefix_rfl, .inl rfl⟩

theorem Accounted.next {n : Node PeerId} (hn : n.Accounted) {i : NodeInput PeerId}
    (hcount : (n.next F S i).issued.length < 2 ^ 64) : (n.next F S i).Accounted where
  numbered := numbered_next F S hn.numbered i
  failures := sendFailures_next F S hn.failures i
  once := oneOutcome_next F S hn.numbered hn.once hcount
  received := by
    obtain ⟨hposted, hreceived⟩ := polled_next F S n i
    have hlength := hposted.length_le
    have hbefore := hn.received
    omega

omit [DecidableEq PeerId] in
/-- The failure that a poll returns is about an acknowledged send, and new to the Manager. -/
theorem Accounted.permits {n : Node PeerId} (hn : n.Accounted) {l : Ledger} (hl : n.Shows l)
    {p : Posted} (hp : n.posted[n.received]? = some p) : l.Permits (.event p.event) := by
  intro msgId hid
  have hfailed : n.posted.filterMap (fun p => p.event.failedId?) = n.world.failedIds := by
    rw [World.failedIds, ← hn.failures, sendFailures, List.map_filterMap]
    simp only [failedId?_eq]
  obtain ⟨hlt, rfl⟩ := List.getElem?_eq_some_iff.mp hp
  have hsplit : n.posted = n.posted.take n.received ++
      n.posted[n.received] :: n.posted.drop (n.received + 1) := by
    rw [List.getElem_cons_drop, List.take_append_drop]
  rw [hsplit, List.filterMap_append, List.filterMap_cons, hid] at hfailed
  rw [hl.sent, hl.failed]
  constructor
  · apply hn.numbered.taken.subset
    apply hn.once.failed_taken
    rw [← hfailed]
    exact List.mem_append_right _ (List.mem_cons_self ..)
  · intro hmem
    have hnodup := hn.once.failed_nodup
    rw [← hfailed, List.nodup_append] at hnodup
    exact hnodup.2.2 msgId hmem msgId (List.mem_cons_self ..) rfl

/-! ### One step -/

omit [DecidableEq PeerId] in
/-- Events behind the polled ones show nothing yet. -/
theorem polledFailures_of_prefix {n n' : Node PeerId} (hn : n.received ≤ n.posted.length)
    (hposted : n.posted <+: n'.posted) (hreceived : n'.received = n.received) :
    n'.polledFailures = n.polledFailures := by
  obtain ⟨rest, hrest⟩ := hposted
  rw [polledFailures, polledFailures, hreceived, ← hrest, List.take_append_of_le_length hn]

/-- The trace of a step is allowed, and the ledger after it is that of the new state. -/
def Continues (n : Node PeerId) (l : Ledger) (i : NodeInput PeerId) : Prop :=
  contract.Along Ledger.Permits l (n.observe F S i) ∧
    (n.next F S i).Shows (contract.exec l (n.observe F S i))

theorem next_sendMessage {n : Node PeerId} (hfree : n.waiting = none) (addr : Address)
    (msg : MeerkatMessage) :
    ∃ localAddr, n.next F S (.command (.sendMessage addr msg)) = { n with
      actor := { n.actor with nextMessageId := n.actor.nextMessageId + 1 }
      issued := n.issued ++ [⟨⟨n.actor.nextMessageId⟩, addr, msg⟩]
      commandRx := n.queued (.send ⟨n.actor.nextMessageId⟩ localAddr msg)
      replies := n.replies ++ [(none, .messageSent ⟨n.actor.nextMessageId⟩)] } := by
  obtain ⟨localAddr, htranslate⟩ := translateAddress_ok n.actor.nodeType addr
  refine ⟨localAddr, ?_⟩
  simp only [next, hfree, if_true, handleCommand, sendMessage, htranslate, send_eq, reply]
  rfl

theorem next_request {n : Node PeerId} (hfree : n.waiting = none) {cmd : NetworkCommand}
    (hcmd : cmd.IsRequest) :
    ∃ c, n.next F S (.command cmd) = { n with
      commandRx := n.queued c
      waiting := some n.nextTx
      nextTx := n.nextTx + 1 } := by
  cases cmd with
  | listen addr =>
    refine ⟨.listen addr n.nextTx, ?_⟩
    simp only [next, hfree, if_true, handleCommand, request, send_eq]
  | listenViaRelay relayAddr =>
    refine ⟨.listenViaRelay relayAddr n.nextTx, ?_⟩
    simp only [next, hfree, if_true, handleCommand, request, send_eq]
  | sendMessage | getLocalAddresses => exact hcmd.elim

/-- What the Manager sees of an accepted command. -/
theorem observe_command {n : Node PeerId} (hfree : n.waiting = none) (cmd : NetworkCommand) :
    n.observe F S (.command cmd) = .command cmd ::
      ((n.next F S (.command cmd)).replies.drop n.replies.length).map fun r => .reply r.2 := by
  simp [observe, accepted?, polled?, hfree]

theorem Shows.sendMessage {n : Node PeerId} (hn : n.Accounted) {l : Ledger} (hl : n.Shows l)
    (hfree : n.waiting = none) (addr : Address) (msg : MeerkatMessage) :
    n.Continues F S l (.command (.sendMessage addr msg)) := by
  obtain ⟨localAddr, hnext⟩ := next_sendMessage F S hfree addr msg
  have hobserve : n.observe F S (.command (.sendMessage addr msg)) =
      [.command (.sendMessage addr msg), .reply (.messageSent ⟨n.actor.nextMessageId⟩)] := by
    simp [observe_command F S hfree, hnext]
  have hid : n.actor.nextMessageId = UInt64.ofNat (l.sent.length + 1) := by
    rw [hn.numbered.counter, hl.sent, issuedIds, List.length_map]
  rw [Continues, hobserve, hnext]
  refine ⟨⟨hl.free hfree, ⟨_, rfl, by rw [hid]; rfl⟩, trivial⟩, ?_⟩
  refine ⟨?_, hl.failed, hl.listening, fun _ => rfl, fun h => absurd hfree h⟩
  simp [Ledger.record, hl.sent, issuedIds]

theorem Shows.getLocalAddresses {n : Node PeerId} {l : Ledger} (hl : n.Shows l)
    (hfree : n.waiting = none) : n.Continues F S l (.command .getLocalAddresses) := by
  have hnext : n.next F S (.command .getLocalAddresses) = { n with
      replies := n.replies ++ [(none, .localAddresses n.actor.localAddrs)] } := by
    simp only [next, hfree, if_true, handleCommand, reply]
  have hobserve : n.observe F S (.command .getLocalAddresses) =
      [.command .getLocalAddresses, .reply (.localAddresses n.actor.localAddrs)] := by
    simp [observe_command F S hfree, hnext]
  rw [Continues, hobserve, hnext]
  refine ⟨⟨hl.free hfree, ⟨_, rfl, hl.listening.symm⟩, trivial⟩, ?_⟩
  exact ⟨hl.sent, hl.failed, hl.listening, fun _ => rfl, fun h => absurd hfree h⟩

theorem Shows.request {n : Node PeerId} {l : Ledger} (hl : n.Shows l) (hfree : n.waiting = none)
    {cmd : NetworkCommand} (hcmd : cmd.IsRequest) : n.Continues F S l (.command cmd) := by
  obtain ⟨c, hnext⟩ := next_request F S hfree hcmd
  have hobserve : n.observe F S (.command cmd) = [.command cmd] := by
    simp [observe_command F S hfree, hnext]
  rw [Continues, hobserve, hnext]
  refine ⟨⟨hl.free hfree, trivial⟩, ?_⟩
  exact ⟨hl.sent, hl.failed, hl.listening, fun h => by simp at h, fun _ => ⟨cmd, rfl, hcmd⟩⟩

theorem Shows.command {n : Node PeerId} (hn : n.Accounted) {l : Ledger} (hl : n.Shows l)
    (cmd : NetworkCommand) : n.Continues F S l (.command cmd) := by
  by_cases hfree : n.waiting = none
  · cases cmd with
    | sendMessage addr msg => exact hl.sendMessage F S hn hfree addr msg
    | getLocalAddresses => exact hl.getLocalAddresses F S hfree
    | listen | listenViaRelay => exact hl.request F S hfree trivial
  · have hnext : n.next F S (.command cmd) = n := by simp only [next, hfree, if_false]
    have hobserve : n.observe F S (.command cmd) = [] := by
      simp [observe, accepted?, polled?, hfree, hnext]
    rw [Continues, hobserve, hnext]
    exact ⟨trivial, hl⟩

theorem Shows.tryRecv {n : Node PeerId} (hn : n.Accounted) {l : Ledger} (hl : n.Shows l) :
    n.Continues F S l .tryRecv := by
  have hnext : n.next F S .tryRecv =
      { n with received := min (n.received + 1) n.posted.length } := rfl
  have hobserve : n.observe F S .tryRecv =
      (n.posted[n.received]?.map Posted.event).toList.map .event := by
    simp [observe, accepted?, polled?, hnext]
  rw [Continues, hobserve, hnext]
  cases hp : n.posted[n.received]? with
  | none =>
    -- the Manager has polled everything
    have hlast : n.received = n.posted.length := by
      have hle := List.getElem?_eq_none_iff.mp hp
      exact le_antisymm hn.received hle
    refine ⟨trivial, hl.sent, ?_, hl.listening, hl.free, hl.awaiting⟩
    rw [polledFailures, hlast, min_eq_right (Nat.le_succ _)]
    simpa [polledFailures, hlast] using hl.failed
  | some p =>
    have hlt := (List.getElem?_eq_some_iff.mp hp).1
    refine ⟨⟨hn.permits hl hp, trivial⟩, hl.sent, ?_, hl.listening, hl.free, hl.awaiting⟩
    have hone : [p].filterMap (fun p => p.event.failedId?) = p.event.failedId?.toList := by
      cases hid : p.event.failedId? <;> simp [hid]
    rw [polledFailures, min_eq_left hlt, List.take_add_one, hp, List.filterMap_append]
    change l.failed ++ p.event.failedId?.toList = n.polledFailures ++ [p].filterMap _
    rw [hl.failed, hone]

/-- A step that neither takes a command nor polls shows at most a reply. -/
theorem Shows.other {n : Node PeerId} (hn : n.Accounted) {l : Ledger} (hl : n.Shows l)
    {i : NodeInput PeerId} (hcommand : ∀ cmd, i ≠ .command cmd) (hpoll : i ≠ .tryRecv) :
    n.Continues F S l i := by
  have hposted := polled_next F S n i
  have hstep := next_nodeStep F S n i
  have hobserve : n.observe F S i =
      ((n.next F S i).replies.drop n.replies.length).map fun r => .reply r.2 := by
    cases i with
    | command cmd => exact absurd rfl (hcommand cmd)
    | tryRecv => exact absurd rfl hpoll
    | _ => simp [observe, accepted?, polled?]
  rw [Continues, hobserve]
  generalize n.next F S i = n' at hstep hposted
  have hfailed : n'.polledFailures = n.polledFailures :=
    polledFailures_of_prefix hn.received hposted.1 (hposted.2.resolve_right fun h => hpoll h.1)
  cases hstep with
  | issued | requested | listed => exact absurd rfl (hcommand _)
  | polled => exact absurd rfl hpoll
  | @listened tx addr hwaiting hanswer =>
    obtain ⟨cmd, hcmd, hrequest⟩ := hl.awaiting (by simp [hwaiting])
    rw [List.drop_left]
    refine ⟨⟨⟨cmd, hcmd, (hrequest.answers l).1 addr⟩, trivial⟩, hl.sent, hl.failed, ?_,
      fun _ => rfl, fun h => absurd rfl h⟩
    simp [Ledger.record, hl.listening]
  | @failed tx text hwaiting hclosed =>
    obtain ⟨cmd, hcmd, hrequest⟩ := hl.awaiting (by simp [hwaiting])
    rw [List.drop_left]
    exact ⟨⟨⟨cmd, hcmd, (hrequest.answers l).2 text⟩, trivial⟩, hl.sent, hl.failed, hl.listening,
      fun _ => rfl, fun h => absurd rfl h⟩
  | _ =>
    change contract.Along _ l ((n.replies.drop n.replies.length).map _) ∧
      Shows _ (contract.exec l ((n.replies.drop n.replies.length).map _))
    rw [List.drop_length]
    exact ⟨trivial, hl.sent, hl.failed.trans hfailed.symm, hl.listening, hl.free, hl.awaiting⟩

theorem Shows.next {n : Node PeerId} (hn : n.Accounted) {l : Ledger} (hl : n.Shows l)
    (i : NodeInput PeerId) : n.Continues F S l i := by
  cases i with
  | command cmd => exact hl.command F S hn cmd
  | tryRecv => exact hl.tryRecv F S hn
  | _ => exact hl.other F S hn (by simp) (by simp)

/-- Whatever a Manager sees of a run with fewer than 2⁶⁴ sends, the contract allows. -/
theorem actor_conforms {me : PeerId} {nodeType : NodeType} (inputs : List (NodeInput PeerId))
    (hcount : ((machine F S me nodeType).run inputs).issued.length < 2 ^ 64) :
    Allowed ((machine F S me nodeType).trace (observe F S) (init me nodeType) inputs) := by
  have hback : ∀ n i, ((machine F S me nodeType).next n i).issued.length < 2 ^ 64 →
      n.issued.length < 2 ^ 64 := fun n i h => (issued_length_le F S n i).trans_lt h
  have halong := (machine F S me nodeType).along_of_exec
    (P := fun n => n.issued.length < 2 ^ 64) hback hcount
  have hkeeps := halong.strengthen (P := Accounted)
    (fun n i hn hi => hn.next F S hi) (accounted_init me nodeType)
  refine (hkeeps.trace_forward (N := contract) (E := Ledger.Permits) (R := Shows) ?_
    (shows_init me nodeType)).1
  intro n l i hl hi
  exact hl.next F S hi.1 i

/-- A send that fails, a poll, and a listen request that the actor still awaits. -/
def failedSend : List (NodeInput String) :=
  unparsableSend ++ [.tryRecv, .command (.listen ⟨"/ip4/0.0.0.0/tcp/0"⟩), .tryRecv]

example : (machine Formats.plain json "176" .server).trace (observe Formats.plain json)
    (init "176" .server) failedSend =
      [.command (.sendMessage ⟨"177"⟩ (.ping "a")), .reply (.messageSent ⟨1⟩),
        .event (.sendFailed ⟨1⟩ (.unreachableAddress ⟨"177"⟩)),
        .command (.listen ⟨"/ip4/0.0.0.0/tcp/0"⟩)] := by decide +kernel

theorem actor_conforms_failedSend :
    Allowed ((machine Formats.plain json "176" .server).trace (observe Formats.plain json)
      (init "176" .server) failedSend) :=
  actor_conforms Formats.plain json failedSend (by decide)

end Node
end MeerkatNet.V2
