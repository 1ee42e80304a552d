import MeerkatNet.V2.ListenWork
import MeerkatNet.V2.NodeSteps

/-!
# Replies to listen requests

The loop gives an announced address to whichever request waits, without looking at
the listener that announced it. Since the actor makes one request at a time, the
answer belongs to its request as long as the listeners of earlier requests announce
nothing that the waiting request would take.
-/

namespace MeerkatNet.V2

open Libp2p SlashText KeyedQueues Runs

variable {PeerId : Type}

/-- The address that a listener of the command listens on: for a relay, its circuit. -/
def SwarmCommand.ListensOn (F : Formats PeerId) (addr : Multiaddr PeerId) : SwarmCommand → Prop
  | .send _ _ _ => False
  | .listen listenAddr _ => F.parse listenAddr.text = .ok addr
  | .listenViaRelay relayAddr _ => ∃ m, F.parse relayAddr.text = .ok m ∧ addr = m ++ [.p2pCircuit]

namespace World

def inputs (w : World PeerId) : List (Input PeerId) := w.history.map Prod.fst

variable (F : Formats PeerId)

/-- The listener was started by a command that carries its owner. -/
def StartedFor (w : World PeerId) (li : Listener PeerId) : Prop :=
  ∃ cmd answers, .command cmd answers ∈ w.inputs ∧ cmd.request? = some li.owner ∧
    cmd.ListensOn F li.addr

/-- The address was announced by a listener that this very request started. -/
def OwnAnnouncement (w : World PeerId) (tx : ReplyTx) (addr : Address) : Prop :=
  ∃ l li a, w.swarm.listeners l = some li ∧ li.owner = tx ∧ w.StartedFor F li ∧
    a ∈ li.announced ∧ F.display a = addr.text

/-- A listen command comes when no earlier request waits. -/
def Sequential (w : World PeerId) (i : Input PeerId) : Prop :=
  ∀ tx, i.request? = some tx → w.held = [] ∧ ∀ t ∈ w.requests, t < tx

/-- No listener of an earlier request announces an address that a waiting request would take:
any address if it is a plain request, a circuit address if it is a relay request. -/
def QuietEarlier (w : World PeerId) : Input PeerId → Prop
  | .event (.newListenAddr l address) _ => ∀ li ∈ w.swarm.listeners l,
    (∀ tx ∈ w.loop.pendingListen, tx ≤ li.owner) ∧
    ∀ r ∈ w.loop.pendingRelay, circuitText F address = true → r.2 ≤ li.owner
  | _ => True

instance (w : World PeerId) (i : Input PeerId) : Decidable (w.QuietEarlier F i) :=
  match i with
  | .event (.newListenAddr l address) _ =>
    inferInstanceAs (Decidable (∀ li ∈ w.swarm.listeners l,
      (∀ tx ∈ w.loop.pendingListen, tx ≤ li.owner) ∧
      ∀ r ∈ w.loop.pendingRelay, circuitText F address = true → r.2 ≤ li.owner))
  | .command _ _ | .event (.expiredListenAddr _ _) _ | .event (.listenerClosed _) _
  | .event (.listenerError _) _ | .event (.connectionEstablished _ _) _
  | .event (.connectionClosed _ _) _ | .event (.outgoingConnectionError _ _) _
  | .event .relayClient _ | .event .relay _ | .event (.identifyReceived _) _
  | .event .identifyOther _ | .event .other _ => inferInstanceAs (Decidable True)

/-- What the replies of a sequential run rest on. -/
structure Attributed (w : World PeerId) : Prop where
  latest : ∀ tx ∈ w.held, ∀ t ∈ w.requests, t ≤ tx
  relay : ∀ relayAddr tx, w.loop.pendingRelay = some (relayAddr, tx) →
    ∃ answers, .command (.listenViaRelay relayAddr tx) answers ∈ w.inputs
  owner : ∀ l li, w.swarm.listeners l = some li → li.owner ∈ w.requests ∧ w.StartedFor F li
  replies : ∀ tx addr, .reply tx (.ok addr) ∈ w.effects → w.OwnAnnouncement F tx addr

theorem attributed_init : (init : World PeerId).Attributed F where
  latest _ h := by simp [held, slots, init, LoopState.init] at h
  relay _ _ h := by simp [init, LoopState.init] at h
  owner _ _ h := by simp [init, Swarm.init] at h
  replies _ _ h := by simp [effects, init] at h

end World

theorem mem_effects_of_answer? {w : World PeerId} {tx : ReplyTx}
    {answer : Except String Address} (h : w.answer? tx = some answer) :
    .reply tx answer ∈ w.effects := by
  obtain ⟨e, he, hmatch⟩ := List.exists_of_findSome?_eq_some h
  split at hmatch
  · split_ifs at hmatch with htx
    cases hmatch
    rwa [← htx]
  · simp at hmatch

theorem mem_settled_of_reply {w : World PeerId} {tx : ReplyTx} {answer : Except String Address}
    (h : .reply tx answer ∈ w.effects) : tx ∈ w.settled :=
  List.mem_filterMap.mpr ⟨_, h, rfl⟩

theorem mem_settled_of_dropsSender {w : World PeerId} {tx : ReplyTx}
    (h : w.dropsSender tx = true) : tx ∈ w.settled := by
  obtain ⟨e, he, hmatch⟩ := List.any_eq_true.mp h
  split at hmatch
  · exact List.mem_filterMap.mpr ⟨_, he, by simpa [Effect.settled?] using hmatch⟩
  · simp at hmatch

variable [DecidableEq PeerId] (F : Formats PeerId) (S : Serde)

omit [DecidableEq PeerId] in
/-- A listener is started for the plain request just taken, or for the waiting relay request. -/
theorem ListenStep.listenOn_source {listen listen' : Option ReplyTx}
    {relay relay' : Option (Address × ReplyTx)} {i : Input PeerId} {es : List (Effect PeerId)}
    (hstep : ListenStep F listen relay i listen' relay' es) {owner : ReplyTx}
    {addr : Multiaddr PeerId} {l : ListenerId} (hmem : .listenOn owner addr (.ok l) ∈ es) :
    (∃ cmd answers, i = .command cmd answers ∧ cmd.request? = some owner ∧ cmd.ListensOn F addr) ∨
      ∃ relayAddr, relay = some (relayAddr, owner) ∧
        ∀ tx, (SwarmCommand.listenViaRelay relayAddr tx).ListensOn F addr := by
  have haside : ∀ es' : List (Effect PeerId), (∀ e ∈ es', e.Aside) →
      .listenOn owner addr (.ok l) ∉ es' := fun es' hes h => hes _ h
  have hdropped : ∀ old, Effect.listenOn owner addr (.ok l) ∉ dropped old :=
    fun old h => dropped_inert old _ h
  cases hstep with
  | refused hrequest hes => simp [haside _ hes] at hmem
  | @listening listenAddr tx answers m l' hparse =>
    simp only [List.mem_cons, hdropped, or_false, Effect.listenOn.injEq] at hmem
    obtain ⟨rfl, rfl, -⟩ := hmem
    exact .inl ⟨_, _, rfl, rfl, hparse⟩
  | relayDialled => simp [hdropped] at hmem
  | circuitAnnounced | addressAnnounced | unclaimed => simp at hmem
  | @relayConnected peer c answers relayAddr tx m es' hrelay hparse hpeer hes =>
    simp only [List.mem_cons, haside _ hes, or_false, reduceCtorEq, false_or,
      Effect.listenOn.injEq] at hmem
    obtain ⟨rfl, rfl, -⟩ := hmem
    exact .inr ⟨relayAddr, hrelay, fun tx => ⟨m, hparse, rfl⟩⟩
  | aside hrequest hannounced hother hes => exact absurd hmem (haside _ hes)

omit [DecidableEq PeerId] in
/-- A request is answered with an address only by an announcement that it waits for. -/
theorem ListenStep.reply_source {listen listen' : Option ReplyTx}
    {relay relay' : Option (Address × ReplyTx)} {i : Input PeerId} {es : List (Effect PeerId)}
    (hstep : ListenStep F listen relay i listen' relay' es) {tx : ReplyTx} {addr : Address}
    (hmem : .reply tx (.ok addr) ∈ es) :
    ∃ l address answers, i = .event (.newListenAddr l address) answers ∧
      addr = ⟨F.display address⟩ ∧ (listen = some tx ∨
        ∃ relayAddr, relay = some (relayAddr, tx) ∧ circuitText F address = true) := by
  have haside : ∀ es' : List (Effect PeerId), (∀ e ∈ es', e.Aside) →
      .reply tx (.ok addr) ∉ es' := fun es' hes h => hes _ h
  have hdropped : ∀ old, Effect.reply tx (.ok addr) ∉ (dropped old : List (Effect PeerId)) := by
    intro old
    cases old <;> simp [dropped]
  cases hstep with
  | refused hrequest hes => simp [haside _ hes] at hmem
  | listening | relayDialled => simp [hdropped] at hmem
  | unclaimed => simp at hmem
  | circuitAnnounced hcircuit hrelay =>
    simp only [List.mem_singleton, Effect.reply.injEq, Except.ok.injEq] at hmem
    obtain ⟨rfl, rfl⟩ := hmem
    exact ⟨_, _, _, rfl, rfl, .inr ⟨_, hrelay, hcircuit⟩⟩
  | addressAnnounced hcircuit hlisten =>
    simp only [List.mem_singleton, Effect.reply.injEq, Except.ok.injEq] at hmem
    obtain ⟨rfl, rfl⟩ := hmem
    exact ⟨_, _, _, rfl, rfl, .inl hlisten⟩
  | relayConnected hrelay hparse hpeer hes => simp [haside _ hes] at hmem
  | aside hrequest hannounced hother hes => exact absurd hmem (haside _ hes)

omit [DecidableEq PeerId] in
/-- A relay request waits because it did, or because it has just been taken. -/
theorem ListenStep.relay_source {listen listen' : Option ReplyTx}
    {relay relay' : Option (Address × ReplyTx)} {i : Input PeerId} {es : List (Effect PeerId)}
    (hstep : ListenStep F listen relay i listen' relay' es) {relayAddr : Address} {tx : ReplyTx}
    (h : relay' = some (relayAddr, tx)) :
    relay = some (relayAddr, tx) ∨
      ∃ answers, i = .command (.listenViaRelay relayAddr tx) answers := by
  cases hstep with
  | relayDialled =>
    obtain ⟨rfl, rfl⟩ := Prod.mk.inj (Option.some.inj h)
    exact .inr ⟨_, rfl⟩
  | circuitAnnounced => simp at h
  | _ => exact .inl h

namespace World

theorem inputs_next (w : World PeerId) (i : Input PeerId) :
    (w.next F S i).inputs = w.inputs ++ [i] := by simp [inputs, next]

variable {F}

theorem StartedFor.next {w : World PeerId} {li li' : Listener PeerId} (h : w.StartedFor F li)
    (howner : li'.owner = li.owner) (haddr : li'.addr = li.addr) (i : Input PeerId) :
    (w.next F S i).StartedFor F li' := by
  obtain ⟨cmd, answers, hmem, hrequest, hlistens⟩ := h
  refine ⟨cmd, answers, ?_, hrequest.trans (by rw [howner]), by rwa [haddr]⟩
  rw [inputs_next]
  exact List.mem_append_left _ hmem

theorem OwnAnnouncement.next {w : World PeerId} {i : Input PeerId} (hlegal : w.Legal i)
    {tx : ReplyTx} {addr : Address} (h : w.OwnAnnouncement F tx addr) :
    (w.next F S i).OwnAnnouncement F tx addr := by
  obtain ⟨l, li, a, hli, howner, hstarted, ha, htext⟩ := h
  obtain ⟨li', hli', howner', haddr', hprefix, -⟩ := listener_next F S hlegal hli
  exact ⟨l, li', a, hli', howner'.trans howner, hstarted.next S howner' haddr' i,
    hprefix.subset ha, htext⟩

/-- Listeners after an iteration were there before, or were started for a request of the run. -/
theorem Attributed.owner_next {w : World PeerId} {i : Input PeerId} (hw : w.Attributed F)
    {l : ListenerId} {li : Listener PeerId}
    (hli : (w.next F S i).swarm.listeners l = some li) :
    li.owner ∈ (w.next F S i).requests ∧ (w.next F S i).StartedFor F li := by
  have hstep := eventLoop_listenStep F S w.loop i
  rcases foldl_perform_listeners_cases (eventLoop F S w.loop i).2 (w.swarm.react i) l with
    hsame | ⟨owner, addr, hmem, hnew⟩
  · have hreact : ∃ old, w.swarm.listeners l = some old ∧ li.owner = old.owner ∧
        li.addr = old.addr := by
      rw [next_swarm, hsame] at hli
      rcases i with _ | ⟨ev, _⟩
      · exact ⟨li, hli, rfl, rfl⟩
      · cases ev with
        | newListenAddr l' address | listenerClosed l' =>
          by_cases hl : l = l'
          · subst l'
            simp only [Swarm.react, Swarm.observe, Swarm.updateListener, Function.update_self,
              Option.map_eq_some_iff] at hli
            obtain ⟨old, hold, rfl⟩ := hli
            exact ⟨old, hold, rfl, rfl⟩
          · simp only [Swarm.react, Swarm.observe, Swarm.updateListener,
              Function.update_of_ne hl] at hli
            exact ⟨li, hli, rfl, rfl⟩
        | _ => exact ⟨li, hli, rfl, rfl⟩
    obtain ⟨old, hold, howner, haddr⟩ := hreact
    obtain ⟨hrequest, hstarted⟩ := hw.owner l old hold
    rw [next_requests, howner]
    exact ⟨List.mem_append_left _ hrequest, hstarted.next S howner haddr i⟩
  · rw [next_swarm, hnew] at hli
    obtain rfl := Option.some.inj hli
    rcases hstep.listenOn_source F hmem with ⟨cmd, answers, rfl, hrequest, hlistens⟩ |
      ⟨relayAddr, hrelay, hlistens⟩
    · refine ⟨by simp [hrequest], cmd, answers, ?_, hrequest, hlistens⟩
      simp [inputs_next]
    · obtain ⟨answers, hinput⟩ := hw.relay relayAddr owner hrelay
      refine ⟨?_, _, answers, ?_, rfl, hlistens owner⟩
      · rw [next_requests]
        apply List.mem_append_left _
        obtain ⟨step, hstepmem, hfst⟩ := List.mem_map.mp hinput
        exact List.mem_filterMap.mpr ⟨step, hstepmem, by rw [hfst]; rfl⟩
      · rw [inputs_next]
        exact List.mem_append_left _ hinput

theorem attributed_next {w : World PeerId} {i : Input PeerId} (hw : w.Attributed F)
    (hlegal : w.Legal i) (hseq : w.Sequential i) (hquiet : w.QuietEarlier F i) :
    (w.next F S i).Attributed F := by
  have hstep := eventLoop_listenStep F S w.loop i
  have hledger := hstep.ledger F
  constructor
  · intro tx htx t ht
    rw [next_requests, List.mem_append, Option.mem_toList] at ht
    have htx' : tx ∈ w.held ++ i.request?.toList :=
      hledger.subset (List.mem_append_left _ htx)
    rw [List.mem_append, Option.mem_toList] at htx'
    rcases htx' with hheld | hnew
    · rcases ht with ht | ht
      · exact hw.latest tx hheld t ht
      · simp [(hseq t ht).1] at hheld
    · rcases ht with ht | ht
      · exact ((hseq tx hnew).2 t ht).le
      · exact (Option.some.inj (ht.symm.trans hnew)).le
  · intro relayAddr tx hrelay
    have hold := hstep.relay_source F hrelay
    rw [inputs_next]
    rcases hold with hold | ⟨answers, rfl⟩
    · obtain ⟨answers, hinput⟩ := hw.relay relayAddr tx hold
      exact ⟨answers, List.mem_append_left _ hinput⟩
    · exact ⟨answers, by simp⟩
  · exact fun l li hli => hw.owner_next S hli
  · intro tx addr hmem
    rw [next_effects, List.mem_append] at hmem
    rcases hmem with hmem | hmem
    · exact (hw.replies tx addr hmem).next S hlegal
    · -- the announcing listener belongs to a request no later than the waiting one
      obtain ⟨l, address, answers, rfl, rfl, hwaits⟩ := hstep.reply_source F hmem
      have hopen : (w.swarm.listeners l).any Listener.isOpen = true := hlegal.2
      cases hli : w.swarm.listeners l with
      | none => simp [hli] at hopen
      | some li =>
        have howner : li.owner = tx := by
          have hrequest := (hw.owner l li hli).1
          obtain ⟨hlisten, hrelay⟩ := hquiet li hli
          rcases hwaits with hslot | ⟨relayAddr, hslot, hcircuit⟩
          · have hheld : tx ∈ w.held := by simp [held, slots, hslot]
            exact le_antisymm (hw.latest tx hheld li.owner hrequest) (hlisten tx hslot)
          · have hheld : tx ∈ w.held := by simp [held, slots, hslot]
            exact le_antisymm (hw.latest tx hheld li.owner hrequest)
              (hrelay (relayAddr, tx) hslot hcircuit)
        have hlisteners := next_listeners F S hlegal (l := l) (by simp [hli])
        refine ⟨l, { li with announced := li.announced ++ [address] }, address, ?_, howner,
          (hw.owner l li hli).2.next S rfl rfl _, by simp, rfl⟩
        rw [hlisteners]
        simp [Swarm.react, Swarm.observe, Swarm.updateListener, hli]

end World

/-! ### The actor makes one request at a time -/

namespace Node

/-- The requests in the command channel. -/
def channelRequests (n : Node PeerId) : List ReplyTx :=
  n.commandRx.filterMap SwarmCommand.request?

/-- The request that waits in the channel or is held by the loop is the one that the actor
awaits, and it has not been answered yet. -/
structure Awaits (n : Node PeerId) : Prop where
  bound : ∀ tx ∈ n.world.requests, tx < n.nextTx
  fresh : ∀ tx ∈ n.channelRequests, tx < n.nextTx ∧ ∀ t ∈ n.world.requests, t < tx
  perm : (n.world.held ++ n.world.settled).Perm n.world.requests
  pending : n.running = true → n.world.held ++ n.channelRequests = [] ∨
    ∃ tx, n.waiting = some tx ∧ n.world.held ++ n.channelRequests = [tx] ∧ tx ∉ n.world.settled
  replies : ∀ tx addr, (some tx, .listenSuccess addr) ∈ n.replies →
    .reply tx (.ok addr) ∈ n.world.effects

omit [DecidableEq PeerId] in
theorem awaits_init (me : PeerId) (nodeType : NodeType) : (init me nodeType).Awaits where
  bound _ h := by simp [init, World.init, World.requests] at h
  fresh _ h := by simp [init, channelRequests] at h
  perm := by
    simp [init, World.init, World.held, slots, LoopState.init, World.settled, World.effects,
      World.requests]
  pending _ := .inl rfl
  replies _ _ h := by simp [init] at h

omit [DecidableEq PeerId] in
/-- At most one request is pending. -/
theorem Awaits.length_le_one {n : Node PeerId} (hn : n.Awaits) (hrunning : n.running = true) :
    (n.world.held ++ n.channelRequests).length ≤ 1 := by
  rcases hn.pending hrunning with h | ⟨tx, -, h, -⟩ <;> simp [h]

/-- An iteration takes the request at the head of the channel, if it takes one, and then holds
it or settles it. -/
theorem Awaits.iterate {n : Node PeerId} (hn : n.Awaits) (i : Input PeerId)
    {rest : List SwarmCommand} (hrunning : n.running = true)
    (hrx : n.channelRequests = i.request?.toList ++ rest.filterMap SwarmCommand.request?) :
    Awaits { n.iterate F S i with commandRx := rest } := by
  have hledger := (eventLoop_listenStep F S n.world.loop i).ledger F
  have hpending := hn.pending hrunning
  rw [hrx, ← List.append_assoc] at hpending
  refine ⟨?_, ?_, World.requests_perm_next F S hn.perm i, ?_, ?_⟩
  · intro tx htx
    simp only [iterate_world, World.next_requests, List.mem_append] at htx
    rcases htx with htx | htx
    · exact hn.bound tx htx
    · exact (hn.fresh tx (by rw [hrx]; exact List.mem_append_left _ htx)).1
  · intro tx htx
    have hchannel : tx ∈ n.channelRequests := by
      rw [hrx]
      exact List.mem_append_right _ htx
    refine ⟨(hn.fresh tx hchannel).1, ?_⟩
    intro t ht
    simp only [iterate_world, World.next_requests, List.mem_append] at ht
    rcases ht with ht | ht
    · exact (hn.fresh tx hchannel).2 t ht
    · -- two requests cannot be in the channel
      have hlen := hn.length_le_one hrunning
      have hone := List.length_pos_of_mem ht
      have htwo := List.length_pos_of_mem htx
      simp only [hrx, List.length_append] at hlen
      simp only [channelRequests] at htwo
      omega
  · intro _
    simp only [iterate_world, World.held, World.next_loop, World.next_settled, channelRequests]
    rcases hpending with h | ⟨tx, hwaiting, h, hopen⟩
    · obtain ⟨hheld, hrest⟩ := List.append_eq_nil_iff.mp h
      rw [World.held] at hheld
      rw [hheld, List.perm_nil] at hledger
      rw [hrest, (List.append_eq_nil_iff.mp hledger).1]
      exact .inl rfl
    · rcases List.append_eq_singleton_iff.mp h with ⟨hheld, hrest⟩ | ⟨hheld, hrest⟩
      · rw [World.held] at hheld
        rw [hheld, List.perm_nil] at hledger
        obtain ⟨hheld', hnow⟩ := List.append_eq_nil_iff.mp hledger
        rw [hrest, hheld', hnow, List.append_nil]
        exact .inr ⟨tx, hwaiting, rfl, hopen⟩
      · rw [World.held] at hheld
        rw [hheld, List.perm_singleton] at hledger
        rw [hrest, List.append_nil]
        rcases List.append_eq_singleton_iff.mp hledger with ⟨hheld', hnow⟩ | ⟨hheld', hnow⟩
        · exact .inl hheld'
        · rw [hheld', hnow, List.append_nil]
          exact .inr ⟨tx, hwaiting, rfl, hopen⟩
  · intro tx addr hmem
    rw [iterate_world, World.next_effects]
    exact List.mem_append_left _ (hn.replies tx addr hmem)

omit [DecidableEq PeerId] in
/-- Nothing is pending when the actor awaits nothing, or what it awaits has been settled. -/
theorem Awaits.pending_nil {n : Node PeerId} (hn : n.Awaits) (hrunning : n.running = true)
    (h : ∀ tx, n.waiting = some tx → tx ∈ n.world.settled) :
    n.world.held ++ n.channelRequests = [] := by
  rcases hn.pending hrunning with hnil | ⟨tx, hwaiting, -, hopen⟩
  · exact hnil
  · exact absurd (h tx hwaiting) hopen

theorem awaits_next {n : Node PeerId} (hn : n.Awaits) (i : NodeInput PeerId) :
    (n.next F S i).Awaits := by
  have hstep := next_nodeStep F S n i
  generalize n.next F S i = n' at hstep
  have hqueued : ∀ cmd, (n.queued cmd).filterMap SwarmCommand.request? =
      n.channelRequests ++ if n.running then cmd.request?.toList else [] := by
    intro cmd
    unfold queued channelRequests
    split_ifs <;> cases h : cmd.request? <;> simp [h]
  cases hstep with
  | @issued addr msg localAddr hwaiting htranslate =>
    have hsame := hqueued (.send ⟨n.actor.nextMessageId⟩ localAddr msg)
    simp only [SwarmCommand.request?, Option.toList_none, ite_self, List.append_nil] at hsame
    refine ⟨hn.bound, fun tx htx => hn.fresh tx ?_, hn.perm, ?_, ?_⟩
    · rwa [← hsame]
    · intro hrunning
      rw [channelRequests, hsame]
      exact hn.pending hrunning
    · intro tx addr h
      exact hn.replies tx addr (by simpa using h)
  | @requested cmd c hwaiting hc =>
    have hsettled : ∀ tx ∈ n.world.settled, tx < n.nextTx :=
      fun tx h => hn.bound tx (hn.perm.subset (List.mem_append_right _ h))
    refine ⟨fun tx h => (hn.bound tx h).trans (Nat.lt_succ_self _), ?_, hn.perm,
      fun hrunning => .inr ⟨n.nextTx, rfl, ?_, fun h => (hsettled _ h).ne rfl⟩, hn.replies⟩
    · intro tx h
      rw [channelRequests, hqueued, List.mem_append] at h
      rcases h with h | h
      · exact ⟨(hn.fresh tx h).1.trans (Nat.lt_succ_self _), (hn.fresh tx h).2⟩
      · obtain rfl : tx = n.nextTx := by
          split_ifs at h <;> simp_all
        exact ⟨Nat.lt_succ_self _, hn.bound⟩
    · have hnil := hn.pending_nil hrunning fun tx h => by simp [hwaiting] at h
      have hrx : n.running = true := hrunning
      rw [channelRequests, hqueued, ← List.append_assoc, hnil, if_pos hrx, hc]
      rfl
  | listed hwaiting =>
    exact ⟨hn.bound, hn.fresh, hn.perm, hn.pending, fun tx addr h =>
      hn.replies tx addr (by simpa using h)⟩
  | @taken cmd rest answers hrunning hrx =>
    apply hn.iterate F S (.command cmd answers) hrunning
    rw [channelRequests, hrx, request?_command]
    cases h : cmd.request? <;> simp [h]
  | @iterated ev answers hrunning =>
    exact hn.iterate F S (.event ev answers) hrunning rfl
  | @listened tx addr hwaiting hanswer =>
    have hreply := mem_effects_of_answer? hanswer
    refine ⟨hn.bound, hn.fresh, hn.perm, fun hrunning => .inl ?_, ?_⟩
    · apply hn.pending_nil hrunning
      intro tx' h
      obtain rfl := Option.some.inj (hwaiting.symm.trans h)
      exact mem_settled_of_reply hreply
    · intro tx' addr' h
      rcases List.mem_append.mp h with h | h
      · exact hn.replies tx' addr' h
      · obtain ⟨rfl, rfl⟩ : tx' = tx ∧ addr' = addr := by simpa using h
        exact hreply
  | @failed tx text hwaiting hclosed =>
    refine ⟨hn.bound, hn.fresh, hn.perm, fun hrunning => .inl ?_, ?_⟩
    · apply hn.pending_nil hrunning
      intro tx' h
      obtain rfl := Option.some.inj (hwaiting.symm.trans h)
      rcases hclosed with ⟨e, he⟩ | hdrops | hstopped
      · exact mem_settled_of_reply (mem_effects_of_answer? he)
      · exact mem_settled_of_dropsSender hdrops
      · have hrx : n.running = true := hrunning
        simp [hstopped] at hrx
    · intro tx' addr h
      exact hn.replies tx' addr (by simpa using h)
  | stopped =>
    exact ⟨hn.bound, fun tx h => by simp [channelRequests] at h, hn.perm,
      fun h => by simp at h, hn.replies⟩
  | _ => exact ⟨hn.bound, hn.fresh, hn.perm, hn.pending, hn.replies⟩

omit [DecidableEq PeerId] in
/-- The loop takes a listen command only when no earlier request waits. -/
theorem Awaits.sequential {n : Node PeerId} (hn : n.Awaits) (i : NodeInput PeerId) :
    Iterates World.Sequential n i := by
  intro j hj tx htx
  unfold iteration? at hj
  split at hj
  · simp only [Option.ite_none_right_eq_some, Option.map_eq_some_iff] at hj
    obtain ⟨hrunning, cmd, hhead, rfl⟩ := hj
    obtain ⟨rest, hrx⟩ := List.head?_eq_some_iff.mp hhead
    rw [request?_command] at htx
    have hchannel : n.channelRequests = tx :: rest.filterMap SwarmCommand.request? := by
      simp [channelRequests, hrx, htx]
    refine ⟨?_, (hn.fresh tx (by simp [hchannel])).2⟩
    rcases hn.pending hrunning with h | ⟨tx', -, h, -⟩
    · simp [hchannel] at h
    · have hlen := congrArg List.length h
      simp only [hchannel, List.length_append, List.length_cons, List.length_nil] at hlen
      exact List.eq_nil_of_length_eq_zero (by omega)
  · simp only [Option.ite_none_right_eq_some, Option.some.injEq] at hj
    obtain ⟨-, rfl⟩ := hj
    simp [Input.request?] at htx
  · simp at hj

/-- In a run in which no listener of an earlier request announces an address that a waiting
request would take, every `ListenSuccess` carries an address that was announced by a listener
of the very request it answers. -/
theorem listenSuccess_own {me : PeerId} {nodeType : NodeType} {inputs : List (NodeInput PeerId)}
    (h : (machine F S me nodeType).Along
      (Iterates fun w i => w.Legal i ∧ w.QuietEarlier F i) (init me nodeType) inputs)
    {tx : ReplyTx} {addr : Address}
    (hreply : (some tx, .listenSuccess addr) ∈ ((machine F S me nodeType).run inputs).replies) :
    ((machine F S me nodeType).run inputs).world.OwnAnnouncement F tx addr := by
  have hnext := fun n i (hn : n.Awaits)
    (_ : Iterates (fun w i => w.Legal i ∧ w.QuietEarlier F i) n i) => awaits_next F S hn i
  have hawaits := h.invariant (P := Awaits) (awaits_init me nodeType) hnext
  have hsequential := (h.strengthen hnext (awaits_init me nodeType)).mono
    (D := Iterates fun w i => (w.Legal i ∧ w.QuietEarlier F i) ∧ w.Sequential i)
    fun n i hi j hj => ⟨hi.2 j hj, hi.1.sequential i j hj⟩
  obtain ⟨js, hjs, hworld⟩ := exists_world_run F S hsequential
  have hattributed := hjs.invariant (P := World.Attributed F) (World.attributed_init F)
    fun w i hw hi => World.attributed_next S hw hi.1.1 hi.2 hi.1.2
  rw [hworld]
  exact hattributed.replies tx addr (hworld ▸ hawaits.replies tx addr hreply)

/-- A listener on all interfaces announces one of its addresses. -/
def wildcardListen : List (NodeInput String) :=
  [.command (.listen ⟨"/ip4/0.0.0.0/tcp/90"⟩), .take { Answers.refused with listenOn := .ok 0 },
    .event (.newListenAddr 0 [.other "ip4" (some "10.0.0.2"), .other "tcp" (some "90")])
      Answers.refused, .resume]

/-- It announces another one while the next request waits. -/
def lateAnnouncement : List (NodeInput String) :=
  wildcardListen ++
    [.command (.listen ⟨"/ip4/0.0.0.0/tcp/91"⟩), .take { Answers.refused with listenOn := .ok 1 },
      .event (.newListenAddr 0 [.other "ip4" (some "10.0.0.3"), .other "tcp" (some "90")])
        Answers.refused, .resume]

theorem listenSuccess_own_wildcardListen :
    ((machine Formats.plain json "176" .server).run wildcardListen).world.OwnAnnouncement
      Formats.plain 0 ⟨"/ip4/10.0.0.2/tcp/90"⟩ := by
  have hrun : (machine Formats.plain json "176" .server).Along
      (Iterates fun w i => w.Legal i ∧ w.QuietEarlier Formats.plain i)
      (init "176" .server) wildcardListen := by decide
  exact listenSuccess_own Formats.plain json hrun (by decide)

/-- The second request is answered with the late address of the first listener; its own
listener has not announced anything. -/
theorem not_own_lateAnnouncement :
    let n := (machine Formats.plain json "176" .server).run lateAnnouncement
    (machine Formats.plain json "176" .server).Along (Iterates World.Legal)
      (init "176" .server) lateAnnouncement ∧
    (some 1, .listenSuccess ⟨"/ip4/10.0.0.3/tcp/90"⟩) ∈ n.replies ∧
    ¬ n.world.OwnAnnouncement Formats.plain 1 ⟨"/ip4/10.0.0.3/tcp/90"⟩ := by
  refine ⟨by decide, by decide, ?_⟩
  rintro ⟨l, li, a, hli, howner, -, ha, -⟩
  match l with
  | 0 =>
    have hfirst : (((machine Formats.plain json "176" .server).run
        lateAnnouncement).world.swarm.listeners 0).map Listener.owner = some 0 := by decide
    simp [hli, howner] at hfirst
  | 1 =>
    have hsecond : (((machine Formats.plain json "176" .server).run
        lateAnnouncement).world.swarm.listeners 1).map Listener.announced = some [] := by decide
    simp only [hli, Option.map_some, Option.some.injEq] at hsecond
    simp [hsecond] at ha
  | l + 2 =>
    have hnone : ((machine Formats.plain json "176" .server).run
        lateAnnouncement).world.swarm.listeners (l + 2) = none := rfl
    simp [hnone] at hli

end Node
end MeerkatNet.V2
