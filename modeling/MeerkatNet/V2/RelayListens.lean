import MeerkatNet.V2.ListenReplies

/-!
# Circuit listens of a relay request

A relay request is held until a circuit address is announced, and every connection with
its relay until then calls `listen_on`. So a request opens a second listener exactly if
a second connection comes in that time and libp2p accepts both calls.
-/

namespace MeerkatNet.V2

open Libp2p SlashText KeyedQueues Runs

variable {PeerId : Type}

/-- The listener that a successful `listen_on` opens for a request. -/
def Effect.opened? (tx : ReplyTx) : Effect PeerId → Option ListenerId
  | .listenOn owner _ (.ok l) => if owner = tx then some l else none
  | _ => none

/-- A connection with the peer is reported, and libp2p accepts a listen in this iteration. -/
def Input.Connects (peer : PeerId) (i : Input PeerId) : Prop :=
  i.established? = some peer ∧ i.answers.listenOn.toOption.isSome = true

instance [DecidableEq PeerId] (peer : PeerId) (i : Input PeerId) : Decidable (i.Connects peer) :=
  inferInstanceAs (Decidable (_ ∧ _))

@[simp] theorem opened?_event (tx : ReplyTx) (e : NetworkEvent) :
    Effect.opened? tx (.event e : Effect PeerId) = none := rfl

@[simp] theorem opened?_reply (tx owner : ReplyTx) (answer : Except String Address) :
    Effect.opened? tx (.reply owner answer : Effect PeerId) = none := rfl

@[simp] theorem opened?_relayDial (tx owner : ReplyTx) (addr : Multiaddr PeerId)
    (answer : Except String ConnectionId) :
    Effect.opened? tx (.dial (.relay owner) addr answer) = none := rfl

@[simp] theorem opened?_listenOn (tx owner : ReplyTx) (addr : Multiaddr PeerId) (l : ListenerId) :
    Effect.opened? tx (.listenOn owner addr (.ok l)) = if owner = tx then some l else none := rfl

theorem opened?_of_aside {e : Effect PeerId} (h : e.Aside) (tx : ReplyTx) :
    e.opened? tx = none := by
  rcases e with _ | _ | _ | ⟨owner, addr, _ | l⟩ | _ | _ | _ <;>
    first | rfl | exact absurd h id

theorem opened?_dropped (old : Option ReplyTx) (tx : ReplyTx) :
    (dropped old : List (Effect PeerId)).filterMap (Effect.opened? tx) = [] := by
  cases old <;> rfl

namespace World

/-- The listeners opened for a request, in order. -/
def opened (w : World PeerId) (tx : ReplyTx) : List ListenerId :=
  w.effects.filterMap (Effect.opened? tx)

/-- What the loop has been fed since it took the request. -/
def since (w : World PeerId) (tx : ReplyTx) : List (Input PeerId) :=
  (w.inputs.reverse.takeWhile fun i => i.request? ≠ some tx).reverse

variable [DecidableEq PeerId] (F : Formats PeerId) (S : Serde)

/-- While a relay request is held, no connection with its relay follows another one at which
libp2p accepted the listen, unless it refuses this one. -/
def ConnectsOnce (w : World PeerId) (i : Input PeerId) : Prop :=
  ∀ r ∈ w.loop.pendingRelay, ∀ peer ∈ destination F r.1, i.Connects peer →
    ∀ j ∈ w.since r.2, ¬ j.Connects peer

/-- A reply sender is moved into one command. -/
def FreshRequest (w : World PeerId) (i : Input PeerId) : Prop :=
  ∀ tx ∈ i.request?, tx ∉ w.requests

instance (w : World PeerId) (i : Input PeerId) : Decidable (w.ConnectsOnce F i) := by
  unfold ConnectsOnce
  infer_instance

instance (w : World PeerId) (i : Input PeerId) : Decidable (w.FreshRequest i) := by
  unfold FreshRequest
  infer_instance

@[simp] theorem next_opened (w : World PeerId) (i : Input PeerId) (tx : ReplyTx) :
    (w.next F S i).opened tx =
      w.opened tx ++ (eventLoop F S w.loop i).2.filterMap (Effect.opened? tx) := by
  simp [opened]

theorem next_since_of_request (w : World PeerId) {i : Input PeerId} {tx : ReplyTx}
    (h : i.request? = some tx) : (w.next F S i).since tx = [] := by
  simp [since, inputs_next, h]

theorem next_since_of_ne (w : World PeerId) {i : Input PeerId} {tx : ReplyTx}
    (h : i.request? ≠ some tx) : (w.next F S i).since tx = w.since tx ++ [i] := by
  simp [since, inputs_next, h]

omit [DecidableEq PeerId] in
theorem mem_requests_of_inputs {w : World PeerId} {i : Input PeerId} {tx : ReplyTx}
    (hmem : i ∈ w.inputs) (h : i.request? = some tx) : tx ∈ w.requests := by
  obtain ⟨step, hstep, rfl⟩ := List.mem_map.mp hmem
  exact List.mem_filterMap.mpr ⟨step, hstep, h⟩

end World

variable [DecidableEq PeerId] {F : Formats PeerId} {S : Serde}

omit [DecidableEq PeerId] in
/-- An iteration opens at most one listener for a request: for the plain request that it takes, or
for the held relay request whose relay is connected. -/
theorem ListenStep.opened_cases {listen listen' : Option ReplyTx}
    {relay relay' : Option (Address × ReplyTx)} {i : Input PeerId} {es : List (Effect PeerId)}
    (hstep : ListenStep F listen relay i listen' relay' es) (tx : ReplyTx) :
    es.filterMap (Effect.opened? tx) = [] ∨
      ∃ l, es.filterMap (Effect.opened? tx) = [l] ∧
        ((∃ addr answers, i = .command (.listen addr tx) answers) ∨
          ∃ relayAddr peer, relay = some (relayAddr, tx) ∧ destination F relayAddr = some peer ∧
            i.Connects peer) := by
  cases hstep with
  | refused hrequest hes =>
    have hrest := fun e he => opened?_of_aside (hes e he) tx
    exact .inl (by simpa [opened?_reply] using hrest)
  | @listening addr tx' answers m l hparse hanswer =>
    by_cases htx : tx' = tx
    · subst htx
      exact .inr ⟨l, by simp [opened?_dropped], .inl ⟨addr, answers, rfl⟩⟩
    · exact .inl (by simp [opened?_dropped, htx])
  | relayDialled =>
    left
    rw [List.filterMap_cons, opened?_relayDial, opened?_dropped]
  | circuitAnnounced | addressAnnounced | unclaimed => exact .inl rfl
  | @relayConnected peer c answers relayAddr tx' m es' hrelay hparse hpeer hes =>
    have hrest : es'.filterMap (Effect.opened? tx) = [] :=
      List.filterMap_eq_nil_iff.mpr fun e he => opened?_of_aside (hes e he) tx
    rw [List.filterMap_cons, opened?_event, List.filterMap_cons]
    cases hanswer : answers.listenOn with
    | error e => exact .inl hrest
    | ok l =>
      by_cases htx : tx' = tx
      · subst htx
        have hdestination : destination F relayAddr = some peer := by
          simp [destination, hparse, hpeer]
        have hconnects : (Input.event (.connectionEstablished peer c) answers).Connects peer := by
          refine ⟨rfl, ?_⟩
          rw [Input.answers, hanswer]
          rfl
        exact .inr ⟨l, by simp [hrest], .inr ⟨_, peer, hrelay, hdestination, hconnects⟩⟩
      · left
        rwa [opened?_listenOn, if_neg htx]
  | aside hrequest hannounced hother hes =>
    exact .inl (List.filterMap_eq_nil_iff.mpr fun e he => opened?_of_aside (hes e he) tx)

omit [DecidableEq PeerId] in
/-- A connection with the relay of the held request opens a listener if libp2p accepts it. -/
theorem ListenStep.opens {listen listen' : Option ReplyTx}
    {relay relay' : Option (Address × ReplyTx)} {i : Input PeerId} {es : List (Effect PeerId)}
    (hstep : ListenStep F listen relay i listen' relay' es) {r : Address × ReplyTx}
    (hr : relay = some r) {peer : PeerId} (hpeer : destination F r.1 = some peer)
    (hi : i.Connects peer) : es.filterMap (Effect.opened? r.2) ≠ [] := by
  obtain ⟨hestablished, haccepted⟩ := hi
  cases hstep with
  | refused hrequest =>
    obtain ⟨cmd, answers, rfl⟩ := Input.command_of_request? hrequest
    simp [Input.established?] at hestablished
  | listening | relayDialled | circuitAnnounced | addressAnnounced | unclaimed =>
    simp [Input.established?] at hestablished
  | @relayConnected peer' c answers relayAddr tx m es' hrelay =>
    obtain rfl := Option.some.inj (hrelay.symm.trans hr)
    rw [Input.answers] at haccepted
    cases hanswer : answers.listenOn with
    | error e => simp [hanswer, Except.toOption] at haccepted
    | ok l => simp
  | aside hrequest hannounced hother => exact absurd hpeer (hother r.1 r.2 peer hr hestablished)

omit [DecidableEq PeerId] in
/-- While a relay request is held, an iteration opens a listener for it exactly if its relay is
connected and libp2p accepts the listen. -/
theorem ListenStep.opened_iff {listen listen' : Option ReplyTx}
    {relay relay' : Option (Address × ReplyTx)} {i : Input PeerId} {es : List (Effect PeerId)}
    (hstep : ListenStep F listen relay i listen' relay' es) {r : Address × ReplyTx}
    (hr : relay = some r) (hother : i.request? ≠ some r.2) :
    es.filterMap (Effect.opened? r.2) ≠ [] ↔
      ∃ peer, destination F r.1 = some peer ∧ i.Connects peer := by
  constructor
  · intro hopened
    rcases hstep.opened_cases r.2 with hnone | ⟨l, -, ⟨_, _, rfl⟩ | ⟨relayAddr, peer, hr', h⟩⟩
    · exact absurd hnone hopened
    · exact absurd rfl hother
    · rw [Option.some.inj (hr.symm.trans hr')]
      exact ⟨peer, h⟩
  · rintro ⟨peer, hpeer, hconnects⟩
    exact hstep.opens hr hpeer hconnects

namespace World

/-- What the count of listeners rests on: only requests that were taken have any, none has two,
and the held relay request has one exactly if its relay was connected since it was taken. -/
structure CountsConnections (F : Formats PeerId) (w : World PeerId) : Prop where
  unused : ∀ tx, tx ∉ w.requests → w.opened tx = []
  taken : ∀ r ∈ w.loop.pendingRelay, ∃ answers,
    .command (.listenViaRelay r.1 r.2) answers ∈ w.inputs
  opened_iff : ∀ r ∈ w.loop.pendingRelay, w.opened r.2 ≠ [] ↔
    ∃ peer, destination F r.1 = some peer ∧ ∃ j ∈ w.since r.2, j.Connects peer

omit [DecidableEq PeerId] in
theorem countsConnections_init : (init : World PeerId).CountsConnections F where
  unused _ _ := rfl
  taken _ h := by simp [init, LoopState.init] at h
  opened_iff _ h := by simp [init, LoopState.init] at h

omit [DecidableEq PeerId] in
theorem CountsConnections.held_mem {w : World PeerId} (hw : w.CountsConnections F)
    {r : Address × ReplyTx} (hr : w.loop.pendingRelay = some r) : r.2 ∈ w.requests := by
  obtain ⟨answers, hinput⟩ := hw.taken r hr
  exact mem_requests_of_inputs hinput rfl

theorem CountsConnections.unused_next {w : World PeerId} {i : Input PeerId}
    (hw : w.CountsConnections F) {tx : ReplyTx} (htx : tx ∉ (w.next F S i).requests) :
    (w.next F S i).opened tx = [] := by
  rw [next_requests, List.mem_append, not_or, Option.mem_toList] at htx
  rw [next_opened, hw.unused tx htx.1, List.nil_append]
  rcases (eventLoop_listenStep F S w.loop i).opened_cases tx with
    hnone | ⟨l, -, ⟨_, _, rfl⟩ | ⟨relayAddr, _, hr, -⟩⟩
  · exact hnone
  · exact absurd rfl htx.2
  · exact absurd (hw.held_mem hr) htx.1

/-- For a request that was held before, the connection of this iteration is one more. -/
theorem CountsConnections.opened_next_iff {w : World PeerId} {i : Input PeerId}
    (hw : w.CountsConnections F) {r : Address × ReplyTx} (hr : w.loop.pendingRelay = some r)
    (hother : i.request? ≠ some r.2) : (w.next F S i).opened r.2 ≠ [] ↔
      ∃ peer, destination F r.1 = some peer ∧ ∃ j ∈ (w.next F S i).since r.2, j.Connects peer := by
  have hbefore := hw.opened_iff r hr
  have hnow := (eventLoop_listenStep F S w.loop i).opened_iff hr hother
  rw [next_opened, next_since_of_ne F S w hother, ne_eq, List.append_eq_nil_iff, not_and_or,
    ← ne_eq, ← ne_eq, hbefore, hnow]
  constructor
  · rintro (⟨peer, hpeer, j, hj, hconnects⟩ | ⟨peer, hpeer, hconnects⟩)
    · exact ⟨peer, hpeer, j, List.mem_append_left _ hj, hconnects⟩
    · exact ⟨peer, hpeer, i, by simp, hconnects⟩
  · rintro ⟨peer, hpeer, j, hj, hconnects⟩
    rw [List.mem_append, List.mem_singleton] at hj
    rcases hj with hj | rfl
    · exact .inl ⟨peer, hpeer, j, hj, hconnects⟩
    · exact .inr ⟨peer, hpeer, hconnects⟩

theorem countsConnections_next {w : World PeerId} {i : Input PeerId}
    (hw : w.CountsConnections F) (hfresh : w.FreshRequest i) :
    (w.next F S i).CountsConnections F := by
  have hstep := eventLoop_listenStep F S w.loop i
  refine ⟨fun tx htx => hw.unused_next htx, ?_, ?_⟩
  · intro r hr
    rw [inputs_next]
    rcases hstep.relay_source F hr with hold | ⟨answers, rfl⟩
    · obtain ⟨answers, hinput⟩ := hw.taken r hold
      exact ⟨answers, List.mem_append_left _ hinput⟩
    · exact ⟨answers, by simp⟩
  · intro r hr
    rcases hstep.relay_source F hr with hold | ⟨answers, rfl⟩
    · exact hw.opened_next_iff hold fun h => hfresh r.2 h (hw.held_mem hold)
    · -- the request has just come, and its relay has only been dialled
      have hnone : w.opened r.2 = [] := hw.unused r.2 (hfresh r.2 rfl)
      rw [next_opened, hnone, List.nil_append, next_since_of_request F S w rfl]
      rcases hstep.opened_cases r.2 with hnow | ⟨l, -, ⟨_, _, h⟩ | ⟨_, _, -, -, h, -⟩⟩
      · simp [hnow]
      · simp at h
      · simp [Input.established?] at h

/-- A step that meets the condition opens a listener only for a request that has none. -/
theorem opened_next_le_one {w : World PeerId} {i : Input PeerId} (hw : w.CountsConnections F)
    (hfresh : w.FreshRequest i) (honce : w.ConnectsOnce F i) {tx : ReplyTx}
    (h : (w.opened tx).length ≤ 1) : ((w.next F S i).opened tx).length ≤ 1 := by
  have hstep := eventLoop_listenStep F S w.loop i
  rw [next_opened]
  rcases hstep.opened_cases tx with hnone | ⟨l, hone, hfor⟩
  · rwa [hnone, List.append_nil]
  · have hnil : w.opened tx = [] := by
      rcases hfor with ⟨_, _, rfl⟩ | ⟨relayAddr, peer, hr, hpeer, hconnects⟩
      · exact hw.unused tx (hfresh tx rfl)
      · -- the relay has not been connected since the request was taken
        by_contra hopened
        obtain ⟨peer', hpeer', j, hj, hbefore⟩ := (hw.opened_iff _ hr).mp hopened
        obtain rfl := Option.some.inj (hpeer.symm.trans hpeer')
        exact honce _ hr peer hpeer hconnects j hj hbefore
    rw [hnil, hone]
    exact le_rfl

/-- A step that does not meet it opens a second listener for the held request. -/
theorem two_le_opened_next {w : World PeerId} {i : Input PeerId} (hw : w.CountsConnections F)
    (hrepeated : ¬ w.ConnectsOnce F i) :
    ∃ r ∈ w.loop.pendingRelay, 2 ≤ ((w.next F S i).opened r.2).length := by
  have hstep := eventLoop_listenStep F S w.loop i
  unfold ConnectsOnce at hrepeated
  push Not at hrepeated
  obtain ⟨r, hr, peer, hpeer, hconnects, j, hj, hbefore⟩ := hrepeated
  have hold : w.opened r.2 ≠ [] := (hw.opened_iff r hr).mpr ⟨peer, hpeer, j, hj, hbefore⟩
  have hnew := hstep.opens hr hpeer hconnects
  have hold_pos := List.length_pos_of_ne_nil hold
  have hnew_pos := List.length_pos_of_ne_nil hnew
  refine ⟨r, hr, ?_⟩
  rw [next_opened, List.length_append]
  omega

theorem opened_exec (w : World PeerId) (inputs : List (Input PeerId)) (tx : ReplyTx) :
    (w.opened tx).length ≤ (((machine F S).exec w inputs).opened tx).length := by
  refine (machine F S).exec_invariant
    (P := fun v => (w.opened tx).length ≤ (v.opened tx).length) (fun v i hv => ?_) le_rfl inputs
  rw [machine_next, next_opened, List.length_append]
  exact hv.trans (Nat.le_add_right _ _)

theorem inputs_run (inputs : List (Input PeerId)) : ((machine F S).run inputs).inputs = inputs := by
  induction inputs using List.reverseRecOn with
  | nil => rfl
  | append_singleton inputs i ih =>
    rw [Machine.run_concat, machine_next, inputs_next, ih]

/-- In every run, each relay request opens at most one listener exactly if no two connections
with its relay, both with an accepted listen, come while it is held. -/
theorem opened_le_one_iff {inputs : List (Input PeerId)}
    (hfresh : (machine F S).Along FreshRequest init inputs) :
    (∀ relayAddr tx answers, .command (.listenViaRelay relayAddr tx) answers ∈ inputs →
      (((machine F S).run inputs).opened tx).length ≤ 1) ↔
    (machine F S).Along (ConnectsOnce F) init inputs := by
  have hnext : ∀ (w : World PeerId) i, w.CountsConnections F → w.FreshRequest i →
      (w.next F S i).CountsConnections F := fun _ _ => countsConnections_next
  constructor
  · intro h
    rw [Machine.along_iff_isPrefix]
    intro before i hpre
    have hcounts := (hfresh.of_isPrefix ((List.prefix_append _ _).trans hpre)).invariant
      countsConnections_init hnext
    by_contra hrepeated
    obtain ⟨r, hr, htwo⟩ := two_le_opened_next (S := S) hcounts hrepeated
    obtain ⟨answers, hinput⟩ := hcounts.taken r hr
    rw [inputs_run] at hinput
    obtain ⟨after, rfl⟩ := hpre
    have hone := h r.1 r.2 answers (by simp [hinput])
    have hgrows := opened_exec (F := F) (S := S) ((machine F S).run (before ++ [i])) after r.2
    rw [← Machine.run_append, Machine.run_concat, machine_next] at hgrows
    omega
  · intro honce relayAddr tx answers _
    have hinvariant := (hfresh.and honce).invariant
      (P := fun w => w.CountsConnections F ∧ ∀ tx, (w.opened tx).length ≤ 1)
      ⟨countsConnections_init, fun _ => Nat.zero_le 1⟩
      fun w i hw hi => ⟨hnext w i hw.1 hi.1,
        fun tx => opened_next_le_one hw.1 hi.1 hi.2 (hw.2 tx)⟩
    exact hinvariant.2 tx

/-- The relay is dialled for a listen request, and connected twice before the circuit address is
announced. -/
def twiceConnected : List (Input String) :=
  dialledRelay ++
    [.event (.connectionEstablished "176" 0) { Answers.refused with listenOn := .ok 0 },
      .event (.connectionEstablished "176" 1) { Answers.refused with listenOn := .ok 1 }]

/-- The one request opens two listeners on the circuit address of its relay. -/
theorem opened_twiceConnected :
    let w := (machine Formats.plain json).run twiceConnected
    let relay : Multiaddr String :=
      [.other "ip4" (some "10.0.0.1"), .other "tcp" (some "9001"), .other "ws" none, .p2p "176"]
    (machine Formats.plain json).Along (fun w i => w.Legal i ∧ w.FreshRequest i) init
      twiceConnected ∧
    w.effects = [.dial (.relay 0) relay (.ok 0),
      .event (.peerConnected "176"), .listenOn 0 (relay ++ [.p2pCircuit]) (.ok 0),
      .event (.peerConnected "176"), .listenOn 0 (relay ++ [.p2pCircuit]) (.ok 1)] ∧
    w.opened 0 = [0, 1] :=
  ⟨by decide, rfl, rfl⟩

/-- The first connection is refused its listener, the second one opens it; a third comes when the
request has been answered, and a second request takes the slot after it. -/
def reconnectedRelay : List (Input String) :=
  dialledRelay ++
    [.event (.connectionEstablished "176" 0) Answers.refused,
      .event (.connectionEstablished "176" 1) { Answers.refused with listenOn := .ok 0 },
      .event (.newListenAddr 0 [.other "ip4" (some "10.0.0.1"), .other "tcp" (some "9001"),
        .other "ws" none, .p2p "176", .p2pCircuit]) Answers.refused,
      .event (.connectionEstablished "176" 2) { Answers.refused with listenOn := .ok 1 },
      .command (.listenViaRelay sampleRelay 1) { Answers.refused with dial := .ok 1 },
      .event (.connectionEstablished "176" 3) { Answers.refused with listenOn := .ok 2 }]

theorem opened_le_one_iff_reconnectedRelay :
    ((∀ relayAddr tx answers, .command (.listenViaRelay relayAddr tx) answers ∈ reconnectedRelay →
      (((machine Formats.plain json).run reconnectedRelay).opened tx).length ≤ 1) ↔
    (machine Formats.plain json).Along (ConnectsOnce Formats.plain) init reconnectedRelay) ∧
    (((machine Formats.plain json).run reconnectedRelay).opened 0) = [0] ∧
    (((machine Formats.plain json).run reconnectedRelay).opened 1) = [2] := by
  have hfresh : (machine Formats.plain json).Along FreshRequest init reconnectedRelay := by decide
  exact ⟨opened_le_one_iff hfresh, by decide, by decide⟩

end World
end MeerkatNet.V2
