import MeerkatNet.V2.Json
import MeerkatNet.V2.ListenSteps

/-!
# Held reply senders and the work that can answer them

Between the iteration that accepts a listen request and the one that answers it, a
listener or a relay dial of the request is under way. The loop never looks at the
failures that arrive as events, so the condition excludes the events and answers
that end the last work of a held request.
-/

namespace MeerkatNet.V2

open Libp2p KeyedQueues Runs

variable {PeerId : Type} [DecidableEq PeerId] (F : Formats PeerId) (S : Serde)

namespace World

/-- An open listener of the request that has not announced an address. -/
def Listening (w : World PeerId) (tx : ReplyTx) : Prop :=
  ∃ l li, w.swarm.listeners l = some li ∧ li.owner = tx ∧ li.isOpen = true ∧ li.announced = []

/-- The relay dial of the request is in flight, and the relay address names a peer. -/
def RelayDialling (w : World PeerId) (relayAddr : Address) (tx : ReplyTx) : Prop :=
  (destination F relayAddr).isSome ∧ ∃ c, w.swarm.dials c = some (.relay tx)

/-- An open circuit listener of the request. -/
def CircuitListener (w : World PeerId) (relayAddr : Address) (tx : ReplyTx) (l : ListenerId) :
    Prop :=
  ∃ li m, F.parse relayAddr.text = .ok m ∧ w.swarm.listeners l = some li ∧ li.owner = tx ∧
    li.addr = m ++ [.p2pCircuit] ∧ li.isOpen = true

/-- The work that can still answer a held relay request. -/
def RelayWork (w : World PeerId) (relayAddr : Address) (tx : ReplyTx) : Prop :=
  w.RelayDialling F relayAddr tx ∨ ∃ l, w.CircuitListener F relayAddr tx l

/-- Every held reply sender can still be answered. -/
structure Answerable (w : World PeerId) : Prop where
  listen : ∀ tx, w.loop.pendingListen = some tx → w.Listening tx
  relay : ∀ relayAddr tx, w.loop.pendingRelay = some (relayAddr, tx) → w.RelayWork F relayAddr tx

/-- The requests that the loop has taken from the command channel. -/
def requests (w : World PeerId) : List ReplyTx := w.history.filterMap fun step => step.1.request?

/-- The requests whose senders were answered or dropped. -/
def settled (w : World PeerId) : List ReplyTx := w.effects.filterMap Effect.settled?

/-- The requests whose senders are held. -/
def held (w : World PeerId) : List ReplyTx := slots w.loop.pendingListen w.loop.pendingRelay

/-- Every request taken from the channel started its listener or its dial, or was answered with
an error at once. -/
def Started (w : World PeerId) : Prop :=
  ∀ step ∈ w.history, ∀ tx, step.1.request? = some tx →
    (∃ e ∈ step.2, e.Starts tx) ∨ ∃ text, .reply tx (.error text) ∈ step.2

/-- What must not happen for the held requests to keep work under way: a relay dial to an
address without a peer id, a relay dial that fails or whose circuit listen fails, the end of
the last listener, and a circuit address of the listener of a plain request that goes to a
waiting relay request. -/
def KeepsWork (w : World PeerId) : Input PeerId → Prop
  | .command (.listenViaRelay relayAddr _) answers => ∀ m c,
    F.parse relayAddr.text = .ok m → answers.dial = .ok c → (extractPeerId m).isSome
  | .event (.outgoingConnectionError c _) _ => ∀ relayAddr tx,
    w.loop.pendingRelay = some (relayAddr, tx) → w.swarm.dials c = some (.relay tx) →
    ∃ l, w.CircuitListener F relayAddr tx l
  | .event (.connectionEstablished peer c) answers => ∀ relayAddr tx,
    w.loop.pendingRelay = some (relayAddr, tx) → w.swarm.dials c = some (.relay tx) →
    (∃ l, w.CircuitListener F relayAddr tx l) ∨
      (destination F relayAddr = some peer ∧ ∃ l, answers.listenOn = .ok l)
  | .event (.listenerClosed l) _ => ∀ li, w.swarm.listeners l = some li →
    w.loop.pendingListen ≠ some li.owner ∧
    ∀ relayAddr, w.loop.pendingRelay = some (relayAddr, li.owner) →
      w.RelayDialling F relayAddr li.owner ∨ ∃ l' ≠ l, w.CircuitListener F relayAddr li.owner l'
  | .event (.newListenAddr l address) _ => ∀ li, w.swarm.listeners l = some li →
    circuitText F address = true → w.loop.pendingRelay.isSome →
    w.loop.pendingListen ≠ some li.owner
  | _ => True

@[simp] theorem next_requests (w : World PeerId) (i : Input PeerId) :
    (w.next F S i).requests = w.requests ++ i.request?.toList := by
  cases h : i.request? <;> simp [requests, next, h]

@[simp] theorem next_settled (w : World PeerId) (i : Input PeerId) :
    (w.next F S i).settled =
      w.settled ++ (eventLoop F S w.loop i).2.filterMap Effect.settled? := by
  simp [settled]

variable {F}

/-- A listener that has not announced anything stays so until an event reports on it. -/
theorem Listening.next {w : World PeerId} {i : Input PeerId} (hlegal : w.Legal i) {tx : ReplyTx}
    (h : w.Listening tx)
    (htouched : ∀ l li, w.swarm.listeners l = some li → li.owner = tx → i.touched? ≠ some l) :
    (w.next F S i).Listening tx := by
  obtain ⟨l, li, hli, howner, hopen, hnone⟩ := h
  obtain ⟨li', hli', -, -, -, hsame, -⟩ := listener_next F S hlegal hli
  obtain rfl := hsame (htouched l li hli howner)
  exact ⟨l, li', hli', howner, hopen, hnone⟩

/-- A circuit listener goes on until it is closed. -/
theorem CircuitListener.next {w : World PeerId} {i : Input PeerId} (hlegal : w.Legal i)
    {relayAddr : Address} {tx : ReplyTx} {l : ListenerId}
    (h : w.CircuitListener F relayAddr tx l)
    (hclosed : ∀ answers, i ≠ .event (.listenerClosed l) answers) :
    (w.next F S i).CircuitListener F relayAddr tx l := by
  obtain ⟨li, m, hparse, hli, howner, haddr, hopen⟩ := h
  obtain ⟨li', hli', howner', haddr', -, -, hopen'⟩ := listener_next F S hlegal hli
  exact ⟨li', m, hparse, hli', howner'.trans howner, haddr'.trans haddr,
    (hopen' hclosed).trans hopen⟩

/-- The work of a held relay request goes on, unless this iteration is one of those that the
condition excludes, or it starts a circuit listener. -/
theorem RelayWork.next {w : World PeerId} {i : Input PeerId} (hlegal : w.Legal i)
    (hkeeps : w.KeepsWork F i) {relayAddr : Address} {tx : ReplyTx}
    (hslot : w.loop.pendingRelay = some (relayAddr, tx)) (h : w.RelayWork F relayAddr tx) :
    (w.next F S i).RelayWork F relayAddr tx ∨
      (∃ peer, i.established? = some peer ∧ destination F relayAddr = some peer ∧
        ∃ l, i.answers.listenOn = .ok l) := by
  -- a circuit listener is enough unless it is closed
  have hcircuit : (∀ l answers, i ≠ .event (.listenerClosed l) answers) →
      (∃ l, w.CircuitListener F relayAddr tx l) → (w.next F S i).RelayWork F relayAddr tx :=
    fun hclosed ⟨l, hl⟩ => .inr ⟨l, hl.next S hlegal (hclosed l)⟩
  have hdialling : ∀ c, w.swarm.dials c = some (.relay tx) → i.ended? ≠ some c →
      (destination F relayAddr).isSome → (w.next F S i).RelayWork F relayAddr tx :=
    fun c hc hends hdest => .inl ⟨hdest, c, next_dials F S hlegal hc hends⟩
  rcases h with ⟨hdest, c, hc⟩ | ⟨l, hl⟩
  · by_cases hends : i.ended? = some c
    · unfold Input.ended? at hends
      split at hends
      · cases hends
        rcases hkeeps relayAddr tx hslot hc with hlistener | ⟨hpeer, l, hanswer⟩
        · exact .inl (hcircuit (by simp) hlistener)
        · exact .inr ⟨_, rfl, hpeer, l, hanswer⟩
      · cases hends
        exact .inl (hcircuit (by simp) (hkeeps relayAddr tx hslot hc))
      · simp at hends
    · exact .inl (hdialling c hc hends hdest)
  · by_cases hclosed : ∃ answers, i = .event (.listenerClosed l) answers
    · obtain ⟨answers, rfl⟩ := hclosed
      obtain ⟨li, m, hparse, hli, rfl, haddr, hopen⟩ := hl
      rcases (hkeeps li hli).2 relayAddr hslot with ⟨hdest, c, hc⟩ | ⟨l', hne, hl'⟩
      · exact .inl (hdialling c hc (by simp [Input.ended?]) hdest)
      · exact .inl (.inr ⟨l', hl'.next S hlegal fun answers h => hne (by simp_all)⟩)
    · push Not at hclosed
      exact .inl (.inr ⟨l, hl.next S hlegal hclosed⟩)

theorem answerable_next {w : World PeerId} {i : Input PeerId} (hw : w.Answerable F)
    (hlegal : w.Legal i) (hkeeps : w.KeepsWork F i) : (w.next F S i).Answerable F := by
  have hlistening : ∀ {tx}, w.loop.pendingListen = some tx →
      (∀ l li, w.swarm.listeners l = some li → li.owner = tx → i.touched? ≠ some l) →
      (w.next F S i).Listening tx :=
    fun hslot htouched => (hw.listen _ hslot).next S hlegal htouched
  have hwork : ∀ {relayAddr tx}, w.loop.pendingRelay = some (relayAddr, tx) →
      i.established? = none → (w.next F S i).RelayWork F relayAddr tx := by
    intro relayAddr tx hslot hnone
    rcases (hw.relay relayAddr tx hslot).next S hlegal hkeeps hslot with h | ⟨peer, hpeer, -⟩
    · exact h
    · simp [hnone] at hpeer
  have hswarm := next_swarm F S w i
  have hstep := eventLoop_listenStep F S w.loop i
  generalize hlisten : (eventLoop F S w.loop i).1.pendingListen = listen' at hstep
  generalize hrelay : (eventLoop F S w.loop i).1.pendingRelay = relay' at hstep
  generalize (eventLoop F S w.loop i).2 = es at hstep hswarm
  constructor
  · intro tx hslot
    rw [next_loop, hlisten] at hslot
    cases hstep with
    | refused hrequest =>
      obtain ⟨cmd, answers, rfl⟩ := Input.command_of_request? hrequest
      exact hlistening hslot (by simp [Input.touched?])
    | relayDialled => exact hlistening hslot (by simp [Input.touched?])
    | relayConnected => exact hlistening hslot (by simp [Input.touched?])
    | @listening addr tx' answers m l =>
      obtain rfl := Option.some.inj hslot
      refine ⟨l, ⟨tx', m, [], true⟩, ?_, rfl, rfl, rfl⟩
      rw [hswarm, List.foldl_cons, foldl_perform_inert (dropped_inert _)]
      simp [Swarm.perform]
    | @circuitAnnounced l address answers relayAddr tx' hcircuit hheld =>
      apply hlistening hslot
      intro l' li hli howner htouched
      obtain rfl : l = l' := by simpa [Input.touched?] using htouched
      exact hkeeps li hli hcircuit (by simp [hheld]) (by rw [howner, hslot])
    | addressAnnounced | unclaimed => simp at hslot
    | aside hrequest hannounced =>
      apply hlistening hslot
      intro l li hli howner htouched
      unfold Input.touched? at htouched
      split at htouched
      · simp [Input.announced?] at hannounced
      · cases htouched
        exact (hkeeps li hli).1 (by rw [howner, hslot])
      · simp at htouched
  · intro relayAddr tx hslot
    rw [next_loop, hrelay] at hslot
    cases hstep with
    | refused hrequest =>
      obtain ⟨cmd, answers, rfl⟩ := Input.command_of_request? hrequest
      exact hwork hslot rfl
    | listening | addressAnnounced | unclaimed => exact hwork hslot rfl
    | circuitAnnounced => simp at hslot
    | @relayDialled relayAddr' tx' answers m c hparse hanswer =>
      obtain ⟨rfl, rfl⟩ := Prod.mk.inj (Option.some.inj hslot)
      refine .inl ⟨?_, c, ?_⟩
      · simpa [destination, hparse] using hkeeps m c hparse hanswer
      · rw [hswarm, List.foldl_cons, foldl_perform_inert (dropped_inert _)]
        simp [Swarm.perform]
    | @relayConnected peer c answers relayAddr' tx' m es hheld hparse hpeer hes =>
      rcases (hw.relay relayAddr tx hslot).next S hlegal hkeeps hslot with h | ⟨-, -, -, l, hanswer⟩
      · exact h
      · rw [hheld] at hslot
        obtain ⟨rfl, rfl⟩ := Prod.mk.inj (Option.some.inj hslot)
        have hstarted : answers.listenOn = .ok l := hanswer
        refine .inr ⟨l, ⟨tx', m ++ [.p2pCircuit], [], true⟩, m, hparse, ?_, rfl, rfl, rfl⟩
        have hrest : ∀ owner addr, .listenOn owner addr (.ok l) ∉ es :=
          fun owner addr hmem => hes _ hmem
        rw [hswarm, List.foldl_cons, List.foldl_cons, foldl_perform_listeners hrest, hstarted]
        simp [Swarm.perform]
    | aside hrequest hannounced hother =>
      rcases (hw.relay relayAddr tx hslot).next S hlegal hkeeps hslot with h | ⟨peer, hp, hd, -⟩
      · exact h
      · exact absurd hd (hother relayAddr tx peer hslot hp)

variable (F)

/-- Each accepted sender is held, or has been answered or dropped exactly once. -/
theorem requests_perm_next {w : World PeerId} (hw : (w.held ++ w.settled).Perm w.requests)
    (i : Input PeerId) :
    ((w.next F S i).held ++ (w.next F S i).settled).Perm (w.next F S i).requests := by
  have hledger := (eventLoop_listenStep F S w.loop i).ledger F
  rw [List.perm_iff_count] at hw hledger ⊢
  intro tx
  have hbefore := hw tx
  have hiteration := hledger tx
  simp only [held, next_loop, next_settled, next_requests, List.count_append]
    at hbefore hiteration ⊢
  omega

theorem started_next {w : World PeerId} (hw : w.Started) (i : Input PeerId) :
    (w.next F S i).Started := by
  intro step hstep tx hrequest
  rcases List.mem_append.mp hstep with hold | hnew
  · exact hw step hold tx hrequest
  · obtain rfl := List.mem_singleton.mp hnew
    exact (eventLoop_listenStep F S w.loop i).starts_or_refuses F hrequest

/-- In a run without the steps that end the last work of a held request, every held sender can
still be answered, every other one has been answered or dropped, and a request that could not
be started was answered with an error. -/
theorem answerable_of_keepsWork {inputs : List (Input PeerId)}
    (h : (machine F S).Along (fun w i => w.Legal i ∧ w.KeepsWork F i) init inputs) :
    let w := (machine F S).run inputs
    w.Answerable F ∧ (w.held ++ w.settled).Perm w.requests ∧ w.Started :=
  h.invariant (P := fun w => w.Answerable F ∧ (w.held ++ w.settled).Perm w.requests ∧ w.Started)
    ⟨⟨fun tx hslot => by simp [init, LoopState.init] at hslot,
        fun relayAddr tx hslot => by simp [init, LoopState.init] at hslot⟩,
      by simp [held, slots, settled, requests, effects, init, LoopState.init],
      fun step hstep => by simp [init] at hstep⟩
    fun _ i hw hi => ⟨answerable_next S hw.1 hi.1 hi.2, requests_perm_next F S hw.2.1 i,
      started_next F S hw.2.2 i⟩

/-- A relay request whose relay is being dialled. -/
def dialledRelay : List (Input String) :=
  [.command (.listenViaRelay sampleRelay 0) { Answers.refused with dial := .ok 0 }]

/-- The dial fails later on, and the loop ignores the event. -/
def failedRelay : List (Input String) :=
  dialledRelay ++ [.event (.outgoingConnectionError 0 (some "176")) Answers.refused]

/-- The dial connects, its listener announces the circuit address while a plain request waits for
its own listener, and a last request is refused. -/
def announcedRelay : List (Input String) :=
  dialledRelay ++
    [.event (.connectionEstablished "176" 0) { Answers.refused with listenOn := .ok 0 },
      .command (.listen ⟨"/ip4/0.0.0.0/tcp/90"⟩ 1) { Answers.refused with listenOn := .ok 1 },
      .event (.newListenAddr 0 [.p2p "176", .p2pCircuit]) Answers.refused,
      .command (.listenViaRelay ⟨"176"⟩ 2) Answers.refused]

theorem answerable_announcedRelay :
    let w := (machine Formats.plain json).run announcedRelay
    (w.Answerable Formats.plain ∧ (w.held ++ w.settled).Perm w.requests ∧ w.Started) ∧
    w.requests = [0, 1, 2] ∧ w.held = [1] ∧ w.settled = [0, 2] := by
  have hrun : (machine Formats.plain json).Along
      (fun w i => w.Legal i ∧ w.KeepsWork Formats.plain i) init announcedRelay := by
    refine ⟨⟨by decide, ?_⟩, ⟨by decide, ?_⟩, ⟨by decide, trivial⟩, ⟨by decide, ?_⟩,
      ⟨by decide, ?_⟩, trivial⟩
    · intro m c hparse _
      obtain rfl : _ = m := Except.ok.inj hparse
      decide
    · intro relayAddr tx hslot _
      obtain ⟨rfl, -⟩ : sampleRelay = relayAddr ∧ 0 = tx := Prod.mk.inj (Option.some.inj hslot)
      exact .inr ⟨rfl, 0, rfl⟩
    · intro li hli _ _
      obtain rfl : _ = li := Option.some.inj hli
      decide
    · intro m c hparse _
      cases hparse
  exact ⟨answerable_of_keepsWork Formats.plain json hrun, by decide, by decide, by decide⟩

/-- The sender is held, neither answered nor dropped, without a dial or a listener. -/
theorem stranded_failedRelay :
    let w := (machine Formats.plain json).run failedRelay
    (machine Formats.plain json).Along Legal init failedRelay ∧
    w.loop.pendingRelay = some (sampleRelay, 0) ∧ w.settled = [] ∧
    (∀ c, w.swarm.dials c = none) ∧ ∀ l, (w.swarm.listeners l).isNone = true := by
  refine ⟨by decide, by decide, by decide, ?_, fun l => rfl⟩
  intro c
  have hdials : ((machine Formats.plain json).run failedRelay).swarm.dials =
      Function.update (Function.update (fun _ => none) 0 (some (.relay 0))) 0 none := rfl
  simp [hdials, Function.update_apply]

end World
end MeerkatNet.V2
