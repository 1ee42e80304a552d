import MeerkatNet.V2.SendSteps
import MeerkatNet.V2.SwarmSteps

/-!
# What one iteration does to listen requests

`ListenStep` lists every way in which an iteration can treat the two slots of held
reply senders, together with the listens, relay dials and replies that go with it.
-/

namespace MeerkatNet.V2

open Libp2p SlashText KeyedQueues Runs

variable {PeerId : Type}

/-- The reply sender that a listen command carries. -/
def Input.request? : Input PeerId → Option ReplyTx
  | .command (.listen _ tx) _ => some tx
  | .command (.listenViaRelay _ tx) _ => some tx
  | _ => none

/-- The listener and the address that an event announces. -/
def Input.announced? : Input PeerId → Option (ListenerId × Multiaddr PeerId)
  | .event (.newListenAddr l address) _ => some (l, address)
  | _ => none

/-- The request whose sender an effect answers or drops. -/
def Effect.settled? : Effect PeerId → Option ReplyTx
  | .reply tx _ => some tx
  | .drop tx => some tx
  | _ => none

/-- Starts no listener and no relay dial, and settles no request. -/
def Effect.Aside : Effect PeerId → Prop
  | .reply _ _ => False
  | .drop _ => False
  | .listenOn _ _ (.ok _) => False
  | .dial (.relay _) _ (.ok _) => False
  | _ => True

/-- Starts the listener or the relay dial of a request. -/
def Effect.Starts (tx : ReplyTx) : Effect PeerId → Prop
  | .listenOn owner _ (.ok _) => owner = tx
  | .dial (.relay owner) _ (.ok _) => owner = tx
  | _ => False

/-- The text test for circuit addresses. -/
def circuitText (F : Formats PeerId) (address : Multiaddr PeerId) : Bool :=
  contains (F.display address) "/p2p-circuit"

/-- A request comes with a command. -/
theorem Input.command_of_request? {i : Input PeerId} {tx : ReplyTx} (h : i.request? = some tx) :
    ∃ cmd answers, i = .command cmd answers := by
  cases i with
  | command cmd answers => exact ⟨cmd, answers, rfl⟩
  | event ev answers => simp [Input.request?] at h

theorem Effect.Aside.settled? {e : Effect PeerId} (h : e.Aside) : e.settled? = none := by
  cases e <;> simp_all [Effect.Aside, Effect.settled?]

theorem settled_of_aside {es : List (Effect PeerId)} (h : ∀ e ∈ es, e.Aside) :
    es.filterMap Effect.settled? = [] :=
  List.filterMap_eq_nil_iff.mpr fun e he => (h e he).settled?

@[simp] theorem settled_dropped (old : Option ReplyTx) :
    (dropped old : List (Effect PeerId)).filterMap Effect.settled? = old.toList := by
  cases old <;> rfl

theorem sendToPeer_aside (S : Serde) (answer : StreamAnswer) (peer : PeerId) (id : MessageId)
    (msg : MeerkatMessage) : ∀ e ∈ sendToPeer S answer peer id msg, e.Aside := by
  obtain ⟨written, h | ⟨e, h, -⟩⟩ := sendToPeer_cases S answer peer id msg <;>
    simp [h, Effect.Aside]

theorem flush_aside (S : Serde) (stream : ℕ → StreamAnswer) (peer : PeerId)
    (messages : List (MessageId × MeerkatMessage)) :
    ∀ e ∈ flush S stream peer messages, e.Aside := by
  apply forall_mem_flush
  intro answer id msg
  exact sendToPeer_aside S answer peer id msg

variable [DecidableEq PeerId] (F : Formats PeerId) (S : Serde)

inductive ListenStep (listen : Option ReplyTx) (relay : Option (Address × ReplyTx)) :
    Input PeerId → Option ReplyTx → Option (Address × ReplyTx) → List (Effect PeerId) → Prop where
  | refused {i tx es text} (hrequest : i.request? = some tx) (hes : ∀ e ∈ es, e.Aside) :
      ListenStep listen relay i listen relay (es ++ [.reply tx (.error text)])
  | listening {addr tx answers m l} (hparse : F.parse addr.text = .ok m)
      (hanswer : answers.listenOn = .ok l) :
      ListenStep listen relay (.command (.listen addr tx) answers) (some tx) relay
        (.listenOn tx m (.ok l) :: dropped listen)
  | relayDialled {relayAddr tx answers m c} (hparse : F.parse relayAddr.text = .ok m)
      (hanswer : answers.dial = .ok c) :
      ListenStep listen relay (.command (.listenViaRelay relayAddr tx) answers) listen
        (some (relayAddr, tx)) (.dial (.relay tx) m (.ok c) :: dropped (relay.map Prod.snd))
  | circuitAnnounced {l address answers relayAddr tx} (hcircuit : circuitText F address = true)
      (hrelay : relay = some (relayAddr, tx)) :
      ListenStep listen relay (.event (.newListenAddr l address) answers) listen none
        [.reply tx (.ok ⟨F.display address⟩)]
  | addressAnnounced {l address answers tx} (hcircuit : circuitText F address = true → relay = none)
      (hlisten : listen = some tx) :
      ListenStep listen relay (.event (.newListenAddr l address) answers) none relay
        [.reply tx (.ok ⟨F.display address⟩)]
  | unclaimed {l address answers} (hcircuit : circuitText F address = true → relay = none)
      (hlisten : listen = none) :
      ListenStep listen relay (.event (.newListenAddr l address) answers) none relay []
  | relayConnected {peer c answers relayAddr tx m es} (hrelay : relay = some (relayAddr, tx))
      (hparse : F.parse relayAddr.text = .ok m) (hpeer : extractPeerId m = some peer)
      (hes : ∀ e ∈ es, e.Aside) :
      ListenStep listen relay (.event (.connectionEstablished peer c) answers) listen relay
        (.event (.peerConnected (F.peerText peer)) ::
          .listenOn tx (m ++ [.p2pCircuit]) answers.listenOn :: es)
  | aside {i es} (hrequest : i.request? = none) (hannounced : i.announced? = none)
      (hother : ∀ relayAddr tx peer, relay = some (relayAddr, tx) →
        i.established? = some peer → destination F relayAddr ≠ some peer)
      (hes : ∀ e ∈ es, e.Aside) : ListenStep listen relay i listen relay es

omit [DecidableEq PeerId] in
theorem ListenStep.refused_alone {listen : Option ReplyTx} {relay : Option (Address × ReplyTx)}
    {i : Input PeerId} {tx : ReplyTx} {text : String} (hrequest : i.request? = some tx) :
    ListenStep F listen relay i listen relay [.reply tx (.error text)] := by
  have hstep : ListenStep F listen relay i listen relay ([] ++ [.reply tx (.error text)]) :=
    .refused hrequest (by simp)
  exact hstep

omit [DecidableEq PeerId] in
theorem ListenStep.refused_after {listen : Option ReplyTx} {relay : Option (Address × ReplyTx)}
    {i : Input PeerId} {tx : ReplyTx} {text : String} {e : Effect PeerId}
    (hrequest : i.request? = some tx) (he : e.Aside) :
    ListenStep F listen relay i listen relay [e, .reply tx (.error text)] := by
  have hstep : ListenStep F listen relay i listen relay ([e] ++ [.reply tx (.error text)]) :=
    .refused hrequest (by simpa using he)
  exact hstep

/-- The senders held in the two slots. -/
def slots (listen : Option ReplyTx) (relay : Option (Address × ReplyTx)) : List ReplyTx :=
  listen.toList ++ (relay.map Prod.snd).toList

omit [DecidableEq PeerId] in
/-- A sender that was held or has just come is held afterwards, answered or dropped. -/
theorem ListenStep.ledger {listen listen' : Option ReplyTx}
    {relay relay' : Option (Address × ReplyTx)} {i : Input PeerId} {es : List (Effect PeerId)}
    (hstep : ListenStep F listen relay i listen' relay' es) :
    (slots listen' relay' ++ es.filterMap Effect.settled?).Perm
      (slots listen relay ++ i.request?.toList) := by
  rw [List.perm_iff_count]
  intro tx
  cases hstep with
  | refused hrequest hes => simp [hrequest, settled_of_aside hes, Effect.settled?]
  | listening =>
    simp only [slots, List.filterMap_cons, Effect.settled?, settled_dropped, Input.request?,
      List.count_append, Option.toList_some]
    omega
  | relayDialled =>
    simp only [slots, List.filterMap_cons, Effect.settled?, settled_dropped, Input.request?,
      List.count_append, Option.map_some, Option.toList_some]
    omega
  | circuitAnnounced hcircuit hrelay =>
    simp [slots, hrelay, Effect.settled?, Input.request?]
  | addressAnnounced hcircuit hlisten =>
    simp only [slots, hlisten, List.filterMap_cons, List.filterMap_nil, Effect.settled?,
      Input.request?, List.count_append, Option.toList_some, Option.toList_none, List.count_nil]
    omega
  | unclaimed hcircuit hlisten => simp [slots, hlisten, Input.request?]
  | relayConnected hrelay hparse hpeer hes =>
    simp [List.filterMap_cons, Effect.settled?, settled_of_aside hes, Input.request?]
  | aside hrequest hannounced hother hes => simp [hrequest, settled_of_aside hes]

omit [DecidableEq PeerId] in
/-- A listen command starts its listener or its dial, or is answered with an error. -/
theorem ListenStep.starts_or_refuses {listen listen' : Option ReplyTx}
    {relay relay' : Option (Address × ReplyTx)} {i : Input PeerId} {es : List (Effect PeerId)}
    (hstep : ListenStep F listen relay i listen' relay' es) {tx : ReplyTx}
    (hrequest : i.request? = some tx) :
    (∃ e ∈ es, e.Starts tx) ∨ ∃ text, .reply tx (.error text) ∈ es := by
  cases hstep with
  | refused hrefused =>
    obtain rfl := Option.some.inj (hrequest.symm.trans hrefused)
    exact .inr ⟨_, List.mem_append_right _ (List.mem_singleton_self _)⟩
  | listening | relayDialled => exact .inl ⟨_, List.mem_cons_self, Option.some.inj hrequest⟩
  | circuitAnnounced | addressAnnounced | unclaimed | relayConnected =>
    simp [Input.request?] at hrequest
  | aside hnone => simp [hnone] at hrequest

theorem handleSwarmEvent_listenStep (s : LoopState PeerId) (answers : Answers)
    (ev : SwarmEvent PeerId) :
    ListenStep F s.pendingListen s.pendingRelay (.event ev answers)
      (handleSwarmEvent F S answers s ev).1.pendingListen
      (handleSwarmEvent F S answers s ev).1.pendingRelay (handleSwarmEvent F S answers s ev).2 := by
  cases ev with
  | newListenAddr l address =>
    simp only [handleSwarmEvent]
    split
    · rename_i relayAddr tx hrelay
      split_ifs at hrelay with hcircuit
      exact .circuitAnnounced hcircuit hrelay
    · rename_i hrelay
      have hother : circuitText F address = true → s.pendingRelay = none := by
        intro hcircuit
        rw [circuitText] at hcircuit
        simpa only [hcircuit, if_true] using hrelay
      split
      · rename_i tx hlisten
        exact .addressAnnounced hother hlisten
      · rename_i hlisten
        rw [hlisten]
        exact .unclaimed hother rfl
  | connectionEstablished peer c =>
    have hloop : (handleSwarmEvent F S answers s (.connectionEstablished peer c)).1.pendingListen =
          s.pendingListen ∧
        (handleSwarmEvent F S answers s (.connectionEstablished peer c)).1.pendingRelay =
          s.pendingRelay ∧
        ∃ es, (∀ e ∈ es, e.Aside) ∧
          (handleSwarmEvent F S answers s (.connectionEstablished peer c)).2 =
            .event (.peerConnected (F.peerText peer)) :: (relayListen F answers s peer ++ es) := by
      simp only [handleSwarmEvent]
      split
      · exact ⟨rfl, rfl, _, flush_aside S answers.stream peer _, rfl⟩
      · exact ⟨rfl, rfl, [], by simp, by simp⟩
    obtain ⟨hlisten, hrelay, es, hes, heffects⟩ := hloop
    rw [hlisten, hrelay, heffects]
    by_cases hmatch : ∃ relayAddr tx, s.pendingRelay = some (relayAddr, tx) ∧
        destination F relayAddr = some peer
    · obtain ⟨relayAddr, tx, hslot, hdest⟩ := hmatch
      unfold destination at hdest
      split at hdest
      · simp at hdest
      · rename_i m hparse
        have hcalls : relayListen F answers s peer =
            [.listenOn tx (m ++ [.p2pCircuit]) answers.listenOn] := by
          simp [relayListen, hslot, hparse, hdest]
        rw [hcalls]
        exact .relayConnected hslot hparse hdest hes
    · have hcalls : relayListen F answers s peer = [] := by
        unfold relayListen
        split
        · rfl
        · rename_i relayAddr tx hslot
          split
          · rfl
          · rename_i m hparse
            refine if_neg fun hpeer => hmatch ⟨relayAddr, tx, hslot, ?_⟩
            simp [destination, hparse, hpeer]
      rw [hcalls]
      refine .aside rfl rfl (?_) ?_
      · intro relayAddr tx p hslot hp hdest
        cases hp
        exact hmatch ⟨relayAddr, tx, hslot, hdest⟩
      · exact List.forall_mem_cons.mpr ⟨trivial, hes⟩
  | connectionClosed | identifyReceived | expiredListenAddr | listenerClosed | listenerError
  | outgoingConnectionError | relayClient | relay | identifyOther | other =>
    exact .aside rfl rfl (by simp [Input.established?]) (by simp [handleSwarmEvent, Effect.Aside])

theorem doSend_aside (s : LoopState PeerId) (answers : Answers) (id : MessageId) (addr : Address)
    (msg : MeerkatMessage) :
    (doSend F S answers s id addr msg).1.pendingListen = s.pendingListen ∧
    (doSend F S answers s id addr msg).1.pendingRelay = s.pendingRelay ∧
    ∀ e ∈ (doSend F S answers s id addr msg).2, e.Aside := by
  unfold doSend
  split
  · simp [Effect.Aside]
  · split
    · simp [Effect.Aside]
    · split_ifs
      · exact ⟨rfl, rfl, sendToPeer_aside S _ _ _ _⟩
      · dsimp only
        split <;> simp [Effect.Aside]

/-- Every iteration is one of the cases of `ListenStep`. -/
theorem eventLoop_listenStep (s : LoopState PeerId) (i : Input PeerId) :
    ListenStep F s.pendingListen s.pendingRelay i (eventLoop F S s i).1.pendingListen
      (eventLoop F S s i).1.pendingRelay (eventLoop F S s i).2 := by
  rcases i with ⟨⟨id, addr, msg⟩ | ⟨addr, tx⟩ | ⟨addr, tx⟩, answers⟩ | ⟨ev, answers⟩
  · obtain ⟨hlisten, hrelay, hes⟩ := doSend_aside F S s answers id addr msg
    simp only [eventLoop, hlisten, hrelay]
    exact .aside rfl rfl (by simp [Input.established?]) hes
  · simp only [eventLoop, doListen]
    split
    · exact .refused_alone F rfl
    · rename_i m hparse
      split
      · exact .refused_after F rfl trivial
      · rename_i l hanswer
        exact .listening hparse hanswer
  · simp only [eventLoop, doListenViaRelay]
    split
    · exact .refused_alone F rfl
    · rename_i m hparse
      split
      · exact .refused_after F rfl trivial
      · rename_i c hanswer
        exact .relayDialled hparse hanswer
  · exact handleSwarmEvent_listenStep F S s answers ev

end MeerkatNet.V2
