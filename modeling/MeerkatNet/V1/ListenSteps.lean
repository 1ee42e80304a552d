import MeerkatNet.V1.Node

/-!
# What an iteration does to listen requests

`ListenStep` lists the iterations of the first crate's loop as listen requests see them:
a request is refused or takes the place of the one before, and the next announced
address answers it. Every announced address goes to the shared list, asked for or not.
-/

namespace MeerkatNet.V1

open Libp2p KeyedQueues Runs
open V2 (Answers)

variable {PeerId : Type}

/-- The response sender that a command carries. -/
def NetworkCommand.request? : NetworkCommand → Option ResponseTx
  | .send _ _ _ => none
  | .listen _ tx => some tx

def Input.request? : Input PeerId → Option ResponseTx
  | .command cmd _ => cmd.request?
  | .event _ _ => none

def Input.announced? : Input PeerId → Option (Multiaddr PeerId)
  | .event (.newListenAddr address) _ => some address
  | _ => none

/-- The effect neither answers a listen request nor drops its sender. -/
def Effect.Aside : Effect PeerId → Prop
  | .reply _ _ | .drop _ => False
  | _ => True

theorem answerIn_of_aside {es : List (Effect PeerId)} (hes : ∀ e ∈ es, e.Aside)
    (tx : ResponseTx) : answerIn tx es = none := by
  apply List.findSome?_eq_none_iff.mpr
  intro e he
  have haside := hes e he
  cases e with
  | reply => exact haside.elim
  | _ => rfl

theorem dropsIn_of_aside {es : List (Effect PeerId)} (hes : ∀ e ∈ es, e.Aside)
    (tx : ResponseTx) : dropsIn tx es = false := by
  apply List.any_eq_false.mpr
  intro e he
  have haside := hes e he
  cases e with
  | drop => exact haside.elim
  | _ => simp

theorem sendToPeer_aside (S : Serde) (answer : V2.StreamAnswer) (peer : PeerId)
    (msgId : MessageId) (msg : MeerkatMessage) :
    ∀ e ∈ sendToPeer S answer peer msgId msg, e.Aside := by
  unfold sendToPeer
  cases answer with
  | refused e => simp [Effect.Aside]
  | opened room error flushed =>
    dsimp only
    cases (sendMessage S ⟨[], room, error, flushed⟩ msg).2 <;> simp [Effect.Aside]

theorem flush_aside (S : Serde) (stream : ℕ → V2.StreamAnswer) (peer : PeerId)
    (messages : List (MessageId × MeerkatMessage)) :
    ∀ e ∈ flush S stream peer messages, e.Aside := by
  induction messages generalizing stream with
  | nil => simp [flush]
  | cons m messages ih =>
    intro e he
    rcases List.mem_append.mp he with he | he
    · exact sendToPeer_aside S _ _ _ _ e he
    · exact ih _ e he

theorem callback_aside {provided : Bool} {call : Effect PeerId} (h : call.Aside) :
    ∀ e ∈ callback provided call, e.Aside := by
  cases provided <;> simp [callback, h]

/-- An iteration as listen requests and the address list see it. -/
inductive ListenStep (F : Formats PeerId) (s : LoopState PeerId) :
    Input PeerId → LoopState PeerId → List (Effect PeerId) → Prop where
  | aside {i pendingSends es} (hrequest : i.request? = none) (hannounced : i.announced? = none)
      (hes : ∀ e ∈ es, e.Aside) : ListenStep F s i { s with pendingSends := pendingSends } es
  | invalid {addr tx answers e} (hparse : F.parse addr.text = .error e) :
      ListenStep F s (.command (.listen addr tx) answers) s
        [.reply tx (.error (.invalidAddress addr.text))]
  | refused {addr tx answers multiaddr e} (hparse : F.parse addr.text = .ok multiaddr) :
      ListenStep F s (.command (.listen addr tx) answers) s
        [.listenOn tx multiaddr (.error e), .reply tx (.error (.bindFailed e))]
  | listening {addr tx answers multiaddr l} (hparse : F.parse addr.text = .ok multiaddr) :
      ListenStep F s (.command (.listen addr tx) answers) { s with pendingListen := some tx }
        (.listenOn tx multiaddr (.ok l) :: dropped s.pendingListen)
  | announced {address answers} :
      ListenStep F s (.event (.newListenAddr address) answers)
        { s with
          localAddrs := s.localAddrs ++ [⟨F.display address⟩]
          pendingListen := none }
        (s.pendingListen.map fun tx => .reply tx (.ok ⟨F.display address⟩)).toList

variable {F : Formats PeerId}

/-- An iteration neither answers a request that it does not take and the loop does not hold, nor
drops its sender. -/
theorem ListenStep.untouched {s s' : LoopState PeerId} {i : Input PeerId}
    {es : List (Effect PeerId)} (hstep : ListenStep F s i s' es) {tx : ResponseTx}
    (hrequest : i.request? ≠ some tx) (hpending : s.pendingListen ≠ some tx) :
    answerIn tx es = none ∧ dropsIn tx es = false ∧ s'.pendingListen ≠ some tx := by
  cases hstep with
  | aside _ _ hes => exact ⟨answerIn_of_aside hes tx, dropsIn_of_aside hes tx, hpending⟩
  | @invalid _ tx' | @refused _ tx' =>
    have hne : tx' ≠ tx := fun h => hrequest (congrArg some h)
    exact ⟨by simp [answerIn, hne], by simp [dropsIn], hpending⟩
  | @listening _ tx' =>
    have hne : tx' ≠ tx := fun h => hrequest (congrArg some h)
    cases hs : s.pendingListen with
    | none => simp [answerIn, dropsIn, dropped, hne]
    | some old =>
      have hold : old ≠ tx := fun h => hpending (hs.trans (congrArg some h))
      simp [answerIn, dropsIn, dropped, hne, hold]
  | announced =>
    cases hs : s.pendingListen with
    | none => simp [answerIn, dropsIn]
    | some old =>
      have hold : old ≠ tx := fun h => hpending (hs.trans (congrArg some h))
      simp [answerIn, dropsIn, hold]

/-- The request that the loop holds is answered by the next address, unless another request takes
its place. -/
theorem ListenStep.held {s s' : LoopState PeerId} {i : Input PeerId}
    {es : List (Effect PeerId)} (hstep : ListenStep F s i s' es) {tx : ResponseTx}
    (hrequest : i.request? = none) (hpending : s.pendingListen = some tx) :
    (answerIn tx es = none ∧ dropsIn tx es = false ∧ s'.pendingListen = some tx) ∨
    ∃ a, answerIn tx es = some (.ok a) ∧ s'.localAddrs = s.localAddrs ++ [a] := by
  cases hstep with
  | aside _ _ hes => exact .inl ⟨answerIn_of_aside hes tx, dropsIn_of_aside hes tx, hpending⟩
  | invalid | refused | listening => cases hrequest
  | announced => exact .inr ⟨_, by simp [answerIn, hpending], rfl⟩

/-- A request is refused with the reason, or held. -/
theorem ListenStep.taken {s s' : LoopState PeerId} {addr : GlobalAddress} {tx : ResponseTx}
    {answers : Answers} {es : List (Effect PeerId)}
    (hstep : ListenStep F s (.command (.listen addr tx) answers) s' es)
    (hpending : s.pendingListen ≠ some tx) :
    (answerIn tx es = some (.error (.invalidAddress addr.text)) ∧
      ∃ e, F.parse addr.text = .error e) ∨
    (∃ multiaddr e, answerIn tx es = some (.error (.bindFailed e)) ∧
      F.parse addr.text = .ok multiaddr ∧ .listenOn tx multiaddr (.error e) ∈ es) ∨
    (answerIn tx es = none ∧ dropsIn tx es = false ∧ s'.pendingListen = some tx) := by
  cases hstep with
  | aside hrequest => cases hrequest
  | invalid hparse => exact .inl ⟨by simp [answerIn], _, hparse⟩
  | @refused _ _ _ multiaddr e hparse =>
    exact .inr (.inl ⟨multiaddr, e, by simp [answerIn], hparse, by simp⟩)
  | listening hparse =>
    refine .inr (.inr ?_)
    cases hs : s.pendingListen with
    | none => simp [answerIn, dropsIn, dropped]
    | some old =>
      have hold : old ≠ tx := fun h => hpending (hs.trans (congrArg some h))
      simp [answerIn, dropsIn, dropped, hold]

theorem ListenStep.localAddrs {s s' : LoopState PeerId} {i : Input PeerId}
    {es : List (Effect PeerId)} (hstep : ListenStep F s i s' es) :
    s.localAddrs <+: s'.localAddrs := by
  cases hstep with
  | announced => exact List.prefix_append _ _
  | aside | invalid | refused | listening => exact List.prefix_rfl

variable [DecidableEq PeerId] (F) (S : Serde) (callbacks : NetworkCallbacks)

theorem handleSend_listenStep (answers : Answers) (s : LoopState PeerId) (msgId : MessageId)
    (addr : GlobalAddress) (msg : MeerkatMessage) :
    ListenStep F s (.command (.send msgId addr msg) answers)
      (handleSend F S answers s msgId addr msg).1 (handleSend F S answers s msgId addr msg).2 := by
  have haside : ∀ pendingSends es, (∀ e ∈ es, Effect.Aside e) →
      ListenStep F s (.command (.send msgId addr msg) answers)
        { s with pendingSends := pendingSends } es := fun _ _ hes => .aside rfl rfl hes
  unfold handleSend
  cases parseGlobalAddress F addr with
  | error e => exact haside s.pendingSends [.sendError _ _] (by simp [Effect.Aside])
  | ok multiaddr =>
    dsimp only
    cases extractPeerId multiaddr with
    | none => exact haside s.pendingSends [.sendError _ _] (by simp [Effect.Aside])
    | some peer =>
      dsimp only
      split_ifs
      · exact haside s.pendingSends _ (sendToPeer_aside S _ _ _ _)
      · cases answers.dial with
        | ok c => exact haside _ [.dial _ _ _] (by simp [Effect.Aside])
        | error e => exact haside _ [.dial _ _ _, .sendError _ _] (by simp [Effect.Aside])

theorem eventLoop_listenStep (s : LoopState PeerId) (i : Input PeerId) :
    ListenStep F s i (eventLoop F S callbacks s i).1 (eventLoop F S callbacks s i).2 := by
  rcases i with ⟨⟨id, addr, msg⟩ | ⟨addr, tx⟩, answers⟩ | ⟨ev, answers⟩
  · exact handleSend_listenStep F S answers s id addr msg
  · simp only [eventLoop, handleListen, parseGlobalAddress]
    cases hparse : F.parse addr.text with
    | error e => exact .invalid hparse
    | ok multiaddr =>
      simp only [Except.mapError]
      cases answers.listenOn with
      | error e => exact .refused hparse
      | ok l => exact .listening hparse
  · have haside : ∀ pendingSends es, (∀ e ∈ es, Effect.Aside e) →
        (Input.event ev answers).announced? = none →
        ListenStep F s (.event ev answers) { s with pendingSends := pendingSends } es :=
      fun _ _ hes hannounced => .aside rfl hannounced hes
    cases ev with
    | newListenAddr address =>
      have hstep : ListenStep F s (.event (.newListenAddr address) answers) _ _ := .announced
      simp only [eventLoop, handleSwarmEvent]
      cases hpending : s.pendingListen with
      | none | some tx => simpa [hpending] using hstep
    | connectionEstablished peer =>
      let connected : Effect PeerId := .peerConnected (F.peerText peer)
      have hannounced : ∀ e ∈ callback callbacks.onPeerConnected connected, e.Aside :=
        callback_aside trivial
      simp only [eventLoop, handleSwarmEvent]
      cases s.pendingSends.get peer with
      | none => exact haside s.pendingSends _ hannounced rfl
      | some messages =>
        refine haside _ _ ?_ rfl
        intro e he
        rcases List.mem_append.mp he with he | he
        · exact hannounced e he
        · exact flush_aside S _ _ _ e he
    | connectionClosed peer => exact haside s.pendingSends _ (callback_aside trivial) rfl
    | other => exact haside s.pendingSends [] (by simp) rfl

theorem World.next_answer? (w : World PeerId) (i : Input PeerId) (tx : ResponseTx) :
    (w.next F S callbacks i).answer? tx =
      (w.answer? tx).or (answerIn tx (eventLoop F S callbacks w.loop i).2) :=
  List.findSome?_append

theorem World.next_dropsSender (w : World PeerId) (i : Input PeerId) (tx : ResponseTx) :
    (w.next F S callbacks i).dropsSender tx =
      (w.dropsSender tx || dropsIn tx (eventLoop F S callbacks w.loop i).2) :=
  List.any_append

end MeerkatNet.V1
