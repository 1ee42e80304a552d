import MeerkatNet.V2.World

/-!
# What one iteration does to messages

`SendStep` lists every way in which an iteration can treat the queues, the hand-offs
and the reported failures. All results about sends are proved by cases on it.
-/

namespace MeerkatNet.V2

open Libp2p KeyedQueues Runs

variable {PeerId : Type}

/-- A failure that `do_send` reports itself, without calling `send_to_peer`. -/
def SendError.BeforeHandOff (error : SendError) : Prop :=
  (∃ addr, error = .unreachableAddress addr) ∨
    error = .protocolError "No peer ID in address" ∨
    ∃ e, error = .protocolError ("Dial failed: " ++ e)

/-- Neither a hand-off, nor a reported failure, nor a dial of a send, nor a message received. -/
def Effect.Quiet : Effect PeerId → Prop
  | .handOff _ => False
  | .event (.sendFailed _ _) => False
  | .event (.messageReceived _ _) => False
  | .dial (.send _) _ _ => False
  | _ => True

def HandOff.entry (h : HandOff PeerId) : MessageId × MeerkatMessage := (h.msgId, h.msg)

/-- A message with this id waits in some queue. -/
def QueuedIn (pending : QueueMap PeerId (MessageId × MeerkatMessage)) (id : MessageId) : Prop :=
  ∃ peer, id ∈ (pending.queue peer).map Prod.fst

theorem Effect.Quiet.handOff? {e : Effect PeerId} (h : e.Quiet) : e.handOff? = none := by
  cases e <;> simp_all [Effect.Quiet, Effect.handOff?]

theorem Effect.Quiet.failure? {e : Effect PeerId} (h : e.Quiet) : e.failure? = none := by
  rcases e with e | _ | _ | _ | _ | _ | _
  · cases e <;> simp_all [Effect.Quiet, Effect.failure?]
  all_goals rfl

theorem handOffs_of_quiet {es : List (Effect PeerId)} (h : ∀ e ∈ es, e.Quiet) :
    es.filterMap Effect.handOff? = [] :=
  List.filterMap_eq_nil_iff.mpr fun e he => (h e he).handOff?

theorem failures_of_quiet {es : List (Effect PeerId)} (h : ∀ e ∈ es, e.Quiet) :
    es.filterMap Effect.failure? = [] :=
  List.filterMap_eq_nil_iff.mpr fun e he => (h e he).failure?

/-! ### Hand-offs -/

/-- `send_to_peer` is one hand-off and at most one failure, of the same message. -/
theorem sendToPeer_cases (S : Serde) (answer : StreamAnswer) (peer : PeerId) (id : MessageId)
    (msg : MeerkatMessage) :
    ∃ written, sendToPeer S answer peer id msg = [.handOff ⟨peer, id, msg, written⟩] ∨
      ∃ e, sendToPeer S answer peer id msg =
        [.handOff ⟨peer, id, msg, written⟩, .event (.sendFailed id (.protocolError e))] ∧
        ¬ (SendError.protocolError e).BeforeHandOff := by
  have before : ∀ e : String, e.toList.head? = some 'S' →
      ¬ (SendError.protocolError e).BeforeHandOff := by
    rintro e he (⟨_, h⟩ | h | ⟨_, h⟩) <;> simp_all
  unfold sendToPeer
  split
  · exact ⟨none, .inr ⟨_, rfl, before _ (by simp)⟩⟩
  · dsimp only
    split
    · exact ⟨_, .inl rfl⟩
    · exact ⟨_, .inr ⟨_, rfl, before _ (by simp)⟩⟩

@[simp] theorem sendToPeer_entries (S : Serde) (answer : StreamAnswer) (peer : PeerId)
    (id : MessageId) (msg : MeerkatMessage) :
    ((sendToPeer S answer peer id msg).filterMap Effect.handOff?).map HandOff.entry =
      [(id, msg)] := by
  obtain ⟨written, h | ⟨e, h, -⟩⟩ := sendToPeer_cases S answer peer id msg <;>
    simp [h, Effect.handOff?, HandOff.entry]

theorem sendToPeer_peer {S : Serde} {answer : StreamAnswer} {peer : PeerId} {id : MessageId}
    {msg : MeerkatMessage} {h : HandOff PeerId}
    (hmem : h ∈ (sendToPeer S answer peer id msg).filterMap Effect.handOff?) : h.peer = peer := by
  obtain ⟨written, hs | ⟨e, hs, -⟩⟩ := sendToPeer_cases S answer peer id msg <;>
    · simp only [hs, Effect.handOff?, List.filterMap_cons, List.filterMap_nil,
        List.mem_singleton] at hmem
      rw [hmem]

theorem map_msgId (hs : List (HandOff PeerId)) :
    hs.map HandOff.msgId = (hs.map HandOff.entry).map Prod.fst := by
  simp [HandOff.entry]

/-- The failure that `send_to_peer` reports, if any. -/
theorem sendToPeer_failures (S : Serde) (answer : StreamAnswer) (peer : PeerId)
    (id : MessageId) (msg : MeerkatMessage) :
    (sendToPeer S answer peer id msg).filterMap Effect.failure? = [] ∨
      ∃ error, ¬ error.BeforeHandOff ∧
        (sendToPeer S answer peer id msg).filterMap Effect.failure? = [(id, error)] := by
  obtain ⟨written, h | ⟨e, h, he⟩⟩ := sendToPeer_cases S answer peer id msg
  · exact .inl (by rw [h]; rfl)
  · exact .inr ⟨_, he, by rw [h]; rfl⟩

/-- A flush hands off exactly the queue, in its order. -/
@[simp] theorem flush_entries (S : Serde) (stream : ℕ → StreamAnswer) (peer : PeerId)
    (messages : List (MessageId × MeerkatMessage)) :
    ((flush S stream peer messages).filterMap Effect.handOff?).map HandOff.entry = messages := by
  induction messages generalizing stream with
  | nil => rfl
  | cons m messages ih => simp [flush, ih]

theorem flush_peer {S : Serde} {stream : ℕ → StreamAnswer} {peer : PeerId}
    {messages : List (MessageId × MeerkatMessage)} {h : HandOff PeerId}
    (hmem : h ∈ (flush S stream peer messages).filterMap Effect.handOff?) : h.peer = peer := by
  obtain ⟨e, he, hhandOff⟩ := List.mem_filterMap.mp hmem
  have hpeer : ∀ h, e.handOff? = some h → h.peer = peer := by
    apply forall_mem_flush _ stream messages e he
    intro answer id msg e he h hhandOff
    exact sendToPeer_peer (List.mem_filterMap.mpr ⟨e, he, hhandOff⟩)
  exact hpeer h hhandOff

/-- The failures of a flush: at most one for each message of the queue, in its order, and none
of them from before the hand-off. -/
theorem flush_failures (S : Serde) (stream : ℕ → StreamAnswer) (peer : PeerId)
    (messages : List (MessageId × MeerkatMessage)) :
    (((flush S stream peer messages).filterMap Effect.failure?).map Prod.fst).Sublist
        (messages.map Prod.fst) ∧
      ∀ f ∈ (flush S stream peer messages).filterMap Effect.failure?, ¬ f.2.BeforeHandOff := by
  induction messages generalizing stream with
  | nil => simp [flush]
  | cons m messages ih =>
    obtain ⟨hsub, hafter⟩ := ih (fun n => stream (n + 1))
    rcases sendToPeer_failures S (stream 0) peer m.1 m.2 with h | ⟨error, he, h⟩
    · simp only [flush, List.filterMap_append, h, List.nil_append, List.map_cons]
      exact ⟨hsub.cons _, hafter⟩
    · simp only [flush, List.filterMap_append, h, List.map_cons,
        List.singleton_append, List.mem_cons, forall_eq_or_imp]
      exact ⟨hsub.cons_cons _, he, hafter⟩

/-! ### The cases of an iteration -/

theorem dropped_quiet (old : Option ReplyTx) :
    ∀ e ∈ (dropped old : List (Effect PeerId)), e.Quiet := by
  cases old <;> simp [dropped, Effect.Quiet]

variable [DecidableEq PeerId] (F : Formats PeerId) (S : Serde)

/-- The peer that an address resolves to, if it parses and names one. -/
def destination (addr : Address) : Option PeerId :=
  match F.parse addr.text with
  | .error _ => none
  | .ok multiaddr => extractPeerId multiaddr

inductive SendStep (pending : QueueMap PeerId (MessageId × MeerkatMessage)) :
    Input PeerId → QueueMap PeerId (MessageId × MeerkatMessage) → List (Effect PeerId) → Prop where
  | rejected {id addr msg answers error} (hdest : destination F addr = none)
      (herror : error.BeforeHandOff) :
      SendStep pending (.command (.send id addr msg) answers) pending
        [.event (.sendFailed id error)]
  | direct {id addr msg answers peer} (hdest : destination F addr = some peer)
      (hconn : answers.isConnected = true) :
      SendStep pending (.command (.send id addr msg) answers) pending
        (sendToPeer S (answers.stream 0) peer id msg)
  | queued {id addr msg answers peer multiaddr c} (hdest : destination F addr = some peer)
      (hconn : answers.isConnected = false) (hdial : answers.dial = .ok c) :
      SendStep pending (.command (.send id addr msg) answers) (pending.push peer (id, msg))
        [.dial (.send peer) multiaddr (.ok c)]
  | dialFailed {id addr msg answers peer multiaddr e} (hdest : destination F addr = some peer)
      (hconn : answers.isConnected = false) (hdial : answers.dial = .error e) :
      SendStep pending (.command (.send id addr msg) answers) (pending.remove peer)
        [.dial (.send peer) multiaddr (.error e),
          .event (.sendFailed id (.protocolError ("Dial failed: " ++ e)))]
  | flushed {peer c answers es} (hes : ∀ e ∈ es, e.Quiet) :
      SendStep pending (.event (.connectionEstablished peer c) answers) (pending.remove peer)
        (es ++ flush S answers.stream peer (pending.queue peer))
  | quiet {i es} (hi : i.taken? = none)
      (hother : ∀ peer c answers, i ≠ .event (.connectionEstablished peer c) answers)
      (hes : ∀ e ∈ es, e.Quiet) : SendStep pending i pending es

theorem relayListen_quiet (answers : Answers) (s : LoopState PeerId) (peer : PeerId) :
    ∀ e ∈ relayListen F answers s peer, e.Quiet := by
  unfold relayListen
  intro e he
  split at he
  · simp at he
  · split at he
    · simp at he
    · split_ifs at he
      · simp only [List.mem_singleton] at he
        subst e
        trivial
      · simp at he

theorem doSend_sendStep (s : LoopState PeerId) (answers : Answers) (id : MessageId)
    (addr : Address) (msg : MeerkatMessage) :
    SendStep F S s.pendingSends (.command (.send id addr msg) answers)
      (doSend F S answers s id addr msg).1.pendingSends (doSend F S answers s id addr msg).2 := by
  unfold doSend
  split
  · rename_i hparse
    exact .rejected (by simp [destination, hparse]) (.inl ⟨_, rfl⟩)
  · rename_i multiaddr hparse
    have hdest : destination F addr = extractPeerId multiaddr := by simp [destination, hparse]
    split
    · rename_i hpeer
      exact .rejected (hdest.trans hpeer) (.inr (.inl rfl))
    · rename_i peer hpeer
      split_ifs with hconn
      · exact .direct (hdest.trans hpeer) hconn
      · rw [Bool.not_eq_true] at hconn
        dsimp only
        split
        · rename_i hdial
          exact .queued (hdest.trans hpeer) hconn hdial
        · rename_i hdial
          rw [QueueMap.push_remove]
          exact .dialFailed (hdest.trans hpeer) hconn hdial

theorem handleSwarmEvent_sendStep (s : LoopState PeerId) (answers : Answers)
    (ev : SwarmEvent PeerId) :
    SendStep F S s.pendingSends (.event ev answers)
      (handleSwarmEvent F S answers s ev).1.pendingSends (handleSwarmEvent F S answers s ev).2 := by
  cases ev with
  | newListenAddr l address =>
    simp only [handleSwarmEvent]
    split
    · exact .quiet rfl (by simp) (by simp [Effect.Quiet])
    · split <;> exact .quiet rfl (by simp) (by simp [Effect.Quiet])
  | connectionEstablished peer c =>
    have hquiet : ∀ e ∈ Effect.event (.peerConnected (F.peerText peer)) ::
        relayListen F answers s peer, e.Quiet :=
      List.forall_mem_cons.mpr ⟨trivial, relayListen_quiet F answers s peer⟩
    simp only [handleSwarmEvent]
    split
    · rename_i messages hget
      rw [← QueueMap.queue_of_get hget]
      exact .flushed hquiet
    · rename_i hget
      have hstep : SendStep F S s.pendingSends (.event (.connectionEstablished peer c) answers)
          _ _ := .flushed hquiet
      rw [QueueMap.queue_of_get_none hget, QueueMap.remove_of_get_none hget, flush,
        List.append_nil] at hstep
      exact hstep
  | connectionClosed | identifyReceived | expiredListenAddr | listenerClosed | listenerError
  | outgoingConnectionError | relayClient | relay | identifyOther | other =>
    exact .quiet rfl (by simp) (by simp [handleSwarmEvent, Effect.Quiet])

/-- Every iteration is one of the cases of `SendStep`. -/
theorem eventLoop_sendStep (s : LoopState PeerId) (i : Input PeerId) :
    SendStep F S s.pendingSends i (eventLoop F S s i).1.pendingSends (eventLoop F S s i).2 := by
  cases i with
  | command cmd answers =>
    cases cmd with
    | send id addr msg => exact doSend_sendStep F S s answers id addr msg
    | listen addr replyTx =>
      have hdrop : ∀ e ∈ (dropped s.pendingListen : List (Effect PeerId)), e.Quiet :=
        dropped_quiet _
      simp only [eventLoop, doListen]
      split
      · exact .quiet rfl (by simp) (by simp [Effect.Quiet])
      · split
        · exact .quiet rfl (by simp) (by simp [Effect.Quiet])
        · exact .quiet rfl (by simp) (List.forall_mem_cons.mpr ⟨trivial, hdrop⟩)
    | listenViaRelay relayAddr replyTx =>
      have hdrop : ∀ e ∈ (dropped (s.pendingRelay.map Prod.snd) : List (Effect PeerId)), e.Quiet :=
        dropped_quiet _
      simp only [eventLoop, doListenViaRelay]
      split
      · exact .quiet rfl (by simp) (by simp [Effect.Quiet])
      · split
        · exact .quiet rfl (by simp) (by simp [Effect.Quiet])
        · exact .quiet rfl (by simp) (List.forall_mem_cons.mpr ⟨trivial, hdrop⟩)
  | event ev answers => exact handleSwarmEvent_sendStep F S s answers ev

end MeerkatNet.V2
