import MeerkatNet.V1.EventLoop
import MeerkatNet.V1.Wire
import MeerkatNet.V2.Destinations

/-!
# The two loops in step

Both event loops are fed the same sends, plain listens and swarm events, and libp2p
answers their calls alike. The first crate takes the first peer of an address and the
second the last one, so they agree where an address names at most one. What they do is
compared as a sequence of reports, in which the texts of errors are left out.
-/

namespace MeerkatNet.V2

open Libp2p

variable {PeerId : Type}

inductive SendErrorKind where
  | unreachableAddress
  | connectionLost
  | protocolError
  deriving DecidableEq, Repr

def SendError.kind : SendError → SendErrorKind
  | .unreachableAddress _ => .unreachableAddress
  | .connectionLost _ => .connectionLost
  | .protocolError _ => .protocolError

/-- What an event loop does to the outside, without the texts of errors. -/
inductive Report (PeerId : Type) where
  | handedOff (peer : PeerId) (msgId : MessageId) (msg : MeerkatMessage)
  | failed (msgId : MessageId) (kind : SendErrorKind)
  | answered (replyTx : ReplyTx) (addr : Option Address)
  | dropped (replyTx : ReplyTx)
  | dialled (addr : Multiaddr PeerId)
  | listened (replyTx : ReplyTx) (addr : Multiaddr PeerId)

namespace Report

def handedOff? : Report PeerId → Option (PeerId × MessageId × MeerkatMessage)
  | .handedOff peer msgId msg => some (peer, msgId, msg)
  | _ => none

def failed? : Report PeerId → Option (MessageId × SendErrorKind)
  | .failed msgId kind => some (msgId, kind)
  | _ => none

def answered? : Report PeerId → Option (ReplyTx × Option Address)
  | .answered replyTx addr => some (replyTx, addr)
  | _ => none

end Report

def Effect.report? : Effect PeerId → Option (Report PeerId)
  | .event (.sendFailed msgId error) => some (.failed msgId error.kind)
  | .event _ => none
  | .handOff h => some (.handedOff h.peer h.msgId h.msg)
  | .dial _ addr _ => some (.dialled addr)
  | .listenOn owner addr _ => some (.listened owner addr)
  | .reply replyTx answer => some (.answered replyTx answer.toOption)
  | .drop replyTx => some (.dropped replyTx)
  | .addExternalAddress _ => none

def Effect.answer? : Effect PeerId → Option (ReplyTx × Except String Address)
  | .reply replyTx answer => some (replyTx, answer)
  | _ => none

def World.reports (w : World PeerId) : List (Report PeerId) := w.effects.filterMap Effect.report?

/-- The answers to listen requests, in order. -/
def World.answers (w : World PeerId) : List (ReplyTx × Except String Address) :=
  w.effects.filterMap Effect.answer?

end MeerkatNet.V2

namespace MeerkatNet.V1

open Libp2p KeyedQueues Runs
open V2 (Answers Report SendErrorKind StreamAnswer)

variable {PeerId : Type}

def MessageId.toV2 (id : MessageId) : V2.MessageId := ⟨id.val⟩

/-- An entry of a queue, in the types of the newer crate. -/
def entryToV2 (m : MessageId × MeerkatMessage) : V2.MessageId × V2.MeerkatMessage :=
  (m.1.toV2, m.2.toV2)

/-- A command with its counterpart in the newer crate, whose server nodes do not translate
addresses. -/
def NetworkCommand.toV2 : NetworkCommand → V2.SwarmCommand
  | .send id addr msg => .send id.toV2 addr.toV2 msg.toV2
  | .listen addr responseTx => .listen addr.toV2 responseTx

/-- The actor of a server node that is free hands exactly these commands to its loop. -/
theorem handleCommand_server {n : V2.Node PeerId} (hserver : n.actor.nodeType = .server)
    (addr : GlobalAddress) (msg : MeerkatMessage) :
    (n.handleCommand (.sendMessage addr.toV2 msg.toV2)).commandRx =
        n.queued (NetworkCommand.send ⟨n.actor.nextMessageId⟩ addr msg).toV2 ∧
      (n.handleCommand (.listen addr.toV2)).commandRx =
        n.queued (NetworkCommand.listen addr n.nextTx).toV2 := by
  simp [V2.Node.handleCommand, V2.Node.sendMessage, V2.Node.request, V2.Node.send_eq,
    V2.Node.reply, hserver, V2.translateAddress, V2.Node.queued, NetworkCommand.toV2,
    MessageId.toV2]

/-- What the first crate makes of a swarm event: it has no relay and no identify behaviour. -/
def seen : V2.SwarmEvent PeerId → SwarmEvent PeerId
  | .newListenAddr _ address => .newListenAddr address
  | .connectionEstablished peer _ => .connectionEstablished peer
  | .connectionClosed peer _ => .connectionClosed peer
  | _ => .other

def SendError.kind : SendError → SendErrorKind
  | .unreachableAddress _ => .unreachableAddress
  | .connectionLost _ => .connectionLost
  | .protocolError _ => .protocolError

def Effect.report? : Effect PeerId → Option (Report PeerId)
  | .sendError msgId error => some (.failed msgId.toV2 error.kind)
  | .peerConnected _ | .peerDisconnected _ | .close _ => none
  | .handOff h => some (.handedOff h.peer h.msgId.toV2 h.msg.toV2)
  | .dial _ addr _ => some (.dialled addr)
  | .listenOn owner addr _ => some (.listened owner addr)
  | .reply responseTx answer => some (.answered responseTx (answer.toOption.map GlobalAddress.toV2))
  | .drop responseTx => some (.dropped responseTx)

def World.reports (w : World PeerId) : List (Report PeerId) := w.effects.filterMap Effect.report?

/-- What both loops are fed in one iteration. -/
inductive Fed (PeerId : Type) where
  | command (cmd : NetworkCommand) (answers : Answers)
  | event (ev : V2.SwarmEvent PeerId) (answers : Answers)

namespace Fed

def toV1 : Fed PeerId → Input PeerId
  | .command cmd answers => .command cmd answers
  | .event ev answers => .event (seen ev) answers

def toV2 : Fed PeerId → V2.Input PeerId
  | .command cmd answers => .command cmd.toV2 answers
  | .event ev answers => .event ev answers

/-- A send to an address with at most one peer id. -/
def OnePeer (F : Formats PeerId) : Fed PeerId → Prop
  | .command (.send _ addr _) _ =>
    match F.parse addr.text with
    | .ok multiaddr => (V2.peers multiaddr).length ≤ 1
    | .error _ => True
  | _ => True

instance (F : Formats PeerId) (i : Fed PeerId) : Decidable (i.OnePeer F) := by
  unfold OnePeer
  split
  · split <;> infer_instance
  · infer_instance

end Fed

/-- `send_message` has the same outcome in both crates. -/
def SendsAlike (S : Serde) (T : V2.Serde) : Prop :=
  ∀ stream msg, (sendMessage S stream msg).2 = (V2.sendMessage T stream msg.toV2).2

theorem sendsAlike_derived (J : TaggedData.Format) : SendsAlike (derived J) (V2.derived J) :=
  fun stream msg => congrArg Prod.snd (sendMessage_derived J stream msg)

/-- Corresponding variables of the two loops; no relay request is pending. -/
structure Matches (s : LoopState PeerId) (t : V2.LoopState PeerId) : Prop where
  pendingSends : t.pendingSends = s.pendingSends.map entryToV2
  pendingListen : t.pendingListen = s.pendingListen
  pendingRelay : t.pendingRelay = none

/-- Two iterations that end in corresponding states and report the same. -/
structure Alike (out : LoopState PeerId × List (Effect PeerId))
    (out' : V2.LoopState PeerId × List (V2.Effect PeerId)) : Prop where
  loop : Matches out.1 out'.1
  reports : out'.2.filterMap V2.Effect.report? = out.2.filterMap Effect.report?

/-- The loops match and have reported the same so far. -/
structure Simulates (w : World PeerId) (v : V2.World PeerId) : Prop where
  loop : Matches w.loop v.loop
  reports : v.reports = w.reports

/-- Both loops hold the same sends and the same listen request, and have handed off the same
messages, reported the same failures and given the same answers. -/
structure InStep (w : World PeerId) (v : V2.World PeerId) : Prop where
  pendingSends : v.loop.pendingSends = w.loop.pendingSends.map entryToV2
  pendingListen : v.loop.pendingListen = w.loop.pendingListen
  handOffs : (v.handOffs.map fun h => (h.peer, h.msgId, h.msg)) =
    w.handOffs.map fun h => (h.peer, h.msgId.toV2, h.msg.toV2)
  failures : (v.failures.map fun f => (f.1, f.2.kind)) =
    w.failures.map fun f => (f.1.toV2, f.2.kind)
  answers : (v.answers.map fun a => (a.1, a.2.toOption)) =
    w.answers.map fun a => (a.1, a.2.toOption.map GlobalAddress.toV2)

/-! ### Reading the reports -/

/-- A reading of the effects that is also one of the reports. -/
theorem map_filterMap_eq {α β γ δ : Type} {f : α → Option β} {g : β → γ} {r : α → Option δ}
    {h : δ → Option γ} (heq : ∀ e, (f e).map g = (r e).bind h) (es : List α) :
    (es.filterMap f).map g = (es.filterMap r).filterMap h := by
  rw [List.map_filterMap, List.filterMap_filterMap]
  exact List.filterMap_congr fun e _ => heq e

theorem handOffs_of_reports (w : World PeerId) :
    (w.handOffs.map fun h => (h.peer, h.msgId.toV2, h.msg.toV2)) =
      w.reports.filterMap Report.handedOff? := by
  apply map_filterMap_eq
  intro e
  cases e <;> rfl

theorem failures_of_reports (w : World PeerId) :
    (w.failures.map fun f => (f.1.toV2, f.2.kind)) = w.reports.filterMap Report.failed? := by
  apply map_filterMap_eq
  intro e
  cases e <;> rfl

theorem answers_of_reports (w : World PeerId) :
    (w.answers.map fun a => (a.1, a.2.toOption.map GlobalAddress.toV2)) =
      w.reports.filterMap Report.answered? := by
  apply map_filterMap_eq
  intro e
  cases e <;> rfl

theorem handOffs_of_reports_v2 (v : V2.World PeerId) :
    (v.handOffs.map fun h => (h.peer, h.msgId, h.msg)) =
      v.reports.filterMap Report.handedOff? := by
  apply map_filterMap_eq
  intro e
  cases e with
  | event e => cases e <;> rfl
  | _ => rfl

theorem failures_of_reports_v2 (v : V2.World PeerId) :
    (v.failures.map fun f => (f.1, f.2.kind)) = v.reports.filterMap Report.failed? := by
  apply map_filterMap_eq
  intro e
  cases e with
  | event e => cases e <;> rfl
  | _ => rfl

theorem answers_of_reports_v2 (v : V2.World PeerId) :
    (v.answers.map fun a => (a.1, a.2.toOption)) = v.reports.filterMap Report.answered? := by
  apply map_filterMap_eq
  intro e
  cases e with
  | event e => cases e <;> rfl
  | _ => rfl

theorem Simulates.inStep {w : World PeerId} {v : V2.World PeerId} (h : Simulates w v) :
    InStep w v where
  pendingSends := h.loop.pendingSends
  pendingListen := h.loop.pendingListen
  handOffs := by rw [handOffs_of_reports_v2, handOffs_of_reports, h.reports]
  failures := by rw [failures_of_reports_v2, failures_of_reports, h.reports]
  answers := by rw [answers_of_reports_v2, answers_of_reports, h.reports]

/-! ### One iteration -/

theorem extractPeerId_eq_head? (m : Multiaddr PeerId) : extractPeerId m = (V2.peers m).head? :=
  List.head?_filterMap.symm

/-- The first and the last peer of an address with at most one are the same. -/
theorem extractPeerId_eq {m : Multiaddr PeerId} (hone : (V2.peers m).length ≤ 1) :
    extractPeerId m = V2.extractPeerId m := by
  rw [extractPeerId_eq_head?, V2.extractPeerId_eq]
  rcases hpeers : V2.peers m with _ | ⟨peer, _ | ⟨peer', rest⟩⟩
  · rfl
  · rfl
  · simp [hpeers] at hone

variable {S : Serde} {T : V2.Serde}

theorem sendToPeer_reports (hsend : SendsAlike S T) (answer : StreamAnswer) (peer : PeerId)
    (msgId : MessageId) (msg : MeerkatMessage) :
    (V2.sendToPeer T answer peer msgId.toV2 msg.toV2).filterMap V2.Effect.report? =
      (sendToPeer S answer peer msgId msg).filterMap Effect.report? := by
  cases answer with
  | refused e => rfl
  | opened room error flushed =>
    have hout := hsend ⟨[], room, error, flushed⟩ msg
    simp only [V2.sendToPeer, sendToPeer, ← hout]
    cases (sendMessage S ⟨[], room, error, flushed⟩ msg).2 <;> rfl

theorem flush_reports (hsend : SendsAlike S T) (stream : ℕ → StreamAnswer) (peer : PeerId)
    (messages : List (MessageId × MeerkatMessage)) :
    (V2.flush T stream peer (messages.map entryToV2)).filterMap
        V2.Effect.report? =
      (flush S stream peer messages).filterMap Effect.report? := by
  induction messages generalizing stream with
  | nil => rfl
  | cons m messages ih =>
    simp only [List.map_cons, entryToV2, V2.flush, flush, List.filterMap_append]
    rw [sendToPeer_reports hsend, ih]

theorem callback_reports {provided : Bool} {call : Effect PeerId} (h : call.report? = none) :
    (callback provided call).filterMap Effect.report? = [] := by
  cases provided <;> simp [callback, h]

theorem dropped_reports (old : Option ResponseTx) :
    (V2.dropped old : List (V2.Effect PeerId)).filterMap V2.Effect.report? =
      (dropped old : List (Effect PeerId)).filterMap Effect.report? := by
  cases old <;> rfl

/-- Where the address is parsed, both crates parse it. -/
theorem parseGlobalAddress_eq (F : Formats PeerId) (addr : GlobalAddress) :
    parseGlobalAddress F addr =
      (F.parse addr.toV2.text).mapError fun _ => .invalidAddress addr.text := rfl

variable {F : Formats PeerId} {callbacks : NetworkCallbacks}
variable {s : LoopState PeerId} {t : V2.LoopState PeerId}

theorem handleListen_alike (h : Matches s t) (answers : Answers) (addr : GlobalAddress)
    (responseTx : ResponseTx) :
    Alike (handleListen F answers s addr responseTx)
      (V2.doListen F answers t addr.toV2 responseTx) := by
  unfold handleListen V2.doListen
  rw [parseGlobalAddress_eq]
  cases F.parse addr.toV2.text with
  | error e => exact ⟨h, rfl⟩
  | ok multiaddr =>
    simp only [Except.mapError]
    cases answers.listenOn with
    | error e => exact ⟨h, rfl⟩
    | ok l =>
      refine ⟨⟨h.pendingSends, rfl, h.pendingRelay⟩, ?_⟩
      rw [h.pendingListen]
      exact congrArg (.listened responseTx multiaddr :: ·) (dropped_reports s.pendingListen)

variable [DecidableEq PeerId]

theorem handleSend_alike (hsend : SendsAlike S T) (h : Matches s t) {id : MessageId}
    {addr : GlobalAddress} {msg : MeerkatMessage} {answers : Answers}
    (hone : Fed.OnePeer F (.command (.send id addr msg) answers)) :
    Alike (handleSend F S answers s id addr msg)
      (V2.doSend F T answers t id.toV2 addr.toV2 msg.toV2) := by
  unfold handleSend V2.doSend
  rw [parseGlobalAddress_eq]
  cases hparse : F.parse addr.toV2.text with
  | error e => exact ⟨h, rfl⟩
  | ok multiaddr =>
    have hpeers : (V2.peers multiaddr).length ≤ 1 := by
      change F.parse addr.text = _ at hparse
      simpa only [Fed.OnePeer, hparse] using hone
    simp only [Except.mapError, ← extractPeerId_eq hpeers]
    cases extractPeerId multiaddr with
    | none => exact ⟨h, rfl⟩
    | some peer =>
      dsimp only
      split_ifs with hconn
      · exact ⟨h, sendToPeer_reports hsend _ _ _ _⟩
      · have hpush : t.pendingSends.push peer (id.toV2, msg.toV2) =
            (s.pendingSends.push peer (id, msg)).map entryToV2 := by
          rw [QueueMap.map_push, ← h.pendingSends, entryToV2]
        cases answers.dial with
        | ok c => exact ⟨⟨hpush, h.pendingListen, h.pendingRelay⟩, rfl⟩
        | error e =>
          refine ⟨⟨?_, h.pendingListen, h.pendingRelay⟩, rfl⟩
          rw [QueueMap.map_remove, ← hpush]

theorem handleSwarmEvent_alike (hsend : SendsAlike S T) (h : Matches s t) (answers : Answers)
    (ev : V2.SwarmEvent PeerId) :
    Alike (handleSwarmEvent F S callbacks answers s (seen ev))
      (V2.handleSwarmEvent F T answers t ev) := by
  obtain ⟨pendingSends, pendingListen, pendingRelay⟩ := t
  obtain ⟨rfl, rfl, rfl⟩ := h
  cases ev with
  | newListenAddr l address =>
    -- without a relay request, a circuit address is answered like any other
    simp only [handleSwarmEvent, seen, V2.handleSwarmEvent, ite_self]
    cases s.pendingListen <;> exact ⟨⟨rfl, rfl, rfl⟩, rfl⟩
  | connectionEstablished peer c =>
    simp only [handleSwarmEvent, seen, V2.handleSwarmEvent, V2.relayListen, QueueMap.get_map]
    cases s.pendingSends.get peer with
    | none => exact ⟨⟨rfl, rfl, rfl⟩, (callback_reports rfl).symm⟩
    | some messages =>
      refine ⟨⟨(QueueMap.map_remove _ _ _).symm, rfl, rfl⟩, ?_⟩
      simp only [Option.map_some, List.filterMap_append]
      rw [callback_reports rfl, ← flush_reports hsend]
      rfl
  | connectionClosed peer c => exact ⟨⟨rfl, rfl, rfl⟩, (callback_reports rfl).symm⟩
  | identifyReceived | expiredListenAddr | listenerClosed | listenerError
  | outgoingConnectionError | relayClient | relay | identifyOther | other =>
    exact ⟨⟨rfl, rfl, rfl⟩, rfl⟩

theorem eventLoop_alike (hsend : SendsAlike S T) (h : Matches s t) {i : Fed PeerId}
    (hone : i.OnePeer F) :
    Alike (eventLoop F S callbacks s i.toV1) (V2.eventLoop F T t i.toV2) := by
  rcases i with ⟨⟨id, addr, msg⟩ | ⟨addr, responseTx⟩, answers⟩ | ⟨ev, answers⟩
  · exact handleSend_alike hsend h hone
  · exact handleListen_alike h answers addr responseTx
  · exact handleSwarmEvent_alike hsend h answers ev

/-! ### Runs -/

theorem next_simulates (hsend : SendsAlike S T) {w : World PeerId} {v : V2.World PeerId}
    (h : Simulates w v) {i : Fed PeerId} (hone : i.OnePeer F) :
    Simulates (w.next F S callbacks i.toV1) (v.next F T i.toV2) := by
  have halike : Alike (eventLoop F S callbacks w.loop i.toV1) (V2.eventLoop F T v.loop i.toV2) :=
    eventLoop_alike hsend h.loop hone
  obtain ⟨hloop, hreports⟩ := halike
  refine ⟨hloop, ?_⟩
  have hsame : v.effects.filterMap V2.Effect.report? = w.effects.filterMap Effect.report? :=
    h.reports
  rw [V2.World.reports, V2.World.next_effects, List.filterMap_append, hsame, hreports,
    ← List.filterMap_append]
  rfl

/-- Fed the same sends to addresses with at most one peer id, the same plain listens and the same
swarm events, both loops hold the same and have done the same after every step. -/
theorem loops_inStep (hsend : SendsAlike S T) {inputs : List (Fed PeerId)}
    (hone : ∀ i ∈ inputs, i.OnePeer F) :
    InStep ((World.machine F S callbacks).run (inputs.map Fed.toV1))
      ((V2.World.machine F T).run (inputs.map Fed.toV2)) := by
  have hinit : Simulates (World.machine F S callbacks).init (V2.World.machine F T).init :=
    ⟨⟨rfl, rfl, rfl⟩, rfl⟩
  apply Simulates.inStep
  exact Machine.run_lockstep hinit (fun w v i h hi => next_simulates hsend h hi) hone

/-- A listen, a queued send, a rejected one, and a direct one whose stream does not open. -/
def sampleInputs : List (Fed String) :=
  let answers : Answers := ⟨false, .ok 0, .ok 0, fun _ => .opened none "" (.ok ())⟩
  [.command (.listen ⟨"/ip4/0.0.0.0/tcp/0"⟩ 0) answers,
    .event (.newListenAddr 0 [.other "ip4" (some "127.0.0.1"), .other "tcp" (some "9000")]) answers,
    .command (.send ⟨1⟩ ⟨"/ip4/203.0.113.10/tcp/9000/p2p/B"⟩ (.ping "a")) answers,
    .command (.send ⟨2⟩ ⟨"/ip4/203.0.113.10/tcp/9000"⟩ (.pong "b")) answers,
    .event (.connectionEstablished "B" 0) answers,
    .command (.send ⟨3⟩ ⟨"/ip4/203.0.113.10/tcp/9000/p2p/B"⟩ (.pong "c"))
      ⟨true, .ok 1, .ok 1, fun _ => .refused "no stream"⟩]

theorem loops_inStep_sample :
    InStep ((World.machine Formats.plain (derived V2.jsonFormat) ⟨true, false⟩).run
        (sampleInputs.map Fed.toV1))
      ((V2.World.machine Formats.plain (V2.derived V2.jsonFormat)).run
        (sampleInputs.map Fed.toV2)) :=
  loops_inStep (sendsAlike_derived V2.jsonFormat) (by decide +kernel)

end MeerkatNet.V1
