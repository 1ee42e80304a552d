import MeerkatNet.V2.SendSteps

/-!
# Calls that never return

The loop awaits `send_to_peer` inside its branches. A call whose stream is never opened,
never takes the rest of the frame or never closes keeps the loop where it is: no further
command or event is taken, and the messages behind it in a flush stay in the suspended
loop over the queue. Where every call returns, the runs are those of the loop without
stalls.
-/

namespace MeerkatNet.V2

open Libp2p KeyedQueues Runs Framing

variable {PeerId : Type}

/-- The await at which a call of `send_to_peer` stays: `open_stream`, a write, or `close`. -/
inductive Stall where
  | opening
  | writing (taken : ℕ)
  | closing
  deriving DecidableEq

/-- What `send_to_peer` does, and whether it returns. It cannot stay at an await that it does not
come to. -/
def sendToPeerUntil (S : Serde) (stall : Option Stall) (answer : StreamAnswer) (peer : PeerId)
    (msgId : MessageId) (msg : MeerkatMessage) : List (Effect PeerId) × Bool :=
  match stall, answer with
  | some .opening, _ => ([.handOff ⟨peer, msgId, msg, none⟩], false)
  | some (.writing taken), .opened _ _ _ =>
    match S.toVec msg with
    | .ok data => ([.handOff ⟨peer, msgId, msg, some ((frame data).take taken)⟩], false)
    | .error _ => (sendToPeer S answer peer msgId msg, true)
  | some .closing, .opened _ _ _ => (sendToPeer S answer peer msgId msg, false)
  | _, _ => (sendToPeer S answer peer msgId msg, true)

/-- The loop over the removed queue, and the messages behind a call that does not return. -/
def flushUntil (S : Serde) (stalls : ℕ → Option Stall) (stream : ℕ → StreamAnswer)
    (peer : PeerId) : List (MessageId × MeerkatMessage) →
      List (Effect PeerId) × Option (List (MessageId × MeerkatMessage))
  | [] => ([], none)
  | (msgId, msg) :: messages =>
    let out := sendToPeerUntil S (stalls 0) (stream 0) peer msgId msg
    if out.2 then
      let rest := flushUntil S (fun n => stalls (n + 1)) (fun n => stream (n + 1)) peer messages
      (out.1 ++ rest.1, rest.2)
    else (out.1, some messages)

/-- The call that keeps the loop: its peer, and the messages of the flush behind it. -/
structure Held (PeerId : Type) where
  peer : PeerId
  behind : List (MessageId × MeerkatMessage)
  deriving DecidableEq

/-- An iteration; `stalls n` belongs to its `n`-th call of `send_to_peer`. -/
structure StallingInput (PeerId : Type) where
  input : Input PeerId
  stalls : ℕ → Option Stall

structure StallingWorld (PeerId : Type) where
  world : World PeerId
  held : Option (Held PeerId)

variable [DecidableEq PeerId] (F : Formats PeerId) (S : Serde)

/-- One iteration of the loop, and the call that it stays at. Only a send over a connection and a
flush call `send_to_peer`. -/
def eventLoopUntil (s : LoopState PeerId) (i : StallingInput PeerId) :
    LoopState PeerId × List (Effect PeerId) × Option (Held PeerId) :=
  match i.input with
  | .command (.send msgId addr msg) answers =>
    match destination F addr, answers.isConnected with
    | some peer, true =>
      let out := sendToPeerUntil S (i.stalls 0) (answers.stream 0) peer msgId msg
      (s, out.1, if out.2 then none else some ⟨peer, []⟩)
    | _, _ => ((eventLoop F S s i.input).1, (eventLoop F S s i.input).2, none)
  | .event (.connectionEstablished peer _) answers =>
    let out := flushUntil S i.stalls answers.stream peer (s.pendingSends.queue peer)
    ({ s with pendingSends := s.pendingSends.remove peer },
      .event (.peerConnected (F.peerText peer)) :: relayListen F answers s peer ++ out.1,
      out.2.map (Held.mk peer))
  | _ => ((eventLoop F S s i.input).1, (eventLoop F S s i.input).2, none)

namespace StallingWorld

def init : StallingWorld PeerId := ⟨.init, none⟩

def next (w : StallingWorld PeerId) (i : StallingInput PeerId) : StallingWorld PeerId :=
  match w.held with
  | some _ => w
  | none =>
    let out := eventLoopUntil F S w.world.loop i
    ⟨⟨out.1, out.2.1.foldl Swarm.perform (w.world.swarm.react i.input),
      w.world.history ++ [(i.input, out.2.1)]⟩, out.2.2⟩

def machine : Machine (StallingWorld PeerId) (StallingInput PeerId) := ⟨init, next F S⟩

@[simp] theorem machine_init : (machine F S).init = init := rfl

@[simp] theorem machine_next (w : StallingWorld PeerId) (i : StallingInput PeerId) :
    (machine F S).next w i = w.next F S i := rfl

theorem next_of_held {w : StallingWorld PeerId} {h : Held PeerId} (hheld : w.held = some h)
    (i : StallingInput PeerId) : w.next F S i = w := by
  simp only [next, hheld]

end StallingWorld

/-! ### Calls that return -/

section

variable {S : Serde} {peer : PeerId}

omit [DecidableEq PeerId] in
theorem sendToPeerUntil_none (answer : StreamAnswer) (id : MessageId) (msg : MeerkatMessage) :
    sendToPeerUntil S none answer peer id msg = (sendToPeer S answer peer id msg, true) := rfl

omit [DecidableEq PeerId] in
theorem flushUntil_of_returns {stalls : ℕ → Option Stall} (hreturns : ∀ n, stalls n = none)
    (stream : ℕ → StreamAnswer) (messages : List (MessageId × MeerkatMessage)) :
    flushUntil S stalls stream peer messages = (flush S stream peer messages, none) := by
  induction messages generalizing stalls stream with
  | nil => rfl
  | cons m messages ih =>
    simp only [flushUntil, hreturns 0, sendToPeerUntil_none, if_true, flush,
      ih fun n => hreturns (n + 1)]

end

theorem doSend_direct {answers : Answers} {addr : Address} {peer : PeerId}
    (hdest : destination F addr = some peer) (hconn : answers.isConnected = true)
    (s : LoopState PeerId) (id : MessageId) (msg : MeerkatMessage) :
    doSend F S answers s id addr msg = (s, sendToPeer S (answers.stream 0) peer id msg) := by
  unfold destination at hdest
  split at hdest
  · simp at hdest
  · rename_i multiaddr hparse
    simp only [doSend, hparse, hdest, hconn, if_true]

theorem handleSwarmEvent_established (answers : Answers) (s : LoopState PeerId) (peer : PeerId)
    (c : ConnectionId) :
    handleSwarmEvent F S answers s (.connectionEstablished peer c) =
      ({ s with pendingSends := s.pendingSends.remove peer },
        .event (.peerConnected (F.peerText peer)) :: relayListen F answers s peer ++
          flush S answers.stream peer (s.pendingSends.queue peer)) := by
  simp only [handleSwarmEvent]
  split
  · rename_i messages hget
    rw [QueueMap.queue_of_get hget]
  · rename_i hget
    rw [QueueMap.queue_of_get_none hget, QueueMap.remove_of_get_none hget, flush, List.append_nil]

/-- An iteration whose calls all return is one of the loop without stalls. -/
theorem eventLoopUntil_of_returns {i : StallingInput PeerId}
    (hreturns : ∀ n, i.stalls n = none) (s : LoopState PeerId) :
    eventLoopUntil F S s i = ((eventLoop F S s i.input).1, (eventLoop F S s i.input).2, none) := by
  obtain ⟨input, stalls⟩ := i
  dsimp only at hreturns
  unfold eventLoopUntil
  dsimp only
  split
  · split
    · rename_i hdest hconn
      simp only [hreturns 0, sendToPeerUntil_none, if_true, eventLoop,
        doSend_direct F S hdest hconn]
    · rfl
  · simp only [flushUntil_of_returns hreturns, Option.map_none, eventLoop,
      handleSwarmEvent_established]
  · rfl

/-- Where every call returns, the loop runs as without stalls. -/
theorem StallingWorld.run_of_returns {inputs : List (StallingInput PeerId)}
    (hreturns : ∀ i ∈ inputs, ∀ n, i.stalls n = none) :
    (machine F S).run inputs =
      ⟨(World.machine F S).run (inputs.map StallingInput.input), none⟩ := by
  induction inputs using List.reverseRecOn with
  | nil => rfl
  | append_singleton inputs i ih =>
    have hlast : ∀ n, i.stalls n = none := hreturns i (by simp)
    rw [Machine.run_concat, ih fun j hj => hreturns j (List.mem_append_left _ hj), List.map_append,
      List.map_singleton, Machine.run_concat]
    simp only [machine_next, next, eventLoopUntil_of_returns F S hlast, World.machine_next,
      World.next]

/-! ### The cases of an iteration -/

section

variable {S : Serde} {peer : PeerId}

omit [DecidableEq PeerId] in
/-- `send_to_peer` is one hand-off and at most one failure, wherever it stays. -/
theorem sendToPeerUntil_cases (S : Serde) (stall : Option Stall) (answer : StreamAnswer)
    (peer : PeerId) (id : MessageId) (msg : MeerkatMessage) :
    ∃ written,
      (sendToPeerUntil S stall answer peer id msg).1 = [.handOff ⟨peer, id, msg, written⟩] ∨
      ∃ e, (sendToPeerUntil S stall answer peer id msg).1 =
        [.handOff ⟨peer, id, msg, written⟩, .event (.sendFailed id (.protocolError e))] := by
  have hwhole : ∃ written, sendToPeer S answer peer id msg = [.handOff ⟨peer, id, msg, written⟩] ∨
      ∃ e, sendToPeer S answer peer id msg =
        [.handOff ⟨peer, id, msg, written⟩, .event (.sendFailed id (.protocolError e))] := by
    obtain ⟨written, h | ⟨e, h, -⟩⟩ := sendToPeer_cases S answer peer id msg
    · exact ⟨written, .inl h⟩
    · exact ⟨written, .inr ⟨e, h⟩⟩
  unfold sendToPeerUntil
  split
  · exact ⟨none, .inl rfl⟩
  · split
    · exact ⟨_, .inl rfl⟩
    · exact hwhole
  · exact hwhole
  · exact hwhole

end

/-- Every way in which an iteration can treat the queues, with the call that it stays at. -/
inductive StallStep (pending : QueueMap PeerId (MessageId × MeerkatMessage)) :
    StallingInput PeerId → QueueMap PeerId (MessageId × MeerkatMessage) → List (Effect PeerId) →
      Option (Held PeerId) → Prop where
  | direct {id addr msg answers stalls peer} (hdest : destination F addr = some peer)
      (hconn : answers.isConnected = true) :
      StallStep pending ⟨.command (.send id addr msg) answers, stalls⟩ pending
        (sendToPeerUntil S (stalls 0) (answers.stream 0) peer id msg).1
        (if (sendToPeerUntil S (stalls 0) (answers.stream 0) peer id msg).2 then none
          else some ⟨peer, []⟩)
  | flushed {peer c answers stalls es} (hes : ∀ e ∈ es, e.Quiet) :
      StallStep pending ⟨.event (.connectionEstablished peer c) answers, stalls⟩
        (pending.remove peer)
        (es ++ (flushUntil S stalls answers.stream peer (pending.queue peer)).1)
        ((flushUntil S stalls answers.stream peer (pending.queue peer)).2.map (Held.mk peer))
  | returned {i stalls pending' es} (hstep : SendStep F S pending i pending' es)
      (hdirect : ∀ id addr msg answers peer, i = .command (.send id addr msg) answers →
        destination F addr = some peer → answers.isConnected = false)
      (hflush : ∀ peer c answers, i ≠ .event (.connectionEstablished peer c) answers) :
      StallStep pending ⟨i, stalls⟩ pending' es none

theorem eventLoopUntil_stallStep (s : LoopState PeerId) (i : StallingInput PeerId) :
    StallStep F S s.pendingSends i (eventLoopUntil F S s i).1.pendingSends
      (eventLoopUntil F S s i).2.1 (eventLoopUntil F S s i).2.2 := by
  obtain ⟨input, stalls⟩ := i
  unfold eventLoopUntil
  dsimp only
  split
  · split
    · rename_i hdest hconn
      exact .direct hdest hconn
    · rename_i hcall
      refine .returned (eventLoop_sendStep F S s _) ?_ (by simp)
      rintro id addr msg answers peer hinput hdest
      obtain ⟨hcmd, rfl⟩ := Input.command.inj hinput
      obtain ⟨rfl, rfl, rfl⟩ := SwarmCommand.send.inj hcmd
      exact Bool.not_eq_true _ ▸ hcall peer hdest
  · exact .flushed (List.forall_mem_cons.mpr ⟨trivial, relayListen_quiet F _ s _⟩)
  · rename_i hsend hflush
    exact .returned (eventLoop_sendStep F S s _)
      (fun id addr msg answers _ hinput => absurd hinput (hsend id addr msg answers)) hflush

end MeerkatNet.V2
