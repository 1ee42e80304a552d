import MeerkatNet.V2.NodeSteps
import MeerkatNet.V2.SendSteps

/-!
# Sends to a connected peer

Nothing waits in the queue of a peer that every send finds connected, and what was
handed off to it together with what is still in the command channel is what was
issued, in the same order.
-/

namespace MeerkatNet.V2

open Libp2p KeyedQueues Runs

variable {PeerId : Type} [DecidableEq PeerId] (F : Formats PeerId) (S : Serde)

/-- The peer that a send to this address goes to, if it goes to one. -/
def recipient (nodeType : NodeType) (addr : Address) : Option PeerId :=
  match translateAddress nodeType addr with
  | .error _ => none
  | .ok localAddr => destination F localAddr

def Issued.msgTo? (nodeType : NodeType) (peer : PeerId) (s : Issued) : Option MeerkatMessage :=
  if recipient F nodeType s.addr = some peer then some s.msg else none

def SwarmCommand.msgTo? (peer : PeerId) : SwarmCommand → Option MeerkatMessage
  | .send _ addr msg => if destination F addr = some peer then some msg else none
  | _ => none

def Input.msgTo? (peer : PeerId) : Input PeerId → Option MeerkatMessage
  | .command cmd _ => cmd.msgTo? F peer
  | .event _ _ => none

def HandOff.msgTo? (peer : PeerId) (h : HandOff PeerId) : Option MeerkatMessage :=
  if h.peer = peer then some h.msg else none

/-- The messages handed off to a peer, in order. -/
def World.handedTo (w : World PeerId) (peer : PeerId) : List MeerkatMessage :=
  w.handOffs.filterMap (HandOff.msgTo? peer)

/-- A send to the peer finds it connected. -/
def World.SendsConnected (peer : PeerId) (_ : World PeerId) : Input PeerId → Prop
  | .command (.send _ addr _) answers =>
    destination F addr = some peer → answers.isConnected = true
  | _ => True

instance (peer : PeerId) (w : World PeerId) (i : Input PeerId) :
    Decidable (w.SendsConnected F peer i) :=
  match i with
  | .command (.send _ addr _) answers =>
    inferInstanceAs (Decidable (destination F addr = some peer → answers.isConnected = true))
  | .command (.listen _ _) _ | .command (.listenViaRelay _ _) _ | .event _ _ =>
    inferInstanceAs (Decidable True)

theorem msgTo?_of_request {cmd : SwarmCommand} {tx : ReplyTx} (h : cmd.request? = some tx)
    (peer : PeerId) : cmd.msgTo? F peer = none := by
  cases cmd with
  | send => simp [SwarmCommand.request?] at h
  | listen | listenViaRelay => rfl

theorem sendToPeer_msgs (answer : StreamAnswer) (target peer : PeerId) (id : MessageId)
    (msg : MeerkatMessage) :
    ((sendToPeer S answer target id msg).filterMap Effect.handOff?).filterMap
        (HandOff.msgTo? peer) =
      if target = peer then [msg] else [] := by
  obtain ⟨written, h | ⟨e, h, -⟩⟩ := sendToPeer_cases S answer target id msg <;>
    · rw [h]
      by_cases hpeer : target = peer <;> simp [Effect.handOff?, HandOff.msgTo?, hpeer]

theorem flush_msgs_ne (stream : ℕ → StreamAnswer) {target peer : PeerId} (hne : target ≠ peer)
    (messages : List (MessageId × MeerkatMessage)) :
    ((flush S stream target messages).filterMap Effect.handOff?).filterMap
      (HandOff.msgTo? peer) = [] := by
  apply List.filterMap_eq_nil_iff.mpr
  intro h hmem
  exact if_neg (flush_peer hmem ▸ hne)

variable {F S}

/-- An iteration hands off to a connected peer, with nothing queued for it, just the message
that it takes for it. -/
theorem SendStep.handsOver {w : World PeerId} {i : Input PeerId} {peer : PeerId}
    {pending' : QueueMap PeerId (MessageId × MeerkatMessage)} {es : List (Effect PeerId)}
    (hstep : SendStep F S w.loop.pendingSends i pending' es)
    (hempty : w.loop.pendingSends.queue peer = []) (hconnected : w.SendsConnected F peer i) :
    pending'.queue peer = [] ∧
      (es.filterMap Effect.handOff?).filterMap (HandOff.msgTo? peer) =
        (i.msgTo? F peer).toList := by
  cases hstep with
  | rejected hdest =>
    exact ⟨hempty, by simp [Effect.handOff?, Input.msgTo?, SwarmCommand.msgTo?, hdest]⟩
  | @direct id addr msg answers target hdest hconn =>
    refine ⟨hempty, ?_⟩
    rw [sendToPeer_msgs]
    by_cases hto : target = peer <;> simp [Input.msgTo?, SwarmCommand.msgTo?, hdest, hto]
  | @queued id addr msg answers target multiaddr c hdest hconn =>
    -- the send is to another peer
    have hne : target ≠ peer := by
      rintro rfl
      exact absurd (hconnected hdest) (by simp [hconn])
    exact ⟨by simpa [hne.symm] using hempty,
      by simp [Effect.handOff?, Input.msgTo?, SwarmCommand.msgTo?, hdest, hne]⟩
  | @dialFailed id addr msg answers target multiaddr e hdest hconn =>
    have hne : target ≠ peer := by
      rintro rfl
      exact absurd (hconnected hdest) (by simp [hconn])
    exact ⟨by simpa [hne.symm] using hempty,
      by simp [Effect.handOff?, Input.msgTo?, SwarmCommand.msgTo?, hdest, hne]⟩
  | @flushed target c answers es hes =>
    rw [List.filterMap_append, handOffs_of_quiet hes, List.nil_append]
    by_cases hto : target = peer
    · subst target
      exact ⟨QueueMap.queue_remove_self _ _, by simp [hempty, flush, Input.msgTo?]⟩
    · exact ⟨by simpa [Ne.symm hto] using hempty, flush_msgs_ne S _ hto _⟩
  | quiet hi hother hes =>
    refine ⟨hempty, ?_⟩
    rw [handOffs_of_quiet hes]
    rcases i with ⟨_ | _ | _, _⟩ | _
    · simp [Input.taken?] at hi
    all_goals rfl

namespace Node

variable (F S)

/-- The messages of the sends issued to a peer, in order. -/
def issuedTo (n : Node PeerId) (peer : PeerId) : List MeerkatMessage :=
  n.issued.filterMap (Issued.msgTo? F n.actor.nodeType peer)

/-- The messages to a peer that are still in the command channel. -/
def channelTo (n : Node PeerId) (peer : PeerId) : List MeerkatMessage :=
  n.commandRx.filterMap (SwarmCommand.msgTo? F peer)

/-- What was handed off to the peer and what is in the channel for it begins what was issued;
it is all of it as long as the loop runs. -/
structure InOrder (peer : PeerId) (n : Node PeerId) : Prop where
  empty : n.world.loop.pendingSends.queue peer = []
  begins : n.world.handedTo peer ++ n.channelTo F peer <+: n.issuedTo F peer
  complete : n.running = true →
    n.world.handedTo peer ++ n.channelTo F peer = n.issuedTo F peer

theorem inOrder_init (me peer : PeerId) (nodeType : NodeType) :
    (init me nodeType).InOrder F peer where
  empty := rfl
  begins := List.prefix_rfl
  complete _ := rfl

variable {F}

theorem InOrder.issued {n : Node PeerId} {peer : PeerId} (hn : n.InOrder F peer) {addr localAddr}
    {msg : MeerkatMessage} {id : MessageId} {replies : List (Option ReplyTx × NetworkReply)}
    (htranslate : translateAddress n.actor.nodeType addr = .ok localAddr) :
    InOrder F peer { n with
      actor := { n.actor with nextMessageId := n.actor.nextMessageId + 1 }
      issued := n.issued ++ [⟨id, addr, msg⟩]
      commandRx := n.queued (.send id localAddr msg)
      replies := replies } := by
  have hsame : (SwarmCommand.send id localAddr msg).msgTo? F peer =
      Issued.msgTo? F n.actor.nodeType peer ⟨id, addr, msg⟩ := by
    simp [SwarmCommand.msgTo?, Issued.msgTo?, recipient, htranslate]
  have hall : n.running = true → n.world.handedTo peer ++
      (n.commandRx ++ [SwarmCommand.send id localAddr msg]).filterMap
        (SwarmCommand.msgTo? F peer) =
      (n.issued ++ [(⟨id, addr, msg⟩ : Issued)]).filterMap
        (Issued.msgTo? F n.actor.nodeType peer) := by
    intro hrunning
    rw [List.filterMap_append, List.filterMap_append, ← List.append_assoc]
    congr 1
    · exact hn.complete hrunning
    · simp [List.filterMap_cons, hsame]
  cases hrunning : n.running with
  | true =>
    have hq : n.queued (.send id localAddr msg) = n.commandRx ++ [.send id localAddr msg] :=
      if_pos hrunning
    rw [hq]
    exact ⟨hn.empty, (hall hrunning).symm ▸ List.prefix_rfl, fun _ => hall hrunning⟩
  | false =>
    have hq : n.queued (.send id localAddr msg) = n.commandRx := if_neg (by simp [hrunning])
    rw [hq]
    refine ⟨hn.empty, hn.begins.trans ?_, fun h => by simp at h⟩
    simp only [issuedTo, List.filterMap_append]
    exact List.prefix_append _ _

theorem InOrder.iterate {n : Node PeerId} {peer : PeerId} (hn : n.InOrder F peer)
    {i : Input PeerId} (hconnected : n.world.SendsConnected F peer i) (hrunning : n.running = true)
    {rest : List SwarmCommand}
    (hrx : (i.msgTo? F peer).toList ++ rest.filterMap (SwarmCommand.msgTo? F peer) =
      n.channelTo F peer) :
    InOrder F peer { n.iterate F S i with commandRx := rest } := by
  obtain ⟨hempty, hmsgs⟩ := (eventLoop_sendStep F S n.world.loop i).handsOver hn.empty hconnected
  have hall : (n.world.next F S i).handedTo peer ++
      rest.filterMap (SwarmCommand.msgTo? F peer) = n.issuedTo F peer := by
    rw [World.handedTo, World.next_handOffs, List.filterMap_append, hmsgs, List.append_assoc, hrx]
    exact hn.complete hrunning
  exact ⟨hempty, hall.symm ▸ List.prefix_rfl, fun _ => hall⟩

theorem inOrder_next {n : Node PeerId} {peer : PeerId} (hn : n.InOrder F peer)
    {i : NodeInput PeerId} (hconnected : Iterates (World.SendsConnected F peer) n i) :
    (n.next F S i).InOrder F peer := by
  have hstep := next_nodeStep F S n i
  generalize n.next F S i = n' at hstep
  cases hstep with
  | issued hwaiting htranslate => exact hn.issued htranslate
  | @requested cmd c hwaiting hc =>
    have hsame : (n.queued c).filterMap (SwarmCommand.msgTo? F peer) = n.channelTo F peer := by
      unfold queued
      split_ifs <;> simp [channelTo, msgTo?_of_request F hc]
    have hprefix := hn.begins
    have hcomplete := hn.complete
    rw [← hsame] at hprefix hcomplete
    exact ⟨hn.empty, hprefix, hcomplete⟩
  | @taken cmd rest answers hrunning hrx =>
    apply hn.iterate S (hconnected _ (by simp [iteration?, hrunning, hrx])) hrunning
    cases h : cmd.msgTo? F peer <;> simp [Input.msgTo?, channelTo, hrx, h]
  | @iterated ev answers hrunning =>
    have hrx : n.commandRx.filterMap (SwarmCommand.msgTo? F peer) = n.channelTo F peer := rfl
    exact hn.iterate S (hconnected _ (by simp [iteration?, hrunning])) hrunning hrx
  | stopped =>
    exact ⟨hn.empty, (List.append_nil (n.world.handedTo peer)).symm ▸
      (List.prefix_append _ _).trans hn.begins, fun h => by simp at h⟩
  | _ => exact ⟨hn.empty, hn.begins, hn.complete⟩

/-- What a node hands off to a peer that its sends find connected begins what it issued to it. -/
theorem InOrder.handed {n : Node PeerId} {peer : PeerId} (hn : n.InOrder F peer) :
    n.world.handedTo peer <+: n.issuedTo F peer :=
  (List.prefix_append _ _).trans hn.begins

end Node
end MeerkatNet.V2
