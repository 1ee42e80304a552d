import MeerkatNet.V2.MessageIds

/-!
# The order of hand-offs

A send either goes out at once or waits for the connection. Nothing waits for a peer
that is connected, so a direct send never overtakes a queued one: what was handed off
to a peer, followed by what waits for it, is part of what the loop took, in that order.
-/

namespace MeerkatNet.V2

open Libp2p KeyedQueues Runs

variable {PeerId : Type} [DecidableEq PeerId] (F : Formats PeerId) (S : Serde)

/-- The ids of some hand-offs that went to a peer. -/
def idsTo (peer : PeerId) (hs : List (HandOff PeerId)) : List MessageId :=
  (hs.filter fun h => h.peer = peer).map HandOff.msgId

@[simp] theorem idsTo_append (peer : PeerId) (hs hs' : List (HandOff PeerId)) :
    idsTo peer (hs ++ hs') = idsTo peer hs ++ idsTo peer hs' := by
  simp [idsTo]

theorem idsTo_self {peer : PeerId} {hs : List (HandOff PeerId)} (h : ∀ x ∈ hs, x.peer = peer) :
    idsTo peer hs = (hs.map HandOff.entry).map Prod.fst := by
  rw [← map_msgId, idsTo, List.filter_eq_self.mpr (by simpa using h)]

theorem idsTo_other {peer target : PeerId} {hs : List (HandOff PeerId)}
    (h : ∀ x ∈ hs, x.peer = target) (hne : target ≠ peer) : idsTo peer hs = [] := by
  have hnone : hs.filter (fun x => x.peer = peer) = [] := by
    apply List.filter_eq_nil_iff.mpr
    intro x hx
    simpa [h x hx] using hne
  rw [idsTo, hnone, List.map_nil]

namespace World

/-- The ids handed to `send_to_peer` for a peer, in order. -/
def handedIdsTo (w : World PeerId) (peer : PeerId) : List MessageId := idsTo peer w.handOffs

/-- Nothing waits for a connected peer, and the ids handed off to a peer come before those that
wait for it, all in the order in which the loop took them. -/
structure QueuesBehind (w : World PeerId) : Prop where
  connected : ∀ peer, 0 < w.swarm.connections peer → w.loop.pendingSends.queue peer = []
  ordered : ∀ peer, (w.handedIdsTo peer ++
    (w.loop.pendingSends.queue peer).map Prod.fst).Sublist w.taken

theorem queuesBehind_init : (init : World PeerId).QueuesBehind where
  connected _ _ := rfl
  ordered _ := List.Sublist.slnil

omit [DecidableEq PeerId] in
variable {F} in
theorem TruthfulTest.isConnected {w : World PeerId} {id : MessageId} {addr : Address}
    {msg : MeerkatMessage} {answers : Answers} {peer : PeerId}
    (h : w.TruthfulTest F (.command (.send id addr msg) answers))
    (hdest : destination F addr = some peer) :
    answers.isConnected = decide (0 < w.swarm.connections peer) := by
  unfold destination at hdest
  simp only [TruthfulTest] at h
  cases hparse : F.parse addr.text with
  | error e => simp [hparse] at hdest
  | ok multiaddr =>
    simp only [hparse] at hdest h
    simpa only [hdest] using h

/-- A peer that is connected after an iteration was so before, unless the iteration reports a
connection with it. -/
theorem connections_pos_of_next {w : World PeerId} {i : Input PeerId} {peer : PeerId}
    (hne : i.established? ≠ some peer) (h : 0 < (w.next F S i).swarm.connections peer) :
    0 < w.swarm.connections peer := by
  rw [next_connections] at h
  rcases i with _ | ⟨ev, answers⟩
  · exact h
  · cases ev with
    | connectionEstablished other c =>
      have hother : peer ≠ other := by
        rintro rfl
        exact hne rfl
      simpa [Swarm.react, Swarm.observe, hother] using h
    | connectionClosed other c =>
      by_cases hother : peer = other
      · subst other
        simp only [Swarm.react, Swarm.observe, Function.update_self] at h
        omega
      · simpa [Swarm.react, Swarm.observe, hother] using h
    | _ => exact h

end World

/-- An iteration whose connection test tells the truth hands off from the front: the hand-offs to
a peer and the queue after it are the queue before it and the send that was taken, in this order,
or a part of them. -/
theorem SendStep.handsOffInOrder {w : World PeerId} {i : Input PeerId}
    {pending' : QueueMap PeerId (MessageId × MeerkatMessage)} {es : List (Effect PeerId)}
    (hstep : SendStep F S w.loop.pendingSends i pending' es) (hw : w.QueuesBehind)
    (htruthful : w.TruthfulTest F i) (peer : PeerId) :
    (idsTo peer (es.filterMap Effect.handOff?) ++ (pending'.queue peer).map Prod.fst).Sublist
      ((w.loop.pendingSends.queue peer).map Prod.fst ++ i.taken?.toList) := by
  cases hstep with
  | rejected => simp [Effect.handOff?, idsTo]
  | @direct id addr msg answers target hdest hconn =>
    by_cases htarget : target = peer
    · subst target
      have hlive : 0 < w.swarm.connections peer := by
        simpa [hconn] using htruthful.isConnected hdest
      rw [idsTo_self fun h => sendToPeer_peer, sendToPeer_entries, hw.connected peer hlive]
      simp [Input.taken?]
    · rw [idsTo_other (fun h => sendToPeer_peer) htarget]
      simp
  | @queued id addr msg answers target =>
    by_cases htarget : peer = target
    · subst target
      simp [Effect.handOff?, idsTo, Input.taken?]
    · simp [Effect.handOff?, idsTo, htarget]
  | @dialFailed id addr msg answers target multiaddr e =>
    have hnone : [Effect.dial (.send target) multiaddr (.error e), .event (.sendFailed id
        (.protocolError ("Dial failed: " ++ e)))].filterMap Effect.handOff? = [] := rfl
    rw [hnone]
    by_cases htarget : peer = target
    · subst target
      simp [idsTo]
    · simp [idsTo, htarget]
  | @flushed target c answers es hes =>
    rw [List.filterMap_append, handOffs_of_quiet hes, List.nil_append]
    by_cases htarget : target = peer
    · subst target
      rw [idsTo_self fun h => flush_peer, flush_entries]
      simp [Input.taken?]
    · rw [idsTo_other (fun h => flush_peer) htarget]
      simp [Ne.symm htarget]
  | quiet hi hother hes =>
    rw [handOffs_of_quiet hes]
    simp [idsTo]

/-- After such an iteration nothing waits for a connected peer. -/
theorem SendStep.queue_nil {w : World PeerId} {i : Input PeerId}
    {pending' : QueueMap PeerId (MessageId × MeerkatMessage)} {es : List (Effect PeerId)}
    (hstep : SendStep F S w.loop.pendingSends i pending' es) (hw : w.QueuesBehind)
    (htruthful : w.TruthfulTest F i) {peer : PeerId}
    (hlive : 0 < (w.next F S i).swarm.connections peer) : pending'.queue peer = [] := by
  have hbefore : i.established? ≠ some peer → w.loop.pendingSends.queue peer = [] :=
    fun hne => hw.connected peer (World.connections_pos_of_next F S hne hlive)
  cases hstep with
  | rejected | direct => exact hbefore (by simp [Input.established?])
  | @queued id addr msg answers target multiaddr c hdest hconn =>
    -- the send found its target unconnected
    have hne : peer ≠ target := by
      rintro rfl
      have hdead := htruthful.isConnected hdest
      have hconnected := World.connections_pos_of_next F S (by simp [Input.established?]) hlive
      simp [hconn] at hdead
      omega
    rw [QueueMap.queue_push_ne _ _ hne]
    exact hbefore (by simp [Input.established?])
  | @dialFailed id addr msg answers target =>
    by_cases htarget : peer = target
    · subst target
      exact QueueMap.queue_remove_self _ _
    · rw [QueueMap.queue_remove_ne _ htarget]
      exact hbefore (by simp [Input.established?])
  | @flushed target c answers es =>
    by_cases htarget : peer = target
    · subst target
      exact QueueMap.queue_remove_self _ _
    · rw [QueueMap.queue_remove_ne _ htarget]
      exact hbefore (by simp [Input.established?, Ne.symm htarget])
  | quiet hi hother hes =>
    apply hbefore
    unfold Input.established?
    split
    · rename_i other c answers
      exact absurd rfl (hother other c answers)
    · simp

namespace World

theorem queuesBehind_next {w : World PeerId} {i : Input PeerId} (hw : w.QueuesBehind)
    (htruthful : w.TruthfulTest F i) : (w.next F S i).QueuesBehind := by
  have hstep := eventLoop_sendStep F S w.loop i
  constructor
  · intro peer hlive
    exact hstep.queue_nil F S hw htruthful hlive
  · intro peer
    have hfront := hstep.handsOffInOrder F S hw htruthful peer
    rw [handedIdsTo, next_handOffs, idsTo_append, next_loop, next_taken, List.append_assoc]
    refine (hfront.append_left _).trans ?_
    rw [← List.append_assoc]
    exact (hw.ordered peer).append_right _

/-- For every run of the loop with a truthful connection test, the ids handed off to a peer are
among those taken, in the same order. -/
theorem queuesBehind_of_truthfulTest {inputs : List (Input PeerId)}
    (h : (machine F S).Along (TruthfulTest F) init inputs) :
    ((machine F S).run inputs).QueuesBehind :=
  h.invariant queuesBehind_init fun _ _ hw htruthful => queuesBehind_next F S hw htruthful

end World

namespace Node

omit [DecidableEq PeerId] in
/-- Below 2⁶⁴ sends the ids of a node grow. -/
theorem Numbered.increasing {n : Node PeerId} (hn : n.Numbered)
    (hcount : n.issued.length < 2 ^ 64) :
    n.issuedIds.Pairwise fun id id' => id.val < id'.val := by
  rw [hn.ids, List.pairwise_map]
  apply List.Pairwise.imp_of_mem _ List.pairwise_lt_range
  intro j k hj hk hjk
  rw [List.mem_range] at hj hk
  rw [UInt64.lt_iff_toNat_lt, UInt64.toNat_ofNat', UInt64.toNat_ofNat',
    Nat.mod_eq_of_lt (by omega), Nat.mod_eq_of_lt (by omega)]
  omega

/-- In every run with a truthful connection test, the ids handed off to a peer are ids of issued
sends in the order of issue; with fewer than 2⁶⁴ sends they are strictly increasing. -/
theorem handedIdsTo_inOrder {me : PeerId} {nodeType : NodeType} {inputs : List (NodeInput PeerId)}
    (h : (machine F S me nodeType).Along (Iterates (World.TruthfulTest F)) (init me nodeType)
      inputs) (peer : PeerId) :
    let n := (machine F S me nodeType).run inputs
    (n.world.handedIdsTo peer).Sublist n.issuedIds ∧
    (n.issued.length < 2 ^ 64 →
      (n.world.handedIdsTo peer).Pairwise fun id id' => id.val < id'.val) := by
  obtain ⟨js, hjs, hworld⟩ := exists_world_run F S h
  have hordered := (World.queuesBehind_of_truthfulTest F S hjs).ordered peer
  rw [← hworld] at hordered
  have hnumbered := h.invariant (P := Numbered) (numbered_init me nodeType)
    fun n i hn _ => numbered_next F S hn i
  have hissued := ((List.sublist_append_left _ _).trans hordered).trans hnumbered.taken.sublist
  refine ⟨hissued, ?_⟩
  intro hcount
  exact (hnumbered.increasing hcount).sublist hissued

/-- A send that waits for its dial, the connection, and a second send over it. -/
def queuedThenDirect : List (NodeInput String) :=
  [.command (.sendMessage sampleServer (.ping "a")),
    .take { Answers.refused with dial := .ok 0 },
    .command (.sendMessage sampleServer (.ping "b")),
    .event (.connectionEstablished "177" 0) Answers.refused,
    .take { Answers.refused with isConnected := true }]

theorem handedIdsTo_inOrder_queuedThenDirect :
    let n := (machine Formats.plain json "176" .server).run queuedThenDirect
    n.world.handedIdsTo "177" = [⟨1⟩, ⟨2⟩] ∧
    (n.world.handedIdsTo "177").Sublist n.issuedIds ∧
    (n.issued.length < 2 ^ 64 →
      (n.world.handedIdsTo "177").Pairwise fun id id' => id.val < id'.val) :=
  ⟨by decide, handedIdsTo_inOrder Formats.plain json (by decide) "177"⟩

end Node
end MeerkatNet.V2
