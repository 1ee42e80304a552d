import MeerkatNet.V2.NodeSteps
import MeerkatNet.V2.SendSteps

/-!
# Hand-offs and readers

What a hand-off wrote is a beginning of the frame of its message. A reader posts at
most one event, and what it posts is what `recv_message` reads from its stream; the
loop posts no received messages.
-/

namespace MeerkatNet.V2

open Libp2p KeyedQueues Runs Framing

variable {PeerId : Type}

/-- The stream of the hand-off, if it was opened, took a beginning of the message's frame. -/
def HandOff.Framed (S : Serde) (h : HandOff PeerId) : Prop :=
  ∀ written data, h.written = some written → S.toVec h.msg = .ok data → written <+: frame data

theorem sendToPeer_framed (S : Serde) (answer : StreamAnswer) (peer : PeerId) (id : MessageId)
    (msg : MeerkatMessage) :
    ∀ h ∈ (sendToPeer S answer peer id msg).filterMap Effect.handOff?, h.Framed S := by
  intro h hmem
  unfold sendToPeer at hmem
  split at hmem
  · obtain rfl : h = _ := by simpa [Effect.handOff?] using hmem
    intro written data hwritten
    simp at hwritten
  · rename_i room error flushed
    obtain rfl : h = ⟨peer, id, msg,
        some (sendMessage S ⟨[], room, error, flushed⟩ msg).1.accepted⟩ := by
      dsimp only at hmem
      split at hmem <;> simpa [Effect.handOff?] using hmem
    intro written data hwritten hdata
    obtain ⟨w, hw, haccepted, -⟩ := sendMessage_accepted hdata ⟨[], room, error, flushed⟩
    rw [List.nil_append] at haccepted
    obtain rfl := Option.some.inj hwritten
    rwa [haccepted]

theorem flush_framed (S : Serde) (stream : ℕ → StreamAnswer) (peer : PeerId)
    (messages : List (MessageId × MeerkatMessage)) :
    ∀ h ∈ (flush S stream peer messages).filterMap Effect.handOff?, h.Framed S := by
  intro h hmem
  obtain ⟨e, he, hhandOff⟩ := List.mem_filterMap.mp hmem
  have hframed : ∀ h, e.handOff? = some h → h.Framed S := by
    apply forall_mem_flush _ stream messages e he
    intro answer id msg e he h hhandOff
    exact sendToPeer_framed S answer peer id msg h (List.mem_filterMap.mpr ⟨e, he, hhandOff⟩)
  exact hframed h hhandOff

/-- No message is received by the loop itself. -/
def Effect.Receives : Effect PeerId → Prop
  | .event (.messageReceived _ _) => True
  | _ => False

theorem sendToPeer_receives (S : Serde) (answer : StreamAnswer) (peer : PeerId) (id : MessageId)
    (msg : MeerkatMessage) : ∀ e ∈ sendToPeer S answer peer id msg, ¬ e.Receives := by
  obtain ⟨written, h | ⟨e, h, -⟩⟩ := sendToPeer_cases S answer peer id msg <;>
    simp [h, Effect.Receives]

variable [DecidableEq PeerId] (F : Formats PeerId) (S : Serde)

theorem SendStep.framed {pending pending' : QueueMap PeerId (MessageId × MeerkatMessage)}
    {i : Input PeerId} {es : List (Effect PeerId)} (hstep : SendStep F S pending i pending' es) :
    ∀ h ∈ es.filterMap Effect.handOff?, h.Framed S := by
  cases hstep with
  | rejected | queued | dialFailed => simp [Effect.handOff?]
  | direct => exact sendToPeer_framed S _ _ _ _
  | flushed hes =>
    rw [List.filterMap_append, handOffs_of_quiet hes, List.nil_append]
    exact flush_framed S _ _ _
  | quiet hi hother hes => simp [handOffs_of_quiet hes]

theorem SendStep.receives {pending pending' : QueueMap PeerId (MessageId × MeerkatMessage)}
    {i : Input PeerId} {es : List (Effect PeerId)} (hstep : SendStep F S pending i pending' es) :
    ∀ e ∈ es, ¬ e.Receives := by
  have hquiet : ∀ e : Effect PeerId, e.Quiet → ¬ e.Receives := by
    rintro (e | _ | _ | _ | _ | _ | _) h
    · cases e <;> simp_all [Effect.Quiet, Effect.Receives]
    all_goals simp [Effect.Receives]
  cases hstep with
  | rejected | queued | dialFailed => simp [Effect.Receives]
  | direct => exact sendToPeer_receives S _ _ _ _
  | flushed hes =>
    intro e he
    rcases List.mem_append.mp he with he | he
    · exact hquiet e (hes e he)
    · exact forall_mem_flush (fun _ _ _ => sendToPeer_receives S _ _ _ _) _ _ e he
  | quiet hi hother hes =>
    intro e he
    exact hquiet e (hes e he)

/-- Every hand-off of a run is framed. -/
theorem World.framed_next {w : World PeerId} (hw : ∀ h ∈ w.handOffs, h.Framed S)
    (i : Input PeerId) : ∀ h ∈ (w.next F S i).handOffs, h.Framed S := by
  intro h hmem
  rw [next_handOffs, List.mem_append] at hmem
  rcases hmem with hmem | hmem
  · exact hw h hmem
  · exact (eventLoop_sendStep F S w.loop i).framed F S h hmem

namespace Node

/-- What the posted events say about the readers. -/
structure ReaderPosts (n : Node PeerId) : Prop where
  read : ∀ k e, ⟨some k, e⟩ ∈ n.posted → ∃ r msg rest, n.readers[k]? = some r ∧
    r.state = .finished ∧ recvMessage S r.arrived = some (.ok msg, rest) ∧
    e = .messageReceived (F.peerText r.peer) msg
  loop : ∀ e, ⟨none, e⟩ ∈ n.posted → ∀ peer msg, e ≠ .messageReceived peer msg
  once : n.posted.Pairwise fun q q' => ∀ k, q.reader = some k → q'.reader ≠ some k
  posts : ∀ k r msg rest, n.readers[k]? = some r → r.state = .finished →
    recvMessage S r.arrived = some (.ok msg, rest) →
    ⟨some k, .messageReceived (F.peerText r.peer) msg⟩ ∈ n.posted

omit [DecidableEq PeerId] in
theorem readerPosts_init (me : PeerId) (nodeType : NodeType) :
    (init me nodeType).ReaderPosts F S where
  read _ _ h := by simp [init] at h
  loop _ h := by simp [init] at h
  once := .nil
  posts _ _ _ _ h := by simp [init] at h

omit [DecidableEq PeerId] in
theorem reading_ne_finished {readers : List (Reader PeerId)} {k k' : ℕ} {r s : Reader PeerId}
    (hr : readers[k]? = some r) (hreading : r.state = .reading) (hs : readers[k']? = some s)
    (hdone : s.state = .finished) : k ≠ k' := by
  rintro rfl
  rw [hr] at hs
  rw [Option.some.inj hs, hdone] at hreading
  simp at hreading

omit [DecidableEq PeerId] in
/-- A reader that goes on or ends without a message posts nothing. -/
theorem ReaderPosts.set {n : Node PeerId} (hn : n.ReaderPosts F S) {k : ℕ} {r r' : Reader PeerId}
    (hr : n.readers[k]? = some r) (hreading : r.state = .reading)
    (hsilent : r'.state = .finished → ∀ msg rest, recvMessage S r'.arrived ≠ some (.ok msg, rest)) :
    ReaderPosts F S { n with readers := n.readers.set k r' } := by
  have hother : ∀ k' s, n.readers[k']? = some s → s.state = .finished → k ≠ k' :=
    fun _ _ hs hdone => reading_ne_finished hr hreading hs hdone
  refine ⟨?_, hn.loop, hn.once, ?_⟩
  · intro k' e hmem
    obtain ⟨s, msg, rest, hs, hdone, hrecv, he⟩ := hn.read k' e hmem
    exact ⟨s, msg, rest, by rwa [List.getElem?_set_ne (hother k' s hs hdone)], hdone, hrecv, he⟩
  · intro k' s msg rest hs hdone hrecv
    by_cases hk : k = k'
    · subst k'
      rw [List.getElem?_set_self (List.getElem?_eq_some_iff.mp hr).1] at hs
      obtain rfl := Option.some.inj hs
      exact absurd hrecv (hsilent hdone msg rest)
    · rw [List.getElem?_set_ne hk] at hs
      exact hn.posts k' s msg rest hs hdone hrecv

theorem ReaderPosts.iterate {n : Node PeerId} (hn : n.ReaderPosts F S) (i : Input PeerId)
    (rest : List SwarmCommand) :
    ReaderPosts F S { n.iterate F S i with commandRx := rest } := by
  have hreceives := (eventLoop_sendStep F S n.world.loop i).receives F S
  simp only [Node.iterate]
  generalize (eventLoop F S n.world.loop i).2 = es at hreceives
  have hnew : ∀ q ∈ (es.filterMap Effect.event?).map (Posted.mk none), q.reader = none ∧
      ∀ peer msg, q.event ≠ .messageReceived peer msg := by
    intro q hq
    obtain ⟨e, he, rfl⟩ := List.mem_map.mp hq
    obtain ⟨eff, heff, hevent⟩ := List.mem_filterMap.mp he
    refine ⟨rfl, fun peer msg hmsg => hreceives eff heff ?_⟩
    cases eff <;> simp_all [Effect.event?, Effect.Receives]
  refine ⟨?_, ?_, ?_, ?_⟩
  · intro k e hmem
    rcases List.mem_append.mp hmem with hmem | hmem
    · exact hn.read k e hmem
    · simpa using (hnew _ hmem).1
  · intro e hmem
    rcases List.mem_append.mp hmem with hmem | hmem
    · exact hn.loop e hmem
    · exact (hnew _ hmem).2
  · refine List.pairwise_append.mpr ⟨hn.once, ?_, ?_⟩
    · exact List.pairwise_of_forall_mem_list fun q hq q' _ k hk => by
        simp [(hnew q hq).1] at hk
    · intro q _ q' hq' k _
      simp [(hnew q' hq').1]
  · intro k r msg rest hr hdone hrecv
    exact List.mem_append_left _ (hn.posts k r msg rest hr hdone hrecv)

theorem readerPosts_next {n : Node PeerId} (hn : n.ReaderPosts F S) (i : NodeInput PeerId) :
    (n.next F S i).ReaderPosts F S := by
  have hstep := next_nodeStep F S n i
  generalize n.next F S i = n' at hstep
  cases hstep with
  | taken => exact hn.iterate F S _ _
  | iterated => exact hn.iterate F S _ n.commandRx
  | @accepted peer hrunning =>
    refine ⟨?_, hn.loop, hn.once, ?_⟩
    · intro k e hmem
      obtain ⟨r, msg, rest, hr, hread⟩ := hn.read k e hmem
      refine ⟨r, msg, rest, ?_, hread⟩
      rwa [List.getElem?_append_left (List.getElem?_eq_some_iff.mp hr).1]
    · intro k r msg rest hr hdone hrecv
      rw [List.getElem?_append] at hr
      split_ifs at hr with hk
      · exact hn.posts k r msg rest hr hdone hrecv
      · obtain rfl := List.mem_singleton.mp (List.mem_of_getElem? hr)
        simp at hdone
  | arrived hr hreading => exact hn.set F S hr hreading fun h => by simp [hreading] at h
  | rejected hr hreading hrecv =>
    exact hn.set F S hr hreading fun _ msg rest h => by simp [hrecv] at h
  | broken hr hreading => exact hn.set F S hr hreading fun h => by simp at h
  | @posted k r msg rest hr hreading hrecv =>
    have hlt := (List.getElem?_eq_some_iff.mp hr).1
    have hother : ∀ k' s, n.readers[k']? = some s → s.state = .finished → k ≠ k' :=
      fun k' s hs hdone => reading_ne_finished hr hreading hs hdone
    refine ⟨?_, ?_, ?_, ?_⟩
    · intro k' e hmem
      rcases List.mem_append.mp hmem with hmem | hmem
      · obtain ⟨s, msg', rest', hs, hdone, hread⟩ := hn.read k' e hmem
        exact ⟨s, msg', rest', by rwa [List.getElem?_set_ne (hother k' s hs hdone)], hdone, hread⟩
      · obtain ⟨rfl, rfl⟩ : k' = k ∧ e = _ := by simpa using hmem
        exact ⟨_, msg, rest, List.getElem?_set_self hlt, rfl, hrecv, rfl⟩
    · intro e hmem
      exact hn.loop e (by simpa using hmem)
    · refine List.pairwise_append.mpr ⟨hn.once, List.pairwise_singleton _ _, ?_⟩
      intro q hq q' hq'
      obtain rfl := List.mem_singleton.mp hq'
      rintro k' hk' hsame
      obtain rfl := Option.some.inj hsame
      obtain ⟨s, -, -, hs, hdone, -⟩ := hn.read k q.event (by rw [← hk']; exact hq)
      exact hother k s hs hdone rfl
    · intro k' s msg' rest' hs hdone hrecv'
      by_cases hk : k = k'
      · subst k'
        rw [List.getElem?_set_self hlt] at hs
        obtain rfl := Option.some.inj hs
        obtain ⟨rfl, -⟩ : msg' = msg ∧ rest' = rest := by simpa [hrecv, eq_comm] using hrecv'
        simp
      · rw [List.getElem?_set_ne hk] at hs
        exact List.mem_append_left _ (hn.posts k' s msg' rest' hs hdone hrecv')
  | _ => exact ⟨hn.read, hn.loop, hn.once, hn.posts⟩

/-- What a step may do to a reader: its peer stays, it gets more bytes only when they arrive,
and it changes only while it reads and finishes only by reading a whole frame. -/
structure ReaderMoves (i : NodeInput PeerId) (k : ℕ) (r r' : Reader PeerId) : Prop where
  peer : r'.peer = r.peer
  ended : r.state ≠ .reading → r' = r
  arrived : r'.arrived = r.arrived ∨ ∃ bytes, i = .arrive k bytes ∧ r'.arrived = r.arrived ++ bytes
  finished : r'.state = .finished → r.state = .finished ∨
    i = .read k ∧ (recvMessage S r.arrived).isSome = true

/-- A step adds a reader for an accepted stream, or moves the readers that there are. -/
theorem readers_next (n : Node PeerId) (i : NodeInput PeerId) :
    (∃ peer, i = .accept peer ∧ (n.next F S i).readers = n.readers ++ [⟨peer, [], .reading⟩]) ∨
      ((n.next F S i).readers.length = n.readers.length ∧
        ∀ k r, n.readers[k]? = some r →
          ∃ r', (n.next F S i).readers[k]? = some r' ∧ ReaderMoves S i k r r') := by
  have hset : ∀ (i' : NodeInput PeerId) {k r r'}, n.readers[k]? = some r → r.state = .reading →
      ReaderMoves S i' k r r' → ∀ k' s, n.readers[k']? = some s →
      ∃ s', (n.readers.set k r')[k']? = some s' ∧ ReaderMoves S i' k' s s' := by
    intro i' k r r' hr hreading hmoves k' s hs
    by_cases hk : k = k'
    · subst k'
      obtain rfl := Option.some.inj (hr.symm.trans hs)
      exact ⟨r', List.getElem?_set_self (List.getElem?_eq_some_iff.mp hr).1, hmoves⟩
    · exact ⟨s, by rwa [List.getElem?_set_ne hk], rfl, fun _ => rfl, .inl rfl, .inl⟩
  have hstep := next_nodeStep F S n i
  generalize n.next F S i = n' at hstep
  cases hstep with
  | accepted => exact .inl ⟨_, rfl, rfl⟩
  | arrived hr hreading =>
    exact .inr ⟨List.length_set, hset _ hr hreading
      ⟨rfl, fun h => absurd hreading h, .inr ⟨_, rfl, rfl⟩, .inl⟩⟩
  | rejected hr hreading hrecv | posted hr hreading hrecv =>
    exact .inr ⟨List.length_set, hset _ hr hreading
      ⟨rfl, fun h => absurd hreading h, .inl rfl, fun _ => .inr ⟨rfl, by simp [hrecv]⟩⟩⟩
  | broken hr hreading =>
    exact .inr ⟨List.length_set, hset _ hr hreading
      ⟨rfl, fun h => absurd hreading h, .inl rfl, fun h => by simp at h⟩⟩
  | _ => exact .inr ⟨rfl, fun k r hr => ⟨r, hr, rfl, fun _ => rfl, .inl rfl, .inl⟩⟩

/-- A step appends events; one that a reader posts is the only one, and the reader was still
reading and had a whole frame. -/
theorem posted_next (n : Node PeerId) (i : NodeInput PeerId) :
    ∃ new, (n.next F S i).posted = n.posted ++ new ∧
      ((∀ q ∈ new, q.reader = none) ∨ ∃ k r q, i = .read k ∧ new = [q] ∧ q.reader = some k ∧
        n.readers[k]? = some r ∧ r.state = .reading ∧
        (recvMessage S r.arrived).isSome = true) := by
  have hloop : ∀ es : List NetworkEvent, ∀ q ∈ es.map (Posted.mk none), q.reader = none := by
    intro es q hq
    obtain ⟨e, -, rfl⟩ := List.mem_map.mp hq
    rfl
  have hstep := next_nodeStep F S n i
  generalize n.next F S i = n' at hstep
  cases hstep with
  | taken => exact ⟨_, rfl, .inl (hloop _)⟩
  | iterated => exact ⟨_, rfl, .inl (hloop _)⟩
  | posted hr hreading hrecv =>
    exact ⟨_, rfl, .inr ⟨_, _, _, rfl, rfl, rfl, hr, hreading, by simp [hrecv]⟩⟩
  | _ => exact ⟨[], (List.append_nil _).symm, .inl (by simp)⟩

@[simp] theorem localPeerId_next (n : Node PeerId) (i : NodeInput PeerId) :
    (n.next F S i).actor.localPeerId = n.actor.localPeerId := by
  have hstep := next_nodeStep F S n i
  generalize n.next F S i = n' at hstep
  cases hstep <;> rfl

theorem handOffs_next (n : Node PeerId) (i : NodeInput PeerId) :
    n.world.handOffs <+: (n.next F S i).world.handOffs := by
  rw [next_world]
  split
  · exact List.prefix_rfl
  · rw [World.next_handOffs]
    exact List.prefix_append _ _

theorem framed_next {n : Node PeerId} (hn : ∀ h ∈ n.world.handOffs, h.Framed S)
    (i : NodeInput PeerId) : ∀ h ∈ (n.next F S i).world.handOffs, h.Framed S := by
  rw [next_world]
  split
  · exact hn
  · exact World.framed_next F S hn _

end Node
end MeerkatNet.V2
