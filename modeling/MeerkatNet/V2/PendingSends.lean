import MeerkatNet.V2.Json
import MeerkatNet.V2.SendSteps

/-!
# Queued messages over whole runs

A message that the loop took from the command channel is queued, handed off or
reported as failed, as long as no synchronous dial failure removes a queue that
holds other messages.
-/

namespace MeerkatNet.V2

open Libp2p KeyedQueues Runs

variable {PeerId : Type} [DecidableEq PeerId] (F : Formats PeerId) (S : Serde)

namespace World

/-- Every id taken from the command channel is still queued, was handed to `send_to_peer`, or
has been reported by a `SendFailed` event. -/
def Accounted (w : World PeerId) : Prop :=
  ∀ id ∈ w.taken, QueuedIn w.loop.pendingSends id ∨ id ∈ w.handedIds ∨ id ∈ w.failedIds

/-- If the iteration is a send to an unconnected peer whose dial fails at once, no other
message waits for that peer. -/
def SparesQueue (w : World PeerId) : Input PeerId → Prop
  | .command (.send _ addr _) answers =>
    match destination F addr, answers.isConnected, answers.dial with
    | some peer, false, .error _ => w.loop.pendingSends.queue peer = []
    | _, _, _ => True
  | _ => True

end World

/-- A queued message stays queued for its peer, is handed off or is reported, in one iteration
that spares the queues. -/
theorem SendStep.keeps {w : World PeerId} {i : Input PeerId}
    {pending' : QueueMap PeerId (MessageId × MeerkatMessage)} {es : List (Effect PeerId)}
    (hstep : SendStep F S w.loop.pendingSends i pending' es) (hspares : w.SparesQueue F i)
    {peer : PeerId} {entry : MessageId × MeerkatMessage}
    (hentry : entry ∈ w.loop.pendingSends.queue peer) :
    entry ∈ pending'.queue peer ∨
      (i.established? = some peer ∧
        ∃ h ∈ es.filterMap Effect.handOff?, h.peer = peer ∧ h.entry = entry) ∨
      entry.1 ∈ (es.filterMap Effect.failure?).map Prod.fst := by
  cases hstep with
  | rejected | direct | quiet => exact .inl hentry
  | queued => exact .inl (QueueMap.mem_queue_push.mpr (.inl hentry))
  | @dialFailed id addr msg answers dialled multiaddr e hdest hconn hdial =>
    -- the removed queue was empty, so the message waits for another peer
    have hempty : w.loop.pendingSends.queue dialled = [] := by
      simpa [World.SparesQueue, hdest, hconn, hdial] using hspares
    have hne : peer ≠ dialled := by
      rintro rfl
      simp [hempty] at hentry
    exact .inl (QueueMap.mem_queue_remove.mpr ⟨hne, hentry⟩)
  | @flushed connected c answers es hes =>
    by_cases hpeer : peer = connected
    · subst connected
      rw [← flush_entries S answers.stream peer (w.loop.pendingSends.queue peer),
        List.mem_map] at hentry
      obtain ⟨h, hmem, rfl⟩ := hentry
      exact .inr (.inl ⟨rfl, h, by simp [hmem], flush_peer hmem, rfl⟩)
    · exact .inl (QueueMap.mem_queue_remove.mpr ⟨hpeer, hentry⟩)

/-- A message just taken from the channel is queued, handed off or reported. -/
theorem SendStep.takes {pending pending' : QueueMap PeerId (MessageId × MeerkatMessage)}
    {i : Input PeerId} {es : List (Effect PeerId)} (hstep : SendStep F S pending i pending' es)
    {id : MessageId} (htaken : i.taken? = some id) :
    QueuedIn pending' id ∨ id ∈ (es.filterMap Effect.handOff?).map HandOff.msgId ∨
      id ∈ (es.filterMap Effect.failure?).map Prod.fst := by
  cases hstep with
  | rejected | dialFailed =>
    simp only [Input.taken?, Option.some.injEq] at htaken
    exact .inr (.inr (by simp [Effect.failure?, htaken]))
  | direct =>
    simp only [Input.taken?, Option.some.injEq] at htaken
    exact .inr (.inl (by simp [map_msgId, htaken]))
  | @queued id' addr msg answers peer =>
    simp only [Input.taken?, Option.some.injEq] at htaken
    exact .inl ⟨peer, by simp [htaken]⟩
  | flushed => simp [Input.taken?] at htaken
  | quiet hi => simp [hi] at htaken

namespace World

theorem accounted_next {w : World PeerId} {i : Input PeerId} (hw : w.Accounted)
    (hspares : w.SparesQueue F i) : (w.next F S i).Accounted := by
  have hstep := eventLoop_sendStep F S w.loop i
  intro id hid
  simp only [next_taken, List.mem_append, Option.mem_toList] at hid
  simp only [next_loop, next_handedIds, next_failedIds, List.mem_append]
  rcases hid with hid | hid
  · rcases hw id hid with ⟨peer, hq⟩ | hh | hf
    · obtain ⟨entry, hentry, rfl⟩ := List.mem_map.mp hq
      rcases hstep.keeps F S hspares hentry with hq | ⟨-, h, hmem, -, rfl⟩ | hf
      · exact .inl ⟨peer, List.mem_map_of_mem hq⟩
      · exact .inr (.inl (.inr (List.mem_map_of_mem hmem)))
      · exact .inr (.inr (.inr hf))
    · exact .inr (.inl (.inl hh))
    · exact .inr (.inr (.inl hf))
  · have := hstep.takes F S hid
    tauto

/-- No accepted message disappears in a run in which every send whose dial fails at once finds
the queue of its peer empty. -/
theorem accounted_of_sparesQueue {inputs : List (Input PeerId)}
    (h : (machine F S).Along (SparesQueue F) init inputs) :
    ((machine F S).run inputs).Accounted :=
  h.invariant (P := Accounted) (fun id hid => by simp [taken, init] at hid)
    fun _ _ hw hspares => accounted_next F S hw hspares

/-- A send to a server that is not connected, whose dial is under way. -/
def dialledSend : List (Input String) :=
  [.command (.send ⟨1⟩ sampleServer (.ping "a")) { Answers.refused with dial := .ok 0 }]

/-- The same, and a second send to that server whose dial fails at once. -/
def refusedRedial : List (Input String) :=
  dialledSend ++ [.command (.send ⟨2⟩ sampleServer (.ping "b")) Answers.refused]

/-- A second dial of that server fails later on, and a dial of another one at once; then the
first dial connects, and the stream of the second message it flushes is refused. -/
def flushedSends : List (Input String) :=
  dialledSend ++
    [.command (.send ⟨2⟩ ⟨"/p2p/178"⟩ (.ping "b")) Answers.refused,
      .command (.send ⟨3⟩ sampleServer (.ping "c")) { Answers.refused with dial := .ok 1 },
      .event (.outgoingConnectionError 1 (some "177")) Answers.refused,
      .event (.connectionEstablished "177" 0) { Answers.refused with
        stream := fun n => if n = 0 then .opened none "" (.ok ()) else .refused "reset" }]

theorem accounted_flushedSends :
    let w := (machine Formats.plain json).run flushedSends
    w.Accounted ∧ w.taken = [⟨1⟩, ⟨2⟩, ⟨3⟩] ∧ w.handedIds = [⟨1⟩, ⟨3⟩] ∧
      w.failedIds = [⟨2⟩, ⟨3⟩] := by
  have hrun : (machine Formats.plain json).Along (SparesQueue Formats.plain) init flushedSends :=
    ⟨trivial, rfl, trivial, trivial, trivial, trivial⟩
  exact ⟨accounted_of_sparesQueue Formats.plain json hrun, by decide, by decide, by decide⟩

/-- The first message is neither queued, nor handed off, nor reported. -/
theorem not_accounted_refusedRedial :
    (machine Formats.plain json).Along
      (fun w i => w.Legal i ∧ w.TruthfulTest Formats.plain i) init refusedRedial ∧
    ¬ ((machine Formats.plain json).run refusedRedial).Accounted := by
  refine ⟨by decide, ?_⟩
  intro h
  rcases h ⟨1⟩ (by decide) with ⟨p, hp⟩ | hhanded | hfailed
  · have hpending : ((machine Formats.plain json).run refusedRedial).loop.pendingSends =
        (((QueueMap.empty : QueueMap String (MessageId × MeerkatMessage)).push
          "177" (⟨1⟩, .ping "a")).push "177" (⟨2⟩, .ping "b")).remove "177" := rfl
    simp only [hpending, QueueMap.push_remove, List.mem_map, QueueMap.mem_queue_remove,
      QueueMap.queue_empty, List.not_mem_nil, and_false, false_and, exists_false] at hp
  · exact absurd hhanded (by decide)
  · exact absurd hfailed (by decide)

end World
end MeerkatNet.V2
