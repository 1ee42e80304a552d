import MeerkatNet.V2.PendingSends
import MeerkatNet.V2.SwarmSteps

/-!
# Queues and dials in flight

A peer with queued messages has a dial in flight, as long as no event ends its last
dial while its messages stay queued. The loop ignores `OutgoingConnectionError`, so
the condition excludes exactly the failures that arrive as events.
-/

namespace MeerkatNet.V2

open Libp2p KeyedQueues Runs

variable {PeerId : Type} [DecidableEq PeerId] (F : Formats PeerId) (S : Serde)

/-- The message that a send appends to the queue of a peer. -/
def Input.queuedFor? (peer : PeerId) : Input PeerId → Option (MessageId × MeerkatMessage)
  | .command (.send id addr msg) answers =>
    if destination F addr = some peer ∧ answers.isConnected = false then some (id, msg) else none
  | _ => none

namespace World

/-- Everything that has ever been appended to the queue of a peer. -/
def queuedFor (w : World PeerId) (peer : PeerId) : List (MessageId × MeerkatMessage) :=
  w.history.filterMap fun step => step.1.queuedFor? F peer

/-- The message was handed to `send_to_peer` when a connection to its peer came up. -/
def Flushed (w : World PeerId) (peer : PeerId) (entry : MessageId × MeerkatMessage) : Prop :=
  ∃ step ∈ w.history, step.1.established? = some peer ∧
    ∃ h ∈ step.2.filterMap Effect.handOff?, h.peer = peer ∧ h.entry = entry

/-- Every peer with queued messages has a dial in flight. -/
def Dialling (w : World PeerId) : Prop :=
  ∀ peer, w.loop.pendingSends.queue peer ≠ [] → ∃ c, w.swarm.dials c = some (.send peer)

/-- Every message ever queued for a peer is still queued for it, was flushed to it or has been
reported. -/
def Settled (w : World PeerId) : Prop :=
  ∀ peer, ∀ entry ∈ w.queuedFor F peer,
    entry ∈ w.loop.pendingSends.queue peer ∨ w.Flushed peer entry ∨ entry.1 ∈ w.failedIds

/-- An event that ends a dial of a peer without connecting to it finds no message queued for
the peer, or leaves another dial of it in flight. -/
def SparesLastDial (w : World PeerId) (i : Input PeerId) : Prop :=
  ∀ c peer, i.ended? = some c → w.swarm.dials c = some (.send peer) →
    i.established? ≠ some peer →
    w.loop.pendingSends.queue peer = [] ∨ ∃ c' ≠ c, w.swarm.dials c' = some (.send peer)

omit [DecidableEq PeerId] in
/-- A dial in flight that the event does not end, or another one of the same peer. -/
theorem SparesLastDial.other {w : World PeerId} {i : Input PeerId} (h : w.SparesLastDial i)
    {c : ConnectionId} {peer : PeerId} (hdial : w.swarm.dials c = some (.send peer))
    (hqueue : w.loop.pendingSends.queue peer ≠ []) (hpeer : i.established? ≠ some peer) :
    ∃ c', w.swarm.dials c' = some (.send peer) ∧ i.ended? ≠ some c' := by
  by_cases hends : i.ended? = some c
  · rcases h c peer hends hdial hpeer with hempty | ⟨c', hne, hother⟩
    · exact absurd hempty hqueue
    · refine ⟨c', hother, ?_⟩
      rw [hends]
      exact fun hsame => hne (Option.some.inj hsame).symm
  · exact ⟨c, hdial, hends⟩

end World

/-- A queue is nonempty because it was, or because the iteration dialled the peer. -/
theorem SendStep.queue_source {pending pending' : QueueMap PeerId (MessageId × MeerkatMessage)}
    {i : Input PeerId} {es : List (Effect PeerId)} (hstep : SendStep F S pending i pending' es)
    {peer : PeerId} (h : pending'.queue peer ≠ []) :
    (pending.queue peer ≠ [] ∧ i.established? ≠ some peer) ∨
      ∃ multiaddr c, es = [.dial (.send peer) multiaddr (.ok c)] := by
  cases hstep with
  | rejected | direct => exact .inl ⟨h, by simp [Input.established?]⟩
  | @queued id addr msg answers dialled multiaddr c =>
    by_cases hpeer : peer = dialled
    · subst dialled
      exact .inr ⟨multiaddr, c, rfl⟩
    · rw [QueueMap.queue_push_ne _ _ hpeer] at h
      exact .inl ⟨h, by simp [Input.established?]⟩
  | @dialFailed id addr msg answers dialled =>
    by_cases hpeer : peer = dialled
    · simp [hpeer] at h
    · rw [QueueMap.queue_remove_ne _ hpeer] at h
      exact .inl ⟨h, by simp [Input.established?]⟩
  | @flushed connected =>
    by_cases hpeer : peer = connected
    · simp [hpeer] at h
    · rw [QueueMap.queue_remove_ne _ hpeer] at h
      exact .inl ⟨h, by simp [Input.established?, Ne.symm hpeer]⟩
  | quiet hi hother =>
    refine .inl ⟨h, ?_⟩
    intro hest
    unfold Input.established? at hest
    split at hest
    · exact hother _ _ _ rfl
    · simp at hest

/-- A message appended to a queue is in that queue or reported after the iteration. -/
theorem SendStep.queues {pending pending' : QueueMap PeerId (MessageId × MeerkatMessage)}
    {i : Input PeerId} {es : List (Effect PeerId)} (hstep : SendStep F S pending i pending' es)
    {peer : PeerId} {entry : MessageId × MeerkatMessage}
    (hentry : i.queuedFor? F peer = some entry) :
    entry ∈ pending'.queue peer ∨ entry.1 ∈ (es.filterMap Effect.failure?).map Prod.fst := by
  cases hstep with
  | rejected hdest => simp [Input.queuedFor?, hdest] at hentry
  | direct hdest hconn => simp [Input.queuedFor?, hconn] at hentry
  | queued hdest hconn =>
    simp only [Input.queuedFor?, hdest, hconn, and_true, Option.some.injEq,
      Option.ite_none_right_eq_some] at hentry
    obtain ⟨rfl, rfl⟩ := hentry
    exact .inl (by simp)
  | dialFailed hdest hconn =>
    simp only [Input.queuedFor?, hdest, hconn, and_true, Option.some.injEq,
      Option.ite_none_right_eq_some] at hentry
    obtain ⟨rfl, rfl⟩ := hentry
    exact .inr (by simp [Effect.failure?])
  | flushed => simp [Input.queuedFor?] at hentry
  | quiet hi =>
    unfold Input.queuedFor? at hentry
    split at hentry
    · simp [Input.taken?] at hi
    · simp at hentry

namespace World

theorem dialling_next {w : World PeerId} {i : Input PeerId} (hw : w.Dialling)
    (hlegal : w.Legal i) (hspares : w.SparesLastDial i) : (w.next F S i).Dialling := by
  intro peer hqueue
  rcases (eventLoop_sendStep F S w.loop i).queue_source F S hqueue with
    ⟨hbefore, hpeer⟩ | ⟨multiaddr, c, hes⟩
  · obtain ⟨c, hc⟩ := hw peer hbefore
    obtain ⟨c', hc', hends⟩ := hspares.other hc hbefore hpeer
    exact ⟨c', next_dials F S hlegal hc' hends⟩
  · exact ⟨c, by simp [hes, Swarm.perform]⟩

theorem flushed_next {w : World PeerId} {peer : PeerId} {entry : MessageId × MeerkatMessage}
    (h : w.Flushed peer entry) (i : Input PeerId) : (w.next F S i).Flushed peer entry := by
  obtain ⟨step, hstep, hflushed⟩ := h
  exact ⟨step, List.mem_append_left _ hstep, hflushed⟩

theorem settled_next {w : World PeerId} {i : Input PeerId} (hw : w.Settled F)
    (hspares : w.SparesQueue F i) : (w.next F S i).Settled F := by
  have hstep := eventLoop_sendStep F S w.loop i
  intro peer entry hentry
  simp only [queuedFor, next, List.filterMap_append, List.mem_append, List.mem_filterMap,
    List.mem_singleton] at hentry
  simp only [next_loop, next_failedIds, List.mem_append]
  rcases hentry with ⟨step, hmem, hentry⟩ | ⟨step, rfl, hentry⟩
  · rcases hw peer entry (List.mem_filterMap.mpr ⟨step, hmem, hentry⟩) with hq | hflushed | hf
    · rcases hstep.keeps F S hspares hq with hq | hflushed | hf
      · exact .inl hq
      · exact .inr (.inl ⟨_, List.mem_append_right _ (List.mem_singleton_self _), hflushed⟩)
      · exact .inr (.inr (.inr hf))
    · exact .inr (.inl (flushed_next F S hflushed i))
    · exact .inr (.inr (.inl hf))
  · rcases hstep.queues F S hentry with hq | hf
    · exact .inl hq
    · exact .inr (.inr (.inr hf))

/-- In a run in which no event ends the last dial of a peer with queued messages and no failed
dial removes a queue, queued messages have a dial in flight; once a peer has none, everything
queued for it has been flushed to it or reported. -/
theorem dialling_of_sparesLastDial {inputs : List (Input PeerId)}
    (h : (machine F S).Along
      (fun w i => w.Legal i ∧ w.SparesLastDial i ∧ w.SparesQueue F i) init inputs)
    (peer : PeerId) :
    let w := (machine F S).run inputs
    (w.loop.pendingSends.queue peer ≠ [] → ∃ c, w.swarm.dials c = some (.send peer)) ∧
    ((∀ c, w.swarm.dials c ≠ some (.send peer)) →
      w.loop.pendingSends.queue peer = [] ∧
      ∀ entry ∈ w.queuedFor F peer, w.Flushed peer entry ∨ entry.1 ∈ w.failedIds) := by
  have hdialling : ((machine F S).run inputs).Dialling :=
    h.invariant (P := Dialling) (fun _ hqueue => absurd rfl hqueue)
      fun _ _ hw hi => dialling_next F S hw hi.1 hi.2.1
  have hsettled : ((machine F S).run inputs).Settled F :=
    h.invariant (P := Settled F) (fun _ _ hentry => by simp [queuedFor, init] at hentry)
      fun _ _ hw hi => settled_next F S hw hi.2.2
  refine ⟨hdialling peer, ?_⟩
  intro hnone
  have hempty : ((machine F S).run inputs).loop.pendingSends.queue peer = [] := by
    by_contra hqueue
    obtain ⟨c, hc⟩ := hdialling peer hqueue
    exact hnone c hc
  refine ⟨hempty, ?_⟩
  intro entry hentry
  have hcase := hsettled peer entry hentry
  rw [hempty] at hcase
  simpa using hcase

/-- The dial of a send fails later on, and the loop ignores the event. -/
def failedDial : List (Input String) :=
  dialledSend ++ [.event (.outgoingConnectionError 0 (some "177")) Answers.refused]

/-- The second dial of the run finds the first one in flight when it fails. -/
theorem dialling_flushedSends :
    let w := (machine Formats.plain json).run flushedSends
    ((w.loop.pendingSends.queue "177" ≠ [] → ∃ c, w.swarm.dials c = some (.send "177")) ∧
      ((∀ c, w.swarm.dials c ≠ some (.send "177")) →
        w.loop.pendingSends.queue "177" = [] ∧
        ∀ entry ∈ w.queuedFor Formats.plain "177",
          w.Flushed "177" entry ∨ entry.1 ∈ w.failedIds)) ∧
    w.queuedFor Formats.plain "177" = [(⟨1⟩, .ping "a"), (⟨3⟩, .ping "c")] ∧
    ∀ c, w.swarm.dials c = none := by
  have hrun : (machine Formats.plain json).Along
      (fun w i => w.Legal i ∧ w.SparesLastDial i ∧ w.SparesQueue Formats.plain i)
      init flushedSends := by
    refine ⟨⟨by decide, by simp [SparesLastDial, Input.ended?], trivial⟩,
      ⟨by decide, by simp [SparesLastDial, Input.ended?], rfl⟩,
      ⟨by decide, by simp [SparesLastDial, Input.ended?], trivial⟩,
      ⟨by decide, ?_, trivial⟩, ⟨by decide, ?_, trivial⟩, trivial⟩
    · rintro c peer hended hdial -
      obtain rfl : 1 = c := Option.some.inj hended
      obtain rfl : "177" = peer := Dialler.send.inj (Option.some.inj hdial)
      exact .inr ⟨0, by decide, rfl⟩
    · rintro c peer hended hdial hother
      obtain rfl : 0 = c := Option.some.inj hended
      obtain rfl : "177" = peer := Dialler.send.inj (Option.some.inj hdial)
      exact absurd rfl hother
  refine ⟨dialling_of_sparesLastDial Formats.plain json hrun "177", by decide, ?_⟩
  intro c
  have hdials : ((machine Formats.plain json).run flushedSends).swarm.dials =
      Function.update (Function.update (Function.update (Function.update (fun _ => none)
        0 (some (.send "177"))) 1 (some (.send "177"))) 1 none) 0 none := rfl
  simp only [hdials, Function.update_apply]
  split_ifs <;> rfl

/-- The message stays queued without a dial in flight, and is not reported. -/
theorem stranded_failedDial :
    let w := (machine Formats.plain json).run failedDial
    (machine Formats.plain json).Along
      (fun w i => w.Legal i ∧ w.TruthfulTest Formats.plain i) init failedDial ∧
    w.loop.pendingSends.queue "177" = [(⟨1⟩, .ping "a")] ∧
    (∀ c, w.swarm.dials c = none) ∧ w.failedIds = [] := by
  refine ⟨by decide, by decide, ?_, by decide⟩
  intro c
  have hdials : ((machine Formats.plain json).run failedDial).swarm.dials =
      Function.update (Function.update (fun _ => none) 0 (some (.send "177"))) 0 none := rfl
  simp [hdials, Function.update_apply]

end World
end MeerkatNet.V2
