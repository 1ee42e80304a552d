import MeerkatNet.V2.NodeSteps
import MeerkatNet.V2.PendingSends

/-!
# Message ids

Every id is handed to `send_to_peer` at most once and reported at most once. The
invariant says where an id can be: in one place of one queue, or among the outcomes,
never in both. The ids come from the counter of the actor, which does not repeat
below 2⁶⁴ sends.
-/

namespace MeerkatNet.V2

open Libp2p KeyedQueues Runs

variable {PeerId : Type}

/-- No id waits twice, neither in one queue nor in two. -/
def DistinctIds (pending : QueueMap PeerId (MessageId × MeerkatMessage)) : Prop :=
  (∀ peer, ((pending.queue peer).map Prod.fst).Nodup) ∧
  ∀ peer peer' id, id ∈ (pending.queue peer).map Prod.fst →
    id ∈ (pending.queue peer').map Prod.fst → peer = peer'

/-- What an iteration may do with ids, given the ids that wait and the one it takes: the ids it
hands off and reports are among these, and none of them waits any longer. -/
structure MovesIds (pending pending' : QueueMap PeerId (MessageId × MeerkatMessage))
    (taken : Option MessageId) (handed : List MessageId)
    (failed : List (MessageId × SendError)) : Prop where
  handed_source : ∀ id ∈ handed, QueuedIn pending id ∨ taken = some id
  handed_nodup : handed.Nodup
  failed_source : ∀ f ∈ failed, QueuedIn pending f.1 ∨ taken = some f.1
  failed_nodup : (failed.map Prod.fst).Nodup
  before : ∀ f ∈ failed, f.2.BeforeHandOff → f.1 ∉ handed
  queued : ∀ id, QueuedIn pending' id →
    (QueuedIn pending id ∨ taken = some id) ∧ id ∉ handed ∧ id ∉ failed.map Prod.fst
  distinct : DistinctIds pending'

theorem DistinctIds.remove [DecidableEq PeerId]
    {pending : QueueMap PeerId (MessageId × MeerkatMessage)} (h : DistinctIds pending)
    (peer : PeerId) : DistinctIds (pending.remove peer) := by
  have hsub : ∀ p, (((pending.remove peer).queue p).map Prod.fst).Sublist
      ((pending.queue p).map Prod.fst) := by
    intro p
    by_cases hp : p = peer
    · simp [hp]
    · rw [QueueMap.queue_remove_ne _ hp]
  constructor
  · intro p
    exact (h.1 p).sublist (hsub p)
  · intro p p' id hid hid'
    exact h.2 p p' id ((hsub p).subset hid) ((hsub p').subset hid')

theorem QueuedIn.of_remove [DecidableEq PeerId]
    {pending : QueueMap PeerId (MessageId × MeerkatMessage)} {peer : PeerId} {id : MessageId}
    (h : QueuedIn (pending.remove peer) id) :
    ∃ p ≠ peer, id ∈ (pending.queue p).map Prod.fst := by
  obtain ⟨p, hp⟩ := h
  obtain ⟨entry, hentry, rfl⟩ := List.mem_map.mp hp
  obtain ⟨hne, hentry⟩ := QueueMap.mem_queue_remove.mp hentry
  exact ⟨p, hne, List.mem_map_of_mem hentry⟩

theorem DistinctIds.push [DecidableEq PeerId]
    {pending : QueueMap PeerId (MessageId × MeerkatMessage)} (h : DistinctIds pending)
    (peer : PeerId) {entry : MessageId × MeerkatMessage} (hfresh : ¬ QueuedIn pending entry.1) :
    DistinctIds (pending.push peer entry) := by
  have hmem : ∀ p id, id ∈ ((pending.push peer entry).queue p).map Prod.fst →
      id ∈ (pending.queue p).map Prod.fst ∨ (p = peer ∧ id = entry.1) := by
    intro p id hid
    obtain ⟨e, he, rfl⟩ := List.mem_map.mp hid
    rcases QueueMap.mem_queue_push.mp he with he | ⟨hp, rfl⟩
    · exact .inl (List.mem_map_of_mem he)
    · exact .inr ⟨hp, rfl⟩
  constructor
  · intro p
    by_cases hp : p = peer
    · subst p
      rw [QueueMap.queue_push_self, List.map_append, List.nodup_append]
      refine ⟨h.1 peer, List.nodup_singleton _, ?_⟩
      rintro id hid id' hid' rfl
      rw [List.map_singleton, List.mem_singleton] at hid'
      exact hfresh ⟨peer, hid' ▸ hid⟩
    · rw [QueueMap.queue_push_ne _ _ hp]
      exact h.1 p
  · intro p p' id hid hid'
    rcases hmem p id hid with hold | ⟨rfl, rfl⟩ <;>
      rcases hmem p' _ hid' with hold' | ⟨rfl, hnew⟩
    · exact h.2 p p' id hold hold'
    · exact absurd ⟨p, hnew ▸ hold⟩ hfresh
    · exact absurd ⟨p', hold'⟩ hfresh
    · rfl

/-- An iteration that only touches the id it takes. -/
theorem MovesIds.of_taken {pending pending' : QueueMap PeerId (MessageId × MeerkatMessage)}
    {id : MessageId} {handed : List MessageId} {failed : List (MessageId × SendError)}
    (hfresh : ¬ QueuedIn pending id) (hhanded : handed = [] ∨ handed = [id])
    (hfailed : failed = [] ∨ ∃ e, failed = [(id, e)] ∧ (e.BeforeHandOff → handed = []))
    (hqueued : ∀ id', QueuedIn pending' id' →
      QueuedIn pending id' ∨ (id' = id ∧ handed = [] ∧ failed = []))
    (hdistinct : DistinctIds pending') : MovesIds pending pending' (some id) handed failed := by
  have hid : ∀ id' ∈ handed, id' = id := by rcases hhanded with rfl | rfl <;> simp
  have hid' : ∀ f ∈ failed, f.1 = id := by rcases hfailed with rfl | ⟨e, rfl, -⟩ <;> simp
  refine ⟨fun id' h => .inr (by rw [hid id' h]), ?_, fun f h => .inr (by rw [hid' f h]), ?_, ?_,
    ?_, hdistinct⟩
  · rcases hhanded with rfl | rfl <;> simp
  · rcases hfailed with rfl | ⟨e, rfl, -⟩ <;> simp
  · rcases hfailed with rfl | ⟨e, rfl, he⟩
    · simp
    · intro f hf hbefore
      obtain rfl := List.mem_singleton.mp hf
      simp [he hbefore]
  · intro id' hq
    rcases hqueued id' hq with hold | ⟨rfl, rfl, rfl⟩
    · have hne : id' ≠ id := by
        rintro rfl
        exact hfresh hold
      refine ⟨.inl hold, fun h => hne (hid id' h), ?_⟩
      intro h
      obtain ⟨f, hf, rfl⟩ := List.mem_map.mp h
      exact hne (hid' f hf)
    · exact ⟨.inr rfl, by simp, by simp⟩

variable [DecidableEq PeerId] (F : Formats PeerId) (S : Serde)

/-- An iteration that takes an id that does not wait yet moves ids as it may. -/
theorem SendStep.movesIds {pending pending' : QueueMap PeerId (MessageId × MeerkatMessage)}
    {i : Input PeerId} {es : List (Effect PeerId)} (hstep : SendStep F S pending i pending' es)
    (hdistinct : DistinctIds pending)
    (hfresh : ∀ id, i.taken? = some id → ¬ QueuedIn pending id) :
    MovesIds pending pending' i.taken? ((es.filterMap Effect.handOff?).map HandOff.msgId)
      (es.filterMap Effect.failure?) := by
  cases hstep with
  | rejected hdest herror =>
    exact .of_taken (hfresh _ rfl) (.inl rfl) (.inr ⟨_, rfl, fun _ => rfl⟩) (fun _ => .inl)
      hdistinct
  | @direct id addr msg answers peer =>
    have hhanded : ((sendToPeer S (answers.stream 0) peer id msg).filterMap
        Effect.handOff?).map HandOff.msgId = [id] := by simp [map_msgId]
    refine .of_taken (hfresh _ rfl) (.inr hhanded) ?_ (fun _ => .inl) hdistinct
    rcases sendToPeer_failures S (answers.stream 0) peer id msg with h | ⟨e, he, h⟩
    · exact .inl h
    · exact .inr ⟨e, h, fun hbefore => absurd hbefore he⟩
  | @queued id addr msg answers peer =>
    refine .of_taken (hfresh _ rfl) (.inl rfl) (.inl rfl) (?_)
      (hdistinct.push peer (hfresh _ rfl))
    intro id' hq
    obtain ⟨p, hp⟩ := hq
    obtain ⟨entry, hentry, rfl⟩ := List.mem_map.mp hp
    rcases QueueMap.mem_queue_push.mp hentry with hold | ⟨-, rfl⟩
    · exact .inl ⟨p, List.mem_map_of_mem hold⟩
    · exact .inr ⟨rfl, rfl, rfl⟩
  | @dialFailed id addr msg answers peer =>
    refine .of_taken (hfresh _ rfl) (.inl rfl) (.inr ⟨_, rfl, fun _ => rfl⟩) (?_)
      (hdistinct.remove peer)
    intro id' hq
    obtain ⟨p, -, hp⟩ := hq.of_remove
    exact .inl ⟨p, hp⟩
  | @flushed peer c answers es hes =>
    obtain ⟨hsub, hafter⟩ := flush_failures S answers.stream peer (pending.queue peer)
    have hhanded : ((es ++ flush S answers.stream peer (pending.queue peer)).filterMap
        Effect.handOff?).map HandOff.msgId = (pending.queue peer).map Prod.fst := by
      simp [handOffs_of_quiet hes, map_msgId]
    have hfailed : (es ++ flush S answers.stream peer (pending.queue peer)).filterMap
        Effect.failure? =
        (flush S answers.stream peer (pending.queue peer)).filterMap Effect.failure? := by
      simp [failures_of_quiet hes]
    rw [hhanded, hfailed]
    refine ⟨fun id hid => .inl ⟨peer, hid⟩, hdistinct.1 peer,
      fun f hf => .inl ⟨peer, hsub.subset (List.mem_map_of_mem hf)⟩,
      (hdistinct.1 peer).sublist hsub, fun f hf hbefore => absurd hbefore (hafter f hf),
      ?_, hdistinct.remove peer⟩
    intro id hq
    obtain ⟨p, hne, hp⟩ := hq.of_remove
    have hout : id ∉ (pending.queue peer).map Prod.fst := by
      intro h
      exact hne (hdistinct.2 p peer id hp h)
    refine ⟨.inl ⟨p, hp⟩, hout, ?_⟩
    intro h
    exact hout (hsub.subset h)
  | quiet hi hother hes =>
    rw [handOffs_of_quiet hes, failures_of_quiet hes]
    exact ⟨by simp, by simp, by simp, by simp, by simp, fun id hq => ⟨.inl hq, by simp, by simp⟩,
      hdistinct⟩

namespace World

/-- Where ids can be: waiting once, handed off at most once, reported at most once, and never
handed off or reported while they wait or after a failure from before the hand-off. -/
structure OneOutcome (w : World PeerId) : Prop where
  distinct : DistinctIds w.loop.pendingSends
  queued : ∀ id, QueuedIn w.loop.pendingSends id →
    id ∈ w.taken ∧ id ∉ w.handedIds ∧ id ∉ w.failedIds
  handed_taken : ∀ id ∈ w.handedIds, id ∈ w.taken
  handed_nodup : w.handedIds.Nodup
  failed_taken : ∀ id ∈ w.failedIds, id ∈ w.taken
  failed_nodup : w.failedIds.Nodup
  before : ∀ f ∈ w.failures, f.2.BeforeHandOff → f.1 ∉ w.handedIds

omit [DecidableEq PeerId] in
theorem oneOutcome_init : (init : World PeerId).OneOutcome where
  distinct := ⟨fun _ => List.nodup_nil, fun _ _ _ h => by simp [init, LoopState.init] at h⟩
  queued _ h := by
    obtain ⟨p, hp⟩ := h
    simp [init, LoopState.init] at hp
  handed_taken _ h := by simp [handedIds, handOffs, effects, init] at h
  handed_nodup := List.nodup_nil
  failed_taken _ h := by simp [failedIds, failures, effects, init] at h
  failed_nodup := List.nodup_nil
  before _ h := by simp [failures, effects, init] at h

theorem oneOutcome_next {w : World PeerId} {i : Input PeerId} (hw : w.OneOutcome)
    (hfresh : ∀ id, i.taken? = some id → id ∉ w.taken) : (w.next F S i).OneOutcome := by
  have hmoves := (eventLoop_sendStep F S w.loop i).movesIds F S hw.distinct
    fun id hid hq => hfresh id hid (hw.queued id hq).1
  have htaken := next_taken F S w i
  have hhanded := next_handedIds F S w i
  have hfailures := next_failures F S w i
  have hfailed := next_failedIds F S w i
  generalize ((eventLoop F S w.loop i).2.filterMap Effect.handOff?).map HandOff.msgId = handed
    at hmoves hhanded
  generalize (eventLoop F S w.loop i).2.filterMap Effect.failure? = failed
    at hmoves hfailures hfailed
  -- an id that moves has no outcome yet
  have hnew : ∀ id, QueuedIn w.loop.pendingSends id ∨ i.taken? = some id →
      (id ∈ w.taken ++ i.taken?.toList) ∧ id ∉ w.handedIds ∧ id ∉ w.failedIds := by
    rintro id (hq | hid)
    · obtain ⟨h, h'⟩ := hw.queued id hq
      exact ⟨List.mem_append_left _ h, h'⟩
    · refine ⟨by simp [hid], ?_, ?_⟩
      · intro h
        exact hfresh id hid (hw.handed_taken id h)
      · intro h
        exact hfresh id hid (hw.failed_taken id h)
  constructor
  · exact hmoves.distinct
  · intro id hq
    obtain ⟨hsource, hout, hout'⟩ := hmoves.queued id hq
    obtain ⟨h, h', h''⟩ := hnew id hsource
    rw [htaken, hhanded, hfailed]
    refine ⟨h, by simp [h', hout], ?_⟩
    intro hmem
    exact (List.mem_append.mp hmem).elim h'' hout'
  · intro id hid
    rw [hhanded, List.mem_append] at hid
    rw [htaken]
    rcases hid with hid | hid
    · exact List.mem_append_left _ (hw.handed_taken id hid)
    · exact (hnew id (hmoves.handed_source id hid)).1
  · rw [hhanded, List.nodup_append]
    refine ⟨hw.handed_nodup, hmoves.handed_nodup, ?_⟩
    rintro id hid id' hid' rfl
    exact (hnew id (hmoves.handed_source id hid')).2.1 hid
  · intro id hid
    rw [hfailed, List.mem_append] at hid
    rw [htaken]
    rcases hid with hid | hid
    · exact List.mem_append_left _ (hw.failed_taken id hid)
    · obtain ⟨f, hf, rfl⟩ := List.mem_map.mp hid
      exact (hnew f.1 (hmoves.failed_source f hf)).1
  · rw [hfailed, List.nodup_append]
    refine ⟨hw.failed_nodup, hmoves.failed_nodup, ?_⟩
    rintro id hid id' hid' rfl
    obtain ⟨f, hf, rfl⟩ := List.mem_map.mp hid'
    exact (hnew f.1 (hmoves.failed_source f hf)).2.2 hid
  · intro f hf hbefore
    rw [hfailures, List.mem_append] at hf
    rw [hhanded, List.mem_append]
    rcases hf with hf | hf
    · rintro (h | h)
      · exact hw.before f hf hbefore h
      · exact (hnew f.1 (hmoves.handed_source _ h)).2.2 (List.mem_map_of_mem hf)
    · rintro (h | h)
      · exact (hnew f.1 (hmoves.failed_source f hf)).2.1 h
      · exact hmoves.before f hf hbefore h

end World

/-! ### The ids of a node -/

def SwarmCommand.sendId? : SwarmCommand → Option MessageId
  | .send id _ _ => some id
  | _ => none

omit [DecidableEq PeerId] in
@[simp] theorem taken?_command (cmd : SwarmCommand) (answers : Answers) :
    (.command cmd answers : Input PeerId).taken? = cmd.sendId? := by
  cases cmd <;> rfl

theorem SwarmCommand.sendId?_of_request? {cmd : SwarmCommand} {tx : ReplyTx}
    (h : cmd.request? = some tx) : cmd.sendId? = none := by
  cases cmd <;> simp_all [SwarmCommand.request?, SwarmCommand.sendId?]

/-- The id and the error of a `SendFailed` event. -/
def NetworkEvent.failure? : NetworkEvent → Option (MessageId × SendError)
  | .sendFailed msgId error => some (msgId, error)
  | _ => none

namespace Node

def issuedIds (n : Node PeerId) : List MessageId := n.issued.map Issued.msgId

/-- The ids of the sends in the command channel. -/
def channelIds (n : Node PeerId) : List MessageId := n.commandRx.filterMap SwarmCommand.sendId?

/-- The `SendFailed` events that the application can receive. -/
def sendFailures (n : Node PeerId) : List (MessageId × SendError) :=
  n.posted.filterMap fun p => p.event.failure?

/-- Ids are numbered from one, and go through the channel to the loop in that order. -/
structure Numbered (n : Node PeerId) : Prop where
  ids : n.issuedIds = (List.range n.issued.length).map fun k => ⟨UInt64.ofNat (k + 1)⟩
  counter : n.actor.nextMessageId = UInt64.ofNat (n.issued.length + 1)
  channel : n.running = true → n.world.taken ++ n.channelIds = n.issuedIds
  taken : n.world.taken <+: n.issuedIds

omit [DecidableEq PeerId] in
theorem numbered_init (me : PeerId) (nodeType : NodeType) : (init me nodeType).Numbered :=
  ⟨rfl, rfl, fun _ => rfl, List.prefix_rfl⟩

theorem numbered_next {n : Node PeerId} (hn : n.Numbered) (i : NodeInput PeerId) :
    (n.next F S i).Numbered := by
  have hstep := next_nodeStep F S n i
  generalize n.next F S i = n' at hstep
  cases hstep with
  | issued hwaiting htranslate =>
    refine ⟨?_, ?_, ?_, ?_⟩
    · have hids := hn.ids
      simp only [issuedIds] at hids
      simp [issuedIds, hids, List.range_succ, hn.counter]
    · simp only [hn.counter, List.length_append, List.length_singleton]
      exact (UInt64.ofNat_add _ 1).symm
    · intro hrunning
      have hchannel := hn.channel hrunning
      simp only [channelIds, issuedIds] at hchannel
      have hrx : n.running = true := hrunning
      simp [channelIds, issuedIds, queued, hrx, ← hchannel, SwarmCommand.sendId?]
    · exact hn.taken.trans (by simp [issuedIds])
  | requested hwaiting hc =>
    refine ⟨hn.ids, hn.counter, ?_, hn.taken⟩
    intro hrunning
    have hrx : n.running = true := hrunning
    have hchannel := hn.channel hrx
    simpa [channelIds, issuedIds, queued, hrx, SwarmCommand.sendId?_of_request? hc] using hchannel
  | @taken cmd rest answers hrunning hrx =>
    have hchannel := hn.channel hrunning
    have htaken : (n.world.next F S (.command cmd answers)).taken ++
        rest.filterMap SwarmCommand.sendId? = n.issuedIds := by
      rw [← hchannel, channelIds, hrx, World.next_taken, taken?_command]
      cases h : cmd.sendId? <;> simp [h]
    exact ⟨hn.ids, hn.counter, fun _ => htaken, ⟨_, htaken⟩⟩
  | @iterated ev answers hrunning =>
    have htaken : (n.world.next F S (.event ev answers)).taken = n.world.taken := by
      simp [Input.taken?]
    refine ⟨hn.ids, hn.counter, ?_, ?_⟩
    · intro hr
      rw [iterate_world, htaken]
      exact hn.channel hr
    · rw [iterate_world, htaken]
      exact hn.taken
  | stopped => exact ⟨hn.ids, hn.counter, fun h => by simp at h, hn.taken⟩
  | _ => exact ⟨hn.ids, hn.counter, hn.channel, hn.taken⟩

omit [DecidableEq PeerId] in
theorem Numbered.nodup {n : Node PeerId} (hn : n.Numbered) (hcount : n.issued.length < 2 ^ 64) :
    n.issuedIds.Nodup := by
  rw [hn.ids]
  refine List.Nodup.map_on (?_) List.nodup_range
  intro j hj k hk h
  rw [List.mem_range] at hj hk
  have hval := congrArg (fun id : MessageId => id.val.toNat) h
  simp only [UInt64.toNat_ofNat'] at hval
  rw [Nat.mod_eq_of_lt (by omega), Nat.mod_eq_of_lt (by omega)] at hval
  omega

theorem issued_length_le (n : Node PeerId) (i : NodeInput PeerId) :
    n.issued.length ≤ (n.next F S i).issued.length := by
  have hstep := next_nodeStep F S n i
  generalize n.next F S i = n' at hstep
  cases hstep with
  | issued => simp
  | _ => exact le_rfl

/-- The events that the loop posts carry the failures of its iterations, and a reader posts
none. -/
theorem sendFailures_next {n : Node PeerId} (hn : n.sendFailures = n.world.failures)
    (i : NodeInput PeerId) : (n.next F S i).sendFailures = (n.next F S i).world.failures := by
  have hiterate : ∀ j, (n.iterate F S j).sendFailures = (n.iterate F S j).world.failures := by
    intro j
    have hevents : ∀ es : List (Effect PeerId),
        (es.filterMap Effect.event?).filterMap NetworkEvent.failure? =
          es.filterMap Effect.failure? := by
      intro es
      rw [List.filterMap_filterMap]
      congr 1
      funext e
      rcases e with e | _ | _ | _ | _ | _ | _
      · cases e <;> rfl
      all_goals rfl
    have hbefore := hn
    simp only [sendFailures] at hbefore
    simp [sendFailures, iterate, hbefore, List.filterMap_map, hevents]
  have hstep := next_nodeStep F S n i
  generalize n.next F S i = n' at hstep
  cases hstep with
  | taken => exact hiterate _
  | iterated => exact hiterate _
  | posted => simpa [sendFailures, NetworkEvent.failure?] using hn
  | _ => exact hn

theorem oneOutcome_next {n : Node PeerId} (hn : n.Numbered) (hw : n.world.OneOutcome)
    {i : NodeInput PeerId} (hcount : (n.next F S i).issued.length < 2 ^ 64) :
    (n.next F S i).world.OneOutcome := by
  have hnext := numbered_next F S hn i
  have hnodup := (hnext.nodup hcount).sublist hnext.taken.sublist
  rw [next_world] at hnodup ⊢
  cases hj : n.iteration? i with
  | none => exact hw
  | some j =>
    apply World.oneOutcome_next F S hw
    intro id hid hmem
    simp only [hj, World.next_taken, hid, Option.toList_some, List.nodup_append] at hnodup
    exact hnodup.2.2 id hmem id (List.mem_singleton_self id) rfl

/-- In every run with fewer than 2⁶⁴ sends, a `SendFailed` event carries an id that was issued,
no id is reported twice or handed to `send_to_peer` twice, and an id that failed before the
hand-off is never handed over. -/
theorem atMostOneOutcome {me : PeerId} {nodeType : NodeType} (inputs : List (NodeInput PeerId))
    (hcount : ((machine F S me nodeType).run inputs).issued.length < 2 ^ 64) :
    let n := (machine F S me nodeType).run inputs
    (∀ f ∈ n.sendFailures, f.1 ∈ n.issuedIds) ∧ (n.sendFailures.map Prod.fst).Nodup ∧
    n.world.handedIds.Nodup ∧
    ∀ f ∈ n.sendFailures, f.2.BeforeHandOff → f.1 ∉ n.world.handedIds := by
  have hrun : (machine F S me nodeType).Along (fun _ _ => True) (init me nodeType) inputs :=
    Machine.along_of_forall _ (fun _ _ => trivial) _ inputs
  have hinv := hrun.invariant (P := fun n => n.Numbered ∧ n.sendFailures = n.world.failures ∧
      (n.issued.length < 2 ^ 64 → n.world.OneOutcome))
    ⟨numbered_init me nodeType, rfl, fun _ => World.oneOutcome_init⟩
    fun n i hn _ => ⟨numbered_next F S hn.1 i, sendFailures_next F S hn.2.1 i, fun hlt =>
      oneOutcome_next F S hn.1 (hn.2.2 ((issued_length_le F S n i).trans_lt hlt)) hlt⟩
  obtain ⟨hnumbered, hfailures, honce⟩ := hinv
  have hw := honce hcount
  simp only [hfailures]
  refine ⟨?_, hw.failed_nodup, hw.handed_nodup, hw.before⟩
  intro f hf
  apply hnumbered.taken.subset
  exact hw.failed_taken f.1 (List.mem_map_of_mem hf)

/-- A send whose address does not parse. -/
def unparsableSend : List (NodeInput String) :=
  [.command (.sendMessage ⟨"177"⟩ (.ping "a")), .take Answers.refused]

/-- Sends to a server that is dialled, to another one whose dial fails at once, and to the first
again. The dial connects, the stream of the second message it flushes is refused, and a last
send finds no peer id. -/
def mixedSends : List (NodeInput String) :=
  [.command (.sendMessage sampleServer (.ping "a")), .take { Answers.refused with dial := .ok 0 },
    .command (.sendMessage ⟨"/p2p/178"⟩ (.ping "b")),
    .command (.sendMessage sampleServer (.ping "c")), .take Answers.refused,
    .take { Answers.refused with dial := .ok 1 },
    .event (.connectionEstablished "177" 0) { Answers.refused with
      stream := fun n => if n = 0 then .opened none "" (.ok ()) else .refused "reset" },
    .command (.sendMessage ⟨"/ip4/10.0.0.2/tcp/9000"⟩ (.ping "d")), .take Answers.refused]

theorem atMostOneOutcome_mixedSends :
    let n := (machine Formats.plain json "176" .server).run mixedSends
    ((∀ f ∈ n.sendFailures, f.1 ∈ n.issuedIds) ∧ (n.sendFailures.map Prod.fst).Nodup ∧
      n.world.handedIds.Nodup ∧
      ∀ f ∈ n.sendFailures, f.2.BeforeHandOff → f.1 ∉ n.world.handedIds) ∧
    n.issuedIds = [⟨1⟩, ⟨2⟩, ⟨3⟩, ⟨4⟩] ∧ n.world.handedIds = [⟨1⟩, ⟨3⟩] ∧
    n.sendFailures.map Prod.fst = [⟨2⟩, ⟨3⟩, ⟨4⟩] :=
  ⟨atMostOneOutcome Formats.plain json mixedSends (by decide), by decide, by decide, by decide⟩

end Node
end MeerkatNet.V2
