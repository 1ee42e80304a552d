import MeerkatNet.V2.FailedAddresses
import MeerkatNet.V2.Network
import MeerkatNet.V2.SendOrder

/-!
# From a command to an event

Whatever is handed off was issued by a command to that node, with that id and message,
for an address that leads to that peer. In a network, every message that a node
reports from another one goes back to a `SendMessage` command of that node, and no two
reports anywhere go back to the same command.
-/

namespace MeerkatNet.V2

open Libp2p KeyedQueues Runs

variable {PeerId : Type} [DecidableEq PeerId] {F : Formats PeerId} {S : Serde}

/-- What holds of all that waits and of a send that is taken holds of all that still waits and of
all that is handed off. -/
theorem SendStep.sourced {P : PeerId → MessageId × MeerkatMessage → Prop}
    {pending pending' : QueueMap PeerId (MessageId × MeerkatMessage)} {i : Input PeerId}
    {es : List (Effect PeerId)} (hstep : SendStep F S pending i pending' es)
    (hqueued : ∀ peer, ∀ entry ∈ pending.queue peer, P peer entry)
    (htaken : ∀ id addr msg answers peer, i = .command (.send id addr msg) answers →
      destination F addr = some peer → P peer (id, msg)) :
    (∀ peer, ∀ entry ∈ pending'.queue peer, P peer entry) ∧
      ∀ h ∈ es.filterMap Effect.handOff?, P h.peer h.entry := by
  cases hstep with
  | rejected => exact ⟨hqueued, by simp [Effect.handOff?]⟩
  | @direct id addr msg answers peer hdest =>
    refine ⟨hqueued, ?_⟩
    intro h hh
    have hentry : h.entry = (id, msg) := by
      have hmem := List.mem_map_of_mem (f := HandOff.entry) hh
      rwa [sendToPeer_entries, List.mem_singleton] at hmem
    rw [sendToPeer_peer hh, hentry]
    exact htaken id addr msg answers peer rfl hdest
  | @queued id addr msg answers peer multiaddr c hdest =>
    refine ⟨?_, by simp [Effect.handOff?]⟩
    intro p entry hentry
    rcases QueueMap.mem_queue_push.mp hentry with hold | ⟨rfl, rfl⟩
    · exact hqueued p entry hold
    · exact htaken id addr msg answers p rfl hdest
  | dialFailed =>
    refine ⟨?_, by simp [Effect.handOff?]⟩
    intro p entry hentry
    exact hqueued p entry (QueueMap.mem_queue_remove.mp hentry).2
  | @flushed peer c answers es hes =>
    refine ⟨?_, ?_⟩
    · intro p entry hentry
      exact hqueued p entry (QueueMap.mem_queue_remove.mp hentry).2
    · intro h hh
      rw [List.filterMap_append, handOffs_of_quiet hes, List.nil_append] at hh
      have hmem := List.mem_map_of_mem (f := HandOff.entry) hh
      rw [flush_entries] at hmem
      rw [flush_peer hh]
      exact hqueued peer h.entry hmem
  | quiet hi hother hes =>
    refine ⟨hqueued, ?_⟩
    rw [handOffs_of_quiet hes]
    simp

namespace Node

variable (F)

/-- Some command issued this message under this id, for an address that leads to the peer. -/
def IssuedTo (nodeType : NodeType) (n : Node PeerId) (peer : PeerId)
    (entry : MessageId × MeerkatMessage) : Prop :=
  ∃ issue ∈ n.issued, issue.msgId = entry.1 ∧ issue.msg = entry.2 ∧
    recipient F nodeType issue.addr = some peer

/-- Everything on its way out of a node was issued. -/
structure Sourced (nodeType : NodeType) (n : Node PeerId) : Prop where
  typed : n.actor.nodeType = nodeType
  channel : ∀ id addr msg, .send id addr msg ∈ n.commandRx → ∃ issue ∈ n.issued,
    issue.msgId = id ∧ issue.msg = msg ∧ translateAddress nodeType issue.addr = .ok addr
  queued : ∀ peer, ∀ entry ∈ n.world.loop.pendingSends.queue peer,
    n.IssuedTo F nodeType peer entry
  handed : ∀ h ∈ n.world.handOffs, n.IssuedTo F nodeType h.peer h.entry

omit [DecidableEq PeerId] in
theorem sourced_init (me : PeerId) (nodeType : NodeType) :
    (init me nodeType).Sourced F nodeType where
  typed := rfl
  channel _ _ _ h := by simp [init] at h
  queued _ _ h := by simp [init, World.init, LoopState.init] at h
  handed _ h := by simp [init, World.init, World.handOffs, World.effects] at h

variable {F}

/-- An iteration that takes what was issued hands off what was issued. -/
theorem Sourced.iterate {nodeType : NodeType} {n : Node PeerId} (hn : n.Sourced F nodeType)
    {j : Input PeerId}
    (hj : ∀ id addr msg answers, j = .command (.send id addr msg) answers →
      .send id addr msg ∈ n.commandRx) :
    (∀ peer, ∀ entry ∈ (n.world.next F S j).loop.pendingSends.queue peer,
      n.IssuedTo F nodeType peer entry) ∧
    ∀ h ∈ (n.world.next F S j).handOffs, n.IssuedTo F nodeType h.peer h.entry := by
  obtain ⟨hqueued, hhanded⟩ := (eventLoop_sendStep F S n.world.loop j).sourced hn.queued (by
    intro id addr msg answers peer hcmd hdest
    obtain ⟨issue, hissue, hid, hmsg, htranslate⟩ := hn.channel id addr msg (hj _ _ _ _ hcmd)
    refine ⟨issue, hissue, hid, hmsg, ?_⟩
    simp only [recipient, htranslate, hdest])
  refine ⟨hqueued, ?_⟩
  intro h hh
  rw [World.next_handOffs, List.mem_append] at hh
  exact hh.elim (hn.handed h) (hhanded h)

theorem sourced_next {nodeType : NodeType} {n : Node PeerId} (hn : n.Sourced F nodeType)
    (i : NodeInput PeerId) : (n.next F S i).Sourced F nodeType := by
  have hstep := next_nodeStep F S n i
  generalize n.next F S i = n' at hstep
  cases hstep with
  | @issued addr msg localAddr hwaiting htranslate =>
    have hgrow : ∀ {P : Issued → Prop}, (∃ issue ∈ n.issued, P issue) →
        ∃ issue ∈ n.issued ++ [⟨⟨n.actor.nextMessageId⟩, addr, msg⟩], P issue := by
      rintro P ⟨issue, hmem, hissue⟩
      exact ⟨issue, List.mem_append_left _ hmem, hissue⟩
    refine ⟨hn.typed, ?_, fun peer entry hmem => hgrow (hn.queued peer entry hmem),
      fun h hh => hgrow (hn.handed h hh)⟩
    intro id addr' msg' hmem
    rcases mem_queued hmem with hold | hnew
    · exact hgrow (hn.channel id addr' msg' hold)
    · cases hnew
      refine ⟨_, List.mem_append_right _ (List.mem_singleton_self _), rfl, rfl, ?_⟩
      rw [← hn.typed]
      exact htranslate
  | @requested cmd c hwaiting hc =>
    refine ⟨hn.typed, ?_, hn.queued, hn.handed⟩
    intro id addr msg hmem
    rcases mem_queued hmem with hold | rfl
    · exact hn.channel id addr msg hold
    · cases hc
  | @taken cmd rest answers hrunning hrx =>
    obtain ⟨hqueued, hhanded⟩ := hn.iterate (S := S) (j := .command cmd answers) (by
      intro id addr msg answers' hcmd
      cases hcmd
      exact hrx ▸ List.mem_cons_self)
    refine ⟨hn.typed, ?_, hqueued, hhanded⟩
    intro id addr msg hmem
    exact hn.channel id addr msg (hrx ▸ List.mem_cons_of_mem _ hmem)
  | @iterated ev answers hrunning =>
    obtain ⟨hqueued, hhanded⟩ := hn.iterate (S := S) (j := .event ev answers)
      fun _ _ _ _ h => by cases h
    exact ⟨hn.typed, hn.channel, hqueued, hhanded⟩
  | stopped =>
    exact ⟨hn.typed, fun _ _ _ hmem => (List.not_mem_nil hmem).elim, hn.queued, hn.handed⟩
  | _ => exact ⟨hn.typed, hn.channel, hn.queued, hn.handed⟩

/-- A node that has issued fewer than 2⁶⁴ sends has handed off each of them at most once. -/
def Outgoing (F : Formats PeerId) (nodeType : NodeType) (n : Node PeerId) : Prop :=
  n.Sourced F nodeType ∧ n.Numbered ∧ (n.issued.length < 2 ^ 64 → n.world.OneOutcome)

omit [DecidableEq PeerId] in
theorem outgoing_init (me : PeerId) (nodeType : NodeType) :
    (init me nodeType).Outgoing F nodeType :=
  ⟨sourced_init F me nodeType, numbered_init me nodeType, fun _ => World.oneOutcome_init⟩

theorem outgoing_next {nodeType : NodeType} {n : Node PeerId} (hn : n.Outgoing F nodeType)
    (i : NodeInput PeerId) : (n.next F S i).Outgoing F nodeType := by
  obtain ⟨hsourced, hnumbered, honce⟩ := hn
  refine ⟨sourced_next hsourced i, numbered_next F S hnumbered i, ?_⟩
  intro hlt
  exact oneOutcome_next F S hnumbered (honce ((issued_length_le F S n i).trans_lt hlt)) hlt

end Node

namespace Network

variable {ι : Type} [DecidableEq ι]

theorem outgoing_run {ids : ι → PeerId} {types : ι → NodeType}
    (inputs : List (NetworkInput ι PeerId)) (a : ι) :
    (((machine F S ids types).run inputs).node a).Outgoing F (types a) := by
  apply (machine F S ids types).run_invariant
    (P := fun w => (w.node a).Outgoing F (types a)) (Node.outgoing_init (ids a) (types a))
  intro w i hw
  have hreceive : ∀ k i source,
      ((w.receive k ((w.node k).next F S i) source).node a).Outgoing F (types a) := by
    intro k i source
    by_cases hk : a = k
    · subst hk
      simpa [receive] using Node.outgoing_next hw i
    · simpa [receive, Function.update_of_ne hk] using hw
  cases i <;> exact hreceive _ _ _

/-- The command that a hand-off goes back to, by its id. -/
def command (w : Network ι PeerId) (source : ι × ℕ) : ι × ℕ :=
  (source.1, (w.node source.1).issuedIds.idxOf
    (((w.node source.1).world.handedIds[source.2]?).getD ⟨0⟩))

omit [DecidableEq PeerId] [DecidableEq ι] in
/-- A hand-off goes back to a command with its id and message, for an address of its peer. -/
theorem command_spec {w : Network ι PeerId} {a : ι} {nodeType : NodeType}
    (hnode : (w.node a).Sourced F nodeType) (hnodup : (w.node a).issuedIds.Nodup) {j : ℕ}
    {h : HandOff PeerId} (hh : (w.node a).world.handOffs[j]? = some h) :
    ∃ c issue, w.command (a, j) = (a, c) ∧ (w.node a).issued[c]? = some issue ∧
      issue.msgId = h.msgId ∧ issue.msg = h.msg ∧
        recipient F nodeType issue.addr = some h.peer := by
  obtain ⟨issue, hissue, hid, hmsg, hpeer⟩ := hnode.handed h (List.mem_of_getElem? hh)
  obtain ⟨c, hc⟩ := List.mem_iff_getElem?.mp hissue
  refine ⟨c, issue, ?_, hc, hid, hmsg, hpeer⟩
  obtain ⟨hlt, hget⟩ := List.getElem?_eq_some_iff.mp hc
  have hlt' : c < (w.node a).issuedIds.length := by simpa [Node.issuedIds] using hlt
  have hissued : (w.node a).issuedIds[c] = h.msgId := by
    simp only [Node.issuedIds, List.getElem_map, hget]
    exact hid
  have hindex := hnodup.idxOf_getElem c hlt'
  rw [hissued] at hindex
  have hhanded : (w.node a).world.handedIds[j]? = some h.msgId := by
    simp [World.handedIds, hh]
  simp [command, hhanded, hindex]

variable (F S)

/-- In every run of a network whose nodes issue fewer than 2⁶⁴ sends each, every message that a
node reports from another one was given to that one in a `SendMessage` command for an address that
leads to the reporting node, and no two reports of all nodes go back to the same command. -/
theorem received_issued (hinverts : S.Inverts) (hrejects : S.RejectsPrefixes) {ids : ι → PeerId}
    (hids : Function.Injective ids) {types : ι → NodeType}
    {inputs : List (NetworkInput ι PeerId)}
    (h : (machine F S ids types).Along Transport (init ids types) inputs)
    (hcount : ∀ a, (((machine F S ids types).run inputs).node a).issued.length < 2 ^ 64) :
    let w := (machine F S ids types).run inputs
    ∃ f : ι × ℕ → ι × ℕ,
      (∀ a b i msg, a ≠ b → w.ReceivedAt F a b i msg → ∃ c issue, f (b, i) = (a, c) ∧
        (w.node a).issued[c]? = some issue ∧ issue.msg = msg ∧
        recipient F (types a) issue.addr = some (ids b)) ∧
      Set.InjOn f {x | ∃ a msg, a ≠ x.1 ∧ w.ReceivedAt F a x.1 x.2 msg} := by
  intro w
  have hpeer : w.peerId = ids := peerId_run inputs
  have hsound : ∀ {a b}, a ≠ b → (w.pair a b).Sound F S := fun hab => sound_run hids hab h
  have hnode : ∀ a, (w.node a).Outgoing F (types a) := outgoing_run inputs
  have hnodup : ∀ a, (w.node a).issuedIds.Nodup := fun a => (hnode a).2.1.nodup (hcount a)
  -- each report goes to the hand-off that it was read from, and on to its command
  have hcommand : ∀ {a b i msg}, a ≠ b → w.ReceivedAt F a b i msg → ∃ j sent c issue,
      w.origin (b, i) = some (a, j) ∧ (w.node a).world.handOffs[j]? = some sent ∧
      sent.peer = ids b ∧ sent.msg = msg ∧ w.command (a, j) = (a, c) ∧
      (w.node a).issued[c]? = some issue ∧ issue.msgId = sent.msgId ∧ issue.msg = sent.msg ∧
      recipient F (types a) issue.addr = some sent.peer := by
    intro a b i msg hab hreceived
    obtain ⟨j, sent, horigin, hsent, hto, hmsg⟩ :=
      origin_of_receivedAt hinverts hrejects (hsound hab) hreceived
    obtain ⟨c, issue, hcommand, hissue⟩ := command_spec (hnode a).1 (hnodup a) hsent
    exact ⟨j, sent, c, issue, horigin, hsent, hpeer ▸ hto, hmsg, hcommand, hissue⟩
  refine ⟨fun x => ((w.origin x).map w.command).getD x, ?_, ?_⟩
  · intro a b i msg hab hreceived
    obtain ⟨j, sent, c, issue, horigin, -, hto, hmsg, hcommand, hissue, -, hmsg', hrecipient⟩ :=
      hcommand hab hreceived
    refine ⟨c, issue, ?_, hissue, hmsg'.trans hmsg, hto ▸ hrecipient⟩
    simp [horigin, hcommand]
  · rintro ⟨b, i⟩ ⟨a, msg, hab, hreceived⟩ ⟨b', i'⟩ ⟨a', msg', hab', hreceived'⟩ hsame
    obtain ⟨j, sent, c, issue, horigin, hsent, hto, -, hc, hissue, hid, -⟩ :=
      hcommand hab hreceived
    obtain ⟨j', sent', c', issue', horigin', hsent', hto', -, hc', hissue', hid', -⟩ :=
      hcommand hab' hreceived'
    simp only [horigin, horigin', Option.map_some, Option.getD_some, hc, hc', Prod.mk.injEq]
      at hsame
    obtain ⟨rfl, rfl⟩ := hsame
    -- one command, so one id, so one hand-off, which went to one node
    obtain rfl := Option.some.inj (hissue.symm.trans hissue')
    have hj : (w.node a).world.handedIds[j]? = (w.node a).world.handedIds[j']? := by
      simp [World.handedIds, hsent, hsent', ← hid, ← hid']
    have hlt : j < (w.node a).world.handedIds.length := by
      simpa [World.handedIds] using (List.getElem?_eq_some_iff.mp hsent).1
    obtain rfl := (List.getElem?_inj hlt ((hnode a).2.2 (hcount a)).handed_nodup).mp hj
    obtain rfl := Option.some.inj (hsent.symm.trans hsent')
    obtain rfl : b = b' := hids (hto.symm.trans hto')
    have hevent : i = i' := eq_of_origin (hsound hab) horigin horigin'
    rw [hevent]

theorem received_issued_twoSenders :
    let w := (machine Formats.plain json sampleIds fun _ => .server).run twoSenders
    ∃ f : Fin 3 × ℕ → Fin 3 × ℕ,
      (∀ a b i msg, a ≠ b → w.ReceivedAt Formats.plain a b i msg → ∃ c issue, f (b, i) = (a, c) ∧
        (w.node a).issued[c]? = some issue ∧ issue.msg = msg ∧
        recipient Formats.plain .server issue.addr = some (sampleIds b)) ∧
      Set.InjOn f {x | ∃ a msg, a ≠ x.1 ∧ w.ReceivedAt Formats.plain a x.1 x.2 msg} :=
  received_issued Formats.plain json json_inverts json_rejectsPrefixes (by decide)
    twoSenders_transported (by decide +kernel)

end Network
end MeerkatNet.V2
