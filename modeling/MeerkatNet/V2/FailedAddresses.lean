import MeerkatNet.V2.MessageIds
import MeerkatNet.V2.MockFailures

/-!
# The addresses in failures

`do_send` reports the address that it was given, which is the translated one. The
application sees its own address again exactly if the translation leaves it alone: the
address of the rewriting branch never parses, whatever the relay is.
-/

namespace MeerkatNet.V2

open Libp2p SlashText Runs

variable {PeerId : Type}

/-- A node of this type hands the address to its loop as it is. -/
def Untranslated : NodeType → Address → Prop
  | .server, _ => True
  | .browserClient relay, addr => DirectIp addr → SharesRelayText relay addr

instance (nodeType : NodeType) (addr : Address) : Decidable (Untranslated nodeType addr) :=
  match nodeType with
  | .server => inferInstanceAs (Decidable True)
  | .browserClient relay => inferInstanceAs (Decidable (DirectIp addr → SharesRelayText relay addr))

theorem prepended_ne (relay canonical : Address) : prepended relay canonical ≠ canonical := by
  intro h
  have hlength := congrArg (fun addr : Address => addr.text.toList.length) h
  simp only [prepended, String.toList_append, List.length_append] at hlength
  have hcircuit : "/p2p-circuit/".toList.length = 13 := by decide
  omega

theorem translateAddress_eq_self_iff {nodeType : NodeType} {addr : Address} :
    translateAddress nodeType addr = .ok addr ↔ Untranslated nodeType addr := by
  cases nodeType with
  | server => exact ⟨fun _ => trivial, fun _ => rfl⟩
  | browserClient relay =>
    rw [translateAddress_browserClient, Except.ok.injEq, Untranslated]
    by_cases hshares : SharesRelayText relay addr
    · simp [hshares]
    · by_cases hdirect : DirectIp addr <;> simp [hshares, hdirect, prepended_ne]

/-- No reader gets past the doubled slash behind a circuit hop. -/
theorem fromStrParts_doubled (F : Formats PeerId)
    (reader : Option (String → Option (Protocol PeerId))) (xs rest : List String) :
    ∃ e, F.fromStrParts reader (xs ++ "p2p-circuit" :: "" :: rest) = .error e := by
  have hdoubled : F.fromStrParts none ("" :: rest) = .error (.unknownProtocolString "") := by
    simp [Formats.fromStrParts]
  have hmap : ∀ {ys : List String} (p : Protocol PeerId),
      (∃ e, F.fromStrParts none ys = .error e) →
      ∃ e, (F.fromStrParts none ys).map (p :: ·) = .error e := by
    rintro ys p ⟨e, he⟩
    exact ⟨e, by rw [he]; rfl⟩
  induction xs generalizing reader with
  | nil =>
    cases reader with
    | none => exact hmap .p2pCircuit ⟨_, hdoubled⟩
    | some read =>
      simp only [List.nil_append, Formats.fromStrParts]
      split
      · exact ⟨_, rfl⟩
      · exact hmap _ ⟨_, hdoubled⟩
  | cons x xs ih =>
    cases reader with
    | none =>
      simp only [List.cons_append, Formats.fromStrParts]
      split
      · exact ⟨_, rfl⟩
      · exact hmap _ (ih none)
      · exact ih _
    | some read =>
      simp only [List.cons_append, Formats.fromStrParts]
      split
      · exact ⟨_, rfl⟩
      · exact hmap _ (ih none)

theorem parse_prepended_error (F : Formats PeerId) (relay : Address) {canonical : Address}
    (hdirect : DirectIp canonical) : ∃ e, F.parse (prepended relay canonical).text = .error e := by
  obtain ⟨rest, hrest⟩ := components_of_directIp hdirect
  have hparts : components (prepended relay canonical).text =
      components relay.text ++ "p2p-circuit" :: "" :: rest := by
    rw [components_prepended, hrest, List.append_assoc, List.singleton_append]
  unfold Formats.parse
  rw [hparts]
  split
  · rename_i parts heq
    cases hrelay : components relay.text with
    | nil => simp [hrelay] at heq
    | cons x xs =>
      rw [hrelay, List.cons_append, List.cons.injEq] at heq
      rw [← heq.2]
      exact fromStrParts_doubled F none xs rest
  · exact ⟨_, rfl⟩

variable [DecidableEq PeerId] {F : Formats PeerId} {S : Serde}

/-- A failure about an address reports the address of the send that is being handled. -/
theorem unreachable_source {s : LoopState PeerId} {i : Input PeerId} {id : MessageId}
    {addr : Address}
    (h : (id, .unreachableAddress addr) ∈ (eventLoop F S s i).2.filterMap Effect.failure?) :
    ∃ msg answers, i = .command (.send id addr msg) answers := by
  have hafter : ∀ {error : SendError}, ¬ error.BeforeHandOff →
      error ≠ .unreachableAddress addr := by
    rintro error hnot rfl
    exact hnot (.inl ⟨addr, rfl⟩)
  by_cases hsend : ∃ id' addr' msg answers, i = .command (.send id' addr' msg) answers
  · obtain ⟨id', addr', msg, answers, rfl⟩ := hsend
    simp only [eventLoop, doSend] at h
    split at h
    · simp only [List.filterMap_cons, Effect.failure?, List.filterMap_nil, List.mem_singleton,
        Prod.mk.injEq, SendError.unreachableAddress.injEq] at h
      obtain ⟨rfl, rfl⟩ := h
      exact ⟨msg, answers, rfl⟩
    · split at h
      · simp [Effect.failure?] at h
      · rename_i peer hpeer
        split_ifs at h
        · rcases sendToPeer_failures S (answers.stream 0) peer id' msg with hs | ⟨error, hnot, hs⟩
          · simp [hs] at h
          · rw [hs, List.mem_singleton, Prod.mk.injEq] at h
            exact absurd h.2.symm (hafter hnot)
        · split at h <;> simp [Effect.failure?] at h
  · have hstep := eventLoop_sendStep F S s i
    generalize (eventLoop F S s i).1.pendingSends = pending' at hstep
    generalize (eventLoop F S s i).2 = es at hstep h
    cases hstep with
    | rejected | direct | queued | dialFailed => exact absurd ⟨_, _, _, _, rfl⟩ hsend
    | @flushed peer c answers es hes =>
      rw [List.filterMap_append, failures_of_quiet hes, List.nil_append] at h
      exact absurd rfl (hafter ((flush_failures S _ peer _).2 _ h))
    | quiet hi hother hes =>
      rw [failures_of_quiet hes] at h
      cases h

namespace Node

/-- Some send was given this id, and the node translates its address to this one. -/
def IssuedAs (nodeType : NodeType) (n : Node PeerId) (id : MessageId) (addr : Address) : Prop :=
  ∃ issue ∈ n.issued, issue.msgId = id ∧ translateAddress nodeType issue.addr = .ok addr

/-- Every send in the channel and every failure about an address carries a translated address,
under the id of its send. -/
structure Attributed (nodeType : NodeType) (n : Node PeerId) : Prop where
  typed : n.actor.nodeType = nodeType
  channel : ∀ id addr msg, .send id addr msg ∈ n.commandRx → n.IssuedAs nodeType id addr
  failures : ∀ id addr, (id, .unreachableAddress addr) ∈ n.world.failures →
    n.IssuedAs nodeType id addr

omit [DecidableEq PeerId] in
theorem mem_queued {n : Node PeerId} {cmd c : SwarmCommand} (h : c ∈ n.queued cmd) :
    c ∈ n.commandRx ∨ c = cmd := by
  unfold queued at h
  split_ifs at h
  · simpa using h
  · exact .inl h

theorem attributed_next {nodeType : NodeType} {n : Node PeerId} (hn : n.Attributed nodeType)
    (i : NodeInput PeerId) : (n.next F S i).Attributed nodeType := by
  -- an iteration reports what it takes from the channel
  have hiterate : ∀ j, (∀ id addr msg answers, j = .command (.send id addr msg) answers →
      n.IssuedAs nodeType id addr) → ∀ id addr,
      (id, .unreachableAddress addr) ∈ (n.world.next F S j).failures →
      n.IssuedAs nodeType id addr := by
    intro j hj id addr hmem
    rw [World.next_failures, List.mem_append] at hmem
    rcases hmem with hmem | hmem
    · exact hn.failures id addr hmem
    · obtain ⟨msg, answers, rfl⟩ := unreachable_source hmem
      exact hj id addr msg answers rfl
  have hstep := next_nodeStep F S n i
  generalize n.next F S i = n' at hstep
  cases hstep with
  | @issued addr msg localAddr hwaiting htranslate =>
    have hgrow : ∀ {id addr'}, n.IssuedAs nodeType id addr' → ∃ issue ∈
        n.issued ++ [⟨⟨n.actor.nextMessageId⟩, addr, msg⟩], issue.msgId = id ∧
        translateAddress nodeType issue.addr = .ok addr' := by
      rintro id addr' ⟨issue, hmem, hissue⟩
      exact ⟨issue, List.mem_append_left _ hmem, hissue⟩
    refine ⟨hn.typed, ?_, fun id addr' hmem => hgrow (hn.failures id addr' hmem)⟩
    intro id addr' msg' hmem
    rcases mem_queued hmem with hold | hnew
    · exact hgrow (hn.channel id addr' msg' hold)
    · cases hnew
      refine ⟨_, List.mem_append_right _ (List.mem_singleton_self _), rfl, ?_⟩
      rw [← hn.typed]
      exact htranslate
  | requested hwaiting hc =>
    refine ⟨hn.typed, ?_, hn.failures⟩
    intro id addr msg hmem
    rcases mem_queued hmem with hold | rfl
    · exact hn.channel id addr msg hold
    · cases hc
  | @taken cmd rest answers hrunning hrx =>
    refine ⟨hn.typed, ?_, hiterate _ ?_⟩
    · intro id addr msg hmem
      exact hn.channel id addr msg (hrx ▸ List.mem_cons_of_mem _ hmem)
    · intro id addr msg answers' hcmd
      cases hcmd
      exact hn.channel id addr msg (hrx ▸ List.mem_cons_self)
  | @iterated ev answers hrunning =>
    exact ⟨hn.typed, hn.channel, hiterate _ fun _ _ _ _ h => by cases h⟩
  | stopped => exact ⟨hn.typed, fun _ _ _ hmem => (List.not_mem_nil hmem).elim, hn.failures⟩
  | _ => exact ⟨hn.typed, hn.channel, hn.failures⟩

/-- What a failure reports is the translated address of a send with its id. -/
theorem issuedAs_of_sendFailures {me : PeerId} {nodeType : NodeType}
    {inputs : List (NodeInput PeerId)} {id : MessageId} {addr : Address}
    (h : (id, .unreachableAddress addr) ∈ ((machine F S me nodeType).run inputs).sendFailures) :
    ((machine F S me nodeType).run inputs).IssuedAs nodeType id addr := by
  have hinv := (machine F S me nodeType).run_invariant
    (P := fun n => n.Attributed nodeType ∧ n.sendFailures = n.world.failures)
    ⟨⟨rfl, fun _ _ _ hmem => by simp [init] at hmem, fun _ _ hmem => by
      simp [init, World.init, World.failures, World.effects] at hmem⟩, rfl⟩
    (fun n i hn => ⟨attributed_next hn.1 i, sendFailures_next F S hn.2 i⟩) inputs
  exact hinv.1.failures id addr (hinv.2 ▸ h)

/-- One send, taken at once. -/
def oneSend (addr : Address) : List (NodeInput PeerId) :=
  [.command (.sendMessage addr (.ping "")), .take Answers.refused]

/-- A rewritten address comes back as it was rewritten. -/
theorem oneSend_reports {me : PeerId} {relay addr : Address} (hdirect : DirectIp addr)
    (hshares : ¬ SharesRelayText relay addr) :
    ((machine F S me (.browserClient relay)).run (oneSend addr)).issued =
        [⟨⟨1⟩, addr, .ping ""⟩] ∧
      ((machine F S me (.browserClient relay)).run (oneSend addr)).sendFailures =
        [(⟨1⟩, .unreachableAddress (prepended relay addr))] := by
  have htranslate : translateAddress (.browserClient relay) addr = .ok (prepended relay addr) := by
    rw [translateAddress_browserClient, if_pos ⟨hshares, hdirect⟩]
  obtain ⟨e, hparse⟩ := parse_prepended_error F relay hdirect
  simp [oneSend, Machine.run, machine, next, init, handleCommand, sendMessage, htranslate, send,
    reply, iteration?, iterate, World.next, eventLoop, doSend, hparse, sendFailures,
    Effect.event?, NetworkEvent.failure?]

theorem numbered_run (me : PeerId) (nodeType : NodeType) (inputs : List (NodeInput PeerId)) :
    ((machine F S me nodeType).run inputs).Numbered :=
  (machine F S me nodeType).run_invariant (numbered_init me nodeType)
    (fun _ i hn => numbered_next F S hn i) inputs

variable (F S)

/-- In every run, the failures of sends to an address report that address exactly if the node
leaves it untranslated; what is reported is always the address of a send with that id, up to
translation. The mock network reports the addresses of its calls. -/
theorem unreachableAddress_canonical_iff (me : PeerId) (nodeType : NodeType) (addr : Address) :
    ((∀ inputs : List (NodeInput PeerId),
        let n := (machine F S me nodeType).run inputs
        n.issued.length < 2 ^ 64 → ∀ issue ∈ n.issued, issue.addr = addr → ∀ reported,
          (issue.msgId, .unreachableAddress reported) ∈ n.sendFailures → reported = addr) ↔
      Untranslated nodeType addr) ∧
    (∀ inputs : List (NodeInput PeerId),
      let n := (machine F S me nodeType).run inputs
      ∀ id reported, (id, .unreachableAddress reported) ∈ n.sendFailures →
        ∃ issue ∈ n.issued, issue.msgId = id ∧
          (Untranslated nodeType issue.addr → issue.addr = reported)) ∧
    ∀ inputs : List MockInput,
      let w := MockWorld.machine.run inputs
      ∀ k id reported, .sendFailed id (.unreachableAddress reported) ∈ w.enqueued k →
        (∃ call ∈ w.calls, call.reply = .messageSent id ∧
          ∃ msg, call.cmd = .sendMessage reported msg) ∧
        (w.peerIds.Nodup → w.calls.length < 2 ^ 64 → ∀ call ∈ w.calls, call.node = k →
          call.reply = .messageSent id → ∃ msg, call.cmd = .sendMessage reported msg) := by
  have hsame : ∀ {a b : Address}, translateAddress nodeType a = .ok b →
      Untranslated nodeType a → a = b := by
    intro a b htranslate huntranslated
    rw [translateAddress_eq_self_iff.mpr huntranslated, Except.ok.injEq] at htranslate
    exact htranslate
  refine ⟨⟨?_, ?_⟩, ?_, fun inputs k id reported h => MockWorld.unreachable_of_call h⟩
  · intro hcanonical
    cases nodeType with
    | server => trivial
    | browserClient relay =>
      intro hdirect
      by_contra hshares
      obtain ⟨hissued, hreported⟩ : ((machine F S me (.browserClient relay)).run
            (oneSend addr)).issued = [⟨⟨1⟩, addr, .ping ""⟩] ∧
          ((machine F S me (.browserClient relay)).run (oneSend addr)).sendFailures =
            [(⟨1⟩, .unreachableAddress (prepended relay addr))] :=
        oneSend_reports hdirect hshares
      refine prepended_ne relay addr
        (hcanonical (oneSend addr) ?_ ⟨⟨1⟩, addr, .ping ""⟩ ?_ rfl _ ?_)
      · rw [hissued, List.length_singleton]
        decide
      · rw [hissued]
        exact List.mem_singleton_self _
      · rw [hreported]
        exact List.mem_singleton_self _
  · rintro huntranslated inputs n hcount issue hissue rfl reported hreported
    obtain ⟨issue', hissue', hid, htranslate⟩ := issuedAs_of_sendFailures hreported
    have hnodup : (n.issued.map Issued.msgId).Nodup :=
      (numbered_run me nodeType inputs).nodup hcount
    obtain rfl := List.inj_on_of_nodup_map hnodup hissue' hissue hid
    exact (hsame htranslate huntranslated).symm
  · intro inputs n id reported hreported
    obtain ⟨issue, hissue, hid, htranslate⟩ := issuedAs_of_sendFailures hreported
    exact ⟨issue, hissue, hid, hsame htranslate⟩

/-- A browser client is told of an address that it never used. -/
theorem unreachableAddress_rewritten :
    let n := (machine Formats.plain json "178" (.browserClient sampleRelay)).run
      (oneSend sampleServer)
    n.issued = [⟨⟨1⟩, sampleServer, .ping ""⟩] ∧
    n.sendFailures = [(⟨1⟩, .unreachableAddress
      ⟨"/ip4/10.0.0.1/tcp/9001/ws/p2p/176/p2p-circuit//ip4/10.0.0.2/tcp/9000/p2p/177"⟩)] ∧
    sampleServer ≠
      ⟨"/ip4/10.0.0.1/tcp/9001/ws/p2p/176/p2p-circuit//ip4/10.0.0.2/tcp/9000/p2p/177"⟩ :=
  ⟨(oneSend_reports (by decide) (by decide)).1, (oneSend_reports (by decide) (by decide)).2,
    by decide⟩

end Node
end MeerkatNet.V2
