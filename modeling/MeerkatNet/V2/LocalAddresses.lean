import MeerkatNet.V2.ListenReplies

/-!
# The addresses that a node reports

The actor's list grows only by the replies to listen requests, while listeners announce
and withdraw addresses on their own. The list is the set of addresses in force as long
as each new address goes to a waiting request and none is withdrawn.
-/

namespace MeerkatNet.V2

open Libp2p SlashText KeyedQueues Runs

variable {PeerId : Type} [DecidableEq PeerId]

/-- The addresses in force by listener, after one more iteration: an announcement adds one, an
expiry takes it away, the end of a listener takes all of its own away. -/
def updateAnnounced (announced : List (ListenerId × Multiaddr PeerId)) :
    Input PeerId → List (ListenerId × Multiaddr PeerId)
  | .event (.newListenAddr l address) _ => announced ++ [(l, address)]
  | .event (.expiredListenAddr l address) _ => announced.filter fun a => a ≠ (l, address)
  | .event (.listenerClosed l) _ => announced.filter fun a => a.1 ≠ l
  | _ => announced

omit [DecidableEq PeerId] in
/-- The first answer that some effects give to a request. -/
def answerIn (tx : ReplyTx) (es : List (Effect PeerId)) : Option (Except String Address) :=
  es.findSome? fun
    | .reply tx' answer => if tx' = tx then some answer else none
    | _ => none

omit [DecidableEq PeerId] in
theorem mem_of_answerIn {tx : ReplyTx} {es : List (Effect PeerId)}
    {answer : Except String Address} (h : answerIn tx es = some answer) :
    .reply tx answer ∈ es := by
  obtain ⟨e, he, hmatch⟩ := List.exists_of_findSome?_eq_some h
  split at hmatch
  · split_ifs at hmatch with htx
    cases hmatch
    rwa [← htx]
  · simp at hmatch

namespace World

/-- The addresses announced and not withdrawn. -/
def announced (w : World PeerId) : List (ListenerId × Multiaddr PeerId) :=
  w.inputs.foldl updateAnnounced []

variable (F : Formats PeerId) (S : Serde)

/-- An address in force has this text. -/
def InForce (w : World PeerId) (addr : Address) : Prop :=
  ∃ a ∈ w.announced, F.display a.2 = addr.text

/-- A new address goes to a waiting request, or its text is already in force; a withdrawn one
leaves its text in force through another listener. -/
def KeepsAnnounced (w : World PeerId) (i : Input PeerId) : Prop :=
  (∀ n ∈ i.announced?, w.loop.pendingListen.isSome = true ∨
    (circuitText F n.2 = true ∧ w.loop.pendingRelay.isSome = true) ∨
    ∃ a ∈ w.announced, F.display a.2 = F.display n.2) ∧
  ∀ a ∈ w.announced, ∃ b ∈ updateAnnounced w.announced i, F.display b.2 = F.display a.2

instance (w : World PeerId) (i : Input PeerId) : Decidable (w.KeepsAnnounced F i) :=
  inferInstanceAs (Decidable (_ ∧ _))

theorem next_announced (w : World PeerId) (i : Input PeerId) :
    (w.next F S i).announced = updateAnnounced w.announced i := by
  rw [announced, inputs_next, List.foldl_append]
  rfl

/-- An answer, once given, is not changed by later iterations. -/
theorem next_answer? (w : World PeerId) (i : Input PeerId) (tx : ReplyTx) :
    (w.next F S i).answer? tx = (w.answer? tx).or (answerIn tx (eventLoop F S w.loop i).2) := by
  rw [answer?, next_effects, List.findSome?_append]
  rfl

variable {F}

theorem mem_updateAnnounced {announced : List (ListenerId × Multiaddr PeerId)} {i : Input PeerId}
    {a : ListenerId × Multiaddr PeerId} (h : a ∈ updateAnnounced announced i) :
    a ∈ announced ∨ i.announced? = some a := by
  unfold updateAnnounced at h
  split at h
  · exact (List.mem_append.mp h).imp_right fun h => by rw [List.mem_singleton.mp h]; rfl
  · exact .inl (List.mem_of_mem_filter h)
  · exact .inl (List.mem_of_mem_filter h)
  · exact .inl h

theorem inForce_next {w : World PeerId} {i : Input PeerId} (hkeeps : w.KeepsAnnounced F i)
    {addr : Address} (h : w.InForce F addr) : (w.next F S i).InForce F addr := by
  obtain ⟨a, ha, htext⟩ := h
  obtain ⟨b, hb, hsame⟩ := hkeeps.2 a ha
  rw [InForce, next_announced]
  exact ⟨b, hb, hsame.trans htext⟩

end World

omit [DecidableEq PeerId] in
/-- An announcement that a request waits for answers it. -/
theorem ListenStep.answers {F : Formats PeerId} {listen listen' : Option ReplyTx}
    {relay relay' : Option (Address × ReplyTx)} {i : Input PeerId} {es : List (Effect PeerId)}
    (hstep : ListenStep F listen relay i listen' relay' es) {l : ListenerId}
    {address : Multiaddr PeerId} (hi : i.announced? = some (l, address))
    (hwaits : listen.isSome = true ∨ (circuitText F address = true ∧ relay.isSome = true)) :
    ∃ tx ∈ slots listen relay, es = [.reply tx (.ok ⟨F.display address⟩)] := by
  cases hstep with
  | refused hrequest =>
    rcases i with _ | _
    · simp [Input.announced?] at hi
    · simp [Input.request?] at hrequest
  | listening | relayDialled | relayConnected => simp [Input.announced?] at hi
  | circuitAnnounced hcircuit hrelay =>
    obtain ⟨-, rfl⟩ := Prod.mk.inj (Option.some.inj hi)
    exact ⟨_, by simp [slots, hrelay], rfl⟩
  | addressAnnounced hcircuit hlisten =>
    obtain ⟨-, rfl⟩ := Prod.mk.inj (Option.some.inj hi)
    exact ⟨_, by simp [slots, hlisten], rfl⟩
  | unclaimed hcircuit hlisten =>
    obtain ⟨-, rfl⟩ := Prod.mk.inj (Option.some.inj hi)
    rcases hwaits with h | ⟨hc, h⟩
    · simp [hlisten] at h
    · simp [hcircuit hc] at h
  | aside hrequest hannounced => simp [hannounced] at hi

namespace Node

variable (F : Formats PeerId) (S : Serde)

/-- The actor's list, with the answer that it has not picked up yet, is what is in force. -/
structure ReportsAnnounced (n : Node PeerId) : Prop where
  listed : ∀ addr ∈ n.actor.localAddrs, n.world.InForce F addr
  answered : ∀ tx addr, n.waiting = some tx → n.world.answer? tx = some (.ok addr) →
    n.world.InForce F addr
  complete : ∀ addr, n.world.InForce F addr → addr ∈ n.actor.localAddrs ∨
    ∃ tx, n.waiting = some tx ∧ n.world.answer? tx = some (.ok addr)

variable {F}

omit [DecidableEq PeerId] in
/-- A request that a running loop holds is the one that the actor awaits, and unanswered. -/
theorem Awaits.unanswered {n : Node PeerId} (hawaits : n.Awaits) (hrunning : n.running = true)
    {tx : ReplyTx} (htx : tx ∈ n.world.held) :
    n.waiting = some tx ∧ n.world.answer? tx = none := by
  have hheld : tx ∈ n.world.held ++ n.channelRequests := List.mem_append_left _ htx
  rcases hawaits.pending hrunning with hnil | ⟨tx', hwaiting, hone, hopen⟩
  · simp [hnil] at hheld
  · obtain rfl : tx = tx' := by simpa [hone] using hheld
    refine ⟨hwaiting, ?_⟩
    by_contra h
    obtain ⟨answer, h⟩ := Option.ne_none_iff_exists'.mp h
    exact hopen (mem_settled_of_reply (mem_effects_of_answer? h))

theorem ReportsAnnounced.iterate {n : Node PeerId} (hn : n.ReportsAnnounced F)
    (hawaits : n.Awaits) (hrunning : n.running = true) {i : Input PeerId}
    (hkeeps : n.world.KeepsAnnounced F i) (rest : List SwarmCommand) :
    ReportsAnnounced F { n.iterate F S i with commandRx := rest } := by
  have hstep := eventLoop_listenStep F S n.world.loop i
  have hpersists : ∀ tx answer, n.world.answer? tx = some answer →
      (n.world.next F S i).answer? tx = some answer := by
    intro tx answer h
    rw [World.next_answer?, h, Option.some_or]
  constructor
  · intro addr haddr
    exact World.inForce_next S hkeeps (hn.listed addr haddr)
  · intro tx addr hwaiting hanswer
    change (n.world.next F S i).answer? tx = _ at hanswer
    cases hbefore : n.world.answer? tx with
    | some answer =>
      rw [hpersists tx answer hbefore] at hanswer
      obtain rfl := Option.some.inj hanswer
      exact World.inForce_next S hkeeps (hn.answered tx addr hwaiting hbefore)
    | none =>
      rw [World.next_answer?, hbefore, Option.none_or] at hanswer
      obtain ⟨l, address, answers, rfl, rfl, -⟩ := hstep.reply_source F (mem_of_answerIn hanswer)
      refine ⟨(l, address), ?_, rfl⟩
      rw [iterate_world, World.next_announced]
      exact List.mem_append_right _ (List.mem_singleton_self _)
  · intro addr hforce
    change (n.world.next F S i).InForce F addr at hforce
    obtain ⟨a, ha, htext⟩ := hforce
    rw [World.next_announced] at ha
    have hold : n.world.InForce F addr → addr ∈ n.actor.localAddrs ∨
        ∃ tx, n.waiting = some tx ∧ (n.world.next F S i).answer? tx = some (.ok addr) := by
      intro h
      exact (hn.complete addr h).imp_right fun ⟨tx, hwaiting, h⟩ =>
        ⟨tx, hwaiting, hpersists tx _ h⟩
    rcases World.mem_updateAnnounced ha with ha | hnew
    · exact hold ⟨a, ha, htext⟩
    · have hwaits := hkeeps.1 a hnew
      rw [← or_assoc] at hwaits
      rcases hwaits with hwaits | ⟨b, hb, hsame⟩
      · -- the announcement answers the request that the actor awaits
        obtain ⟨tx, htx, hes⟩ := hstep.answers hnew hwaits
        obtain ⟨hwaiting, hnone⟩ := hawaits.unanswered hrunning htx
        obtain rfl : addr = ⟨F.display a.2⟩ := by rw [htext]
        refine .inr ⟨tx, hwaiting, ?_⟩
        rw [iterate_world, World.next_answer?, hnone, Option.none_or, hes]
        simp [answerIn]
      · exact hold ⟨b, hb, hsame.trans htext⟩

theorem reportsAnnounced_init (me : PeerId) (nodeType : NodeType) :
    (init me nodeType).ReportsAnnounced F where
  listed _ h := by simp [init] at h
  answered _ _ h := by simp [init] at h
  complete _ h := by
    obtain ⟨a, ha, -⟩ := h
    simp [init, World.init, World.announced, World.inputs] at ha

/-- A reply that the actor picks up completes its list. -/
theorem ReportsAnnounced.resume {n : Node PeerId} (hn : n.ReportsAnnounced F) :
    n.resume.ReportsAnnounced F := by
  unfold Node.resume
  split
  · exact hn
  · rename_i tx hwaiting
    have hother : (∀ addr, n.world.answer? tx ≠ some (.ok addr)) → ∀ addr,
        n.world.InForce F addr → addr ∈ n.actor.localAddrs := by
      intro hnone addr hforce
      rcases hn.complete addr hforce with h | ⟨tx', hwaiting', h⟩
      · exact h
      · obtain rfl := Option.some.inj (hwaiting.symm.trans hwaiting')
        exact absurd h (hnone addr)
    split
    · rename_i addr hanswer
      refine ⟨?_, fun _ _ h => by simp at h, ?_⟩
      · intro addr' haddr
        rcases List.mem_append.mp haddr with h | h
        · exact hn.listed addr' h
        · rw [List.mem_singleton.mp h]
          exact hn.answered tx addr hwaiting hanswer
      · intro addr' hforce
        rcases hn.complete addr' hforce with h | ⟨tx', hwaiting', h⟩
        · exact .inl (List.mem_append_left _ h)
        · obtain rfl := Option.some.inj (hwaiting.symm.trans hwaiting')
          have hsame : addr = addr' := by simpa [hanswer] using h
          exact .inl (by simp [hsame])
    · rename_i e hanswer
      exact ⟨hn.listed, fun _ _ h => by simp at h,
        fun addr hforce => .inl (hother (by simp [hanswer]) addr hforce)⟩
    · rename_i hanswer
      split_ifs
      · exact ⟨hn.listed, fun _ _ h => by simp at h,
          fun addr hforce => .inl (hother (by simp [hanswer]) addr hforce)⟩
      · exact hn

theorem reportsAnnounced_next {n : Node PeerId} (hn : n.ReportsAnnounced F) (hawaits : n.Awaits)
    {i : NodeInput PeerId} (hkeeps : Iterates (World.KeepsAnnounced F) n i) :
    (n.next F S i).ReportsAnnounced F := by
  have hstep := next_nodeStep F S n i
  by_cases hresume : i = .resume
  · subst i
    exact hn.resume
  generalize n.next F S i = n' at hstep
  cases hstep with
  | taken hrunning hrx =>
    exact hn.iterate S hawaits hrunning (hkeeps _ (by simp [iteration?, hrunning, hrx])) _
  | @iterated ev answers hrunning =>
    exact hn.iterate S hawaits hrunning (hkeeps _ (by simp [iteration?, hrunning])) n.commandRx
  | listened | failed => exact absurd rfl hresume
  | @requested cmd c hwaiting hc =>
    refine ⟨hn.listed, ?_, ?_⟩
    · intro tx addr htx hanswer
      -- nothing has been answered under a number that was not given out yet
      obtain rfl := Option.some.inj htx
      have hsettled := mem_settled_of_reply (mem_effects_of_answer? hanswer)
      exact absurd (hawaits.bound _ (hawaits.perm.subset (List.mem_append_right _ hsettled)))
        (lt_irrefl _)
    · intro addr hforce
      rcases hn.complete addr hforce with h | ⟨tx, h, -⟩
      · exact .inl h
      · simp [hwaiting] at h
  | _ => exact ⟨hn.listed, hn.answered, hn.complete⟩

/-- In a run in which every new address goes to a waiting request and none is withdrawn, whenever
the actor awaits nothing, `GetLocalAddresses` returns exactly the addresses in force. -/
theorem localAddresses_announced {me : PeerId} {nodeType : NodeType}
    {inputs : List (NodeInput PeerId)}
    (h : (machine F S me nodeType).Along (Iterates (World.KeepsAnnounced F)) (init me nodeType)
      inputs) (hwaiting : ((machine F S me nodeType).run inputs).waiting = none) :
    let n := (machine F S me nodeType).run inputs
    ∃ addrs, (n.next F S (.command .getLocalAddresses)).replies =
      n.replies ++ [(none, .localAddresses addrs)] ∧
      ∀ addr, addr ∈ addrs ↔ n.world.InForce F addr := by
  have hinv := h.invariant (P := fun n => n.ReportsAnnounced F ∧ n.Awaits)
    ⟨reportsAnnounced_init me nodeType, awaits_init me nodeType⟩
    fun n i hn hi => ⟨reportsAnnounced_next S hn.1 hn.2 hi, awaits_next F S hn.2 i⟩
  intro n
  refine ⟨n.actor.localAddrs, by simp [n, next, hwaiting, handleCommand, reply], ?_⟩
  intro addr
  refine ⟨hinv.1.listed addr, ?_⟩
  intro hforce
  rcases hinv.1.complete addr hforce with h | ⟨tx, hsome, -⟩
  · exact h
  · rw [hwaiting] at hsome
    cases hsome

/-- A listener that announces its second address after the request was answered. -/
def secondAnnouncement : List (NodeInput String) :=
  wildcardListen ++
    [.event (.newListenAddr 0 [.other "ip4" (some "10.0.0.3"), .other "tcp" (some "90")])
      Answers.refused]

theorem localAddresses_announced_wildcardListen :
    let n := (machine Formats.plain json "176" .server).run wildcardListen
    ∃ addrs, (n.next Formats.plain json (.command .getLocalAddresses)).replies =
      n.replies ++ [(none, .localAddresses addrs)] ∧
      ∀ addr, addr ∈ addrs ↔ n.world.InForce Formats.plain addr :=
  localAddresses_announced json (by decide) (by decide)

/-- The second address is in force and not in the list. -/
theorem localAddresses_secondAnnouncement :
    let n := (machine Formats.plain json "176" .server).run secondAnnouncement
    (machine Formats.plain json "176" .server).Along (Iterates World.Legal)
      (init "176" .server) secondAnnouncement ∧
    n.waiting = none ∧
    (n.next Formats.plain json (.command .getLocalAddresses)).replies =
      n.replies ++ [(none, .localAddresses [⟨"/ip4/10.0.0.2/tcp/90"⟩])] ∧
    n.world.InForce Formats.plain ⟨"/ip4/10.0.0.3/tcp/90"⟩ :=
  ⟨by decide, by decide, by decide, _, List.mem_of_mem_getLast? rfl, rfl⟩

end Node
end MeerkatNet.V2
