import MeerkatNet.V1.ListenSteps
import MeerkatNet.V1.Wire

/-!
# What a call of `listen` returns

A call that is not given up gets an answer that is its own, whatever calls were given up
before it and whatever listeners announce in between. Its request is at first the last
one in the channel, then the one that the loop holds, and then it is answered; only the
end of the loop leaves it without an answer.
-/

namespace MeerkatNet.V1

open Libp2p KeyedQueues Runs
open V2 (Answers)

variable {PeerId : Type}

/-- The loop has not seen the request. -/
structure World.Unknown (w : World PeerId) (tx : ResponseTx) : Prop where
  pending : w.loop.pendingListen ≠ some tx
  unanswered : w.answer? tx = none
  kept : w.dropsSender tx = false

namespace Node

/-- The addresses that `local_addresses` returns. -/
def localAddrs (n : Node PeerId) : List GlobalAddress := n.world.loop.localAddrs

/-- The numbers of response channels are given out in order, so the loop does not know the next
one. -/
structure Numbered (n : Node PeerId) : Prop where
  channel : ∀ c ∈ n.commandRx, ∀ tx, c.request? = some tx → tx < n.nextTx
  world : ∀ tx, n.nextTx ≤ tx → n.world.Unknown tx

/-- What a call of `listen` with this address may return in a state: success after an address has
been announced since the call, the text of its own address if that does not parse, and the failure
of the transport to bind it, unless the loop has ended. -/
def ListenResult (F : Formats PeerId) (addr : GlobalAddress) (tx : ResponseTx) (known : ℕ)
    (n : Node PeerId) : Except NetworkError Unit → Prop
  | .ok () => known < n.localAddrs.length
  | .error (.invalidAddress text) => text = addr.text ∧ ∃ e, F.parse addr.text = .error e
  | .error (.bindFailed text) =>
    (∃ multiaddr, F.parse addr.text = .ok multiaddr ∧
      .listenOn tx multiaddr (.error text) ∈ n.world.effects) ∨ n.running = false
  | .error .alreadyListening => False

/-- Where the request of a waiting call can be. -/
inductive Phase (F : Formats PeerId) (addr : GlobalAddress) (tx : ResponseTx) (known : ℕ)
    (n : Node PeerId) : Prop where
  | queued {before} (hrunning : n.running = true) (hrx : n.commandRx = before ++ [.listen addr tx])
      (hbefore : ∀ c ∈ before, c.request? ≠ some tx) (hunknown : n.world.Unknown tx)
  | held (hrunning : n.running = true) (hrx : n.commandRx = [])
      (hpending : n.world.loop.pendingListen = some tx) (hnone : n.world.answer? tx = none)
      (hkept : n.world.dropsSender tx = false)
  | answered {answer} (hrx : n.commandRx = []) (hanswer : n.world.answer? tx = some answer)
      (hresult : n.ListenResult F addr tx known (answer.map fun _ => ()))
  | closed (hstopped : n.running = false) (hrx : n.commandRx = [])
      (hnone : n.world.answer? tx = none)

/-- What later states of a node keep. -/
structure Grows (n m : Node PeerId) : Prop where
  returned : n.returned <+: m.returned
  localAddrs : n.localAddrs <+: m.localAddrs
  effects : n.world.effects <+: m.world.effects
  stopped : n.running = false → m.running = false

theorem Grows.refl (n : Node PeerId) : n.Grows n :=
  ⟨List.prefix_rfl, List.prefix_rfl, List.prefix_rfl, id⟩

theorem Grows.trans {n m k : Node PeerId} (h : n.Grows m) (h' : m.Grows k) : n.Grows k :=
  ⟨h.returned.trans h'.returned, h.localAddrs.trans h'.localAddrs, h.effects.trans h'.effects,
    h'.stopped ∘ h.stopped⟩

section

variable {F : Formats PeerId} {addr : GlobalAddress} {tx : ResponseTx} {known : ℕ}

/-- A run that has added one result since has added none after it. -/
theorem returned_of_grows {m k : Node PeerId} (hgrows : m.Grows k) {before : List Returned}
    {r r' : Returned} (hm : m.returned = before ++ [r]) (hk : k.returned = before ++ [r']) :
    r' = r := by
  have hsame : before ++ [r] = before ++ [r'] := by
    rw [← hm, ← hk]
    apply hgrows.returned.eq_of_length
    rw [hk, hm, List.length_append, List.length_append]
    rfl
  exact (List.singleton_inj.mp (List.append_cancel_left hsame)).symm

/-- A truthful result stays truthful. -/
theorem ListenResult.mono {n m : Node PeerId} {result : Except NetworkError Unit}
    (h : n.ListenResult F addr tx known result) (hgrows : n.Grows m) :
    m.ListenResult F addr tx known result := by
  rcases result with (text | text | _) | _
  · exact h
  · refine h.imp ?_ hgrows.stopped
    rintro ⟨multiaddr, hparse, hmem⟩
    exact ⟨multiaddr, hparse, hgrows.effects.subset hmem⟩
  · exact h
  · exact lt_of_lt_of_le h hgrows.localAddrs.length_le

theorem Phase.stopped {n : Node PeerId} (h : n.Phase F addr tx known) :
    Phase F addr tx known { n with running := false, commandRx := [] } := by
  cases h with
  | queued _ _ _ hunknown => exact .closed rfl rfl hunknown.unanswered
  | held _ _ _ hnone => exact .closed rfl rfl hnone
  | closed _ _ hnone => exact .closed rfl rfl hnone
  | answered _ hanswer hresult =>
    exact .answered rfl hanswer (hresult.mono ⟨List.prefix_rfl, List.prefix_rfl, List.prefix_rfl,
      fun _ => rfl⟩)

theorem Phase.reads {n : Node PeerId} (h : n.Phase F addr tx known)
    (readers : List (V2.Reader PeerId)) (called : List (String × MeerkatMessage)) :
    Phase F addr tx known { n with readers := readers, called := called } := by
  cases h with
  | queued hrunning hrx hbefore hunknown => exact .queued hrunning hrx hbefore hunknown
  | held hrunning hrx hpending hnone hkept => exact .held hrunning hrx hpending hnone hkept
  | answered hrx hanswer hresult =>
    exact .answered hrx hanswer (hresult.mono ⟨List.prefix_rfl, List.prefix_rfl, List.prefix_rfl,
      id⟩)
  | closed hstopped hrx hnone => exact .closed hstopped hrx hnone

/-- The result that a waiting call gets. -/
theorem Phase.result {n : Node PeerId} (h : n.Phase F addr tx known)
    {answer : Except NetworkError GlobalAddress} (hanswer : n.world.answer? tx = some answer) :
    n.ListenResult F addr tx known (answer.map fun _ => ()) := by
  cases h with
  | queued _ _ _ hunknown => simp [hunknown.unanswered] at hanswer
  | held _ _ _ hnone | closed _ _ hnone => simp [hnone] at hanswer
  | answered _ hanswer' hresult =>
    obtain rfl := Option.some.inj (hanswer'.symm.trans hanswer)
    exact hresult

theorem Phase.not_running {n : Node PeerId} (h : n.Phase F addr tx known)
    (hanswer : n.world.answer? tx = none)
    (hclosed : n.world.dropsSender tx = true ∨ n.running = false) : n.running = false := by
  cases h with
  | queued _ _ _ hunknown => exact hclosed.resolve_left (by simp [hunknown.kept])
  | held _ _ _ _ hkept => exact hclosed.resolve_left (by simp [hkept])
  | answered _ hanswer' => simp [hanswer'] at hanswer
  | closed hstopped => exact hstopped

end

variable [DecidableEq PeerId] (F : Formats PeerId) (S : Serde) (callbacks : NetworkCallbacks)

/-- The steps of a node with the fields they change; readers touch neither the calls nor the
loop. -/
inductive NodeStep (n : Node PeerId) : NodeInput PeerId → Node PeerId → Prop where
  | idle {i} : NodeStep n i n
  | sent {addr msg} (hwaiting : n.waiting = none) : NodeStep n (.send addr msg) (n.send addr msg)
  | requested {addr} (hwaiting : n.waiting = none) (hrunning : n.running = true) :
      NodeStep n (.listen addr) { n with
        commandRx := n.commandRx ++ [.listen addr n.nextTx]
        waiting := some n.nextTx
        nextTx := n.nextTx + 1 }
  | refused {addr} (hwaiting : n.waiting = none) (hstopped : n.running = false) :
      NodeStep n (.listen addr) { n with
        nextTx := n.nextTx + 1
        returned := n.returned ++ [.listened (.error (.bindFailed "Channel closed"))] }
  | listed (hwaiting : n.waiting = none) :
      NodeStep n .localAddresses { n with
        returned := n.returned ++ [.addresses n.world.loop.localAddrs] }
  | answered {tx answer} (hwaiting : n.waiting = some tx)
      (hanswer : n.world.answer? tx = some answer) :
      NodeStep n .resume { n with
        waiting := none
        returned := n.returned ++ [.listened (answer.map fun _ => ())] }
  | closed {tx} (hwaiting : n.waiting = some tx) (hanswer : n.world.answer? tx = none)
      (hclosed : n.world.dropsSender tx = true ∨ n.running = false) :
      NodeStep n .resume { n with
        waiting := none
        returned := n.returned ++ [.listened (.error (.bindFailed "Response channel closed"))] }
  | cancelled : NodeStep n .cancel { n with waiting := none }
  | taken {cmd rest answers} (hrunning : n.running = true) (hrx : n.commandRx = cmd :: rest) :
      NodeStep n (.take answers)
        { n.iterate F S callbacks (.command cmd answers) with commandRx := rest }
  | iterated {ev answers} (hrunning : n.running = true) :
      NodeStep n (.event ev answers) (n.iterate F S callbacks (.event ev answers))
  | reads {i readers called} :
      NodeStep n i { n with readers := readers, called := called }
  | stopped : NodeStep n .stop { n with running := false, commandRx := [] }

theorem next_nodeStep (n : Node PeerId) (i : NodeInput PeerId) :
    NodeStep F S callbacks n i (n.next F S callbacks i) := by
  cases i with
  | send addr msg =>
    simp only [next, withHandle]
    split_ifs with hwaiting
    · exact .sent hwaiting
    · exact .idle
  | listen addr =>
    simp only [next, withHandle, listen]
    split_ifs with hwaiting hrunning
    · exact .requested hwaiting hrunning
    · exact .refused hwaiting (Bool.eq_false_of_not_eq_true hrunning)
    · exact .idle
  | localAddresses =>
    simp only [next, withHandle]
    split_ifs with hwaiting
    · exact .listed hwaiting
    · exact .idle
  | resume =>
    simp only [next, resume]
    split
    · exact .idle
    · rename_i tx hwaiting
      split
      · exact .answered hwaiting ‹_›
      · split_ifs with hclosed
        · rw [Bool.or_eq_true, Bool.not_eq_true'] at hclosed
          exact .closed hwaiting ‹_› hclosed
        · exact .idle
  | cancel => exact .cancelled
  | take answers =>
    simp only [next]
    split
    · exact .idle
    · split_ifs with hrunning
      · exact .taken hrunning ‹_›
      · exact .idle
  | event ev answers =>
    simp only [next]
    split_ifs with hrunning
    · exact .iterated hrunning
    · exact .idle
  | accept peer =>
    simp only [next]
    split_ifs
    · exact .reads
    · exact .idle
  | arrive k bytes | fail k =>
    simp only [next, withReader]
    split
    · exact .idle
    · split_ifs
      · exact .reads
      · exact .idle
  | read k =>
    simp only [next, withReader]
    split
    · exact .idle
    · split_ifs
      · unfold handleIncomingStream
        split
        · exact .idle
        · exact .reads
        · exact .reads
      · exact .idle
  | stop => exact .stopped

theorem grows_iterate (n : Node PeerId) (i : Input PeerId) (rest : List NetworkCommand) :
    n.Grows { n.iterate F S callbacks i with commandRx := rest } where
  returned := List.prefix_rfl
  localAddrs := (eventLoop_listenStep F S callbacks n.world.loop i).localAddrs
  effects := List.prefix_append _ _
  stopped := id

theorem grows_next (n : Node PeerId) (i : NodeInput PeerId) :
    n.Grows (n.next F S callbacks i) := by
  have hstep := next_nodeStep F S callbacks n i
  generalize n.next F S callbacks i = m at hstep
  cases hstep with
  | sent | refused | listed | answered | closed =>
    exact ⟨List.prefix_append _ _, List.prefix_rfl, List.prefix_rfl, id⟩
  | taken => exact grows_iterate F S callbacks n _ _
  | iterated => exact grows_iterate F S callbacks n _ n.commandRx
  | stopped => exact ⟨List.prefix_rfl, List.prefix_rfl, List.prefix_rfl, fun _ => rfl⟩
  | idle | requested | cancelled | reads =>
    exact ⟨List.prefix_rfl, List.prefix_rfl, List.prefix_rfl, id⟩

theorem grows_exec (me : PeerId) (n : Node PeerId) (js : List (NodeInput PeerId)) :
    n.Grows ((machine F S callbacks me).exec n js) :=
  (machine F S callbacks me).exec_invariant (P := n.Grows)
    (fun m i hm => hm.trans (grows_next F S callbacks m i)) (.refl n) js

/-! ### Numbers of response channels -/

/-- A request that an iteration does not take stays unknown to the loop. -/
theorem unknown_next {w : World PeerId} {tx : ResponseTx} (hw : w.Unknown tx) {i : Input PeerId}
    (hrequest : i.request? ≠ some tx) : (w.next F S callbacks i).Unknown tx := by
  obtain ⟨hanswer, hdrop, hpending⟩ :=
    (eventLoop_listenStep F S callbacks w.loop i).untouched hrequest hw.pending
  refine ⟨hpending, ?_, ?_⟩
  · rw [World.next_answer?, hw.unanswered, hanswer, Option.none_or]
  · rw [World.next_dropsSender, hw.kept, hdrop, Bool.false_or]

omit [DecidableEq PeerId] in
theorem numbered_init (me : PeerId) : (init me).Numbered where
  channel _ h := by simp [init] at h
  world _ _ := ⟨by simp [init, World.init, LoopState.init], rfl, rfl⟩

theorem Numbered.iterate {n : Node PeerId} (hn : n.Numbered) {i : Input PeerId}
    {rest : List NetworkCommand} (hrequest : ∀ tx, i.request? = some tx → tx < n.nextTx)
    (hrest : ∀ c ∈ rest, c ∈ n.commandRx) :
    Numbered { n.iterate F S callbacks i with commandRx := rest } where
  channel c hc := hn.channel c (hrest c hc)
  world tx htx := by
    apply unknown_next F S callbacks (hn.world tx htx)
    intro h
    exact absurd (hrequest tx h) (not_lt.mpr htx)

theorem numbered_next {n : Node PeerId} (hn : n.Numbered) (i : NodeInput PeerId) :
    (n.next F S callbacks i).Numbered := by
  have hstep := next_nodeStep F S callbacks n i
  generalize n.next F S callbacks i = m at hstep
  have hchannel : ∀ c ∈ n.commandRx, ∀ tx, c.request? = some tx → tx < n.nextTx + 1 :=
    fun c hc tx htx => Nat.lt_succ_of_lt (hn.channel c hc tx htx)
  have hworld : ∀ tx, n.nextTx + 1 ≤ tx → n.world.Unknown tx :=
    fun tx htx => hn.world tx (Nat.le_of_succ_le htx)
  cases hstep with
  | sent hwaiting =>
    refine ⟨?_, hn.world⟩
    intro c hc tx htx
    simp only [send] at hc
    split_ifs at hc
    · rcases List.mem_append.mp hc with hc | hc
      · exact hn.channel c hc tx htx
      · rw [List.mem_singleton.mp hc] at htx
        cases htx
    · exact hn.channel c hc tx htx
  | requested =>
    refine ⟨?_, hworld⟩
    intro c hc tx htx
    rcases List.mem_append.mp hc with hc | hc
    · exact hchannel c hc tx htx
    · rw [List.mem_singleton.mp hc] at htx
      cases htx
      exact Nat.lt_succ_self _
  | refused => exact ⟨hchannel, hworld⟩
  | @taken cmd rest answers hrunning hrx =>
    refine hn.iterate F S callbacks (hn.channel cmd (by simp [hrx])) ?_
    intro c hc
    rw [hrx]
    exact List.mem_cons_of_mem _ hc
  | iterated => exact hn.iterate F S callbacks (fun _ h => by cases h) fun _ hc => hc
  | stopped => exact ⟨fun _ h => absurd h List.not_mem_nil, hn.world⟩
  | idle | listed | answered | closed | cancelled | reads => exact ⟨hn.channel, hn.world⟩

/-! ### The request of one call -/

variable {F S callbacks}
variable {addr : GlobalAddress} {tx : ResponseTx} {known : ℕ}

/-- An iteration on anything but the request, while it waits in the channel. -/
theorem Phase.iterate {n : Node PeerId} (hknown : known ≤ n.localAddrs.length)
    (h : n.Phase F addr tx known) (hrunning : n.running = true) (ev : SwarmEvent PeerId)
    (answers : Answers) :
    (n.iterate F S callbacks (.event ev answers)).Phase F addr tx known := by
  have hstep := eventLoop_listenStep F S callbacks n.world.loop (.event ev answers)
  cases h with
  | queued _ hrx hbefore hunknown =>
    refine .queued hrunning hrx hbefore (unknown_next F S callbacks hunknown ?_)
    simp [Input.request?]
  | held _ hrx hpending hnone hkept =>
    rcases hstep.held rfl hpending with ⟨hanswer, hdrop, hpending'⟩ | ⟨a, hanswer, haddrs⟩
    · refine .held hrunning hrx hpending' ?_ ?_
      · exact (World.next_answer? ..).trans (by rw [hnone, hanswer, Option.none_or])
      · exact (World.next_dropsSender ..).trans (by rw [hkept, hdrop, Bool.false_or])
    · have hnow : (n.world.next F S callbacks (.event ev answers)).answer? tx = some (.ok a) :=
        (World.next_answer? ..).trans (by rw [hnone, hanswer, Option.none_or])
      refine .answered hrx hnow ?_
      change known < (eventLoop F S callbacks n.world.loop _).1.localAddrs.length
      rw [haddrs, List.length_append, List.length_singleton]
      exact Nat.lt_succ_of_le hknown
  | answered hrx hanswer hresult =>
    refine .answered hrx ?_ (hresult.mono (grows_iterate F S callbacks n _ n.commandRx))
    exact (World.next_answer? ..).trans (by rw [hanswer, Option.some_or])
  | closed hstopped => simp [hrunning] at hstopped

/-- An iteration that takes the first command, which is the request if none is before it. -/
theorem Phase.taken {n : Node PeerId} (h : n.Phase F addr tx known) (hrunning : n.running = true)
    {cmd : NetworkCommand} {rest : List NetworkCommand} (hcmd : n.commandRx = cmd :: rest)
    (answers : Answers) :
    Phase F addr tx known
      { n.iterate F S callbacks (.command cmd answers) with commandRx := rest } := by
  have hgrows := grows_iterate F S callbacks n (.command cmd answers) rest
  have hstep := eventLoop_listenStep F S callbacks n.world.loop (.command cmd answers)
  cases h with
  | held _ hrx | answered hrx => simp [hrx] at hcmd
  | closed hstopped => simp [hrunning] at hstopped
  | @queued before _ hrx hbefore hunknown =>
    rw [hrx] at hcmd
    rcases before with _ | ⟨c, before⟩
    · -- the request itself
      obtain ⟨rfl, rfl⟩ := List.cons.inj hcmd
      have hanswer :=
        World.next_answer? F S callbacks n.world (.command (.listen addr tx) answers) tx
      rw [hunknown.unanswered, Option.none_or] at hanswer
      rcases hstep.taken hunknown.pending with
        ⟨hin, hparse⟩ | ⟨multiaddr, e, hin, hparse, hmem⟩ | ⟨hin, hdrop, hpending⟩
      · exact .answered rfl (hanswer.trans hin) ⟨rfl, hparse⟩
      · refine .answered rfl (hanswer.trans hin) (.inl ⟨multiaddr, hparse, ?_⟩)
        exact List.mem_append_right _ hmem
      · refine .held hrunning rfl hpending (hanswer.trans hin) ?_
        exact (World.next_dropsSender ..).trans (by rw [hunknown.kept, hdrop, Bool.false_or])
    · obtain ⟨rfl, rfl⟩ := List.cons.inj hcmd
      refine .queued hrunning rfl (fun d hd => hbefore d (List.mem_cons_of_mem _ hd)) ?_
      exact unknown_next F S callbacks hunknown (hbefore c (List.mem_cons_self ..))

variable (S callbacks) in
/-- A step that does not give the call up keeps it waiting, or ends it with a truthful result. -/
theorem Phase.next {n : Node PeerId} (hwaiting : n.waiting = some tx)
    (hknown : known ≤ n.localAddrs.length) (h : n.Phase F addr tx known) {i : NodeInput PeerId}
    (hcancel : i ≠ .cancel) :
    let m := n.next F S callbacks i
    (m.waiting = some tx ∧ m.returned = n.returned ∧ m.Phase F addr tx known) ∨
    ∃ result, m.returned = n.returned ++ [.listened result] ∧
      m.ListenResult F addr tx known result := by
  have hstep := next_nodeStep F S callbacks n i
  generalize n.next F S callbacks i = m at hstep
  cases hstep with
  | sent hfree | requested hfree | refused hfree | listed hfree => simp [hwaiting] at hfree
  | cancelled => exact absurd rfl hcancel
  | idle => exact .inl ⟨hwaiting, rfl, h⟩
  | reads => exact .inl ⟨hwaiting, rfl, h.reads _ _⟩
  | taken hrunning hrx => exact .inl ⟨hwaiting, rfl, h.taken hrunning hrx _⟩
  | iterated hrunning => exact .inl ⟨hwaiting, rfl, h.iterate hknown hrunning _ _⟩
  | stopped => exact .inl ⟨hwaiting, rfl, h.stopped⟩
  | @answered tx' answer hwaiting' hanswer =>
    obtain rfl := Option.some.inj (hwaiting.symm.trans hwaiting')
    refine .inr ⟨_, rfl, (h.result hanswer).mono ⟨?_, ?_, ?_, id⟩⟩
    · exact List.prefix_append _ _
    · exact List.prefix_rfl
    · exact List.prefix_rfl
  | @closed tx' hwaiting' hanswer hclosed =>
    obtain rfl := Option.some.inj (hwaiting.symm.trans hwaiting')
    exact .inr ⟨_, rfl, .inr (h.not_running hanswer hclosed)⟩

/-- The next result after a call that waits is the result of that call. -/
theorem Phase.exec {me : PeerId} {n : Node PeerId} (hwaiting : n.waiting = some tx)
    (hknown : known ≤ n.localAddrs.length) (h : n.Phase F addr tx known)
    {js : List (NodeInput PeerId)} (hcancel : .cancel ∉ js) {r : Returned}
    (hr : ((machine F S callbacks me).exec n js).returned = n.returned ++ [r]) :
    ∃ result, r = .listened result ∧
      ((machine F S callbacks me).exec n js).ListenResult F addr tx known result := by
  induction js generalizing n with
  | nil => simp at hr
  | cons i js ih =>
    rw [List.mem_cons, not_or] at hcancel
    rw [Machine.exec_cons, machine_next] at hr ⊢
    have hlength := (grows_next F S callbacks n i).localAddrs.length_le
    rcases h.next S callbacks hwaiting hknown (Ne.symm hcancel.1) with
      ⟨hwaiting', hreturned, h'⟩ | ⟨result, hreturned, hresult⟩
    · exact ih hwaiting' (hknown.trans hlength) h' hcancel.2 (by rw [hr, hreturned])
    · -- no later step adds a result
      have hgrows := grows_exec F S callbacks me (n.next F S callbacks i) js
      obtain rfl := returned_of_grows hgrows hreturned hr
      exact ⟨result, rfl, hresult.mono hgrows⟩

/-- In every state that a run reaches with the handle free, a call of `listen` that is not given
up keeps the addresses of before and returns a result of its own: success only after an address
was announced since the call, the error of its own address, or the failure to bind it; it fails
otherwise only when the loop has ended, and never with `AlreadyListening`. -/
theorem listen_returns {me : PeerId} {inputs : List (NodeInput PeerId)}
    (hfree : ((machine F S callbacks me).run inputs).waiting = none) (addr : GlobalAddress)
    {js : List (NodeInput PeerId)} (hcancel : .cancel ∉ js) {r : Returned}
    (hr : ((machine F S callbacks me).run (inputs ++ .listen addr :: js)).returned =
      ((machine F S callbacks me).run inputs).returned ++ [r]) :
    let n := (machine F S callbacks me).run inputs
    let m := (machine F S callbacks me).run (inputs ++ .listen addr :: js)
    n.localAddrs <+: m.localAddrs ∧
      ∃ result, r = .listened result ∧
        m.ListenResult F addr n.nextTx n.localAddrs.length result := by
  have hnumbered := (machine F S callbacks me).run_invariant (numbered_init me)
    (fun n i hn => numbered_next F S callbacks hn i) inputs
  simp only [Machine.run_append, Machine.exec_cons, machine_next] at hr ⊢
  generalize (machine F S callbacks me).run inputs = n at hfree hnumbered hr ⊢
  have hgrows₀ := grows_next F S callbacks n (.listen addr)
  have hgrows := grows_exec F S callbacks me (n.next F S callbacks (.listen addr)) js
  refine ⟨(hgrows₀.trans hgrows).localAddrs, ?_⟩
  by_cases hrunning : n.running = true
  · have hnext : n.next F S callbacks (.listen addr) = { n with
        commandRx := n.commandRx ++ [.listen addr n.nextTx]
        waiting := some n.nextTx
        nextTx := n.nextTx + 1 } := by
      simp only [Node.next, withHandle, hfree, if_true, Node.listen, hrunning]
    have hphase : (n.next F S callbacks (.listen addr)).Phase F addr n.nextTx
        n.localAddrs.length := by
      rw [hnext]
      refine .queued hrunning rfl ?_ (hnumbered.world _ le_rfl)
      intro c hc h
      exact lt_irrefl _ (hnumbered.channel c hc _ h)
    refine hphase.exec ?_ hgrows₀.localAddrs.length_le hcancel (hr.trans ?_)
    · rw [hnext]
    · rw [hnext]
  · -- the call returns at once
    have hstopped := Bool.eq_false_of_not_eq_true hrunning
    have hreturned : (n.next F S callbacks (.listen addr)).returned =
        n.returned ++ [.listened (.error (.bindFailed "Channel closed"))] := by
      simp only [Node.next, withHandle, hfree, if_true, Node.listen, hstopped, Bool.false_eq_true,
        if_false]
    obtain rfl := returned_of_grows hgrows hreturned hr
    exact ⟨_, rfl, .inr (hgrows.stopped (hgrows₀.stopped hstopped))⟩

/-- A call that was given up leaves its request in the channel. -/
def givenUp : List (NodeInput String) := [.listen ⟨"/ip4/0.0.0.0/tcp/0"⟩, .cancel]

/-- Both requests are taken before an address is announced. -/
def secondCall : List (NodeInput String) :=
  [.take { Answers.refused with listenOn := .ok 0 },
    .take { Answers.refused with listenOn := .ok 1 },
    .event (.newListenAddr [.other "ip4" (some "127.0.0.1"), .other "tcp" (some "80")])
      Answers.refused,
    .resume]

theorem listen_returns_secondCall :
    let n := (machine Formats.plain (derived V2.jsonFormat) ⟨false, false⟩ "176").run givenUp
    let m := (machine Formats.plain (derived V2.jsonFormat) ⟨false, false⟩ "176").run
      (givenUp ++ .listen ⟨"/ip4/0.0.0.0/tcp/80"⟩ :: secondCall)
    n.localAddrs <+: m.localAddrs ∧ ∃ result, Returned.listened (.ok ()) = .listened result ∧
      m.ListenResult Formats.plain ⟨"/ip4/0.0.0.0/tcp/80"⟩ n.nextTx n.localAddrs.length result :=
  listen_returns (by decide) _ (by simp [secondCall]) (by decide +kernel)

end Node
end MeerkatNet.V1
