import MeerkatNet.V1.ListenCalls
import MeerkatNet.V1.Lockstep
import MeerkatNet.V2.Readers

/-!
# The two nodes in step

A node of the first crate and a server node of the newer one, given the same calls and
the same steps of their tasks. Where every send names at most one peer, their calls
return alike, their loops do the same, and what the first one passes to `on_message` is
what the newer one posts, less the messages that only the newer crate knows. A loop that
has ended is noticed by different calls, so it goes on here.
-/

namespace MeerkatNet.V1

open Libp2p KeyedQueues Runs Framing TaggedData
open V2 (Answers Report)

variable {PeerId : Type}

/-- The message of the first crate, if the newer crate's message is one of its. -/
def MeerkatMessage.ofV2? : V2.MeerkatMessage → Option MeerkatMessage
  | .ping content => some (.ping content)
  | .pong content => some (.pong content)
  | .announce peerAddr => some (.announce ⟨peerAddr.text⟩)
  | .transaction _ _ | .propagation _ _ => none

/-- A message that a reader has posted, if the first crate knows it. -/
def received1? : V2.NetworkEvent → Option (String × MeerkatMessage)
  | .messageReceived peer msg => (MeerkatMessage.ofV2? msg).map (peer, ·)
  | _ => none

/-- The result of a call and the reply to the corresponding command. -/
def Agrees : Returned → V2.NetworkReply → Prop
  | .sent id, .messageSent id' => id' = id.toV2
  | .listened (.ok ()), .listenSuccess _ => True
  | .listened (.error _), .failure _ => True
  | .addresses addrs, .localAddresses addrs' => ∀ addr ∈ addrs', addr ∈ addrs.map GlobalAddress.toV2
  | _, _ => False

/-- What both nodes are fed in one step. -/
inductive NodeFed (PeerId : Type) where
  | send (addr : GlobalAddress) (msg : MeerkatMessage)
  | listen (addr : GlobalAddress)
  | localAddresses
  | resume
  | take (answers : Answers)
  | event (ev : V2.SwarmEvent PeerId) (answers : Answers)
  | accept (peer : PeerId)
  | arrive (reader : ℕ) (bytes : List UInt8)
  | read (reader : ℕ)
  | fail (reader : ℕ)

namespace NodeFed

def toV1 : NodeFed PeerId → NodeInput PeerId
  | .send addr msg => .send addr msg
  | .listen addr => .listen addr
  | .localAddresses => .localAddresses
  | .resume => .resume
  | .take answers => .take answers
  | .event ev answers => .event (seen ev) answers
  | .accept peer => .accept peer
  | .arrive k bytes => .arrive k bytes
  | .read k => .read k
  | .fail k => .fail k

def toV2 : NodeFed PeerId → V2.NodeInput PeerId
  | .send addr msg => .command (.sendMessage addr.toV2 msg.toV2)
  | .listen addr => .command (.listen addr.toV2)
  | .localAddresses => .command .getLocalAddresses
  | .resume => .resume
  | .take answers => .take answers
  | .event ev answers => .event ev answers
  | .accept peer => .accept peer
  | .arrive k bytes => .arrive k bytes
  | .read k => .read k
  | .fail k => .fail k

/-- A send to an address with at most one peer id. -/
def OnePeer (F : Formats PeerId) : NodeFed PeerId → Prop
  | .send addr msg => ∀ id answers, Fed.OnePeer F (.command (.send id addr msg) answers)
  | _ => True

instance (F : Formats PeerId) (i : NodeFed PeerId) : Decidable (i.OnePeer F) :=
  match i with
  | .send addr msg =>
    decidable_of_iff (Fed.OnePeer F (.command (.send ⟨0⟩ addr msg) Answers.refused))
      ⟨fun h _ _ => h, fun h => h _ _⟩
  | .listen _ | .localAddresses | .resume | .take _ | .event _ _ | .accept _ | .arrive _ _
  | .read _ | .fail _ => inferInstanceAs (Decidable True)

end NodeFed

/-! ### Reading alike -/

/-- What the first crate decodes is what the newer one decodes, if that is a message it knows. -/
def ReadsAlike (S : Serde) (T : V2.Serde) : Prop :=
  ∀ data, (S.fromSlice data).toOption = (T.fromSlice data).toOption.bind MeerkatMessage.ofV2?

theorem fromTagged_ofV2 (v : Tagged) :
    (MeerkatMessage.fromTagged v).toOption =
      (V2.MeerkatMessage.fromTagged v).toOption.bind MeerkatMessage.ofV2? := by
  obtain ⟨variant, fields⟩ := v
  unfold MeerkatMessage.fromTagged V2.MeerkatMessage.fromTagged
  dsimp only
  split
  · cases Tagged.textField ⟨"Ping", fields⟩ "content" <;> rfl
  · cases Tagged.textField ⟨"Pong", fields⟩ "content" <;> rfl
  · cases Tagged.textField ⟨"Announce", fields⟩ "peer_addr" <;> rfl
  · rename_i hping hpong hannounce
    split
    · exact absurd rfl hping
    · exact absurd rfl hpong
    · exact absurd rfl hannounce
    · cases Tagged.numberField ⟨"Transaction", fields⟩ "tx_id" with
      | error e => rfl
      | ok txId => cases Tagged.bytesField ⟨"Transaction", fields⟩ "payload" <;> rfl
    · cases Tagged.numberField ⟨"Propagation", fields⟩ "var_id" with
      | error e => rfl
      | ok varId => cases Tagged.bytesField ⟨"Propagation", fields⟩ "new_value" <;> rfl
    · rfl

theorem readsAlike_derived (J : Format) : ReadsAlike (derived J) (V2.derived J) := by
  intro data
  simp only [derived, V2.derived]
  cases J.parse data with
  | error e => rfl
  | ok v => exact fromTagged_ofV2 v

/-! ### Answers to listen requests -/

/-- A search among the effects that is also one among the reports. -/
theorem map_findSome?_eq {α β γ δ : Type} {f : α → Option β} {g : β → γ} {r : α → Option δ}
    {h : δ → Option γ} (heq : ∀ e, (f e).map g = (r e).bind h) (es : List α) :
    (es.findSome? f).map g = (es.filterMap r).findSome? h := by
  induction es with
  | nil => rfl
  | cons e es ih =>
    have hhead := heq e
    rw [List.findSome?_cons, List.filterMap_cons]
    cases hf : f e with
    | some b =>
      cases hr : r e with
      | none => simp [hf, hr] at hhead
      | some d =>
        have hd : h d = some (g b) := by simpa [hf, hr] using hhead.symm
        simp [hd]
    | none =>
      cases hr : r e with
      | none => simpa using ih
      | some d =>
        have hd : h d = none := by simpa [hf, hr] using hhead.symm
        simpa [hd] using ih

theorem any_eq {α δ : Type} {p : α → Bool} {r : α → Option δ} {q : δ → Bool}
    (heq : ∀ e, p e = (r e).any q) (es : List α) : es.any p = (es.filterMap r).any q := by
  induction es with
  | nil => rfl
  | cons e es ih =>
    rw [List.any_cons, List.filterMap_cons, heq, ih]
    cases r e <;> simp

/-- The reports of both loops determine what a request was answered. -/
theorem Simulates.answer? {w : World PeerId} {v : V2.World PeerId} (h : Simulates w v)
    (tx : ResponseTx) :
    (v.answer? tx).map Except.toOption =
      (w.answer? tx).map fun answer => answer.toOption.map GlobalAddress.toV2 := by
  let first : Report PeerId → Option (Option V2.Address) :=
    fun r => r.answered?.bind fun a => if a.1 = tx then some a.2 else none
  have hnew : (v.answer? tx).map Except.toOption = v.reports.findSome? first := by
    apply map_findSome?_eq
    intro e
    cases e with
    | event e => cases e <;> rfl
    | reply tx' answer =>
      by_cases htx : tx' = tx <;> simp [V2.Effect.report?, first, Report.answered?, htx]
    | _ => rfl
  have hold : ((w.answer? tx).map fun answer => answer.toOption.map GlobalAddress.toV2) =
      w.reports.findSome? first := by
    apply map_findSome?_eq
    intro e
    cases e with
    | reply tx' answer =>
      by_cases htx : tx' = tx <;> simp [Effect.report?, first, Report.answered?, htx]
    | _ => rfl
  rw [hnew, hold, h.reports]

theorem Simulates.dropsSender {w : World PeerId} {v : V2.World PeerId} (h : Simulates w v)
    (tx : ResponseTx) : v.dropsSender tx = w.dropsSender tx := by
  let drops : Report PeerId → Bool
    | .dropped tx' => decide (tx' = tx)
    | _ => false
  have hnew : v.dropsSender tx = v.reports.any drops := by
    apply any_eq
    intro e
    cases e with
    | event e => cases e <;> rfl
    | _ => rfl
  have hold : w.dropsSender tx = w.reports.any drops := by
    apply any_eq
    intro e
    cases e <;> rfl
  rw [hnew, hold, h.reports]

/-- An address that answers a request is in the list of addresses. -/
theorem ListenStep.listed {F : Formats PeerId} {s s' : LoopState PeerId} {i : Input PeerId}
    {es : List (Effect PeerId)} (hstep : ListenStep F s i s' es) {tx : ResponseTx}
    {addr : GlobalAddress} (h : answerIn tx es = some (.ok addr)) : addr ∈ s'.localAddrs := by
  cases hstep with
  | aside _ _ hes => simp [answerIn_of_aside hes tx] at h
  | invalid | refused => simp [answerIn] at h
  | @listening addr' tx' answers multiaddr l hparse =>
    cases hs : s.pendingListen <;> simp [answerIn, dropped, hs] at h
  | announced =>
    cases hs : s.pendingListen with
    | none => simp [answerIn, hs] at h
    | some old =>
      simp only [answerIn, hs, Option.map_some, Option.toList_some, List.findSome?_cons] at h
      split_ifs at h
      · simp_all
      · simp at h

/-! ### Nodes -/

/-- Corresponding parts of two nodes whose loops run. -/
structure NodeSimulates (F : Formats PeerId) (n : Node PeerId) (v : V2.Node PeerId) : Prop where
  loops : Simulates n.world v.world
  running : n.running = true ∧ v.running = true
  server : v.actor.nodeType = .server
  counter : v.actor.nextMessageId = n.nextMessageId
  commandRx : v.commandRx = n.commandRx.map NetworkCommand.toV2
  onePeer : ∀ cmd ∈ n.commandRx, ∀ answers, Fed.OnePeer F (.command cmd answers)
  waiting : v.waiting = n.waiting
  nextTx : v.nextTx = n.nextTx
  returned : List.Forall₂ Agrees n.returned (v.replies.map Prod.snd)
  readers : v.readers = n.readers
  called : n.called = v.posted.filterMap fun p => received1? p.event
  answered : ∀ tx addr, n.world.answer? tx = some (.ok addr) → addr ∈ n.localAddrs
  listed : ∀ addr ∈ v.actor.localAddrs, addr ∈ n.localAddrs.map GlobalAddress.toV2

/-- The results of two calls, behind those of the calls before. -/
theorem agrees_concat {rs : List Returned} {rs' : List (Option V2.ReplyTx × V2.NetworkReply)}
    (h : List.Forall₂ Agrees rs (rs'.map Prod.snd)) {r : Returned} {request : Option V2.ReplyTx}
    {r' : V2.NetworkReply} (hr : Agrees r r') :
    List.Forall₂ Agrees (rs ++ [r]) ((rs' ++ [(request, r')]).map Prod.snd) := by
  rw [List.map_append]
  exact List.rel_append h (.cons hr .nil)

theorem nodeSimulates_init (F : Formats PeerId) (me : PeerId) :
    NodeSimulates F (Node.init me) (V2.Node.init me .server) where
  loops := ⟨⟨rfl, rfl, rfl⟩, rfl⟩
  running := ⟨rfl, rfl⟩
  server := rfl
  counter := rfl
  commandRx := rfl
  onePeer _ h := absurd h List.not_mem_nil
  waiting := rfl
  nextTx := rfl
  returned := .nil
  readers := rfl
  called := rfl
  answered _ _ h := by simp [Node.init, World.init, World.answer?, answerIn] at h
  listed _ h := absurd h List.not_mem_nil

namespace NodeSimulates

variable {F : Formats PeerId} {n : Node PeerId} {v : V2.Node PeerId}

theorem send (h : NodeSimulates F n v) {addr : GlobalAddress} {msg : MeerkatMessage}
    (hone : NodeFed.OnePeer F (.send addr msg)) :
    NodeSimulates F (n.send addr msg) (v.handleCommand (.sendMessage addr.toV2 msg.toV2)) := by
  have hsend : v.handleCommand (.sendMessage addr.toV2 msg.toV2) = { v with
      actor := { v.actor with nextMessageId := v.actor.nextMessageId + 1 }
      issued := v.issued ++ [⟨⟨v.actor.nextMessageId⟩, addr.toV2, msg.toV2⟩]
      commandRx := v.commandRx ++ [.send ⟨v.actor.nextMessageId⟩ addr.toV2 msg.toV2]
      replies := v.replies ++ [(none, .messageSent ⟨v.actor.nextMessageId⟩)] } := by
    simp [V2.Node.handleCommand, V2.Node.sendMessage, h.server, V2.translateAddress,
      V2.Node.send_eq, V2.Node.queued, h.running.2, V2.Node.reply]
  have hrx : (n.send addr msg).commandRx =
      n.commandRx ++ [.send ⟨n.nextMessageId⟩ addr msg] := by
    simp [Node.send, h.running.1]
  rw [hsend]
  refine ⟨h.loops, h.running, h.server, congrArg (· + 1) h.counter, ?_, ?_, h.waiting, h.nextTx,
    agrees_concat h.returned (congrArg V2.MessageId.mk h.counter), h.readers, h.called, h.answered,
    h.listed⟩
  · rw [hrx, List.map_append, ← h.commandRx, h.counter]
    rfl
  · intro cmd hcmd answers
    rw [hrx] at hcmd
    rcases List.mem_append.mp hcmd with hcmd | hcmd
    · exact h.onePeer cmd hcmd answers
    · obtain rfl := List.mem_singleton.mp hcmd
      exact hone _ answers

theorem listen (h : NodeSimulates F n v) (addr : GlobalAddress) :
    NodeSimulates F (n.listen addr) (v.handleCommand (.listen addr.toV2)) := by
  have hlisten : v.handleCommand (.listen addr.toV2) = { v with
      commandRx := v.commandRx ++ [.listen addr.toV2 v.nextTx]
      waiting := some v.nextTx
      nextTx := v.nextTx + 1 } := by
    simp [V2.Node.handleCommand, V2.Node.request, V2.Node.send_eq, V2.Node.queued, h.running.2]
  have hlisten' : n.listen addr = { n with
      commandRx := n.commandRx ++ [.listen addr n.nextTx]
      waiting := some n.nextTx
      nextTx := n.nextTx + 1 } := by
    simp [Node.listen, h.running.1]
  rw [hlisten, hlisten']
  refine ⟨h.loops, h.running, h.server, h.counter, ?_, ?_, congrArg some h.nextTx,
    congrArg (· + 1) h.nextTx, h.returned, h.readers, h.called, h.answered, h.listed⟩
  · rw [List.map_append, ← h.commandRx, h.nextTx]
    rfl
  · intro cmd hcmd answers
    rcases List.mem_append.mp hcmd with hcmd | hcmd
    · exact h.onePeer cmd hcmd answers
    · obtain rfl := List.mem_singleton.mp hcmd
      exact trivial

theorem localAddresses (h : NodeSimulates F n v) :
    NodeSimulates F n.localAddresses (v.handleCommand .getLocalAddresses) :=
  ⟨h.loops, h.running, h.server, h.counter, h.commandRx, h.onePeer, h.waiting, h.nextTx,
    agrees_concat h.returned h.listed, h.readers, h.called, h.answered, h.listed⟩

/-- The awaited request is answered alike. -/
theorem resume (h : NodeSimulates F n v) : NodeSimulates F n.resume v.resume := by
  unfold Node.resume V2.Node.resume
  rw [h.waiting]
  cases hwaiting : n.waiting with
  | none => exact h
  | some tx =>
    have hanswer := h.loops.answer? tx
    dsimp only
    cases hold : n.world.answer? tx with
    | none =>
      have hnew : v.world.answer? tx = none := by simpa [hold] using hanswer
      simp only [hnew, h.loops.dropsSender tx, h.running.1, h.running.2]
      split_ifs
      · exact ⟨h.loops, ⟨rfl, rfl⟩, h.server, h.counter, h.commandRx, h.onePeer, rfl, h.nextTx,
          agrees_concat h.returned trivial, h.readers, h.called, h.answered, h.listed⟩
      · exact h
    | some answer =>
      cases answer with
      | error e =>
        obtain ⟨e', hnew⟩ : ∃ e', v.world.answer? tx = some (.error e') := by
          rcases hnew : v.world.answer? tx with _ | e' | addr <;> simp_all [Except.toOption]
        simp only [hnew]
        exact ⟨h.loops, h.running, h.server, h.counter, h.commandRx, h.onePeer, rfl, h.nextTx,
          agrees_concat h.returned trivial, h.readers, h.called, h.answered, h.listed⟩
      | ok addr =>
        have hnew : v.world.answer? tx = some (.ok addr.toV2) := by
          rcases hnew : v.world.answer? tx with _ | e' | addr' <;> simp_all [Except.toOption]
        simp only [hnew]
        refine ⟨h.loops, h.running, h.server, h.counter, h.commandRx, h.onePeer, rfl, h.nextTx,
          agrees_concat h.returned trivial, h.readers, h.called, h.answered, ?_⟩
        intro addr' haddr'
        rcases List.mem_append.mp haddr' with hmem | hmem
        · exact h.listed addr' hmem
        · rw [List.mem_singleton.mp hmem]
          exact List.mem_map_of_mem (h.answered tx addr hold)

theorem withReaders (h : NodeSimulates F n v) {readers : List (V2.Reader PeerId)}
    {called : List (String × MeerkatMessage)} {posted : List V2.Posted}
    (hcalled : called = posted.filterMap fun p => received1? p.event) :
    NodeSimulates F { n with readers := readers, called := called }
      { v with readers := readers, posted := posted } :=
  ⟨h.loops, h.running, h.server, h.counter, h.commandRx, h.onePeer, h.waiting, h.nextTx,
    h.returned, rfl, hcalled, h.answered, h.listed⟩

variable {S : Serde} {T : V2.Serde}

/-- Both nodes read one arrived frame, and pass on the same message if both know it. -/
theorem read (h : NodeSimulates F n v) (hreads : ReadsAlike S T) (k : ℕ)
    (r : V2.Reader PeerId) :
    NodeSimulates F (n.handleIncomingStream F S k r) (v.handleIncoming F T k r) := by
  unfold Node.handleIncomingStream V2.Node.handleIncoming
  rw [V2.recvMessage, received?]
  cases hframe : readFrame r.arrived with
  | none => exact h
  | some frame =>
    have halike := hreads frame.1
    simp only [Option.map_some]
    cases hnew : T.fromSlice frame.1 with
    | error e =>
      obtain ⟨e', hold⟩ : ∃ e', S.fromSlice frame.1 = .error e' := by
        cases hold : S.fromSlice frame.1 <;> simp_all [Except.toOption]
      simp only [hold, Node.setReader, V2.Node.setReader, h.readers]
      exact h.withReaders h.called
    | ok msg =>
      cases hknown : MeerkatMessage.ofV2? msg with
      | none =>
        -- a message of the newer crate alone
        obtain ⟨e', hold⟩ : ∃ e', S.fromSlice frame.1 = .error e' := by
          cases hold : S.fromSlice frame.1 <;> simp_all [Except.toOption]
        simp only [hold, Node.setReader, V2.Node.setReader, h.readers]
        refine h.withReaders ?_
        rw [List.filterMap_append, ← h.called]
        simp [received1?, hknown]
      | some msg' =>
        have hold : S.fromSlice frame.1 = .ok msg' := by
          cases hold : S.fromSlice frame.1 <;> simp_all [Except.toOption]
        simp only [hold, Node.setReader, V2.Node.setReader, h.readers]
        refine h.withReaders ?_
        rw [List.filterMap_append, ← h.called]
        simp [received1?, hknown]

/-- A step of a reader that both nodes have. -/
theorem withReader (h : NodeSimulates F n v) (k : ℕ) {f : V2.Reader PeerId → Node PeerId}
    {g : V2.Reader PeerId → V2.Node PeerId} (hfg : ∀ r, NodeSimulates F (f r) (g r)) :
    NodeSimulates F (n.withReader k f) (v.withReader k g) := by
  unfold Node.withReader V2.Node.withReader
  rw [h.readers]
  cases n.readers[k]? with
  | none => exact h
  | some r =>
    dsimp only
    split_ifs
    · exact hfg r
    · exact h

theorem setReader (h : NodeSimulates F n v) (k : ℕ) (r : V2.Reader PeerId) :
    NodeSimulates F (n.setReader k r) (v.setReader k r) := by
  rw [Node.setReader, V2.Node.setReader, h.readers]
  exact h.withReaders h.called

variable [DecidableEq PeerId] {callbacks : NetworkCallbacks}

theorem iterate (h : NodeSimulates F n v) (hsend : SendsAlike S T) {i : Fed PeerId}
    (hone : i.OnePeer F) {rest : List NetworkCommand} (hrest : ∀ cmd ∈ rest, cmd ∈ n.commandRx) :
    NodeSimulates F { n.iterate F S callbacks i.toV1 with commandRx := rest }
      { v.iterate F T i.toV2 with commandRx := rest.map NetworkCommand.toV2 } := by
  have hstep := eventLoop_listenStep F S callbacks n.world.loop i.toV1
  have hgrows : ∀ addr ∈ n.localAddrs,
      addr ∈ (n.world.next F S callbacks i.toV1).loop.localAddrs := hstep.localAddrs.subset
  refine ⟨next_simulates hsend h.loops hone, h.running, h.server, h.counter, rfl,
    fun cmd hcmd => h.onePeer cmd (hrest cmd hcmd), h.waiting, h.nextTx, h.returned, h.readers,
    ?_, ?_, ?_⟩
  · -- the loop posts no message
    have hreceives := (V2.eventLoop_sendStep F T v.world.loop i.toV2).receives F T
    have hnone : (((V2.eventLoop F T v.world.loop i.toV2).2.filterMap V2.Effect.event?).map
        (V2.Posted.mk none)).filterMap (fun p => received1? p.event) = [] := by
      apply List.filterMap_eq_nil_iff.mpr
      intro p hp
      obtain ⟨e, he, rfl⟩ := List.mem_map.mp hp
      obtain ⟨eff, heff, hevent⟩ := List.mem_filterMap.mp he
      have hnot := hreceives eff heff
      cases eff with
      | event ev =>
        obtain rfl := Option.some.inj hevent
        cases ev with
        | messageReceived => exact absurd trivial hnot
        | _ => rfl
      | _ => simp [V2.Effect.event?] at hevent
    change n.called = (v.posted ++ _).filterMap _
    rw [List.filterMap_append, hnone, List.append_nil]
    exact h.called
  · intro tx addr hanswer
    change (n.world.next F S callbacks i.toV1).answer? tx = _ at hanswer
    rw [World.next_answer?, Option.or_eq_some_iff] at hanswer
    rcases hanswer with hold | ⟨-, hnew⟩
    · exact hgrows addr (h.answered tx addr hold)
    · exact hstep.listed hnew
  · intro addr haddr
    obtain ⟨a, ha, rfl⟩ := List.mem_map.mp (h.listed addr haddr)
    exact List.mem_map_of_mem (hgrows a ha)

theorem take (h : NodeSimulates F n v) (hsend : SendsAlike S T) (answers : Answers) :
    NodeSimulates F (n.next F S callbacks (.take answers)) (v.next F T (.take answers)) := by
  simp only [Node.next, V2.Node.next, V2.Node.iteration?, h.running.1, h.running.2, if_true,
    h.commandRx]
  cases hrx : n.commandRx with
  | nil => exact h
  | cons cmd rest =>
    have hmem : cmd ∈ n.commandRx := by simp [hrx]
    refine h.iterate hsend (i := .command cmd answers) (h.onePeer cmd hmem answers) ?_
    intro c hc
    rw [hrx]
    exact List.mem_cons_of_mem _ hc

theorem event (h : NodeSimulates F n v) (hsend : SendsAlike S T) (ev : V2.SwarmEvent PeerId)
    (answers : Answers) :
    NodeSimulates F (n.next F S callbacks (.event (seen ev) answers))
      (v.next F T (.event ev answers)) := by
  have hone : Fed.OnePeer F (.event ev answers) := trivial
  have hiterate : NodeSimulates F
      { n.iterate F S callbacks (.event (seen ev) answers) with commandRx := n.commandRx }
      { v.iterate F T (.event ev answers) with
        commandRx := n.commandRx.map NetworkCommand.toV2 } :=
    h.iterate hsend hone fun _ hcmd => hcmd
  rw [← h.commandRx] at hiterate
  simp only [Node.next, V2.Node.next, V2.Node.iteration?, h.running.1, h.running.2, if_true]
  exact hiterate

theorem next (h : NodeSimulates F n v) (hsend : SendsAlike S T) (hreads : ReadsAlike S T)
    {i : NodeFed PeerId} (hone : i.OnePeer F) :
    NodeSimulates F (n.next F S callbacks i.toV1) (v.next F T i.toV2) := by
  cases i with
  | send addr msg =>
    simp only [NodeFed.toV1, NodeFed.toV2, Node.next, V2.Node.next, Node.withHandle, h.waiting]
    split_ifs
    · exact h.send hone
    · exact h
  | listen addr =>
    simp only [NodeFed.toV1, NodeFed.toV2, Node.next, V2.Node.next, Node.withHandle, h.waiting]
    split_ifs
    · exact h.listen addr
    · exact h
  | localAddresses =>
    simp only [NodeFed.toV1, NodeFed.toV2, Node.next, V2.Node.next, Node.withHandle, h.waiting]
    split_ifs
    · exact h.localAddresses
    · exact h
  | resume => exact h.resume
  | take answers => exact h.take hsend answers
  | event ev answers => exact h.event hsend ev answers
  | accept peer =>
    simp only [NodeFed.toV1, NodeFed.toV2, Node.next, V2.Node.next]
    rw [if_pos h.running.1, V2.Node.accept, if_pos h.running.2, h.readers]
    exact h.withReaders h.called
  | arrive k bytes => exact h.withReader k fun r => h.setReader k _
  | read k => exact h.withReader k (h.read hreads k)
  | fail k => exact h.withReader k fun r => h.setReader k _

end NodeSimulates

/-- What is alike in two nodes in step. -/
structure NodesInStep (n : Node PeerId) (v : V2.Node PeerId) : Prop where
  loops : InStep n.world v.world
  reports : v.world.reports = n.world.reports
  waiting : v.waiting = n.waiting
  returned : List.Forall₂ Agrees n.returned (v.replies.map Prod.snd)
  called : n.called = v.posted.filterMap fun p => received1? p.event

variable [DecidableEq PeerId]

/-- Given the same calls and the same steps of their tasks, with at most one peer id in the address
of each send, a node of the first crate and a server node of the newer one are in step. -/
theorem nodes_inStep (J : Format) (F : Formats PeerId) (callbacks : NetworkCallbacks)
    (me : PeerId) {inputs : List (NodeFed PeerId)} (hone : ∀ i ∈ inputs, i.OnePeer F) :
    NodesInStep
      ((Node.machine F (derived J) callbacks me).run (inputs.map NodeFed.toV1))
      ((V2.Node.machine F (V2.derived J) me .server).run (inputs.map NodeFed.toV2)) := by
  have hsimulates : NodeSimulates F
      ((Node.machine F (derived J) callbacks me).run (inputs.map NodeFed.toV1))
      ((V2.Node.machine F (V2.derived J) me .server).run (inputs.map NodeFed.toV2)) :=
    Machine.run_lockstep (nodeSimulates_init F me)
      (fun n v i h hi => h.next (sendsAlike_derived J) (readsAlike_derived J) hi) hone
  exact ⟨hsimulates.loops.inStep, hsimulates.loops.reports, hsimulates.waiting,
    hsimulates.returned, hsimulates.called⟩

/-- A listen that is answered, a queued send, and a transaction from a peer. -/
def sampleSteps : List (NodeFed String) :=
  let answers : Answers := ⟨false, .ok 0, .ok 0, fun _ => .opened none "" (.ok ())⟩
  [.listen ⟨"/ip4/0.0.0.0/tcp/0"⟩, .take answers,
    .event (.newListenAddr 0 [.other "ip4" (some "127.0.0.1"), .other "tcp" (some "9000")]) answers,
    .resume, .send ⟨"/ip4/203.0.113.10/tcp/9000/p2p/B"⟩ (.ping "a"), .take answers,
    .event (.connectionEstablished "B" 0) answers, .accept "B",
    .arrive 0 (frame ((V2.jsonText (.transaction 7 [])).flatMap String.utf8EncodeChar)), .read 0,
    .localAddresses]

theorem nodes_inStep_sampleSteps :
    NodesInStep
      ((Node.machine Formats.plain (derived V2.jsonFormat) ⟨true, false⟩ "A").run
        (sampleSteps.map NodeFed.toV1))
      ((V2.Node.machine Formats.plain (V2.derived V2.jsonFormat) "A" .server).run
        (sampleSteps.map NodeFed.toV2)) :=
  nodes_inStep V2.jsonFormat Formats.plain ⟨true, false⟩ "A" (by decide +kernel)

end MeerkatNet.V1
