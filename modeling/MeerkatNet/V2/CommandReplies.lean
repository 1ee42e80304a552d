import MeerkatNet.V2.LocalAddresses

/-!
# Replies and the fate of the loop

The loop may have stopped before a command comes, or stop before it answers. A listen
request notices both, since it awaits the answer. A send does not: it is acknowledged
whether or not its channel still has a receiver.
-/

namespace MeerkatNet.V2

open Libp2p KeyedQueues Runs

variable {PeerId : Type} [DecidableEq PeerId] (F : Formats PeerId) (S : Serde)

namespace Node

/-- The loop runs, and its channel takes a command. -/
def Accepts (n : Node PeerId) (cmd : NetworkCommand) : Prop :=
  n.running = true ∧ ∃ c, (n.handleCommand cmd).commandRx = n.commandRx ++ [c]

/-- However the node goes on, the reply to a command reports success only if the loop got the
command, and took it from the channel if it was a request; with a failure, the list of local
addresses is what it was before the command. -/
def RepliesTruly (n : Node PeerId) (cmd : NetworkCommand) : Prop :=
  ∀ me nodeType js request r,
    let m := (machine F S me nodeType).exec (n.next F S (.command cmd)) js
    m.replies = n.replies ++ [(request, r)] →
    match r with
    | .messageSent _ => n.Accepts cmd
    | .listenSuccess _ => n.Accepts cmd ∧ n.nextTx ∈ m.world.requests
    | .localAddresses addrs => cmd = .getLocalAddresses ∧ addrs = n.actor.localAddrs
    | .failure _ => m.actor.localAddrs = n.actor.localAddrs

/-! ### Replies in the order of commands -/

/-- A step adds replies behind the others, and changes the local addresses only with one. -/
theorem replies_grow_next (n : Node PeerId) (i : NodeInput PeerId) :
    n.replies <+: (n.next F S i).replies ∧ ((n.next F S i).replies = n.replies →
      (n.next F S i).actor.localAddrs = n.actor.localAddrs) := by
  have hstep := next_nodeStep F S n i
  generalize n.next F S i = n' at hstep
  cases hstep with
  | issued | listed | failed => exact ⟨List.prefix_append _ _, fun _ => rfl⟩
  | listened => exact ⟨List.prefix_append _ _, fun h => by simp at h⟩
  | _ => exact ⟨List.prefix_rfl, fun _ => rfl⟩

theorem replies_grow_exec (me : PeerId) (nodeType : NodeType) (n : Node PeerId)
    (js : List (NodeInput PeerId)) :
    n.replies <+: ((machine F S me nodeType).exec n js).replies ∧
      (((machine F S me nodeType).exec n js).replies = n.replies →
        ((machine F S me nodeType).exec n js).actor.localAddrs = n.actor.localAddrs) := by
  apply (machine F S me nodeType).exec_invariant
    (P := fun m => n.replies <+: m.replies ∧
      (m.replies = n.replies → m.actor.localAddrs = n.actor.localAddrs))
  · rintro m i ⟨hpre, hsame⟩
    obtain ⟨hpre', hsame'⟩ := replies_grow_next F S m i
    refine ⟨hpre.trans hpre', ?_⟩
    intro h
    -- nothing was added before the last step
    have hback : m.replies = n.replies := by
      apply (hpre.eq_of_length_le ?_).symm
      rw [← h]
      exact hpre'.length_le
    exact (hsame' (h.trans hback.symm)).trans (hsame hback)
  · exact ⟨List.prefix_rfl, fun _ => rfl⟩

/-- The reply that a step adds is the reply that a run with one more reply ends with. -/
theorem reply_of_exec {me : PeerId} {nodeType : NodeType} {n m : Node PeerId}
    {js : List (NodeInput PeerId)} {request request' : Option ReplyTx} {r r' : NetworkReply}
    (hm : m.replies = n.replies ++ [(request, r)])
    (h : ((machine F S me nodeType).exec m js).replies = n.replies ++ [(request', r')]) :
    r' = r ∧ ((machine F S me nodeType).exec m js).actor.localAddrs = m.actor.localAddrs := by
  obtain ⟨hpre, hsame⟩ := replies_grow_exec F S me nodeType m js
  have heq : ((machine F S me nodeType).exec m js).replies = m.replies := by
    apply (hpre.eq_of_length_le ?_).symm
    rw [h, hm, List.length_append, List.length_append, List.length_singleton,
      List.length_singleton]
  refine ⟨?_, hsame heq⟩
  have hlast := heq.symm.trans h
  rw [hm] at hlast
  obtain ⟨-, hr⟩ := Prod.mk.inj (List.singleton_inj.mp (List.append_cancel_left hlast))
  exact hr.symm

theorem requests_exec {me : PeerId} {nodeType : NodeType} {n : Node PeerId}
    {js : List (NodeInput PeerId)} {tx : ReplyTx} (h : tx ∈ n.world.requests) :
    tx ∈ ((machine F S me nodeType).exec n js).world.requests := by
  refine (machine F S me nodeType).exec_invariant (P := fun m => tx ∈ m.world.requests)
    (fun m i hm => ?_) h js
  rw [machine_next, next_world]
  cases m.iteration? i with
  | none => exact hm
  | some j => simp [hm]

theorem awaits_run (me : PeerId) (nodeType : NodeType) (inputs : List (NodeInput PeerId)) :
    ((machine F S me nodeType).run inputs).Awaits :=
  (machine F S me nodeType).run_invariant (awaits_init me nodeType)
    (fun _ i hn => awaits_next F S hn i) inputs

/-- While the actor awaits a request that has no answer unless `R` holds, the reply that ends the
waiting is a success only if `R` holds and the loop took the request. -/
theorem awaited_reply {me : PeerId} {nodeType : NodeType} {R : Prop} {n : Node PeerId}
    {tx : ReplyTx} (hawaits : n.Awaits) (hwaiting : n.waiting = some tx)
    (hR : ¬ R → n.running = false ∧ tx ∉ n.world.settled) {js : List (NodeInput PeerId)}
    {request : Option ReplyTx} {r : NetworkReply}
    (h : ((machine F S me nodeType).exec n js).replies = n.replies ++ [(request, r)]) :
    (∃ addr, r = .listenSuccess addr ∧ R ∧
      tx ∈ ((machine F S me nodeType).exec n js).world.requests) ∨
    ∃ text, r = .failure text ∧
      ((machine F S me nodeType).exec n js).actor.localAddrs = n.actor.localAddrs := by
  induction js generalizing n with
  | nil => simp at h
  | cons i js ih =>
    have hnext := awaits_next F S hawaits i
    have hstep := next_nodeStep F S n i
    rw [Machine.exec_cons, machine_next] at h ⊢
    generalize n.next F S i = n' at hstep hnext h
    cases hstep with
    | issued hfree | requested hfree | listed hfree => simp [hwaiting] at hfree
    | @listened tx' addr hwaiting' hanswer =>
      obtain rfl := Option.some.inj (hwaiting.symm.trans hwaiting')
      have hsettled := mem_settled_of_reply (mem_effects_of_answer? hanswer)
      have hlast := reply_of_exec F S rfl h
      refine .inl ⟨addr, hlast.1, ?_, requests_exec F S ?_⟩
      · by_contra hnot
        exact (hR hnot).2 hsettled
      · exact hawaits.perm.subset (List.mem_append_right _ hsettled)
    | @failed tx' text hwaiting' hclosed =>
      have hlast := reply_of_exec F S rfl h
      exact .inr ⟨text, hlast.1, hlast.2⟩
    | taken hrunning | iterated hrunning =>
      refine ih hnext hwaiting (fun hnot => ?_) h
      exact absurd (hR hnot).1 (by simp [hrunning])
    | stopped => exact ih hnext hwaiting (fun hnot => ⟨rfl, (hR hnot).2⟩) h
    | _ => exact ih hnext hwaiting hR h

omit [DecidableEq PeerId] in
theorem handleCommand_sendMessage_replies (n : Node PeerId) (addr : Address)
    (msg : MeerkatMessage) :
    ∃ localAddr, (n.handleCommand (.sendMessage addr msg)).replies =
        n.replies ++ [(none, .messageSent ⟨n.actor.nextMessageId⟩)] ∧
      (n.handleCommand (.sendMessage addr msg)).commandRx =
        n.queued (.send ⟨n.actor.nextMessageId⟩ localAddr msg) := by
  obtain ⟨localAddr, htranslate⟩ := translateAddress_ok n.actor.nodeType addr
  refine ⟨localAddr, ?_⟩
  simp [handleCommand, sendMessage, htranslate, reply, send_eq, queued]

/-- The reply to a listen request of either kind. -/
theorem request_repliesTruly {me : PeerId} {nodeType : NodeType} {n : Node PeerId}
    (hawaits : n.Awaits) (hfree : n.waiting = none) {cmd : NetworkCommand}
    {c : ReplyTx → SwarmCommand} (hcmd : n.handleCommand cmd = n.request c)
    {js : List (NodeInput PeerId)} {request : Option ReplyTx} {r : NetworkReply}
    (h : ((machine F S me nodeType).exec (n.handleCommand cmd) js).replies =
      n.replies ++ [(request, r)]) :
    (∃ addr, r = .listenSuccess addr ∧ n.Accepts cmd ∧
      n.nextTx ∈ ((machine F S me nodeType).exec (n.handleCommand cmd) js).world.requests) ∨
    ∃ text, r = .failure text ∧
      ((machine F S me nodeType).exec (n.handleCommand cmd) js).actor.localAddrs =
        n.actor.localAddrs := by
  have hnext : (n.handleCommand cmd).Awaits := by
    have hstep := awaits_next F S hawaits (.command cmd)
    simpa only [next, hfree, if_true] using hstep
  have hrequest : n.request c = { n with
      commandRx := n.queued (c n.nextTx)
      waiting := some n.nextTx
      nextTx := n.nextTx + 1 } := by rw [Node.request, send_eq]
  have haccepts : n.running = true → n.Accepts cmd := by
    intro hrunning
    exact ⟨hrunning, c n.nextTx, by rw [hcmd, hrequest]; simp [queued, hrunning]⟩
  have hunsettled : n.nextTx ∉ n.world.settled := by
    intro hmem
    exact lt_irrefl _ (hawaits.bound _ (hawaits.perm.subset (List.mem_append_right _ hmem)))
  have hreply := awaited_reply F S (R := n.running = true) hnext
    (by rw [hcmd, hrequest]) (fun hnot => by rw [hcmd, hrequest]; exact
      ⟨Bool.eq_false_of_not_eq_true hnot, hunsettled⟩) (by rw [h, hcmd, hrequest])
  rcases hreply with ⟨addr, rfl, hrunning, htaken⟩ | ⟨text, rfl, hsame⟩
  · exact .inl ⟨addr, rfl, haccepts hrunning, htaken⟩
  · refine .inr ⟨text, rfl, hsame.trans ?_⟩
    rw [hcmd, hrequest]

end Node
end MeerkatNet.V2
