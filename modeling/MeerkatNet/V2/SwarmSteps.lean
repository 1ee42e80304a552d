import MeerkatNet.V2.World

/-!
# What one iteration does to the swarm

Connections change only by events. A dial or a listener appears only under the id
that the iteration was answered with, so with fresh ids everything under way stays
until an event ends it.
-/

namespace MeerkatNet.V2

open Libp2p KeyedQueues Runs

variable {PeerId : Type}

/-- Neither a dial nor a listen. -/
def Effect.Inert : Effect PeerId → Prop
  | .dial _ _ _ => False
  | .listenOn _ _ _ => False
  | _ => True

/-! ### The calls of an iteration -/

theorem perform_inert {e : Effect PeerId} (h : e.Inert) (sw : Swarm PeerId) :
    sw.perform e = sw := by
  cases e <;> simp_all [Effect.Inert, Swarm.perform]

theorem foldl_perform_inert {es : List (Effect PeerId)} (h : ∀ e ∈ es, e.Inert)
    (sw : Swarm PeerId) : es.foldl Swarm.perform sw = sw := by
  induction es with
  | nil => rfl
  | cons e es ih =>
    rw [List.forall_mem_cons] at h
    rw [List.foldl_cons, perform_inert h.1, ih h.2]

theorem foldl_perform_connections (es : List (Effect PeerId)) (sw : Swarm PeerId) :
    (es.foldl Swarm.perform sw).connections = sw.connections := by
  induction es generalizing sw with
  | nil => rfl
  | cons e es ih =>
    rw [List.foldl_cons, ih]
    unfold Swarm.perform
    split <;> rfl

theorem foldl_perform_dials {es : List (Effect PeerId)} {c : ConnectionId}
    (h : ∀ who addr, .dial who addr (.ok c) ∉ es) (sw : Swarm PeerId) :
    (es.foldl Swarm.perform sw).dials c = sw.dials c := by
  induction es generalizing sw with
  | nil => rfl
  | cons e es ih =>
    rw [List.foldl_cons, ih fun who addr hmem => h who addr (List.mem_cons_of_mem _ hmem)]
    unfold Swarm.perform
    split
    · rename_i who addr c'
      have hne : c ≠ c' := by
        rintro rfl
        exact h who addr (by simp)
      simp [hne]
    · rfl
    · rfl

theorem foldl_perform_listeners {es : List (Effect PeerId)} {l : ListenerId}
    (h : ∀ owner addr, .listenOn owner addr (.ok l) ∉ es) (sw : Swarm PeerId) :
    (es.foldl Swarm.perform sw).listeners l = sw.listeners l := by
  induction es generalizing sw with
  | nil => rfl
  | cons e es ih =>
    rw [List.foldl_cons, ih fun owner addr hmem => h owner addr (List.mem_cons_of_mem _ hmem)]
    unfold Swarm.perform
    split
    · rfl
    · rename_i owner addr l'
      have hne : l ≠ l' := by
        rintro rfl
        exact h owner addr (by simp)
      simp [hne]
    · rfl

/-- A listener after some calls was there before or was started by one of them. -/
theorem foldl_perform_listeners_cases (es : List (Effect PeerId)) (sw : Swarm PeerId)
    (l : ListenerId) :
    (es.foldl Swarm.perform sw).listeners l = sw.listeners l ∨
      ∃ owner addr, .listenOn owner addr (.ok l) ∈ es ∧
        (es.foldl Swarm.perform sw).listeners l = some ⟨owner, addr, [], true⟩ := by
  induction es using List.reverseRecOn with
  | nil => exact .inl rfl
  | append_singleton es e ih =>
    by_cases hmem : ∃ owner addr, e = .listenOn owner addr (.ok l)
    · obtain ⟨owner, addr, rfl⟩ := hmem
      exact .inr ⟨owner, addr, by simp, by simp [Swarm.perform]⟩
    · push Not at hmem
      have hlast : ((es ++ [e]).foldl Swarm.perform sw).listeners l =
          (es.foldl Swarm.perform sw).listeners l := by
        rw [List.foldl_append]
        exact foldl_perform_listeners (fun owner addr h => hmem owner addr (by simp_all)) _
      rw [hlast]
      rcases ih with hsame | ⟨owner, addr, hin, hnew⟩
      · exact .inl hsame
      · exact .inr ⟨owner, addr, List.mem_append_left _ hin, hnew⟩

theorem sendToPeer_inert (S : Serde) (answer : StreamAnswer) (peer : PeerId) (id : MessageId)
    (msg : MeerkatMessage) : ∀ e ∈ sendToPeer S answer peer id msg, e.Inert := by
  unfold sendToPeer
  split
  · simp [Effect.Inert]
  · dsimp only
    split <;> simp [Effect.Inert]

theorem flush_inert (S : Serde) (stream : ℕ → StreamAnswer) (peer : PeerId)
    (messages : List (MessageId × MeerkatMessage)) :
    ∀ e ∈ flush S stream peer messages, e.Inert := by
  apply forall_mem_flush
  intro answer id msg
  exact sendToPeer_inert S answer peer id msg

theorem dropped_inert (old : Option ReplyTx) :
    ∀ e ∈ (dropped old : List (Effect PeerId)), e.Inert := by
  cases old <;> simp [dropped, Effect.Inert]

/-- Every dial and every listen of an iteration carries the answer of that iteration. -/
def Effect.AnsweredBy (answers : Answers) : Effect PeerId → Prop
  | .dial _ _ answer => answer = answers.dial
  | .listenOn _ _ answer => answer = answers.listenOn
  | _ => True

theorem Effect.Inert.answeredBy {e : Effect PeerId} (h : e.Inert) (answers : Answers) :
    e.AnsweredBy answers := by
  cases e <;> simp_all [Effect.Inert, Effect.AnsweredBy]

theorem World.Legal.freshAnswers {w : World PeerId} {i : Input PeerId} (h : w.Legal i) :
    w.FreshAnswers i.answers := by
  cases i with
  | command => exact h
  | event => exact h.1

variable [DecidableEq PeerId] (F : Formats PeerId) (S : Serde)

theorem eventLoop_answeredBy (s : LoopState PeerId) (i : Input PeerId) :
    ∀ e ∈ (eventLoop F S s i).2, e.AnsweredBy i.answers := by
  rcases i with ⟨⟨id, addr, msg⟩ | ⟨addr, tx⟩ | ⟨addr, tx⟩, answers⟩ | ⟨ev, answers⟩
  · simp only [eventLoop, doSend, Input.answers]
    split
    · simp [Effect.AnsweredBy]
    · split
      · simp [Effect.AnsweredBy]
      · split_ifs
        · exact fun e he => (sendToPeer_inert S _ _ _ _ e he).answeredBy answers
        · split <;> simp_all [Effect.AnsweredBy]
  · have hdrop : ∀ e ∈ (dropped s.pendingListen : List (Effect PeerId)), e.Inert :=
      dropped_inert _
    simp only [eventLoop, doListen, Input.answers]
    split
    · simp [Effect.AnsweredBy]
    · split
      · simp_all [Effect.AnsweredBy]
      · rename_i hanswer
        exact List.forall_mem_cons.mpr ⟨hanswer.symm, fun e he => (hdrop e he).answeredBy answers⟩
  · have hdrop : ∀ e ∈ (dropped (s.pendingRelay.map Prod.snd) : List (Effect PeerId)), e.Inert :=
      dropped_inert _
    simp only [eventLoop, doListenViaRelay, Input.answers]
    split
    · simp [Effect.AnsweredBy]
    · split
      · simp_all [Effect.AnsweredBy]
      · rename_i hanswer
        exact List.forall_mem_cons.mpr ⟨hanswer.symm, fun e he => (hdrop e he).answeredBy answers⟩
  · cases ev with
    | connectionEstablished peer c =>
      have hrelay : ∀ e ∈ relayListen F answers s peer, e.AnsweredBy answers := by
        unfold relayListen
        split
        · simp
        · split
          · simp
          · split_ifs <;> simp [Effect.AnsweredBy]
      simp only [eventLoop, handleSwarmEvent, Input.answers]
      split
      · intro e he
        rcases List.mem_append.mp he with he | he
        · rcases List.mem_cons.mp he with rfl | he
          · trivial
          · exact hrelay e he
        · exact (flush_inert S _ _ _ e he).answeredBy answers
      · exact List.forall_mem_cons.mpr ⟨trivial, hrelay⟩
    | newListenAddr l address =>
      simp only [eventLoop, handleSwarmEvent]
      split
      · simp [Effect.AnsweredBy]
      · split <;> simp [Effect.AnsweredBy]
    | connectionClosed | identifyReceived | expiredListenAddr | listenerClosed | listenerError
    | outgoingConnectionError | relayClient | relay | identifyOther | other =>
      simp [eventLoop, handleSwarmEvent, Effect.AnsweredBy]

namespace World

@[simp] theorem next_connections (w : World PeerId) (i : Input PeerId) :
    (w.next F S i).swarm.connections = (w.swarm.react i).connections :=
  foldl_perform_connections _ _

/-- A dial stays in flight until an event ends it. -/
theorem next_dials {w : World PeerId} {i : Input PeerId} (hlegal : w.Legal i)
    {c : ConnectionId} {who : Dialler PeerId} (hdial : w.swarm.dials c = some who)
    (hends : i.ended? ≠ some c) : (w.next F S i).swarm.dials c = some who := by
  have hfresh : ∀ who addr, .dial who addr (.ok c) ∉ (eventLoop F S w.loop i).2 := by
    intro who addr hmem
    have hanswer : Except.ok c = i.answers.dial := eventLoop_answeredBy F S w.loop i _ hmem
    have hnone := hlegal.freshAnswers.1
    simp [← hanswer, hdial] at hnone
  rw [next_swarm, foldl_perform_dials hfresh]
  rcases i with _ | ⟨ev, _⟩
  · exact hdial
  · cases ev <;>
      simp_all [Swarm.react, Swarm.observe, Swarm.updateListener, Input.ended?, Ne.symm]

theorem next_listeners {w : World PeerId} {i : Input PeerId} (hlegal : w.Legal i)
    {l : ListenerId} (hused : (w.swarm.listeners l).isSome) :
    (w.next F S i).swarm.listeners l = (w.swarm.react i).listeners l := by
  refine foldl_perform_listeners (?_) _
  intro owner addr hmem
  have hanswer : Except.ok l = i.answers.listenOn := eventLoop_answeredBy F S w.loop i _ hmem
  have hnone := hlegal.freshAnswers.2
  simp only [← hanswer, Option.isNone_iff_eq_none] at hnone
  simp [hnone] at hused

/-- A listener stays with its owner and its address. It announces more or closes only when the
event of the iteration says so. -/
theorem listener_next {w : World PeerId} {i : Input PeerId} (hlegal : w.Legal i)
    {l : ListenerId} {li : Listener PeerId} (hli : w.swarm.listeners l = some li) :
    ∃ li', (w.next F S i).swarm.listeners l = some li' ∧ li'.owner = li.owner ∧
      li'.addr = li.addr ∧ li.announced <+: li'.announced ∧
      (i.touched? ≠ some l → li' = li) ∧
      ((∀ answers, i ≠ .event (.listenerClosed l) answers) → li'.isOpen = li.isOpen) := by
  rw [next_listeners F S hlegal (by simp [hli])]
  rcases i with _ | ⟨ev, answers⟩
  · exact ⟨li, hli, rfl, rfl, List.prefix_rfl, fun _ => rfl, fun _ => rfl⟩
  · cases ev with
    | newListenAddr l' address =>
      by_cases hl : l = l'
      · subst l'
        refine ⟨{ li with announced := li.announced ++ [address] }, ?_, rfl, rfl,
          List.prefix_append _ _, fun h => absurd rfl h, fun _ => rfl⟩
        simp [Swarm.react, Swarm.observe, Swarm.updateListener, hli]
      · refine ⟨li, ?_, rfl, rfl, List.prefix_rfl, fun _ => rfl, fun _ => rfl⟩
        simp [Swarm.react, Swarm.observe, Swarm.updateListener, hl, hli]
    | listenerClosed l' =>
      by_cases hl : l = l'
      · subst l'
        refine ⟨{ li with isOpen := false }, ?_, rfl, rfl, List.prefix_rfl,
          fun h => absurd rfl h, fun h => absurd rfl (h answers)⟩
        simp [Swarm.react, Swarm.observe, Swarm.updateListener, hli]
      · refine ⟨li, ?_, rfl, rfl, List.prefix_rfl, fun _ => rfl, fun _ => rfl⟩
        simp [Swarm.react, Swarm.observe, Swarm.updateListener, hl, hli]
    | _ => exact ⟨li, hli, rfl, rfl, List.prefix_rfl, fun _ => rfl, fun _ => rfl⟩

end World
end MeerkatNet.V2
