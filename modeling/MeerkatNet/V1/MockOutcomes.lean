import MeerkatNet.V1.Mock

/-!
# Outcomes of mock sends

A thread that finds a listener makes one call, of this listener's `on_message`. One that
finds none ends without a call, since nothing in the mock network calls `on_send_error`.
So every send has an outcome exactly if every thread finds a listener when it runs.
-/

namespace MeerkatNet.V1

open Runs

namespace MockWorld

/-- One call in all: of `on_message` of the node that the thread found listening, with the
sender's id and the message, or of `on_send_error` of the sender, with the id of the send. -/
def OneOutcome (w : MockWorld) (j : ℕ) (t : MockThread) : Prop :=
  (∃ owner, t.looked = some (some owner) ∧
    w.callsBy j = [⟨j, owner, .onMessage t.fromId t.msg⟩]) ∨
  ∃ error, w.callsBy j = [⟨j, t.sender, .onSendError t.msgId error⟩]

/-- Each send of a node of the run has a thread of its own, which captured the sender's id, the
address and the message, and which has one outcome if it has run. -/
def EverySendSettles (inputs : List MockInput) : Prop :=
  ∀ before k addr msg after self, inputs = before ++ .send k addr msg :: after →
    (machine.run before).nodes[k]? = some self →
    let j := (machine.run before).threads.length
    let id := ((machine.run before).send k self addr msg).2
    ∃ looked, (machine.run inputs).threads[j]? =
        some ⟨k, id, self.localId, addr.text, msg, looked⟩ ∧
      (looked ≠ none → (machine.run inputs).OneOutcome j
        ⟨k, id, self.localId, addr.text, msg, looked⟩)

/-- A thread that runs now finds a listener. -/
def FindsListener (w : MockWorld) : MockInput → Prop
  | .run j => ∀ t ∈ w.threads[j]?, t.looked = none → (w.peers t.addr).isSome = true
  | _ => True

instance (w : MockWorld) (i : MockInput) : Decidable (w.FindsListener i) :=
  match i with
  | .run j => inferInstanceAs
      (Decidable (∀ t ∈ w.threads[j]?, t.looked = none → (w.peers t.addr).isSome = true))
  | .new _ | .send _ _ _ | .listen _ _ => inferInstanceAs (Decidable True)

/-! ### Calls and threads -/

/-- The calls by a thread are those of its record. -/
def Recorded (w : MockWorld) : Prop :=
  ∀ j, w.callsBy j = w.threads[j]?.elim [] (MockThread.calls j)

theorem recorded_init : init.Recorded := fun _ => rfl

theorem recorded_next {w : MockWorld} (hw : w.Recorded) (i : MockInput) :
    (w.next i).Recorded := by
  have hstep := w.next_threadStep i
  generalize w.next i = w' at hstep
  intro j
  have hbefore := hw j
  cases hstep with
  | kept hthreads hcalls => rwa [callsBy, hcalls, hthreads]
  | @spawned k self addr msg hself =>
    have hcalls : (w.send k self addr msg).1.callsBy j = w.callsBy j := rfl
    rw [hcalls, hbefore]
    refine (elim_getElem?_concat w.threads _ ?_ j).symm
    -- the new thread has not run
    rfl
  | @delivered j' t ht hwaiting =>
    rw [callsBy, deliver, List.filter_append]
    change w.callsBy j ++ _ = _
    rw [hbefore]
    by_cases hj : j' = j
    · subst hj
      rw [List.getElem?_set_self (List.getElem?_eq_some_iff.mp ht).1, ht]
      cases w.peers t.addr <;> simp [MockThread.calls, hwaiting]
    · rw [List.getElem?_set_ne hj]
      cases w.peers t.addr <;> simp [hj]

theorem recorded_run (inputs : List MockInput) : (machine.run inputs).Recorded :=
  machine.run_invariant recorded_init (fun _ i hw => recorded_next hw i) inputs

/-- Every thread belongs to a send of the run. -/
theorem exists_send {inputs : List MockInput} {j : ℕ} {t : MockThread}
    (h : (machine.run inputs).threads[j]? = some t) :
    ∃ before k addr msg after self, inputs = before ++ .send k addr msg :: after ∧
      (machine.run before).nodes[k]? = some self ∧ (machine.run before).threads.length = j := by
  induction inputs using List.reverseRecOn generalizing t with
  | nil => simp [Machine.run, init] at h
  | append_singleton inputs i ih =>
    rw [Machine.run_concat, machine_next] at h
    have hearlier : ∀ t₀, (machine.run inputs).threads[j]? = some t₀ →
        ∃ before k addr msg after self, inputs ++ [i] = before ++ .send k addr msg :: after ∧
          (machine.run before).nodes[k]? = some self ∧
          (machine.run before).threads.length = j := by
      intro t₀ ht₀
      obtain ⟨before, k, addr, msg, after, self, rfl, hself, hj⟩ := ih ht₀
      exact ⟨before, k, addr, msg, after ++ [i], self, by simp, hself, hj⟩
    rcases thread_source h with hold | ⟨t₀, -, hold, -⟩ | ⟨k, addr, msg, self, rfl, hself, hj, -⟩
    · exact hearlier t hold
    · exact hearlier t₀ hold
    · exact ⟨inputs, k, addr, msg, [], self, rfl, hself, hj.symm⟩

/-- While every thread finds a listener, none has run without one. -/
theorem looked_next {w : MockWorld} {i : MockInput} (hw : ∀ t ∈ w.threads, t.looked ≠ some none)
    (hi : w.FindsListener i) : ∀ t ∈ (w.next i).threads, t.looked ≠ some none := by
  intro t ht
  obtain ⟨j, hj⟩ := List.mem_iff_getElem?.mp ht
  rcases thread_source hj with hold | ⟨t₀, rfl, hold, hwaiting, rfl⟩ |
    ⟨k, addr, msg, self, -, -, -, rfl⟩
  · exact hw t (List.mem_of_getElem? hold)
  · have hfound := hi t₀ hold hwaiting
    intro h
    simp [Option.some.inj h] at hfound
  · simp

/-- The thread of a send in the final state. -/
theorem thread_of_send {before : List MockInput} {k : ℕ} {self : MockNetwork}
    (hself : (machine.run before).nodes[k]? = some self) (addr : GlobalAddress)
    (msg : MeerkatMessage) (after : List MockInput) :
    ∃ looked, (machine.run (before ++ .send k addr msg :: after)).threads[
        (machine.run before).threads.length]? =
      some ⟨k, ((machine.run before).send k self addr msg).2, self.localId, addr.text, msg,
        looked⟩ := by
  have hspawned : ((machine.run before).next (.send k addr msg)).threads[
        (machine.run before).threads.length]? =
      some ⟨k, ((machine.run before).send k self addr msg).2, self.localId, addr.text, msg,
        none⟩ := by
    simp only [next, hself]
    exact List.getElem?_concat_length
  obtain ⟨looked, hlooked, -⟩ := keeps_exec _ after _ _ hspawned
  rw [Machine.run_append, Machine.exec_cons]
  exact ⟨looked, hlooked⟩

/-- A thread that ran without a listener has no outcome. -/
theorem not_oneOutcome {w : MockWorld} (hw : w.Recorded) {j : ℕ} {t : MockThread}
    (ht : w.threads[j]? = some t) (hlooked : t.looked = some none) : ¬ w.OneOutcome j t := by
  have hcalls := hw j
  rw [ht, Option.elim_some, MockThread.calls, hlooked] at hcalls
  rintro (⟨owner, hfound, -⟩ | ⟨error, h⟩)
  · simp [hlooked] at hfound
  · simp [hcalls] at h

/-- A thread that runs without a listener stays without one. -/
theorem looked_none_exec {w : MockWorld} {j : ℕ} {t : MockThread} (ht : w.threads[j]? = some t)
    (hwaiting : t.looked = none) (hnone : w.peers t.addr = none) (rest : List MockInput) :
    ∃ t', (machine.exec (w.next (.run j)) rest).threads[j]? = some t' ∧ t'.looked = some none := by
  have hran : (w.next (.run j)).threads[j]? = some { t with looked := some none } := by
    simp only [next, ht, if_pos hwaiting, deliver, hnone]
    exact List.getElem?_set_self (List.getElem?_eq_some_iff.mp ht).1
  obtain ⟨looked, hfinal, hsame⟩ := keeps_exec _ rest j _ hran
  exact ⟨_, hfinal, hsame (by simp)⟩

/-- A step that runs a thread without a listener leaves a send of the run without an outcome. -/
theorem EverySendSettles.findsListener {done rest : List MockInput} {j : ℕ}
    (h : EverySendSettles (done ++ [.run j] ++ rest)) :
    (machine.run done).FindsListener (.run j) := by
  intro t ht hwaiting
  rw [← Option.ne_none_iff_isSome]
  intro hnone
  obtain ⟨t', hfinal, hlooked⟩ := looked_none_exec ht hwaiting hnone rest
  rw [← machine_next, ← Machine.run_concat, ← Machine.run_append] at hfinal
  -- the send that spawned the thread
  obtain ⟨before, k, addr, msg, after, self, hdone, hself, hj⟩ := exists_send ht
  have hsplit : done ++ [.run j] ++ rest =
      before ++ .send k addr msg :: (after ++ [.run j] ++ rest) := by simp [hdone]
  obtain ⟨looked, hthread, houtcome⟩ := h before k addr msg _ self hsplit hself
  rw [hj] at hthread houtcome
  rw [hthread] at hfinal
  obtain rfl := Option.some.inj hfinal
  have hran : looked ≠ none := fun hwait => by simp [hwait] at hlooked
  exact not_oneOutcome (recorded_run _) hthread hlooked (houtcome hran)

/-- In every run, each send has one outcome once its thread has run, exactly if each thread finds
a listener when it runs. -/
theorem everySendSettles_iff (inputs : List MockInput) :
    EverySendSettles inputs ↔ machine.Along FindsListener init inputs := by
  constructor
  · intro h
    rw [Machine.along_iff_isPrefix]
    rintro done i ⟨rest, rfl⟩
    cases i with
    | run j => exact h.findsListener
    | new | send | listen => trivial
  · rintro h before k addr msg after self rfl hself
    obtain ⟨looked, hthread⟩ := thread_of_send hself addr msg after
    refine ⟨looked, hthread, fun hran => ?_⟩
    have hcalls := recorded_run (before ++ .send k addr msg :: after)
      (machine.run before).threads.length
    have hfound := h.invariant (P := fun w => ∀ t ∈ w.threads, t.looked ≠ some none)
      (fun t ht => by simp [init] at ht) (fun _ _ hw hi => looked_next hw hi)
      _ (List.mem_of_getElem? hthread)
    rw [hthread, Option.elim_some] at hcalls
    rcases looked with _ | _ | owner
    · exact absurd rfl hran
    · exact absurd rfl hfound
    · exact .inl ⟨owner, rfl, hcalls⟩

/-- A node sends to an address where nobody listens. -/
def unheardSend : List MockInput :=
  [.new 7, .send 0 ⟨"/ip4/203.0.113.10/tcp/9000"⟩ (.ping "a"), .run 0]

/-- The thread has run, and no callback has been called. -/
theorem not_everySendSettles_unheardSend :
    ¬ EverySendSettles unheardSend ∧ (machine.run unheardSend).calls = [] := by
  refine ⟨fun h => ?_, rfl⟩
  obtain ⟨looked, hthread, houtcome⟩ := h [.new 7] 0 _ _ [.run 0] ⟨"mock-7", 1, []⟩ rfl rfl
  have hlooked : looked = some none := by
    have hran : ((machine.run unheardSend).threads[0]?).map MockThread.looked =
        some (some none) := rfl
    change (machine.run unheardSend).threads[0]? = _ at hthread
    rw [hthread] at hran
    exact Option.some.inj hran
  exact not_oneOutcome (recorded_run unheardSend) hthread hlooked (houtcome (by simp [hlooked]))

/-- A listener that comes between the send and its delivery gets the message. -/
example : (machine.run [.new 7, .new 8, .send 0 ⟨"/ip4/203.0.113.10/tcp/9000"⟩ (.ping "a"),
    .listen 1 ⟨"/ip4/203.0.113.10/tcp/9000"⟩, .run 0, .run 0]).calls =
      [⟨0, 1, .onMessage "mock-7" (.ping "a")⟩] := by
  decide

end MockWorld
end MeerkatNet.V1
