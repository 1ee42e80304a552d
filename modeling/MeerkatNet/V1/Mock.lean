import MeerkatNet.Foundations.Machine
import MeerkatNet.V1.Types

/-!
# The mock network of the first crate

Mock nodes on one shared state, which maps addresses to the `on_message` callbacks of
the nodes that listen there. A send only spawns a thread; the thread looks its address
up when it runs, at any later time. The calls of callbacks are recorded with the thread
that made them.
-/

namespace MeerkatNet.V1

open Runs

structure MockNetwork where
  localId : String
  nextMessageId : UInt64
  localAddrs : List GlobalAddress
  deriving DecidableEq, Repr

/-- A callback that a manager provides, with its arguments. -/
inductive Callback where
  | onMessage (fromId : String) (msg : MeerkatMessage)
  | onSendError (msgId : MessageId) (error : SendError)
  deriving DecidableEq, Repr

/-- A call of a callback of a node, made by a thread. -/
structure MockCall where
  thread : ℕ
  node : ℕ
  callback : Callback
  deriving DecidableEq, Repr

/-- The thread of a send: what it captured, and what its lookup gave once it has run. The sender
and the id that was returned to it are recorded; the thread itself does not have them. -/
structure MockThread where
  sender : ℕ
  msgId : MessageId
  fromId : String
  addr : String
  msg : MeerkatMessage
  looked : Option (Option ℕ)
  deriving DecidableEq, Repr

/-- An entry of `peers` names the node whose `on_message` the handle holds. -/
structure MockWorld where
  nodes : List MockNetwork
  peers : String → Option ℕ
  threads : List MockThread
  calls : List MockCall

inductive MockInput where
  | new (random : UInt32)
  | send (node : ℕ) (addr : GlobalAddress) (msg : MeerkatMessage)
  | listen (node : ℕ) (addr : GlobalAddress)
  | run (thread : ℕ)
  deriving DecidableEq, Repr

/-- The calls that thread `j` has made: one, if it has run and found a listener. -/
def MockThread.calls (j : ℕ) (t : MockThread) : List MockCall :=
  match t.looked with
  | some (some owner) => [⟨j, owner, .onMessage t.fromId t.msg⟩]
  | _ => []

namespace MockWorld

/-- `SharedMockState::default`, before any node. -/
def init : MockWorld := ⟨[], fun _ => none, [], []⟩

def new (w : MockWorld) (random : UInt32) : MockWorld :=
  { w with nodes := w.nodes ++ [⟨"mock-" ++ toString random.toNat, 1, []⟩] }

/-- `MockNetwork::send` of node `k`; the id is taken before the thread is spawned. -/
def send (w : MockWorld) (k : ℕ) (self : MockNetwork) (addr : GlobalAddress)
    (msg : MeerkatMessage) : MockWorld × MessageId :=
  let id : MessageId := ⟨self.nextMessageId⟩
  ({ w with
      nodes := w.nodes.set k { self with nextMessageId := self.nextMessageId + 1 }
      threads := w.threads ++ [⟨k, id, self.localId, addr.text, msg, none⟩] }, id)

/-- `MockNetwork::listen` of node `k`. -/
def listen (w : MockWorld) (k : ℕ) (self : MockNetwork) (addr : GlobalAddress) :
    MockWorld × Except NetworkError Unit :=
  if (w.peers addr.text).isSome then (w, .error .alreadyListening)
  else
    ({ w with
        peers := Function.update w.peers addr.text (some k)
        nodes := w.nodes.set k { self with localAddrs := self.localAddrs ++ [addr] } }, .ok ())

/-- The body of the spawned thread `j` after its sleep. -/
def deliver (w : MockWorld) (j : ℕ) (t : MockThread) : MockWorld :=
  { w with
    threads := w.threads.set j { t with looked := some (w.peers t.addr) }
    calls := w.calls ++
      match w.peers t.addr with
      | some owner => [⟨j, owner, .onMessage t.fromId t.msg⟩]
      | none => [] }

/-- A thread runs once. -/
def next (w : MockWorld) : MockInput → MockWorld
  | .new random => w.new random
  | .send k addr msg =>
    match w.nodes[k]? with
    | none => w
    | some self => (w.send k self addr msg).1
  | .listen k addr =>
    match w.nodes[k]? with
    | none => w
    | some self => (w.listen k self addr).1
  | .run j =>
    match w.threads[j]? with
    | none => w
    | some t => if t.looked = none then w.deliver j t else w

def machine : Machine MockWorld MockInput := ⟨init, next⟩

@[simp] theorem machine_init : machine.init = init := rfl

@[simp] theorem machine_next (w : MockWorld) (i : MockInput) : machine.next w i = w.next i := rfl

theorem listen_taken {w : MockWorld} {addr : GlobalAddress}
    (htaken : (w.peers addr.text).isSome = true) (k : ℕ) (self : MockNetwork) :
    w.listen k self addr = (w, .error .alreadyListening) := if_pos htaken

theorem listen_free {w : MockWorld} {addr : GlobalAddress} (hfree : w.peers addr.text = none)
    {k : ℕ} {self : MockNetwork} :
    w.listen k self addr =
      ({ w with
          peers := Function.update w.peers addr.text (some k)
          nodes := w.nodes.set k { self with localAddrs := self.localAddrs ++ [addr] } },
        .ok ()) := by
  simp [listen, hfree]

/-- Every way in which a step can go; a refused listen changes nothing. -/
inductive MockStep (w : MockWorld) : MockInput → MockWorld → Prop where
  | idle {i} : MockStep w i w
  | created {random} : MockStep w (.new random) (w.new random)
  | spawned {k self addr msg} (hself : w.nodes[k]? = some self) :
      MockStep w (.send k addr msg) (w.send k self addr msg).1
  | listened {k self addr} (hself : w.nodes[k]? = some self) (hfree : w.peers addr.text = none) :
      MockStep w (.listen k addr) (w.listen k self addr).1
  | delivered {j t} (ht : w.threads[j]? = some t) (hwaiting : t.looked = none) :
      MockStep w (.run j) (w.deliver j t)

theorem next_mockStep (w : MockWorld) (i : MockInput) : MockStep w i (w.next i) := by
  cases i with
  | new random => exact .created
  | send k addr msg =>
    simp only [next]
    split
    · exact .idle
    · rename_i self hself
      exact .spawned hself
  | listen k addr =>
    simp only [next]
    split
    · exact .idle
    · rename_i self hself
      cases hpeer : w.peers addr.text with
      | some owner =>
        rw [listen_taken (by simp [hpeer])]
        exact .idle
      | none => exact .listened hself hpeer
  | run j =>
    simp only [next]
    split
    · exact .idle
    · rename_i t ht
      split_ifs with hwaiting
      · exact .delivered ht hwaiting
      · exact .idle

/-- A new entry that adds nothing to what is read of a list. -/
theorem elim_getElem?_concat {α β : Type} (xs : List α) (x : α) {d : β} {f : α → β} (hx : f x = d)
    (j : ℕ) : (xs ++ [x])[j]?.elim d f = xs[j]?.elim d f := by
  rw [List.getElem?_append]
  split_ifs with hlt
  · rfl
  · rw [List.getElem?_eq_none (Nat.le_of_not_lt hlt)]
    cases j - xs.length with
    | zero => exact hx
    | succ n => rfl

/-! ### What a step does to threads and calls -/

/-- Every way in which a step can treat the threads and the calls. -/
inductive ThreadStep (w : MockWorld) : MockInput → MockWorld → Prop where
  | kept {i w'} (hthreads : w'.threads = w.threads) (hcalls : w'.calls = w.calls) :
      ThreadStep w i w'
  | spawned {k self addr msg} (hself : w.nodes[k]? = some self) :
      ThreadStep w (.send k addr msg) (w.send k self addr msg).1
  | delivered {j t} (ht : w.threads[j]? = some t) (hwaiting : t.looked = none) :
      ThreadStep w (.run j) (w.deliver j t)

theorem next_threadStep (w : MockWorld) (i : MockInput) : ThreadStep w i (w.next i) := by
  have hstep := w.next_mockStep i
  generalize w.next i = w' at hstep
  cases hstep with
  | idle | created => exact .kept rfl rfl
  | spawned hself => exact .spawned hself
  | listened hself hfree =>
    rw [listen_free hfree]
    exact .kept rfl rfl
  | delivered ht hwaiting => exact .delivered ht hwaiting

/-- A thread was there before a step, or it has just run, or it has just been spawned. -/
theorem thread_source {w : MockWorld} {i : MockInput} {j : ℕ} {t : MockThread}
    (h : (w.next i).threads[j]? = some t) :
    w.threads[j]? = some t ∨
    (∃ t₀, i = .run j ∧ w.threads[j]? = some t₀ ∧ t₀.looked = none ∧
      t = { t₀ with looked := some (w.peers t₀.addr) }) ∨
    ∃ k addr msg self, i = .send k addr msg ∧ w.nodes[k]? = some self ∧ j = w.threads.length ∧
      t = ⟨k, ⟨self.nextMessageId⟩, self.localId, addr.text, msg, none⟩ := by
  have hstep := w.next_threadStep i
  generalize w.next i = w' at hstep h
  cases hstep with
  | kept hthreads => exact .inl (by rwa [← hthreads])
  | @spawned k self addr msg hself =>
    simp only [send] at h
    by_cases hlt : j < w.threads.length
    · rw [List.getElem?_append_left hlt] at h
      exact .inl h
    · rw [List.getElem?_append_right (Nat.le_of_not_lt hlt), List.getElem?_singleton,
        Option.ite_none_right_eq_some] at h
      obtain ⟨hj, ht⟩ := h
      exact .inr (.inr ⟨k, addr, msg, self, rfl, hself, by omega, (Option.some.inj ht).symm⟩)
  | @delivered j' t' ht' hwaiting =>
    simp only [deliver] at h
    by_cases hj : j' = j
    · subst hj
      rw [List.getElem?_set_self (List.getElem?_eq_some_iff.mp ht').1] at h
      exact .inr (.inl ⟨t', rfl, ht', hwaiting, (Option.some.inj h).symm⟩)
    · rw [List.getElem?_set_ne hj] at h
      exact .inl h

/-- The calls that a thread has made. -/
def callsBy (w : MockWorld) (j : ℕ) : List MockCall := w.calls.filter fun c => decide (c.thread = j)

/-- The threads are still there, with what they captured; those that have run are unchanged. -/
def Keeps (w w' : MockWorld) : Prop :=
  ∀ (j : ℕ) (t : MockThread), w.threads[j]? = some t →
    ∃ l, w'.threads[j]? = some { t with looked := l } ∧ (t.looked ≠ none → l = t.looked)

theorem keeps_refl (w : MockWorld) : w.Keeps w := fun _ t h => ⟨t.looked, h, fun _ => rfl⟩

theorem keeps_next (w : MockWorld) (i : MockInput) : w.Keeps (w.next i) := by
  have hstep := w.next_threadStep i
  generalize w.next i = w' at hstep
  intro j t ht
  cases hstep with
  | kept hthreads => exact ⟨t.looked, by rw [hthreads]; exact ht, fun _ => rfl⟩
  | @spawned k self addr msg hself =>
    refine ⟨t.looked, ?_, fun _ => rfl⟩
    have hlt := (List.getElem?_eq_some_iff.mp ht).1
    simp only [send]
    rw [List.getElem?_append_left hlt]
    exact ht
  | @delivered j' t' ht' hwaiting =>
    by_cases hj : j' = j
    · subst hj
      obtain rfl := Option.some.inj (ht'.symm.trans ht)
      have hlt := (List.getElem?_eq_some_iff.mp ht).1
      refine ⟨some (w.peers t'.addr), ?_, fun hran => absurd hwaiting hran⟩
      simp [deliver, hlt]
    · refine ⟨t.looked, ?_, fun _ => rfl⟩
      simp only [deliver]
      rw [List.getElem?_set_ne hj]
      exact ht

theorem Keeps.trans {u v w : MockWorld} (huv : u.Keeps v) (hvw : v.Keeps w) : u.Keeps w := by
  intro j t ht
  obtain ⟨l, hl, hran⟩ := huv j t ht
  obtain ⟨l', hl', hran'⟩ := hvw j _ hl
  refine ⟨l', hl', fun h => ?_⟩
  have hsame := hran h
  exact (hran' (by rw [hsame]; exact h)).trans hsame

theorem keeps_exec (w : MockWorld) (inputs : List MockInput) : w.Keeps (machine.exec w inputs) :=
  machine.exec_invariant (P := w.Keeps) (fun v i h => h.trans (v.keeps_next i)) w.keeps_refl inputs

end MockWorld
end MeerkatNet.V1
