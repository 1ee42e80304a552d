import MeerkatNet.V2.Json
import MeerkatNet.V2.Stalls

/-!
# One outbox for each peer

The loop keeps the queues of all peers in one map, reports on all of them in one event
channel and waits for the calls of all of them in turn. While no call for another peer
keeps the loop, what becomes of a peer's messages is the run of a small machine that is
fed with the inputs of this peer; after that, nothing becomes of them. So other peers
make no difference to a peer exactly as long as nothing is asked for it behind such a
call.
-/

namespace MeerkatNet.V2

open Libp2p KeyedQueues Runs

variable {PeerId : Type}

/-- What can happen to the messages of one peer. -/
inductive OutboxInput where
  | send (id : MessageId) (msg : MeerkatMessage) (answers : Answers) (stalls : ℕ → Option Stall)
  | connected (answers : Answers) (stalls : ℕ → Option Stall)

/-- The entry of one peer in the map, its hand-offs, the failures of its messages, and whether all
calls for it have returned. -/
structure Outbox (PeerId : Type) where
  pending : Option (List (MessageId × MeerkatMessage))
  handOffs : List (HandOff PeerId)
  failures : List (MessageId × SendError)
  running : Bool

namespace Outbox

variable (S : Serde) (q : PeerId)

def init : Outbox PeerId := ⟨none, [], [], true⟩

/-- The hand-offs and failures among the effects are added. -/
def record (o : Outbox PeerId) (es : List (Effect PeerId)) (returned : Bool) : Outbox PeerId :=
  { o with
    handOffs := o.handOffs ++ es.filterMap Effect.handOff?
    failures := o.failures ++ es.filterMap Effect.failure?
    running := returned }

def next (o : Outbox PeerId) (i : OutboxInput) : Outbox PeerId :=
  if o.running then
    match i with
    | .send id msg answers stalls =>
      if answers.isConnected then
        let out := sendToPeerUntil S (stalls 0) (answers.stream 0) q id msg
        o.record out.1 out.2
      else
        match answers.dial with
        | .ok _ => { o with pending := some (o.pending.getD [] ++ [(id, msg)]) }
        | .error e =>
          { o with
            pending := none
            failures := o.failures ++ [(id, .protocolError ("Dial failed: " ++ e))] }
    | .connected answers stalls =>
      let out := flushUntil S stalls answers.stream q (o.pending.getD [])
      { o.record out.1 out.2.isNone with pending := none }
  else o

def machine : Machine (Outbox PeerId) OutboxInput := ⟨init, next S q⟩

@[simp] theorem machine_next (o : Outbox PeerId) (i : OutboxInput) :
    (machine S q).next o i = o.next S q i := rfl

/-- Nothing is asked for the peer: the loop does not come to the input, or it is a connection while
no message waits. -/
def Inert (o : Outbox PeerId) (i : OutboxInput) : Prop :=
  o.running = false ∨ ∃ answers stalls, i = .connected answers stalls ∧ o.pending = none

theorem next_of_inert {o : Outbox PeerId} {i : OutboxInput} (h : o.Inert i) :
    o.next S q i = o := by
  rcases h with hstopped | ⟨answers, stalls, rfl, hnone⟩
  · simp [next, hstopped]
  · by_cases hrunning : o.running = true
    · obtain ⟨pending, handOffs, failures, running⟩ := o
      obtain rfl : pending = none := hnone
      obtain rfl : running = true := hrunning
      simp [next, record, flushUntil]
    · simp [next, hrunning]

/-- An entry of the map is never empty. -/
theorem pending_ne_nil {o : Outbox PeerId} (ho : o.pending ≠ some []) (i : OutboxInput) :
    (o.next S q i).pending ≠ some [] := by
  unfold next
  split
  · cases i with
    | send id msg answers stalls =>
      dsimp only
      split
      · exact ho
      · split <;> simp
    | connected answers stalls => simp
  · exact ho

/-- What is left, and what is done. -/
def part (o : Outbox PeerId) :
    Option (List (MessageId × MeerkatMessage)) × List (HandOff PeerId) ×
      List (MessageId × SendError) := (o.pending, o.handOffs, o.failures)

/-- The hand-offs and failures so far; between two of them, the waiting messages. -/
def progress (x : Option (List (MessageId × MeerkatMessage)) × List (HandOff PeerId) ×
    List (MessageId × SendError)) : ℕ ×ₗ ℕ :=
  toLex (x.2.1.length + x.2.2.length, (x.1.getD []).length)

theorem length_sendToPeerUntil (stall : Option Stall) (answer : StreamAnswer) (id : MessageId)
    (msg : MeerkatMessage) :
    0 < ((sendToPeerUntil S stall answer q id msg).1.filterMap Effect.handOff?).length := by
  obtain ⟨written, h | ⟨e, h⟩⟩ := sendToPeerUntil_cases S stall answer q id msg <;>
    simp [h, Effect.handOff?]

theorem length_flushUntil (stalls : ℕ → Option Stall) (stream : ℕ → StreamAnswer)
    {messages : List (MessageId × MeerkatMessage)} (hmessages : messages ≠ []) :
    0 < ((flushUntil S stalls stream q messages).1.filterMap Effect.handOff?).length := by
  obtain ⟨⟨id, msg⟩, rest, rfl⟩ := List.exists_cons_of_ne_nil hmessages
  have hfirst := length_sendToPeerUntil S q (stalls 0) (stream 0) id msg
  simp only [flushUntil]
  split
  · rw [List.filterMap_append, List.length_append]
    omega
  · exact hfirst

theorem progress_next {o : Outbox PeerId} (ho : o.pending ≠ some []) {i : OutboxInput}
    (hi : ¬ o.Inert i) : progress o.part < progress (o.next S q i).part := by
  simp only [Inert, not_or, not_exists, not_and, Bool.not_eq_false] at hi
  obtain ⟨hrunning, hwaiting⟩ := hi
  simp only [next, hrunning, if_true, progress, part, Prod.Lex.toLex_lt_toLex]
  cases i with
  | send id msg answers stalls =>
    dsimp only
    split
    · have hfirst := length_sendToPeerUntil S q (stalls 0) (answers.stream 0) id msg
      simp only [record, List.length_append]
      omega
    · split <;> simp
  | connected answers stalls =>
    obtain ⟨messages, hpending⟩ := Option.ne_none_iff_exists'.mp (hwaiting answers stalls rfl)
    have hmessages : messages ≠ [] := by
      rintro rfl
      exact ho hpending
    have hfirst := length_flushUntil S q stalls answers.stream hmessages
    simp only [hpending, Option.getD_some, record, List.length_append]
    omega

/-- Inputs make no difference to what is left and done exactly if nothing is asked by them. -/
theorem exec_part_iff {o : Outbox PeerId} (ho : o.pending ≠ some []) (inputs : List OutboxInput) :
    ((machine S q).exec o inputs).part = o.part ↔ ∀ i ∈ inputs, o.Inert i :=
  (machine S q).exec_part_eq_iff progress (fun _ i h => pending_ne_nil S q h i)
    (fun _ _ h => next_of_inert S q h) (fun _ _ h hi => progress_next S q h hi) ho inputs

end Outbox

/-- A filter that does not tell the elements apart keeps all or none. -/
theorem filter_uniform {α : Type} {l : List α} {p : α → Prop} [DecidablePred p] {b : Prop}
    [Decidable b] (h : ∀ x ∈ l, (p x ↔ b)) :
    l.filter (fun x => decide (p x)) = if b then l else [] := by
  split_ifs with hb
  · rw [List.filter_eq_self]
    exact fun x hx => decide_eq_true ((h x hx).mpr hb)
  · rw [List.filter_eq_nil_iff]
    exact fun x hx => by simpa using mt (h x hx).mp hb

/-! ### What the calls for a peer do -/

section

variable {S : Serde} {peer : PeerId}

theorem forall_mem_flushUntil {P : Effect PeerId → Prop}
    {messages : List (MessageId × MeerkatMessage)}
    (hsend : ∀ stall answer, ∀ m ∈ messages,
      ∀ e ∈ (sendToPeerUntil S stall answer peer m.1 m.2).1, P e)
    (stalls : ℕ → Option Stall) (stream : ℕ → StreamAnswer) :
    ∀ e ∈ (flushUntil S stalls stream peer messages).1, P e := by
  induction messages generalizing stalls stream with
  | nil => simp [flushUntil]
  | cons m messages ih =>
    have hfirst := hsend (stalls 0) (stream 0) m (List.mem_cons_self ..)
    simp only [flushUntil]
    split
    · intro e he
      rcases List.mem_append.mp he with he | he
      · exact hfirst e he
      · have hrest : ∀ stall answer, ∀ m ∈ messages,
            ∀ e ∈ (sendToPeerUntil S stall answer peer m.1 m.2).1, P e :=
          fun stall answer m hm => hsend stall answer m (List.mem_cons_of_mem _ hm)
        exact ih hrest _ _ e he
    · exact hfirst

theorem sendToPeerUntil_peer {stall : Option Stall} {answer : StreamAnswer} {id : MessageId}
    {msg : MeerkatMessage} :
    ∀ h ∈ (sendToPeerUntil S stall answer peer id msg).1.filterMap Effect.handOff?,
      h.peer = peer := by
  obtain ⟨written, h | ⟨e, h⟩⟩ := sendToPeerUntil_cases S stall answer peer id msg <;>
    simp [h, Effect.handOff?]

theorem sendToPeerUntil_failures {stall : Option Stall} {answer : StreamAnswer} {id : MessageId}
    {msg : MeerkatMessage} :
    ∀ f ∈ (sendToPeerUntil S stall answer peer id msg).1.filterMap Effect.failure?, f.1 = id := by
  obtain ⟨written, h | ⟨e, h⟩⟩ := sendToPeerUntil_cases S stall answer peer id msg <;>
    simp [h, Effect.failure?]

theorem flushUntil_peer {stalls : ℕ → Option Stall} {stream : ℕ → StreamAnswer}
    {messages : List (MessageId × MeerkatMessage)} :
    ∀ h ∈ (flushUntil S stalls stream peer messages).1.filterMap Effect.handOff?,
      h.peer = peer := by
  intro h hh
  obtain ⟨e, he, hhandOff⟩ := List.mem_filterMap.mp hh
  have hpeer : ∀ h, e.handOff? = some h → h.peer = peer := by
    apply forall_mem_flushUntil _ stalls stream e he
    intro stall answer m _ e he h hhandOff
    exact sendToPeerUntil_peer h (List.mem_filterMap.mpr ⟨e, he, hhandOff⟩)
  exact hpeer h hhandOff

theorem flushUntil_failures {stalls : ℕ → Option Stall} {stream : ℕ → StreamAnswer}
    {messages : List (MessageId × MeerkatMessage)} :
    ∀ f ∈ (flushUntil S stalls stream peer messages).1.filterMap Effect.failure?,
      ∃ m ∈ messages, f.1 = m.1 := by
  intro f hf
  obtain ⟨e, he, hfailure⟩ := List.mem_filterMap.mp hf
  have hid : ∀ f, e.failure? = some f → ∃ m ∈ messages, f.1 = m.1 := by
    apply forall_mem_flushUntil _ stalls stream e he
    intro stall answer m hm e he f hfailure
    exact ⟨m, hm, sendToPeerUntil_failures f (List.mem_filterMap.mpr ⟨e, he, hfailure⟩)⟩
  exact hid f hfailure

end

/-! ### The inputs of a peer -/

variable [DecidableEq PeerId] (F : Formats PeerId) (S : Serde) (q : PeerId)

/-- The peer that a send or a connection event concerns. -/
def Input.concerns? : Input PeerId → Option PeerId
  | .command (.send _ addr _) _ => destination F addr
  | .event (.connectionEstablished peer _) _ => some peer
  | .event (.connectionClosed peer _) _ => some peer
  | .event (.outgoingConnectionError _ peer) _ => peer
  | _ => none

/-- The inputs without the sends and connection events that concern another peer. -/
def withoutOthers (inputs : List (StallingInput PeerId)) : List (StallingInput PeerId) :=
  inputs.filter fun i => decide (∀ p ∈ i.input.concerns? F, p = q)

/-- A send to the peer, or a connection with it. -/
def Input.reaches : Input PeerId → Bool
  | .command (.send _ addr _) _ => destination F addr = some q
  | .event (.connectionEstablished peer _) _ => peer = q
  | _ => false

/-- The input as the outbox of the peer sees it. -/
def StallingInput.toOutbox (i : StallingInput PeerId) : Option OutboxInput :=
  match i.input with
  | .command (.send id addr msg) answers =>
    if destination F addr = some q then some (.send id msg answers i.stalls) else none
  | .event (.connectionEstablished peer _) answers =>
    if peer = q then some (.connected answers i.stalls) else none
  | _ => none

theorem concerns?_of_toOutbox {i : StallingInput PeerId} (h : i.toOutbox F q ≠ none) :
    i.input.concerns? F = some q := by
  obtain ⟨input, stalls⟩ := i
  unfold StallingInput.toOutbox at h
  dsimp only at h
  split at h
  · simpa [Input.concerns?] using h
  · simpa [Input.concerns?] using h
  · simp at h

/-- Inputs that concern another peer do not reach the outbox. -/
theorem filterMap_withoutOthers (inputs : List (StallingInput PeerId)) :
    (withoutOthers F q inputs).filterMap (StallingInput.toOutbox F q) =
      inputs.filterMap (StallingInput.toOutbox F q) := by
  rw [withoutOthers, List.filterMap_filter]
  apply List.filterMap_congr
  intro i _
  split_ifs with h
  · rfl
  · by_contra hne
    have hconcerns := concerns?_of_toOutbox F q (Ne.symm hne)
    simp [hconcerns] at h

theorem isSome_toOutbox (i : StallingInput PeerId) :
    (i.toOutbox F q).isSome = i.input.reaches F q := by
  obtain ⟨input, stalls⟩ := i
  unfold StallingInput.toOutbox Input.reaches
  dsimp only
  split
  · split_ifs with h <;> simp [h]
  · split_ifs with h <;> simp [h]
  · rfl

namespace World

/-- The failures that were reported for messages of the peer: by a send to it, or by a flush of
its queue. -/
def failuresFor (w : World PeerId) : List (MessageId × SendError) :=
  w.history.flatMap fun step =>
    if step.1.reaches F q then step.2.filterMap Effect.failure? else []

/-- The hand-offs to the peer, in order. -/
def handOffsTo (w : World PeerId) : List (HandOff PeerId) :=
  w.handOffs.filter fun h => decide (h.peer = q)

end World

namespace StallingWorld

def outbox (w : StallingWorld PeerId) : Outbox PeerId where
  pending := w.world.loop.pendingSends.get q
  handOffs := w.world.handOffsTo q
  failures := w.world.failuresFor F q
  running := w.held.all fun h => decide (h.peer ≠ q)

theorem outbox_next_of_free {w : StallingWorld PeerId} (hfree : w.held = none)
    (i : StallingInput PeerId) :
    let out := eventLoopUntil F S w.world.loop i
    (w.next F S i).outbox F q =
      ⟨out.1.pendingSends.get q,
        w.world.handOffsTo q ++
          (out.2.1.filterMap Effect.handOff?).filter (fun h => decide (h.peer = q)),
        w.world.failuresFor F q ++
          (if i.input.reaches F q then out.2.1.filterMap Effect.failure? else []),
        out.2.2.all fun h => decide (h.peer ≠ q)⟩ := by
  simp [outbox, next, hfree, World.handOffsTo, World.handOffs, World.effects, World.failuresFor]

/-- Unless the loop waits for a call for another peer, an iteration is a step of the peer's outbox,
or leaves it alone. -/
theorem outbox_next {w : StallingWorld PeerId} (hown : ∀ h, w.held = some h → h.peer = q)
    (i : StallingInput PeerId) :
    (w.next F S i).outbox F q =
      (i.toOutbox F q).elim (w.outbox F q) ((w.outbox F q).next S q) := by
  cases hheld : w.held with
  | some h =>
    have hstopped : (w.outbox F q).running = false := by simp [outbox, hheld, hown h hheld]
    rw [next_of_held F S hheld]
    cases i.toOutbox F q with
    | none => rfl
    | some x => exact (Outbox.next_of_inert S q (.inl hstopped)).symm
  | none =>
    have hrunning : (w.outbox F q).running = true := by simp [outbox, hheld]
    have hstep := eventLoopUntil_stallStep F S w.world.loop i
    rw [outbox_next_of_free F S q hheld, ← isSome_toOutbox]
    generalize (eventLoopUntil F S w.world.loop i).1.pendingSends = pending' at hstep
    generalize (eventLoopUntil F S w.world.loop i).2.1 = es at hstep
    generalize (eventLoopUntil F S w.world.loop i).2.2 = held at hstep
    cases hstep with
    | @direct id addr msg answers stalls peer hdest hconn =>
      rw [filter_uniform fun x hx => by rw [sendToPeerUntil_peer x hx]]
      by_cases hpeer : peer = q
      · subst hpeer
        simp only [StallingInput.toOutbox, hdest, if_true, Option.isSome_some, Option.elim_some,
          Outbox.next, hrunning, hconn, Outbox.record]
        cases hreturned : (sendToPeerUntil S (stalls 0) (answers.stream 0) peer id msg).2 <;>
          simp [outbox]
      · cases hreturned : (sendToPeerUntil S (stalls 0) (answers.stream 0) peer id msg).2 <;>
          simp [StallingInput.toOutbox, hdest, hpeer, outbox, hheld]
    | @flushed peer c answers stalls es' hes =>
      rw [List.filterMap_append, handOffs_of_quiet hes, List.filterMap_append,
        failures_of_quiet hes, List.nil_append, List.nil_append,
        filter_uniform fun x hx => by rw [flushUntil_peer x hx]]
      generalize hout : flushUntil S stalls answers.stream peer
        (w.world.loop.pendingSends.queue peer) = out
      by_cases hpeer : peer = q
      · subst hpeer
        have hqueue : (w.outbox F peer).pending.getD [] = w.world.loop.pendingSends.queue peer :=
          rfl
        simp only [StallingInput.toOutbox, if_true, Option.isSome_some, Option.elim_some,
          Outbox.next, hrunning, Outbox.record, hqueue, hout]
        obtain ⟨es, _ | behind⟩ := out <;> simp [outbox]
      · obtain ⟨es, _ | behind⟩ := out <;>
          simp [StallingInput.toOutbox, hpeer, outbox, hheld, Ne.symm hpeer]
    | @returned i stalls pending' es hstep hdirect hflush =>
      cases hstep with
      | rejected hdest herror =>
        simp [StallingInput.toOutbox, hdest, outbox, hheld, Effect.handOff?]
      | direct hdest hconn => simp [hdirect _ _ _ _ _ rfl hdest] at hconn
      | flushed hes => exact absurd rfl (hflush _ _ _)
      | @queued id addr msg answers peer multiaddr c hdest hconn hdial =>
        by_cases hpeer : peer = q
        · subst hpeer
          simp [StallingInput.toOutbox, hdest, Outbox.next, hconn, hdial, outbox, hheld,
            Effect.handOff?, Effect.failure?, QueueMap.queue]
        · simp [StallingInput.toOutbox, hdest, hpeer, outbox, hheld, Effect.handOff?,
            Ne.symm hpeer]
      | @dialFailed id addr msg answers peer multiaddr e hdest hconn hdial =>
        have hfailure : ([.dial (.send peer) multiaddr (.error e),
            .event (.sendFailed id (.protocolError ("Dial failed: " ++ e)))] :
              List (Effect PeerId)).filterMap Effect.failure? =
            [(id, .protocolError ("Dial failed: " ++ e))] := rfl
        rw [hfailure]
        by_cases hpeer : peer = q
        · subst hpeer
          simp [StallingInput.toOutbox, hdest, Outbox.next, hconn, hdial, outbox, hheld,
            Effect.handOff?]
        · simp [StallingInput.toOutbox, hdest, hpeer, outbox, hheld, Effect.handOff?,
            Ne.symm hpeer]
      | quiet hi hother hes =>
        have hnone : StallingInput.toOutbox F q ⟨i, stalls⟩ = none := by
          unfold StallingInput.toOutbox
          dsimp only
          split
          · simp [Input.taken?] at hi
          · exact absurd rfl (hother _ _ _)
          · rfl
        simp [hnone, handOffs_of_quiet hes, outbox, hheld]

/-- The loop waits for a call for the peer that its last input concerned. -/
theorem concerns?_of_held_next {w : StallingWorld PeerId} (hfree : w.held = none)
    {i : StallingInput PeerId} {h : Held PeerId} (hheld : (w.next F S i).held = some h) :
    i.input.concerns? F = some h.peer := by
  have hstep := eventLoopUntil_stallStep F S w.world.loop i
  simp only [next, hfree] at hheld
  generalize (eventLoopUntil F S w.world.loop i).1.pendingSends = pending' at hstep
  generalize (eventLoopUntil F S w.world.loop i).2.1 = es at hstep
  generalize (eventLoopUntil F S w.world.loop i).2.2 = held at hstep hheld
  cases hstep with
  | direct hdest hconn =>
    split_ifs at hheld
    obtain rfl := Option.some.inj hheld
    exact hdest
  | flushed hes =>
    obtain ⟨behind, -, rfl⟩ := Option.map_eq_some_iff.mp hheld
    rfl
  | returned => simp at hheld

/-- Inputs that concern no other peer leave the loop waiting for none. -/
theorem own_next {w : StallingWorld PeerId} (hown : ∀ h, w.held = some h → h.peer = q)
    {i : StallingInput PeerId} (hi : ∀ p ∈ i.input.concerns? F, p = q) :
    ∀ h, (w.next F S i).held = some h → h.peer = q := by
  intro h hh
  cases hheld : w.held with
  | some h' =>
    rw [next_of_held F S hheld] at hh
    exact hown h hh
  | none => exact hi h.peer (concerns?_of_held_next F S hheld hh)

/-- What becomes of a peer's messages among inputs that concern no other peer is the run of its
outbox. -/
theorem outbox_exec {w : StallingWorld PeerId} (hown : ∀ h, w.held = some h → h.peer = q)
    {inputs : List (StallingInput PeerId)}
    (hinputs : ∀ i ∈ inputs, ∀ p ∈ i.input.concerns? F, p = q) :
    ((machine F S).exec w inputs).outbox F q =
      (Outbox.machine S q).exec (w.outbox F q) (inputs.filterMap (StallingInput.toOutbox F q)) := by
  have halong : (machine F S).Along (fun _ i => ∀ p ∈ i.input.concerns? F, p = q) w inputs :=
    Machine.along_of_forall_mem _ (fun i hi _ => hinputs i hi) w
  have hsteps := halong.strengthen (P := fun w => ∀ h, w.held = some h → h.peer = q)
    (fun w i hown hi => own_next F S q hown hi) hown
  exact hsteps.exec_project (N := Outbox.machine S q) (fun w => w.outbox F q)
    (StallingInput.toOutbox F q) fun w i hw => outbox_next F S q hw.1 i

/-- Nothing is asked for the peer behind a call for another one: no message is sent to it, and no
connection with it is established while messages wait for it. -/
def Undisturbed (w : StallingWorld PeerId) (i : StallingInput PeerId) : Prop :=
  ∀ h, w.held = some h → h.peer ≠ q →
    (∀ id addr msg answers, i.input = .command (.send id addr msg) answers →
      destination F addr ≠ some q) ∧
    ∀ c answers, i.input = .event (.connectionEstablished q c) answers →
      w.world.loop.pendingSends.get q = none

theorem undisturbed_iff {w : StallingWorld PeerId} {h : Held PeerId} (hheld : w.held = some h)
    (hother : h.peer ≠ q) (i : StallingInput PeerId) :
    w.Undisturbed F q i ↔ ∀ x ∈ i.toOutbox F q, (w.outbox F q).Inert x := by
  have hrunning : (w.outbox F q).running = true := by simp [outbox, hheld, hother]
  obtain ⟨input, stalls⟩ := i
  constructor
  · intro hi x hx
    obtain ⟨hsend, hconnect⟩ := hi h hheld hother
    unfold StallingInput.toOutbox at hx
    dsimp only at hx hsend hconnect
    split at hx
    · split_ifs at hx with hdest
      · exact absurd hdest (hsend _ _ _ _ rfl)
      · simp at hx
    · split_ifs at hx with hpeer
      · subst hpeer
        obtain rfl := Option.some.inj hx
        exact .inr ⟨_, _, rfl, hconnect _ _ rfl⟩
      · simp at hx
    · simp at hx
  · intro hinert h' _ _
    constructor
    · rintro id addr msg answers rfl hdest
      have hsend := hinert (.send id msg answers stalls) (by simp [StallingInput.toOutbox, hdest])
      simp [Outbox.Inert, hrunning] at hsend
    · rintro c answers rfl
      have hconnect := hinert (.connected answers stalls) (by simp [StallingInput.toOutbox])
      rcases hconnect with hstopped | ⟨_, _, -, hnone⟩
      · simp [hrunning] at hstopped
      · exact hnone

/-- Up to a call for another peer the loop goes with the outbox; after it, the outbox alone would
go on. -/
theorem part_exec_iff {w : StallingWorld PeerId} (hown : ∀ h, w.held = some h → h.peer = q)
    (hpending : (w.outbox F q).pending ≠ some []) (inputs : List (StallingInput PeerId)) :
    (((machine F S).exec w inputs).outbox F q).part =
        ((Outbox.machine S q).exec (w.outbox F q)
          (inputs.filterMap (StallingInput.toOutbox F q))).part ↔
      (machine F S).Along (Undisturbed F q) w inputs := by
  induction inputs generalizing w with
  | nil => simp
  | cons i inputs ih =>
    have hundisturbed : w.Undisturbed F q i := by
      intro h hheld hother
      exact absurd (hown h hheld) hother
    have hexec : (Outbox.machine S q).exec (w.outbox F q)
        ((i :: inputs).filterMap (StallingInput.toOutbox F q)) =
        (Outbox.machine S q).exec ((w.next F S i).outbox F q)
          (inputs.filterMap (StallingInput.toOutbox F q)) := by
      rw [outbox_next F S q hown, List.filterMap_cons]
      cases i.toOutbox F q <;> rfl
    have hpending' : ((w.next F S i).outbox F q).pending ≠ some [] := by
      rw [outbox_next F S q hown]
      cases i.toOutbox F q with
      | none => exact hpending
      | some x => exact Outbox.pending_ne_nil S q hpending x
    rw [hexec, Machine.exec_cons, Machine.along_cons, machine_next,
      and_iff_right hundisturbed]
    by_cases hown' : ∀ h, (w.next F S i).held = some h → h.peer = q
    · exact ih hown' hpending'
    · -- the loop stays as it is
      push Not at hown'
      obtain ⟨h, hheld, hother⟩ := hown'
      have hfixed : ∀ j, (machine F S).next (w.next F S i) j = w.next F S i :=
        next_of_held F S hheld
      rw [Machine.exec_of_fixed _ hfixed, Machine.along_of_fixed _ hfixed, eq_comm,
        Outbox.exec_part_iff S q hpending']
      simp only [undisturbed_iff F q hheld hother, List.mem_filterMap, forall_exists_index,
        and_imp, Option.mem_def]
      exact ⟨fun hall j hj x hx => hall x j hj hx, fun hall x j hj hx => hall j hj x hx⟩

/-- Where every call for another peer returns, the loop never waits for one. -/
theorem undisturbed_of_returns {inputs : List (StallingInput PeerId)}
    (hreturns : ∀ i ∈ inputs, ∀ p ∈ i.input.concerns? F, p ≠ q → ∀ n, i.stalls n = none) :
    (machine F S).Along (Undisturbed F q) init inputs := by
  have hmem : (machine F S).Along (fun _ i => i ∈ inputs) init inputs :=
    Machine.along_of_forall_mem _ (fun _ hi _ => hi) init
  have hsteps := hmem.strengthen (P := fun w => ∀ h, w.held = some h → h.peer = q) ?_
    (by simp [init])
  · refine hsteps.mono ?_
    intro w i hw h hheld hother
    exact absurd (hw.1 h hheld) hother
  · intro w i hown hi h hheld'
    rw [machine_next] at hheld'
    cases hheld : w.held with
    | some h' =>
      rw [next_of_held F S hheld] at hheld'
      exact hown h hheld'
    | none =>
      by_contra hother
      have hconcerns := concerns?_of_held_next F S hheld hheld'
      simp only [next, hheld, eventLoopUntil_of_returns F S (hreturns i hi _ hconcerns hother)]
        at hheld'
      simp at hheld'

/-! ### The failures of a peer's messages -/

/-- A set of ids that holds exactly the ids of the peer's messages, among those of the queues;
the failures with such ids are the peer's. -/
structure Sorted (A : MessageId → Prop) [DecidablePred A] (w : StallingWorld PeerId) : Prop where
  queued : ∀ p, ∀ m ∈ w.world.loop.pendingSends.queue p, (A m.1 ↔ p = q)
  failures : w.world.failures.filter (fun f => decide (A f.1)) = w.world.failuresFor F q

/-- The failures of an iteration all are the peer's, or none is. -/
theorem Sorted.failure_iff {A : MessageId → Prop} [DecidablePred A] {w : StallingWorld PeerId}
    (hw : w.Sorted F q A) {i : StallingInput PeerId}
    (hA : ∀ id addr msg answers, i.input = .command (.send id addr msg) answers →
      (A id ↔ destination F addr = some q)) :
    ∀ f ∈ (eventLoopUntil F S w.world.loop i).2.1.filterMap Effect.failure?,
      (A f.1 ↔ i.input.reaches F q = true) := by
  have hstep := eventLoopUntil_stallStep F S w.world.loop i
  generalize (eventLoopUntil F S w.world.loop i).1.pendingSends = pending' at hstep
  generalize (eventLoopUntil F S w.world.loop i).2.1 = es at hstep
  generalize (eventLoopUntil F S w.world.loop i).2.2 = held at hstep
  intro f hf
  cases hstep with
  | @direct id addr msg answers stalls peer hdest hconn =>
    simp [sendToPeerUntil_failures f hf, hA id addr msg answers rfl, Input.reaches, hdest]
  | @flushed peer c answers stalls es' hes =>
    rw [List.filterMap_append, failures_of_quiet hes, List.nil_append] at hf
    obtain ⟨m, hm, hmid⟩ := flushUntil_failures f hf
    simp [hmid, hw.queued peer m hm, Input.reaches]
  | @returned i stalls pending' es hstep hdirect hflush =>
    cases hstep with
    | @rejected id addr msg answers error hdest herror =>
      obtain rfl : f = (id, error) := by simpa [Effect.failure?] using hf
      simp [hA id addr msg answers rfl, Input.reaches, hdest]
    | direct hdest hconn => simp [hdirect _ _ _ _ _ rfl hdest] at hconn
    | flushed hes => exact absurd rfl (hflush _ _ _)
    | queued hdest hconn hdial => simp [Effect.failure?] at hf
    | @dialFailed id addr msg answers peer multiaddr e hdest hconn hdial =>
      have hid : f.1 = id := by
        have hfailure : f = (id, .protocolError ("Dial failed: " ++ e)) := List.mem_singleton.mp hf
        rw [hfailure]
      simp [hid, hA id addr msg answers rfl, Input.reaches, hdest]
    | quiet hi hother hes => simp [failures_of_quiet hes] at hf

theorem sorted_next {A : MessageId → Prop} [DecidablePred A] {w : StallingWorld PeerId}
    (hw : w.Sorted F q A) {i : StallingInput PeerId}
    (hA : ∀ id addr msg answers, i.input = .command (.send id addr msg) answers →
      (A id ↔ destination F addr = some q)) :
    (w.next F S i).Sorted F q A := by
  cases hheld : w.held with
  | some h => rwa [next_of_held F S hheld]
  | none =>
    have hstep := eventLoopUntil_stallStep F S w.world.loop i
    have hfailures := filter_uniform (hw.failure_iff F S q hA)
    constructor
    · intro p m hm
      simp only [next, hheld] at hm
      generalize (eventLoopUntil F S w.world.loop i).1.pendingSends = pending' at hstep hm
      generalize (eventLoopUntil F S w.world.loop i).2.1 = es at hstep
      generalize (eventLoopUntil F S w.world.loop i).2.2 = held at hstep
      cases hstep with
      | direct => exact hw.queued p m hm
      | flushed => exact hw.queued p m (QueueMap.mem_queue_remove.mp hm).2
      | returned hstep =>
        cases hstep with
        | @queued id addr msg answers peer multiaddr c hdest =>
          rcases QueueMap.mem_queue_push.mp hm with hm | ⟨rfl, rfl⟩
          · exact hw.queued p m hm
          · rw [hA id addr msg answers rfl, hdest, Option.some.injEq]
        | dialFailed | flushed => exact hw.queued p m (QueueMap.mem_queue_remove.mp hm).2
        | _ => exact hw.queued p m hm
    · have hall : (w.next F S i).world.failures = w.world.failures ++
          (eventLoopUntil F S w.world.loop i).2.1.filterMap Effect.failure? := by
        simp [next, hheld, World.failures, World.effects]
      have hpeer : (w.next F S i).world.failuresFor F q = w.world.failuresFor F q ++
          if i.input.reaches F q then
            (eventLoopUntil F S w.world.loop i).2.1.filterMap Effect.failure? else [] :=
        congrArg Outbox.failures (outbox_next_of_free F S q hheld i)
      rw [hall, hpeer, List.filter_append, hw.failures, hfailures]

end StallingWorld

/-- The id of a send to the peer. -/
def Input.sentTo? : Input PeerId → Option MessageId
  | .command (.send id addr _) _ => if destination F addr = some q then some id else none
  | _ => none

omit [DecidableEq PeerId] in
/-- Where every send has an id of its own, an id belongs to one input. -/
theorem eq_of_taken? {inputs : List (Input PeerId)}
    (hids : (inputs.filterMap Input.taken?).Nodup) {i j : Input PeerId} (hi : i ∈ inputs)
    (hj : j ∈ inputs) {id : MessageId} (hid : i.taken? = some id) (hjd : j.taken? = some id) :
    i = j := by
  have hdiffer := List.pairwise_filterMap.mp hids
  have hsymm : Std.Symm fun a b : Input PeerId =>
      ∀ c, a.taken? = some c → ∀ d, b.taken? = some d → c ≠ d :=
    ⟨fun _ _ h c hc d hd => (h d hd c hc).symm⟩
  by_contra hne
  exact hdiffer.forall hi hj hne id hid id hjd rfl

namespace StallingWorld

/-- If every send has an id of its own, the failures of a peer are those with the ids of the sends
to it. -/
theorem failuresFor_run {inputs : List (StallingInput PeerId)}
    (hids : ((inputs.map StallingInput.input).filterMap Input.taken?).Nodup) :
    ((machine F S).run inputs).world.failuresFor F q =
      ((machine F S).run inputs).world.failures.filter fun f =>
        decide (f.1 ∈ (inputs.map StallingInput.input).filterMap (Input.sentTo? F q)) := by
  have hmem : (machine F S).Along (fun _ i => i ∈ inputs) init inputs :=
    Machine.along_of_forall_mem _ (fun _ hi _ => hi) init
  have hsorted := hmem.invariant
    (P := Sorted F q fun id =>
      id ∈ (inputs.map StallingInput.input).filterMap (Input.sentTo? F q))
    ⟨fun p m hm => by simp [init, World.init, LoopState.init] at hm, rfl⟩ ?_
  · exact hsorted.failures.symm
  intro w i hw hi
  apply sorted_next F S q hw
  intro id addr msg answers hinput
  have hmap : i.input ∈ inputs.map StallingInput.input := List.mem_map_of_mem hi
  rw [hinput] at hmap
  constructor
  · intro hid
    obtain ⟨j, hj, hsent⟩ := List.mem_filterMap.mp hid
    have htaken : j.taken? = some id := by
      unfold Input.sentTo? at hsent
      split at hsent
      · exact (Option.ite_none_right_eq_some.mp hsent).2
      · simp at hsent
    obtain rfl := eq_of_taken? hids hmap hj rfl htaken
    by_contra hdest
    simp [Input.sentTo?, hdest] at hsent
  · intro hdest
    exact List.mem_filterMap.mpr ⟨_, hmap, by simp [Input.sentTo?, hdest]⟩

/-- Other peers make no difference to the hand-offs to a peer, the failures of its messages and its
queue exactly if nothing is asked for it behind a call for another peer that does not return; so
they make none where every call for another peer returns. The failures are those with the ids of
its messages, when no two messages share one. -/
theorem run_withoutOthers_iff (inputs : List (StallingInput PeerId)) :
    let w := (machine F S).run inputs
    let v := (machine F S).run (withoutOthers F q inputs)
    ((w.world.handOffsTo q = v.world.handOffsTo q ∧
        w.world.failuresFor F q = v.world.failuresFor F q ∧
        w.world.loop.pendingSends.get q = v.world.loop.pendingSends.get q) ↔
      (machine F S).Along (Undisturbed F q) init inputs) ∧
    ((∀ i ∈ inputs, ∀ p ∈ i.input.concerns? F, p ≠ q → ∀ n, i.stalls n = none) →
      (machine F S).Along (Undisturbed F q) init inputs) ∧
    (((inputs.map StallingInput.input).filterMap Input.taken?).Nodup →
      w.world.failuresFor F q = w.world.failures.filter fun f =>
        decide (f.1 ∈ (inputs.map StallingInput.input).filterMap (Input.sentTo? F q))) := by
  intro w v
  refine ⟨?_, undisturbed_of_returns F S q, failuresFor_run F S q⟩
  have hown : ∀ h, (init : StallingWorld PeerId).held = some h → h.peer = q := by simp [init]
  have hpending : ((init : StallingWorld PeerId).outbox F q).pending ≠ some [] := by
    simp [outbox, init, World.init, LoopState.init, QueueMap.empty]
  have halone : v.outbox F q = (Outbox.machine S q).exec (init.outbox F q)
      (inputs.filterMap (StallingInput.toOutbox F q)) := by
    have hinputs : ∀ i ∈ withoutOthers F q inputs, ∀ p ∈ i.input.concerns? F, p = q := by
      intro i hi
      exact of_decide_eq_true (List.mem_filter.mp hi).2
    rw [← filterMap_withoutOthers]
    exact outbox_exec F S q hown hinputs
  have hiff := part_exec_iff F S q hown hpending inputs
  rw [← halone] at hiff
  rw [← hiff]
  simp only [Outbox.part, outbox, Prod.mk.injEq]
  tauto

/-- Two connected peers, one of which does not read; then a message for the other one. -/
def unreadStream : List (StallingInput String) :=
  let connected : Answers :=
    { Answers.refused with isConnected := true, stream := fun _ => .opened none "" (.ok ()) }
  [⟨.event (.connectionEstablished "177" 0) Answers.refused, fun _ => none⟩,
    ⟨.event (.connectionEstablished "178" 1) Answers.refused, fun _ => none⟩,
    ⟨.command (.send ⟨1⟩ ⟨"/p2p/178"⟩ (.ping "a")) connected, fun _ => some (.writing 7)⟩,
    ⟨.command (.send ⟨2⟩ ⟨"/p2p/177"⟩ (.ping "b")) connected, fun _ => none⟩]

theorem interfered_unreadStream :
    let w := (machine Formats.plain json).run unreadStream
    let v := (machine Formats.plain json).run (withoutOthers Formats.plain "177" unreadStream)
    ¬ (w.world.handOffsTo "177" = v.world.handOffsTo "177" ∧
        w.world.failuresFor Formats.plain "177" = v.world.failuresFor Formats.plain "177" ∧
        w.world.loop.pendingSends.get "177" = v.world.loop.pendingSends.get "177") := by
  decide

/-- A failed dial to one peer between two sends to another. -/
example :
    let inputs : List (Input String) :=
      [.command (.send ⟨1⟩ ⟨"/p2p/177"⟩ (.ping "a")) { Answers.refused with dial := .ok 0 },
        .command (.send ⟨2⟩ ⟨"/p2p/178"⟩ (.ping "b")) Answers.refused,
        .command (.send ⟨3⟩ ⟨"/p2p/177"⟩ (.ping "c")) { Answers.refused with dial := .ok 1 }]
    let w := (machine Formats.plain json).run (inputs.map fun i => ⟨i, fun _ => none⟩)
    w.world.loop.pendingSends.get "177" = some [(⟨1⟩, .ping "a"), (⟨3⟩, .ping "c")] ∧
      w.world.failuresFor Formats.plain "178" = [(⟨2⟩, .protocolError "Dial failed: refused")] := by
  decide

end StallingWorld
end MeerkatNet.V2
