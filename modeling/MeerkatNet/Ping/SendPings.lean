import MeerkatNet.Foundations.Entries
import MeerkatNet.Ping.Exchange

/-!
# The loop of the native client

`send_pings` makes one numbered ping after another, each over a stream of its own. A
stream that cannot be opened and a ping that fails are skipped; a server that does not
know the protocol ends the loop. Streams that the loop is done with may still move.
-/

namespace MeerkatNet.Ping

open Runs Entries

/-- What `open_stream` answers. -/
inductive OpenAnswer where
  | opened
  | unsupportedProtocol
  | failed
  deriving DecidableEq, Repr

def numberedPing (counter : UInt64) : PingMessage :=
  ⟨"Hello from Meerkat client (ping #" ++ toString counter ++ ")"⟩

/-- Where the loop stands: asleep or opening a stream, in the middle of `send_ping`, or done. -/
inductive Phase where
  | sleeping
  | pinging (session : Session Unit)
  | returned

/-- The variables of `send_pings`, the numbers it has logged as complete, and the numbered streams
that it is done with. -/
structure PingLoop where
  counter : UInt64
  phase : Phase
  log : List UInt64
  past : List (UInt64 × Session Unit)

inductive LoopInput where
  | tick (answer : OpenAnswer)
  | current (i : SessionInput)
  | past (k : ℕ) (i : SessionInput)
  | resume

namespace LoopInput

def isTick : LoopInput → Bool
  | .tick _ => true
  | _ => false

end LoopInput

/-- The number that `send_pings` logs for a stream, if its task succeeded. -/
def completedNumber (p : UInt64 × Session Unit) : Option UInt64 :=
  match p.2.client with
  | .returned _ (.ok _) => some p.1
  | _ => none

theorem completedNumber_eq_some {p : UInt64 × Session Unit} {n : UInt64} :
    completedNumber p = some n ↔
      p.1 = n ∧ ∃ received, p.2.client = .returned received (.ok ()) := by
  unfold completedNumber
  split
  · rename_i received _ hclient
    simp [hclient]
  · rename_i hclient
    simpa using fun _ received h => hclient received () h

/-- A task that has returned does nothing more. -/
theorem Session.next_returned {ρ : Type} {C : Client ρ} {J : SerdeJson} {s : Session ρ}
    {received : Option PongMessage} {result : Except String ρ}
    (h : s.client = .returned received result) (i : SessionInput) :
    (s.next C J i).client = .returned received result := by
  cases i with
  | serve room error =>
    simp only [next]
    split
    · split <;> exact h
    · exact h
  | requestEnds error =>
    simp only [next]
    split <;> exact h
  | requestArrives n => exact h
  | responseArrives n => exact h
  | request room error => simp [next, h]
  | receive => simp [next, h]
  | responseEnds error => simp [next, h]
  | close closed => simp [next, h]

/-- A numbered stream takes a step. -/
def moveStream (J : SerdeJson) (i : SessionInput) (p : UInt64 × Session Unit) :
    UInt64 × Session Unit :=
  (p.1, p.2.next nativeClient J i)

namespace PingLoop

def init : PingLoop := ⟨0, .sleeping, [], []⟩

variable (J : SerdeJson)

def next (l : PingLoop) : LoopInput → PingLoop
  | .tick answer =>
    match l.phase with
    | .sleeping =>
      let counter := l.counter + 1
      match answer with
      | .opened => { l with counter := counter, phase := .pinging (.init (numberedPing counter)) }
      | .unsupportedProtocol => { l with counter := counter, phase := .returned }
      | .failed => { l with counter := counter }
    | _ => l
  | .current i =>
    match l.phase with
    | .pinging session => { l with phase := .pinging (session.next nativeClient J i) }
    | _ => l
  | .past k i => { l with past := l.past.modify k (moveStream J i) }
  | .resume =>
    match l.phase with
    | .pinging session =>
      match session.client with
      | .returned _ (.error _) =>
        { l with phase := .sleeping, past := l.past ++ [(l.counter, session)] }
      | .returned _ (.ok _) =>
        { l with phase := .sleeping, log := l.log ++ [l.counter],
                 past := l.past ++ [(l.counter, session)] }
      | _ => l
    | _ => l

def machine : Machine PingLoop LoopInput := ⟨init, next J⟩

/-- The ping of a numbered stream is the one of its number. -/
def Genuine (J : SerdeJson) (p : UInt64 × Session Unit) : Prop :=
  p.2.Genuine nativeClient J (numberedPing p.1)

/-- The log and the streams that the loop is done with, after so many turns. -/
structure Orderly (J : SerdeJson) (ticks : ℕ) (l : PingLoop) : Prop where
  counter : l.counter.toNat ≤ ticks
  past : ∀ p ∈ l.past, Genuine J p ∧ ∃ received result, p.2.client = .returned received result
  current : ∀ s, l.phase = .pinging s → Genuine J (l.counter, s) ∧ ∀ p ∈ l.past, p.1 < l.counter
  log : l.log = l.past.filterMap completedNumber
  ascending : (l.past.map Prod.fst).Pairwise (· < ·)
  below : ∀ p ∈ l.past, p.1 ≤ l.counter

variable {J}

theorem orderly_init : init.Orderly J 0 where
  counter := le_rfl
  past p hp := by simp [init] at hp
  current s hs := by simp [init] at hs
  log := rfl
  ascending := .nil
  below p hp := by simp [init] at hp

theorem toNat_counter_succ {counter : UInt64} {ticks : ℕ} (hcounter : counter.toNat ≤ ticks)
    (hticks : ticks + 1 < 2 ^ 64) : (counter + 1).toNat = counter.toNat + 1 := by
  rw [UInt64.toNat_add]
  exact Nat.mod_eq_of_lt (by simpa using by omega)

theorem lt_counter_succ {n counter : UInt64} (hsucc : (counter + 1).toNat = counter.toNat + 1)
    (hle : n ≤ counter) : n < counter + 1 := by
  rw [UInt64.lt_iff_toNat_lt, hsucc]
  exact Nat.lt_succ_of_le (UInt64.le_iff_toNat_le.mp hle)

theorem completedNumber_next {p : UInt64 × Session Unit}
    (hp : ∃ received result, p.2.client = .returned received result) (i : SessionInput) :
    completedNumber (moveStream J i p) = completedNumber p := by
  obtain ⟨received, result, hclient⟩ := hp
  simp only [completedNumber, moveStream, Session.next_returned hclient, hclient]

theorem Orderly.movePast (hJ : J.Faithful) {ticks : ℕ} {l : PingLoop} (hl : l.Orderly J ticks)
    (k : ℕ) (i : SessionInput) : (l.next J (.past k i)).Orderly J ticks := by
  have hnumbers : (l.next J (.past k i)).past.map Prod.fst = l.past.map Prod.fst := by
    rw [← List.filterMap_eq_map]
    exact filterMap_modify (f := moveStream J i) (fun _ _ => rfl) k
  have hmem : ∀ p ∈ (l.next J (.past k i)).past, ∃ q ∈ l.past, q.1 = p.1 := by
    intro p hp
    rcases mem_of_mem_modify hp with hp | ⟨q, hq, rfl⟩
    · exact ⟨p, hp, rfl⟩
    · exact ⟨q, hq, rfl⟩
  refine ⟨hl.counter, ?_, ?_, ?_, ?_, ?_⟩
  · intro p hp
    rcases mem_of_mem_modify hp with hp | ⟨q, hq, rfl⟩
    · exact hl.past p hp
    · obtain ⟨hgenuine, received, result, hclient⟩ := hl.past q hq
      exact ⟨hgenuine.next hJ i, received, result, Session.next_returned hclient i⟩
  · intro s hs
    obtain ⟨hgenuine, hbelow⟩ := hl.current s hs
    refine ⟨hgenuine, ?_⟩
    intro p hp
    obtain ⟨q, hq, heq⟩ := hmem p hp
    exact heq ▸ hbelow q hq
  · have hsame := filterMap_modify
      (fun p hp => completedNumber_next (J := J) (hl.past p hp).2 i) k
    exact hl.log.trans hsame.symm
  · rw [hnumbers]
    exact hl.ascending
  · intro p hp
    obtain ⟨q, hq, heq⟩ := hmem p hp
    exact heq ▸ hl.below q hq

/-- The loop puts aside the stream of its current number. -/
theorem Orderly.settle {ticks : ℕ} {l : PingLoop} (hl : l.Orderly J ticks) {s : Session Unit}
    (hphase : l.phase = .pinging s) {received : Option PongMessage} {result : Except String Unit}
    (hclient : s.client = .returned received result) :
    Orderly J ticks
      { l with phase := .sleeping, log := l.log ++ (completedNumber (l.counter, s)).toList,
               past := l.past ++ [(l.counter, s)] } := by
  obtain ⟨hgenuine, hbelow⟩ := hl.current s hphase
  refine ⟨hl.counter, ?_, by simp, ?_, ?_, ?_⟩
  · intro p hp
    rcases List.mem_append.mp hp with hp | hp
    · exact hl.past p hp
    · obtain rfl := List.mem_singleton.mp hp
      exact ⟨hgenuine, received, result, hclient⟩
  · rw [hl.log, List.filterMap_append]
    cases hnumber : completedNumber (l.counter, s) <;> simp [hnumber]
  · rw [List.map_append, List.pairwise_append]
    refine ⟨hl.ascending, by simp, ?_⟩
    rintro n hn m hm
    obtain ⟨p, hp, rfl⟩ := List.mem_map.mp hn
    obtain rfl : m = l.counter := by simpa using hm
    exact hbelow p hp
  · intro p hp
    rcases List.mem_append.mp hp with hp | hp
    · exact hl.below p hp
    · obtain rfl := List.mem_singleton.mp hp
      exact UInt64.le_refl _

/-- The loop counts a turn and does not open a stream. -/
theorem Orderly.count {ticks : ℕ} {l : PingLoop} (hl : l.Orderly J ticks)
    (hticks : ticks + 1 < 2 ^ 64) {phase : Phase} (hphase : ∀ s, phase ≠ .pinging s) :
    Orderly J (ticks + 1) { l with counter := l.counter + 1, phase := phase } := by
  have hsucc := toNat_counter_succ hl.counter hticks
  have hcounter := hl.counter
  refine ⟨?_, hl.past, ?_, hl.log, hl.ascending, ?_⟩
  · simp only [hsucc]
    omega
  · intro s hs
    exact absurd hs (hphase s)
  · intro p hp
    exact UInt64.le_of_lt (lt_counter_succ hsucc (hl.below p hp))

/-- The loop opens the stream of its next number. -/
theorem Orderly.opened (hJ : J.Faithful) {ticks : ℕ} {l : PingLoop} (hl : l.Orderly J ticks)
    (hticks : ticks + 1 < 2 ^ 64) :
    Orderly J (ticks + 1)
      { l with counter := l.counter + 1,
               phase := .pinging (.init (numberedPing (l.counter + 1))) } := by
  have hsucc := toNat_counter_succ hl.counter hticks
  have hcounter := hl.counter
  refine ⟨?_, hl.past, ?_, hl.log, hl.ascending, ?_⟩
  · simp only [hsucc]
    omega
  · intro s hs
    obtain rfl := Phase.pinging.inj hs
    refine ⟨Session.genuine_init hJ _, ?_⟩
    intro p hp
    exact lt_counter_succ hsucc (hl.below p hp)
  · intro p hp
    exact UInt64.le_of_lt (lt_counter_succ hsucc (hl.below p hp))

theorem Orderly.mono {ticks ticks' : ℕ} {l : PingLoop} (hl : l.Orderly J ticks)
    (hle : ticks ≤ ticks') : l.Orderly J ticks' :=
  ⟨hl.counter.trans hle, hl.past, hl.current, hl.log, hl.ascending, hl.below⟩

theorem Orderly.tick (hJ : J.Faithful) {ticks : ℕ} {l : PingLoop} (hl : l.Orderly J ticks)
    (hticks : ticks + 1 < 2 ^ 64) (answer : OpenAnswer) :
    (l.next J (.tick answer)).Orderly J (ticks + 1) := by
  simp only [PingLoop.next]
  split
  · rename_i hsleeping
    cases answer with
    | opened => exact hl.opened hJ hticks
    | unsupportedProtocol => exact hl.count hticks (by simp)
    | failed => exact hl.count hticks (by simp [hsleeping])
  · exact hl.mono (Nat.le_succ ticks)

theorem Orderly.moveCurrent (hJ : J.Faithful) {ticks : ℕ} {l : PingLoop} (hl : l.Orderly J ticks)
    (i : SessionInput) : (l.next J (.current i)).Orderly J ticks := by
  simp only [PingLoop.next]
  split
  · rename_i session hphase
    obtain ⟨hgenuine, hbelow⟩ := hl.current session hphase
    refine ⟨hl.counter, hl.past, ?_, hl.log, hl.ascending, hl.below⟩
    intro s hs
    obtain rfl := Phase.pinging.inj hs
    exact ⟨hgenuine.next hJ i, hbelow⟩
  · exact hl

theorem Orderly.resume {ticks : ℕ} {l : PingLoop} (hl : l.Orderly J ticks) :
    (l.next J .resume).Orderly J ticks := by
  simp only [PingLoop.next]
  split
  · rename_i session hphase
    split
    · rename_i hclient
      have hsettled := hl.settle hphase hclient
      simpa [completedNumber, hclient] using hsettled
    · rename_i hclient
      have hsettled := hl.settle hphase hclient
      simpa [completedNumber, hclient] using hsettled
    · exact hl
  · exact hl

theorem Orderly.next (hJ : J.Faithful) {ticks : ℕ} {l : PingLoop} (hl : l.Orderly J ticks)
    {i : LoopInput} (hticks : i.isTick = true → ticks + 1 < 2 ^ 64) :
    (l.next J i).Orderly J (ticks + [i].countP LoopInput.isTick) := by
  cases i with
  | tick answer => exact hl.tick hJ (hticks rfl) answer
  | current i => exact hl.moveCurrent hJ i
  | past k i => exact hl.movePast hJ k i
  | resume => exact hl.resume

theorem orderly_run (hJ : J.Faithful) {inputs : List LoopInput}
    (hticks : inputs.countP LoopInput.isTick < 2 ^ 64) :
    ((machine J).run inputs).Orderly J (inputs.countP LoopInput.isTick) := by
  induction inputs using List.reverseRecOn with
  | nil => exact orderly_init
  | append_singleton inputs i ih =>
    rw [List.countP_append] at hticks ⊢
    rw [Machine.run_concat]
    refine (ih (by omega)).next hJ ?_
    intro hi
    simpa [hi] using hticks

/-- Below 2⁶⁴ turns, the log has the numbers of the pings that succeeded, each once and in
increasing order. The server heard exactly the ping of that number, finished, and the client got
the reply to it; all earlier exchanges are over when the next one begins. -/
theorem log_answered (hJ : J.Faithful) {inputs : List LoopInput}
    (hticks : inputs.countP LoopInput.isTick < 2 ^ 64) :
    ((machine J).run inputs).log =
      ((machine J).run inputs).past.filterMap completedNumber ∧
    ((machine J).run inputs).log.Pairwise (· < ·) ∧
    (∀ p ∈ ((machine J).run inputs).past,
      ∃ received result, p.2.client = .returned received result) ∧
    ∀ n ∈ ((machine J).run inputs).log, ∃ s, (n, s) ∈ ((machine J).run inputs).past ∧
      s.client = .returned (some (reply (numberedPing n))) (.ok ()) ∧
      s.server = .returned (some (numberedPing n)) (.ok ()) := by
  have hrun := orderly_run hJ hticks
  refine ⟨hrun.log, ?_, fun p hp => (hrun.past p hp).2, ?_⟩
  · rw [hrun.log]
    refine hrun.ascending.sublist (filterMap_sublist_map ?_ _)
    intro p n hp
    exact (completedNumber_eq_some.mp hp).1
  · intro n hn
    rw [hrun.log] at hn
    obtain ⟨⟨m, s⟩, hs, hnumber⟩ := List.mem_filterMap.mp hn
    obtain ⟨rfl, received, hclient⟩ := completedNumber_eq_some.mp hnumber
    have hgenuine : s.Genuine nativeClient J (numberedPing m) := (hrun.past _ hs).1
    obtain ⟨rfl, -⟩ := hgenuine.finished hclient
    exact ⟨s, hs, hclient, (hgenuine.received (by rw [hclient]; rfl)).2⟩

/-- Two pings, of which the first cannot be delivered. -/
def secondPing : List LoopInput :=
  [.tick .opened, .current (.request (some 10) "reset"), .resume, .tick .failed, .tick .opened] ++
    (Session.finishing (messageBytes (numberedPing 3).message)
      (messageBytes (reply (numberedPing 3)).message)).map .current ++ [.resume]

theorem log_answered_secondPing :
    ∃ s, (3, s) ∈ ((machine serdeJson).run secondPing).past ∧
      s.client = .returned (some (reply (numberedPing 3))) (.ok ()) ∧
      s.server = .returned (some (numberedPing 3)) (.ok ()) := by
  have hticks : secondPing.countP LoopInput.isTick < 2 ^ 64 := by decide
  exact (log_answered serdeJson_faithful hticks).2.2.2 3 (by decide +kernel)

end PingLoop
end MeerkatNet.Ping
