import MeerkatNet.Foundations.Machine
import MeerkatNet.V2.Types

/-!
# The contract of the network layer

What the Manager may see through the trait `NetworkLayer`, of whatever stands behind it:
the commands that were accepted, the replies, and the events that it has polled. Two
implementations promise it. A ledger of what was seen so far says what may come next.
-/

namespace MeerkatNet.V2

open Runs

/-- The id of a `SendFailed` event. -/
def NetworkEvent.failedId? : NetworkEvent → Option MessageId
  | .sendFailed msgId _ => some msgId
  | _ => none

namespace NetworkLayer

inductive Observation where
  | command (cmd : NetworkCommand)
  | reply (r : NetworkReply)
  | event (e : NetworkEvent)
  deriving DecidableEq, Repr

/-- The command that is not replied to yet, the ids of the acknowledged sends, the ids of the
failures that were polled, and the addresses of the successful listen requests. -/
structure Ledger where
  outstanding : Option NetworkCommand
  sent : List MessageId
  failed : List MessageId
  listening : List Address
  deriving DecidableEq, Repr

namespace Ledger

def empty : Ledger := ⟨none, [], [], []⟩

def record (l : Ledger) : Observation → Ledger
  | .command cmd => { l with outstanding := some cmd }
  | .reply (.messageSent msgId) => { l with outstanding := none, sent := l.sent ++ [msgId] }
  | .reply (.listenSuccess addr) =>
    { l with outstanding := none, listening := l.listening ++ [addr] }
  | .reply _ => { l with outstanding := none }
  | .event e => { l with failed := l.failed ++ e.failedId?.toList }

/-- The replies that a command may get: sends are numbered from one, and a list of addresses is
that of the successful listen requests. -/
def Answers (l : Ledger) : NetworkCommand → NetworkReply → Prop
  | .sendMessage _ _, .messageSent msgId => msgId = ⟨UInt64.ofNat (l.sent.length + 1)⟩
  | .listen _, .listenSuccess _ => True
  | .listen _, .failure _ => True
  | .getLocalAddresses, .localAddresses addrs => addrs = l.listening
  | .listenViaRelay _, .listenSuccess _ => True
  | .listenViaRelay _, .failure _ => True
  | _, _ => False

/-- One command at a time is replied to, and a failure is about an acknowledged send that was not
reported before. -/
def Permits (l : Ledger) : Observation → Prop
  | .command _ => l.outstanding = none
  | .reply r => ∃ cmd, l.outstanding = some cmd ∧ l.Answers cmd r
  | .event e => ∀ msgId, e.failedId? = some msgId → msgId ∈ l.sent ∧ msgId ∉ l.failed

end Ledger

def contract : Machine Ledger Observation := ⟨.empty, Ledger.record⟩

@[simp] theorem contract_init : contract.init = .empty := rfl

@[simp] theorem contract_next (l : Ledger) (o : Observation) :
    contract.next l o = l.record o := rfl

/-- What a Manager may see. -/
def Allowed (log : List Observation) : Prop := contract.Along Ledger.Permits .empty log

/-! ### What a Manager can rely on -/

/-- Sends are numbered in order, and failures are reported once each, for acknowledged sends. -/
structure Ledger.Sound (l : Ledger) : Prop where
  sent : l.sent = (List.range l.sent.length).map fun k => ⟨UInt64.ofNat (k + 1)⟩
  failed_sent : ∀ msgId ∈ l.failed, msgId ∈ l.sent
  failed_nodup : l.failed.Nodup

theorem Ledger.sound_empty : Ledger.empty.Sound := ⟨rfl, List.forall_mem_nil _, List.nodup_nil⟩

theorem Ledger.Sound.record {l : Ledger} (hl : l.Sound) {o : Observation} (ho : l.Permits o) :
    (l.record o).Sound := by
  cases o with
  | command cmd => exact ⟨hl.sent, hl.failed_sent, hl.failed_nodup⟩
  | event e =>
    cases hid : e.failedId? with
    | none => simpa [Ledger.record, hid] using hl
    | some msgId =>
      obtain ⟨hsent, hnew⟩ := ho msgId hid
      simp only [Ledger.record, hid, Option.toList_some]
      refine ⟨hl.sent, ?_, ?_⟩
      · intro id hmem
        rcases List.mem_append.mp hmem with hmem | hmem
        · exact hl.failed_sent id hmem
        · exact List.mem_singleton.mp hmem ▸ hsent
      · rw [List.nodup_append]
        refine ⟨hl.failed_nodup, List.nodup_singleton _, ?_⟩
        rintro id hmem id' hmem' rfl
        exact hnew (List.mem_singleton.mp hmem' ▸ hmem)
  | reply r =>
    obtain ⟨cmd, -, hanswers⟩ := ho
    cases r with
    | messageSent msgId =>
      have hid : msgId = ⟨UInt64.ofNat (l.sent.length + 1)⟩ := by
        cases cmd with
        | sendMessage => exact hanswers
        | listen | getLocalAddresses | listenViaRelay => exact hanswers.elim
      refine ⟨?_, ?_, hl.failed_nodup⟩
      · simp only [Ledger.record, List.length_append, List.length_singleton, List.range_succ,
          List.map_append, List.map_singleton, ← hl.sent, hid]
      · intro id hmem
        exact List.mem_append_left _ (hl.failed_sent id hmem)
    | listenSuccess | localAddresses | failure =>
      exact ⟨hl.sent, hl.failed_sent, hl.failed_nodup⟩

theorem Allowed.sound {log : List Observation} (h : Allowed log) : (contract.run log).Sound :=
  Machine.Along.invariant Ledger.sound_empty (fun _ _ hl ho => hl.record ho) h

/-- A list of addresses, once reported, is a beginning of every later one. -/
theorem listening_isPrefix (l : Ledger) (log : List Observation) :
    l.listening <+: (contract.exec l log).listening := by
  apply contract.exec_invariant (P := fun m => l.listening <+: m.listening)
  · intro m o hm
    refine hm.trans ?_
    cases o with
    | command | event => exact List.prefix_rfl
    | reply r =>
      cases r with
      | listenSuccess addr => exact List.prefix_append _ _
      | messageSent | localAddresses | failure => exact List.prefix_rfl
  · exact List.prefix_rfl

end NetworkLayer
end MeerkatNet.V2
