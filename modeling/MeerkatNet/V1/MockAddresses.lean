import MeerkatNet.Foundations.Ownership
import MeerkatNet.V1.Mock

/-!
# Who listens where

Only `listen` touches the shared map and the lists of the nodes, and it touches both or
neither. They are the two sides of a ledger of addresses in which a listen is a claim, so
an address belongs to the first node that listens on it, for good.
-/

namespace MeerkatNet.V1

open Runs Ownership

/-- `MockNetwork::local_addresses`. -/
def MockNetwork.localAddresses (self : MockNetwork) : List GlobalAddress := self.localAddrs

namespace MockWorld

/-- Every address is listed once, by one node, and the keys of the shared map are the listed
addresses, each with the callback of the node that lists it. -/
structure Exclusive (w : MockWorld) : Prop where
  nodup : ∀ self ∈ w.nodes, self.localAddresses.Nodup
  disjoint : w.nodes.Pairwise fun a b => a.localAddresses.Disjoint b.localAddresses
  keys : ∀ key, (w.peers key).isSome ↔ ∃ self ∈ w.nodes, ⟨key⟩ ∈ self.localAddresses
  owner : ∀ key k, w.peers key = some k ↔
    ∃ self, w.nodes[k]? = some self ∧ ⟨key⟩ ∈ self.localAddresses

/-- What node `k` lists. -/
def addressesOf (w : MockWorld) (k : ℕ) : List GlobalAddress :=
  w.nodes[k]?.elim [] MockNetwork.localAddresses

/-! ### What a step does to addresses -/

theorem addressesOf_new (w : MockWorld) (random : UInt32) :
    (w.new random).addressesOf = w.addressesOf := by
  funext k
  refine elim_getElem?_concat w.nodes _ ?_ k
  -- a new node lists nothing
  rfl

theorem addressesOf_set {w w' : MockWorld} {k : ℕ} {self self' : MockNetwork}
    (hself : w.nodes[k]? = some self) (hnodes : w'.nodes = w.nodes.set k self') :
    w'.addressesOf = Function.update w.addressesOf k self'.localAddresses := by
  funext j
  by_cases hj : j = k
  · subst hj
    have hlt := (List.getElem?_eq_some_iff.mp hself).1
    simp [addressesOf, hnodes, hlt]
  · simp [addressesOf, hnodes, List.getElem?_set_ne (Ne.symm hj), hj]

theorem addressesOf_of_getElem? {w : MockWorld} {k : ℕ} {self : MockNetwork}
    (hself : w.nodes[k]? = some self) : w.addressesOf k = self.localAddresses := by
  rw [addressesOf, hself, Option.elim_some]

theorem mem_addressesOf {w : MockWorld} {k : ℕ} {addr : GlobalAddress} :
    addr ∈ w.addressesOf k ↔ ∃ self, w.nodes[k]? = some self ∧ addr ∈ self.localAddresses := by
  unfold addressesOf
  cases w.nodes[k]? <;> simp

/-- Every way in which a step can treat the shared map and the lists. -/
inductive AddressStep (w : MockWorld) : MockInput → MockWorld → Prop where
  | kept {i w'} (hpeers : w'.peers = w.peers) (hlists : w'.addressesOf = w.addressesOf) :
      AddressStep w i w'
  | listened {k addr w'} (hfree : w.peers addr.text = none)
      (hpeers : w'.peers = Function.update w.peers addr.text (some k))
      (hlists : w'.addressesOf =
        Function.update w.addressesOf k (w.addressesOf k ++ [addr])) :
      AddressStep w (.listen k addr) w'

theorem listen_refused_iff {w : MockWorld} {k : ℕ} {self : MockNetwork} {addr : GlobalAddress} :
    (w.listen k self addr).2 = .error .alreadyListening ↔ (w.peers addr.text).isSome = true := by
  unfold listen
  split_ifs with htaken <;> simp [htaken]

theorem next_addressStep (w : MockWorld) (i : MockInput) : AddressStep w i (w.next i) := by
  have hstep := w.next_mockStep i
  generalize w.next i = w' at hstep
  cases hstep with
  | idle | delivered => exact .kept rfl rfl
  | created => exact .kept rfl (w.addressesOf_new _)
  | spawned hself =>
    refine .kept rfl ?_
    rw [addressesOf_set hself rfl]
    exact Function.update_eq_self_iff.mpr (addressesOf_of_getElem? hself).symm
  | listened hself hfree =>
    rw [listen_free hfree]
    refine .listened hfree rfl ?_
    rw [addressesOf_set hself rfl, addressesOf_of_getElem? hself]
    rfl

/-! ### The ledger of addresses -/

/-- The shared map and the lists are the two sides of a ledger. -/
structure Registered (w : MockWorld) (L : Ledger GlobalAddress ℕ) : Prop where
  owner : ∀ key, w.peers key = L.owner ⟨key⟩
  held : w.addressesOf = L.held

theorem registered_init : init.Registered .empty := ⟨fun _ => rfl, rfl⟩

/-- A step is a claim or nothing. -/
theorem registered_next {w : MockWorld} {L : Ledger GlobalAddress ℕ} (h : w.Registered L)
    (i : MockInput) : ∃ cs, (w.next i).Registered (claims.exec L cs) := by
  have hstep := w.next_addressStep i
  generalize w.next i = w' at hstep
  cases hstep with
  | kept hpeers hlists => exact ⟨[], by rw [hpeers]; exact h.owner, hlists.trans h.held⟩
  | @listened k addr _ hfree hpeers hlists =>
    have hclaim : claims.exec L [(k, addr)] = L.take k addr ((h.owner _).symm.trans hfree) :=
      L.claim_free k _
    refine ⟨[(k, addr)], ?_, ?_⟩
    · intro key
      rw [hclaim, hpeers]
      by_cases hkey : key = addr.text
      · subst hkey
        simp [Ledger.take]
      · have haddr : (⟨key⟩ : GlobalAddress) ≠ addr := fun heq =>
          hkey (congrArg GlobalAddress.text heq)
        simp [Ledger.take, hkey, haddr, h.owner]
    · rw [hclaim, hlists, h.held]
      rfl

theorem registered_exec {w : MockWorld} {L : Ledger GlobalAddress ℕ} (h : w.Registered L)
    (inputs : List MockInput) : ∃ cs, (machine.exec w inputs).Registered (claims.exec L cs) :=
  machine.exec_forward (N := claims) (R := Registered) (fun _ _ i hv => registered_next hv i)
    h inputs

theorem Registered.exclusive {w : MockWorld} {L : Ledger GlobalAddress ℕ} (h : w.Registered L) :
    w.Exclusive := by
  have hheld : ∀ {k self}, w.nodes[k]? = some self → self.localAddresses = L.held k := by
    intro k self hself
    rw [← h.held, addressesOf_of_getElem? hself]
  refine ⟨?_, ?_, ?_, ?_⟩
  · intro self hself
    obtain ⟨k, hk⟩ := List.mem_iff_getElem?.mp hself
    rw [hheld hk]
    exact L.nodup_held k
  · rw [List.pairwise_iff_getElem]
    intro i j hi hj hlt
    rw [hheld (List.getElem?_eq_getElem hi), hheld (List.getElem?_eq_getElem hj)]
    exact L.disjoint_held hlt.ne
  · intro key
    rw [h.owner, L.isSome_owner, ← h.held]
    constructor
    · rintro ⟨k, hk⟩
      obtain ⟨self, hself, hmem⟩ := mem_addressesOf.mp hk
      exact ⟨self, List.mem_of_getElem? hself, hmem⟩
    · rintro ⟨self, hself, hmem⟩
      obtain ⟨k, hk⟩ := List.mem_iff_getElem?.mp hself
      exact ⟨k, mem_addressesOf.mpr ⟨self, hk, hmem⟩⟩
  · intro key k
    rw [h.owner, ← L.mem_held, ← h.held, mem_addressesOf]

/-- In every run the addresses have one owner each, the node that lists them, now and later, and a
refused listen changes nothing. -/
theorem addresses_exclusive (inputs : List MockInput) :
    (machine.run inputs).Exclusive ∧
    (∀ rest key owner, (machine.run inputs).peers key = some owner →
      (machine.run (inputs ++ rest)).peers key = some owner) ∧
    ∀ k self addr, (machine.run inputs).nodes[k]? = some self →
      ((machine.run inputs).listen k self addr).2 = .error .alreadyListening →
      ((machine.run inputs).listen k self addr).1 = machine.run inputs := by
  obtain ⟨cs, hcs⟩ := registered_exec registered_init inputs
  refine ⟨hcs.exclusive, ?_, ?_⟩
  · intro rest key owner howner
    obtain ⟨cs', hcs'⟩ := registered_exec hcs rest
    rw [Machine.run_append]
    change (machine.exec (machine.exec init inputs) rest).peers key = some owner
    rw [hcs'.owner]
    exact extends_exec _ cs' _ _ ((hcs.owner key).symm.trans howner)
  · intro k self addr _ hrefused
    rw [listen_taken (listen_refused_iff.mp hrefused)]

/-- The second listener is refused, and the address stays with the first. -/
example :
    let w := machine.run [.new 7, .new 8, .listen 0 ⟨"/ip4/203.0.113.10/tcp/9000"⟩,
      .listen 1 ⟨"/ip4/203.0.113.10/tcp/9000"⟩]
    w.addressesOf 0 = [⟨"/ip4/203.0.113.10/tcp/9000"⟩] ∧ w.addressesOf 1 = [] ∧
      w.peers "/ip4/203.0.113.10/tcp/9000" = some 0 := by
  decide

end MockWorld
end MeerkatNet.V1
