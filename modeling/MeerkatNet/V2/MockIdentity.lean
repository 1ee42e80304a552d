import MeerkatNet.V2.Mock

/-!
# The identity of mock nodes

A registry entry always names a node that has the entry's key as its peer id. The ids
keep only the nanoseconds within the second, so they are distinct, no entry is ever
replaced and every node is found under its own id, exactly when no two creations fall
on the same nanosecond of their seconds.
-/

namespace MeerkatNet.V2

open HexText Runs

namespace MockWorld

/-- A registry entry names a node with that peer id, and every peer id has an entry. -/
structure Named (w : MockWorld) : Prop where
  names : ∀ peer k, w.registry peer = some k → w.peerIds[k]? = some peer
  found : ∀ peer ∈ w.peerIds, ∃ k, w.registry peer = some k

theorem named_newRegistry : newRegistry.Named where
  names _ _ h := by simp [newRegistry] at h
  found _ h := by simp [newRegistry, peerIds] at h

theorem Named.newWithRegistry {w : MockWorld} (hw : w.Named) (now : ℕ) :
    (w.newWithRegistry now).Named := by
  have hregistry : (w.newWithRegistry now).registry =
      Function.update w.registry ("mock-peer-" ++ uuidSimple now) (some w.peerIds.length) := by
    simp [MockWorld.newWithRegistry, peerIds]
  constructor
  · intro peer k h
    rw [hregistry, Function.update_apply] at h
    rw [peerIds_newWithRegistry]
    split_ifs at h with hpeer
    · obtain rfl := Option.some.inj h
      simp [hpeer]
    · have hold := hw.names peer k h
      rwa [List.getElem?_append_left (List.getElem?_eq_some_iff.mp hold).1]
  · intro peer h
    rw [peerIds_newWithRegistry, List.mem_append, List.mem_singleton] at h
    rw [hregistry, Function.update_apply]
    split_ifs with hpeer
    · exact ⟨_, rfl⟩
    · exact hw.found peer (h.resolve_right hpeer)

theorem named_next {w : MockWorld} (hw : w.Named) (i : MockInput) : (w.next i).Named := by
  by_cases hi : ∃ now, i = .create now
  · obtain ⟨now, rfl⟩ := hi
    exact hw.newWithRegistry now
  · push Not at hi
    obtain ⟨hregistry, hpeers⟩ := w.next_peers hi
    exact ⟨by rw [hregistry, hpeers]; exact hw.names, by rw [hregistry, hpeers]; exact hw.found⟩

theorem named_run (inputs : List MockInput) : (machine.run inputs).Named :=
  machine.run_invariant named_newRegistry (fun _ i hw => named_next hw i) inputs

/-- With distinct peer ids the registry holds exactly the nodes under their own ids. -/
theorem Named.registry_eq_some_iff {w : MockWorld} (hw : w.Named) (hdistinct : w.peerIds.Nodup)
    {peer : String} {k : ℕ} : w.registry peer = some k ↔ w.peerIds[k]? = some peer := by
  refine ⟨hw.names peer k, ?_⟩
  intro hk
  obtain ⟨j, hj⟩ := hw.found peer (List.mem_of_getElem? hk)
  have hsame := (hw.names peer j hj).trans hk.symm
  rw [hj, (List.getElem?_inj (List.getElem?_eq_some_iff.mp (hw.names peer j hj)).1 hdistinct).mp
    hsame]

/-! ### Creation times -/

/-- The clock readings of the creations of a run. -/
def clocks (inputs : List MockInput) : List ℕ :=
  inputs.filterMap fun
    | .create now => some now
    | _ => none

theorem peerIds_run (inputs : List MockInput) :
    (machine.run inputs).peerIds =
      (clocks inputs).map fun now => "mock-peer-" ++ uuidSimple now := by
  induction inputs using List.reverseRecOn with
  | nil => rfl
  | append_singleton inputs i ih =>
    rw [Machine.run_concat, clocks, List.filterMap_append, List.map_append, ← clocks, ← ih]
    by_cases hi : ∃ now, i = .create now
    · obtain ⟨now, rfl⟩ := hi
      exact peerIds_newWithRegistry _ now
    · push Not at hi
      have hnone : clocks [i] = [] := by
        cases i with
        | create now => exact absurd rfl (hi now)
        | command | tryRecv | drop => rfl
      rw [← clocks, hnone, List.map_nil, List.append_nil]
      exact (next_peers _ hi).2

theorem peerIds_nodup_iff (inputs : List MockInput) :
    (machine.run inputs).peerIds.Nodup ↔ ((clocks inputs).map (· % 10 ^ 9)).Nodup := by
  have hids : (machine.run inputs).peerIds =
      ((clocks inputs).map (· % 10 ^ 9)).map fun t => "mock-peer-" ++ paddedHex 8 t := by
    rw [peerIds_run, List.map_map]
    rfl
  rw [hids]
  apply List.nodup_map_iff
  intro s t h
  exact paddedHex_injective 8 (String.append_right_inj _ |>.mp h)

/-- A creation finds no entry under its peer id. -/
def ReplacesNone (w : MockWorld) : MockInput → Prop
  | .create now => w.registry ("mock-peer-" ++ uuidSimple now) = none
  | _ => True

/-- Every node is found under its own peer id. -/
def Reachable (w : MockWorld) : Prop :=
  ∀ k n, w.nodes[k]? = some n → w.registry n.peerId = some k

/-- In every run, the peer ids are distinct, no creation replaces an entry and all nodes are
reachable exactly if no two creations fall on the same nanosecond of their seconds. -/
theorem distinct_iff_subsecond (inputs : List MockInput) :
    ((machine.run inputs).peerIds.Nodup ∧ machine.Along ReplacesNone newRegistry inputs ∧
      (machine.run inputs).Reachable) ↔ ((clocks inputs).map (· % 10 ^ 9)).Nodup := by
  refine ⟨fun h => (peerIds_nodup_iff inputs).mp h.1, ?_⟩
  intro hclocks
  have hdistinct := (peerIds_nodup_iff inputs).mpr hclocks
  refine ⟨hdistinct, ?_, ?_⟩
  · apply (Machine.along_iff_isPrefix _ _ _ _).mpr
    rintro bs i ⟨rest, rfl⟩
    cases i with
    | create now =>
      have hsplit : clocks (bs ++ [.create now] ++ rest) = clocks bs ++ now :: clocks rest := by
        simp [clocks]
      rw [peerIds_run, hsplit, List.map_append, List.map_cons, List.nodup_append] at hdistinct
      have hnew : "mock-peer-" ++ uuidSimple now ∉ (machine.run bs).peerIds := by
        intro hmem
        rw [peerIds_run] at hmem
        exact hdistinct.2.2 _ hmem _ (List.mem_cons_self ..) rfl
      apply Option.eq_none_iff_forall_ne_some.mpr
      intro k hk
      exact hnew (List.mem_of_getElem? ((named_run bs).names _ k hk))
    | command | tryRecv | drop => trivial
  · intro k n hn
    exact ((named_run inputs).registry_eq_some_iff hdistinct).mpr (peerIds_getElem? hn)

/-- Two nodes created one second apart displace one another. -/
theorem not_distinct_oneSecondApart :
    [5, 10 ^ 9 + 5].Pairwise (· ≤ ·) ∧
    ¬ ((machine.run ([5, 10 ^ 9 + 5].map .create)).peerIds.Nodup ∧
      machine.Along ReplacesNone newRegistry ([5, 10 ^ 9 + 5].map .create) ∧
      (machine.run ([5, 10 ^ 9 + 5].map .create)).Reachable) := by
  refine ⟨by decide, ?_⟩
  rintro ⟨hdistinct, -⟩
  exact absurd hdistinct (by decide +kernel)

end MockWorld
end MeerkatNet.V2
