import MeerkatNet.V2.Delivery

/-!
# Any number of nodes

The nodes of a network make their own steps in any order, and the transport hands the
stream of a hand-off to the node whose peer id it was opened for, at most once and
under the peer id of the node that opened it. Streams of other peers are under other
ids and carry anything. Any two nodes of a network run as a pair.
-/

namespace MeerkatNet.V2

open Libp2p KeyedQueues Runs Framing

variable {ι PeerId : Type}

/-- For each reader of each node, `link` says which hand-off of which node it reads, if its
stream comes from a node of the network. -/
structure Network (ι PeerId : Type) where
  node : ι → Node PeerId
  link : ι → List (Option (ι × ℕ))

inductive NetworkInput (ι PeerId : Type) where
  | step (k : ι) (i : NodeInput PeerId)
  | connect (sender receiver : ι) (handOff : ℕ)

namespace Network

def init (ids : ι → PeerId) (types : ι → NodeType) : Network ι PeerId :=
  ⟨fun k => .init (ids k) (types k), fun _ => []⟩

def peerId (w : Network ι PeerId) (k : ι) : PeerId := (w.node k).actor.localPeerId

/-- The hand-off whose stream a reader of a node reads. -/
def source? (w : Network ι PeerId) (k : ι) (reader : ℕ) : Option (ι × ℕ) :=
  ((w.link k)[reader]?).join

variable [DecidableEq ι]

/-- A step of a node; a new reader gets the source of its stream. -/
def receive (w : Network ι PeerId) (k : ι) (n : Node PeerId) (source : Option (ι × ℕ)) :
    Network ι PeerId where
  node := Function.update w.node k n
  link := Function.update w.link k
    (if n.readers.length = (w.node k).readers.length then w.link k else w.link k ++ [source])

variable [DecidableEq PeerId] (F : Formats PeerId) (S : Serde)

def next (w : Network ι PeerId) : NetworkInput ι PeerId → Network ι PeerId
  | .step k i => w.receive k ((w.node k).next F S i) none
  | .connect a b j => w.receive b ((w.node b).next F S (.accept (w.peerId a))) (some (a, j))

def machine (ids : ι → PeerId) (types : ι → NodeType) :
    Machine (Network ι PeerId) (NetworkInput ι PeerId) :=
  ⟨init ids types, next F S⟩

/-- What the transport can do. No node opens a stream to itself. -/
def Transport (w : Network ι PeerId) : NetworkInput ι PeerId → Prop
  | .step _ (.accept peer) => ∀ a, peer ≠ w.peerId a
  | .step b (.arrive k bytes) => ∀ source ∈ w.source? b k,
    ∀ h ∈ (w.node source.1).world.handOffs[source.2]?, ∀ r ∈ (w.node b).readers[k]?,
      ∃ written ∈ h.written, r.arrived ++ bytes <+: written
  | .step _ _ => True
  | .connect a b j => a ≠ b ∧ some (a, j) ∉ w.link b ∧
    ∃ h ∈ (w.node a).world.handOffs[j]?, h.peer = w.peerId b ∧ h.written.isSome = true

instance [Fintype ι] (w : Network ι PeerId) (i : NetworkInput ι PeerId) :
    Decidable (w.Transport i) :=
  match i with
  | .step _ (.accept peer) => inferInstanceAs (Decidable (∀ a, peer ≠ w.peerId a))
  | .step b (.arrive k bytes) =>
    inferInstanceAs (Decidable (∀ source ∈ w.source? b k,
      ∀ h ∈ (w.node source.1).world.handOffs[source.2]?, ∀ r ∈ (w.node b).readers[k]?,
        ∃ written ∈ h.written, r.arrived ++ bytes <+: written))
  | .connect a b j =>
    inferInstanceAs (Decidable (a ≠ b ∧ some (a, j) ∉ w.link b ∧
      ∃ h ∈ (w.node a).world.handOffs[j]?, h.peer = w.peerId b ∧ h.written.isSome = true))
  | .step _ (.command _) | .step _ (.take _) | .step _ (.event _ _) | .step _ (.read _)
  | .step _ (.fail _) | .step _ .resume | .step _ .tryRecv | .step _ .stop =>
    inferInstanceAs (Decidable True)

/-! ### Two nodes of a network -/

/-- The hand-off of node `a` that a source is, if it is one. -/
def sourceOf (a : ι) (source : Option (ι × ℕ)) : Option ℕ :=
  source.bind fun s => if s.1 = a then some s.2 else none

/-- What two nodes of a network have to do with each other in one direction. -/
def pair (a b : ι) (w : Network ι PeerId) : Pair PeerId :=
  ⟨w.node a, w.node b, (w.link b).map (sourceOf a)⟩

omit [DecidableEq PeerId] in
theorem sourceOf_eq_some {a : ι} {source : Option (ι × ℕ)} {j : ℕ} :
    sourceOf a source = some j ↔ source = some (a, j) := by
  rcases source with _ | ⟨c, i⟩
  · simp [sourceOf]
  · by_cases h : c = a <;> simp [sourceOf, h]

omit [DecidableEq PeerId] in
theorem source?_pair {a b : ι} {w : Network ι PeerId} {k j : ℕ} :
    (w.pair a b).source? k = some j ↔ w.source? b k = some (a, j) := by
  rw [Pair.source?_eq_some, source?, Option.join_eq_some_iff]
  simp only [pair, List.getElem?_map, Option.map_eq_some_iff, sourceOf_eq_some]
  constructor
  · rintro ⟨_, h, rfl⟩
    exact h
  · intro h
    exact ⟨_, h, rfl⟩

omit [DecidableEq PeerId] in
/-- A step of the receiver of a pair. -/
theorem pair_receive_right {a b : ι} (hab : a ≠ b) (w : Network ι PeerId) (n : Node PeerId)
    (source : Option (ι × ℕ)) :
    (w.receive b n source).pair a b = (w.pair a b).receive n (sourceOf a source) := by
  simp only [pair, receive, Pair.receive, Function.update_self, Function.update_of_ne hab]
  by_cases h : n.readers.length = (w.node b).readers.length <;> simp [h]

omit [DecidableEq PeerId] in
theorem pair_receive_left {a b : ι} (hab : a ≠ b) (w : Network ι PeerId) (n : Node PeerId)
    (source : Option (ι × ℕ)) :
    (w.receive a n source).pair a b = { w.pair a b with a := n } := by
  simp only [pair, receive, Function.update_self, Function.update_of_ne hab.symm]

omit [DecidableEq PeerId] in
theorem pair_receive_other {a b k : ι} (ha : k ≠ a) (hb : k ≠ b) (w : Network ι PeerId)
    (n : Node PeerId) (source : Option (ι × ℕ)) :
    (w.receive k n source).pair a b = w.pair a b := by
  simp only [pair, receive, Function.update_of_ne ha.symm, Function.update_of_ne hb.symm]

variable {F S}

theorem peerId_next (w : Network ι PeerId) (i : NetworkInput ι PeerId) :
    (w.next F S i).peerId = w.peerId := by
  have hreceive : ∀ k i source,
      (w.receive k ((w.node k).next F S i) source).peerId = w.peerId := by
    intro k i source
    funext j
    by_cases hj : j = k
    · subst hj
      simp [peerId, receive, Node.localPeerId_next]
    · simp [peerId, receive, Function.update_of_ne hj]
  cases i <;> exact hreceive _ _ _

/-- A step of a network is a step of the pair of two of its nodes, or none. -/
theorem pair_next {a b : ι} (hab : a ≠ b) {w : Network ι PeerId}
    (hids : Function.Injective w.peerId) {i : NetworkInput ι PeerId} (htransport : w.Transport i)
    (x y : PeerId) (typeX typeY : NodeType) :
    ∃ is, (Pair.machine F S x y typeX typeY).Along Pair.Transport (w.pair a b) is ∧
      (w.next F S i).pair a b = (Pair.machine F S x y typeX typeY).exec (w.pair a b) is := by
  have hsender : ∀ i source, ∃ is,
      (Pair.machine F S x y typeX typeY).Along Pair.Transport (w.pair a b) is ∧
        (w.receive a ((w.node a).next F S i) source).pair a b =
          (Pair.machine F S x y typeX typeY).exec (w.pair a b) is := by
    intro i source
    exact ⟨[.sender i], ⟨trivial, trivial⟩, pair_receive_left hab w _ source⟩
  have hother : ∀ k n source, k ≠ a → k ≠ b → ∃ is,
      (Pair.machine F S x y typeX typeY).Along Pair.Transport (w.pair a b) is ∧
        (w.receive k n source).pair a b =
          (Pair.machine F S x y typeX typeY).exec (w.pair a b) is := by
    intro k n source ha hb
    exact ⟨[], trivial, pair_receive_other ha hb w n source⟩
  cases i with
  | step k i =>
    by_cases ha : k = a
    · subst ha
      exact hsender i none
    by_cases hb : k = b
    · subst hb
      refine ⟨[.receiver i], ⟨?_, trivial⟩, pair_receive_right hab w _ none⟩
      cases i with
      | accept peer => exact htransport a
      | arrive reader bytes =>
        intro j hj h hh r hr
        exact htransport (a, j) (source?_pair.mp hj) h hh r hr
      | _ => trivial
    · exact hother k _ none ha hb
  | connect c d j =>
    obtain ⟨hcd, hnew, hopened⟩ := htransport
    by_cases ha : d = a
    · subst ha
      exact hsender _ _
    by_cases hb : d = b
    · subst hb
      by_cases hc : c = a
      · subst hc
        refine ⟨[.connect j], ⟨⟨?_, hopened⟩, trivial⟩, ?_⟩
        · intro hmem
          obtain ⟨source, hsource, heq⟩ := List.mem_map.mp hmem
          exact hnew (sourceOf_eq_some.mp heq ▸ hsource)
        · have hself : sourceOf c (some (c, j)) = some j := sourceOf_eq_some.mpr rfl
          simp only [next, pair_receive_right hab, hself]
          rfl
      · refine ⟨[.receiver (.accept (w.peerId c))], ⟨?_, trivial⟩, ?_⟩
        · intro h
          exact hc (hids h)
        · have hforeign : sourceOf a (some (c, j)) = none := by simp [sourceOf, hc]
          simp only [next, pair_receive_right hab, hforeign]
          rfl
    · exact hother d _ _ ha hb

theorem pair_exec {ids : ι → PeerId} (hids : Function.Injective ids) {types : ι → NodeType}
    {a b : ι} (hab : a ≠ b) {w : Network ι PeerId} (hw : w.peerId = ids)
    {inputs : List (NetworkInput ι PeerId)} (h : (machine F S ids types).Along Transport w inputs) :
    ∃ is, (Pair.machine F S (ids a) (ids b) (types a) (types b)).Along Pair.Transport
        (w.pair a b) is ∧
      ((machine F S ids types).exec w inputs).pair a b =
        (Pair.machine F S (ids a) (ids b) (types a) (types b)).exec (w.pair a b) is := by
  have hfixed : (machine F S ids types).Along
      (fun w i => w.peerId = ids ∧ w.Transport i) w inputs := by
    refine h.strengthen ?_ hw
    intro w i hw _
    exact (peerId_next w i).trans hw
  refine hfixed.exec_simulate (pair a b) ?_
  rintro w i ⟨hw, htransport⟩
  exact pair_next hab (hw.symm ▸ hids) htransport _ _ _ _

/-- Any two nodes of a network run as a pair, whatever the other nodes do. -/
theorem pair_run {ids : ι → PeerId} (hids : Function.Injective ids) {types : ι → NodeType}
    {a b : ι} (hab : a ≠ b) {inputs : List (NetworkInput ι PeerId)}
    (h : (machine F S ids types).Along Transport (init ids types) inputs) :
    ∃ is, (Pair.machine F S (ids a) (ids b) (types a) (types b)).Along Pair.Transport
        (Pair.init (ids a) (ids b) (types a) (types b)) is ∧
      ((machine F S ids types).run inputs).pair a b =
        (Pair.machine F S (ids a) (ids b) (types a) (types b)).run is :=
  pair_exec hids hab rfl h

def sampleIds : Fin 3 → String
  | 0 => "175"
  | 1 => "177"
  | 2 => "176"

/-- A message to a connected peer. -/
def sendsOne (k : Fin 3) (msg : MeerkatMessage) : List (NetworkInput (Fin 3) String) :=
  [.step k (.event (.connectionEstablished "177" 0) Answers.refused),
    .step k (.command (.sendMessage sampleServer msg)), .step k (.take Pair.connectedAnswers)]

/-- Two nodes send to a third one, which reads the later stream first. -/
def twoSenders : List (NetworkInput (Fin 3) String) :=
  sendsOne 0 (.ping "a") ++ sendsOne 2 (.ping "b") ++
    [.connect 0 1 0, .connect 2 1 0, .step 1 (.arrive 1 (frame (jsonBytes (.ping "b")))),
      .step 1 (.read 1), .step 1 (.arrive 0 (frame (jsonBytes (.ping "a")))), .step 1 (.read 0)]

theorem twoSenders_transported :
    (machine Formats.plain json sampleIds fun _ => .server).Along Transport
      (init sampleIds fun _ => .server) twoSenders := by decide +kernel

theorem pair_run_twoSenders :
    ∃ is, (Pair.machine Formats.plain json (sampleIds 2) (sampleIds 1) .server .server).Along
        Pair.Transport (Pair.init (sampleIds 2) (sampleIds 1) .server .server) is ∧
      ((machine Formats.plain json sampleIds fun _ => .server).run twoSenders).pair 2 1 =
        (Pair.machine Formats.plain json (sampleIds 2) (sampleIds 1) .server .server).run is := by
  have hids : Function.Injective sampleIds := by decide
  have hne : (2 : Fin 3) ≠ 1 := by decide
  exact pair_run hids hne twoSenders_transported

theorem sound_run {ids : ι → PeerId} (hids : Function.Injective ids) {types : ι → NodeType}
    {a b : ι} (hab : a ≠ b) {inputs : List (NetworkInput ι PeerId)}
    (h : (machine F S ids types).Along Transport (init ids types) inputs) :
    (((machine F S ids types).run inputs).pair a b).Sound F S := by
  obtain ⟨is, his, hrun⟩ := pair_exec hids hab rfl h
  have hsound := his.invariant (P := Pair.Sound F S) (Pair.sound_init F S _ _ _ _)
    fun _ _ hp htransport => Pair.sound_next hp htransport
  exact hrun.symm ▸ hsound

theorem peerId_run {ids : ι → PeerId} {types : ι → NodeType}
    (inputs : List (NetworkInput ι PeerId)) :
    ((machine F S ids types).run inputs).peerId = ids := by
  apply (machine F S ids types).run_invariant (P := fun w => w.peerId = ids) rfl
  intro w i hw
  exact (peerId_next w i).trans hw

/-- The `i`-th event of node `b` reports this message from node `a`. -/
def ReceivedAt (F : Formats PeerId) (w : Network ι PeerId) (a b : ι) (i : ℕ)
    (msg : MeerkatMessage) : Prop :=
  ((w.node b).posted[i]?).map Posted.event =
    some (.messageReceived (F.peerText (w.peerId a)) msg)

/-- The hand-off that an event of a node was read from. -/
def origin (w : Network ι PeerId) (x : ι × ℕ) : Option (ι × ℕ) :=
  ((w.node x.1).posted[x.2]?).bind fun q => q.reader.bind (w.source? x.1)

omit [DecidableEq PeerId] in
/-- What every node reports from another one was handed off by that one, to it. -/
theorem origin_of_receivedAt (hinverts : S.Inverts) (hrejects : S.RejectsPrefixes)
    {w : Network ι PeerId} {a b : ι} (hsound : (w.pair a b).Sound F S) {i : ℕ}
    {msg : MeerkatMessage} (hreceived : w.ReceivedAt F a b i msg) :
    ∃ j h, w.origin (b, i) = some (a, j) ∧ (w.node a).world.handOffs[j]? = some h ∧
      h.peer = w.peerId b ∧ h.msg = msg := by
  obtain ⟨q, hq, hevent⟩ := Option.map_eq_some_iff.mp hreceived
  obtain ⟨j, h, horigin, hh, hpeer, hmsg⟩ :=
    hsound.received hinverts hrejects (List.mem_of_getElem? hq) hevent
  obtain ⟨k, hk, hsource⟩ := Pair.origin_eq_some.mp horigin
  refine ⟨j, h, ?_, hh, hpeer, hmsg⟩
  simp only [origin, hq, Option.bind_some, hk]
  exact source?_pair.mp hsource

omit [DecidableEq PeerId] in
/-- Two events that were read from the stream of one hand-off to one node are the same event. -/
theorem eq_of_origin {w : Network ι PeerId} {a b : ι} (hsound : (w.pair a b).Sound F S)
    {i i' j : ℕ} (horigin : w.origin (b, i) = some (a, j))
    (horigin' : w.origin (b, i') = some (a, j)) : i = i' := by
  have hread : ∀ {i}, w.origin (b, i) = some (a, j) → ∃ q, (w.node b).posted[i]? = some q ∧
      (w.pair a b).origin q = some j := by
    intro i hi
    obtain ⟨q, hq, hreader⟩ := Option.bind_eq_some_iff.mp hi
    obtain ⟨k, hk, hsource⟩ := Option.bind_eq_some_iff.mp hreader
    exact ⟨q, hq, Pair.origin_eq_some.mpr ⟨k, hk, source?_pair.mpr hsource⟩⟩
  obtain ⟨q, hq, hpair⟩ := hread horigin
  obtain ⟨q', hq', hpair'⟩ := hread horigin'
  exact hsound.origin_injective hq hq' hpair hpair'

end Network
end MeerkatNet.V2
