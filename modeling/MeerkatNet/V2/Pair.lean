import MeerkatNet.V2.Json
import MeerkatNet.V2.Readers

/-!
# Two nodes and the streams between them

A sender and a receiver make their own steps in any order. The transport hands the
stream of a hand-off to the receiver at most once, under the sender's authenticated
peer id, and delivers a beginning of what was written, in any pieces. Streams of
other peers are under other ids and carry anything.
-/

namespace MeerkatNet.V2

open Libp2p KeyedQueues Runs Framing

variable {PeerId : Type}

/-- Node `a` sends to node `b`. For each reader of `b`, `link` says which hand-off of `a` it
reads, if its stream comes from `a`. -/
structure Pair (PeerId : Type) where
  a : Node PeerId
  b : Node PeerId
  link : List (Option ℕ)

inductive PairInput (PeerId : Type) where
  | sender (i : NodeInput PeerId)
  | receiver (i : NodeInput PeerId)
  | connect (handOff : ℕ)

namespace Pair

/-- A step of the receiver; a new reader gets the source of its stream. -/
def receive (p : Pair PeerId) (b : Node PeerId) (source : Option ℕ) : Pair PeerId where
  a := p.a
  b := b
  link := if b.readers.length = p.b.readers.length then p.link else p.link ++ [source]

def init (a b : PeerId) (typeA typeB : NodeType) : Pair PeerId :=
  ⟨.init a typeA, .init b typeB, []⟩

/-- The hand-off whose stream a reader of `b` reads. -/
def source? (p : Pair PeerId) (k : ℕ) : Option ℕ := (p.link[k]?).join

variable [DecidableEq PeerId] (F : Formats PeerId) (S : Serde)

def next (p : Pair PeerId) : PairInput PeerId → Pair PeerId
  | .sender i => { p with a := p.a.next F S i }
  | .receiver i => p.receive (p.b.next F S i) none
  | .connect j => p.receive (p.b.next F S (.accept p.a.actor.localPeerId)) (some j)

def machine (a b : PeerId) (typeA typeB : NodeType) : Machine (Pair PeerId) (PairInput PeerId) :=
  ⟨init a b typeA typeB, next F S⟩

@[simp] theorem machine_init (a b : PeerId) (typeA typeB : NodeType) :
    (machine F S a b typeA typeB).init = init a b typeA typeB := rfl

@[simp] theorem machine_next (a b : PeerId) (typeA typeB : NodeType) (p : Pair PeerId)
    (i : PairInput PeerId) : (machine F S a b typeA typeB).next p i = p.next F S i := rfl

/-- What the transport can do. -/
def Transport (p : Pair PeerId) : PairInput PeerId → Prop
  | .sender _ => True
  | .receiver (.accept peer) => peer ≠ p.a.actor.localPeerId
  | .receiver (.arrive k bytes) => ∀ j ∈ p.source? k, ∀ h ∈ p.a.world.handOffs[j]?,
    ∀ r ∈ p.b.readers[k]?, ∃ written ∈ h.written, r.arrived ++ bytes <+: written
  | .receiver _ => True
  | .connect j => some j ∉ p.link ∧ ∃ h ∈ p.a.world.handOffs[j]?,
    h.peer = p.b.actor.localPeerId ∧ h.written.isSome = true

instance (p : Pair PeerId) (i : PairInput PeerId) : Decidable (p.Transport i) :=
  match i with
  | .receiver (.accept peer) => inferInstanceAs (Decidable (peer ≠ p.a.actor.localPeerId))
  | .receiver (.arrive k bytes) =>
    inferInstanceAs (Decidable (∀ j ∈ p.source? k, ∀ h ∈ p.a.world.handOffs[j]?,
      ∀ r ∈ p.b.readers[k]?, ∃ written ∈ h.written, r.arrived ++ bytes <+: written))
  | .connect j =>
    inferInstanceAs (Decidable (some j ∉ p.link ∧ ∃ h ∈ p.a.world.handOffs[j]?,
      h.peer = p.b.actor.localPeerId ∧ h.written.isSome = true))
  | .sender _ | .receiver (.command _) | .receiver (.take _) | .receiver (.event _ _)
  | .receiver (.read _) | .receiver (.fail _) | .receiver .resume | .receiver .tryRecv
  | .receiver .stop => inferInstanceAs (Decidable True)

/-- The receiver's reader `k` reads a beginning of what hand-off `j` wrote. -/
def Carries (p : Pair PeerId) (k j : ℕ) : Prop :=
  ∃ h r written, p.a.world.handOffs[j]? = some h ∧ h.peer = p.b.actor.localPeerId ∧
    h.written = some written ∧ p.b.readers[k]? = some r ∧ r.peer = p.a.actor.localPeerId ∧
    r.arrived <+: written

/-- What the streams between the two nodes rest on. -/
structure Linked (p : Pair PeerId) : Prop where
  length : p.link.length = p.b.readers.length
  carries : ∀ k j, p.link[k]? = some (some j) → p.Carries k j
  injective : ∀ k k' j : ℕ, p.link[k]? = some (some j) → p.link[k']? = some (some j) → k = k'
  foreign : ∀ (k : ℕ) (r : Reader PeerId), p.link[k]? = some none → p.b.readers[k]? = some r →
    r.peer ≠ p.a.actor.localPeerId

omit [DecidableEq PeerId] in
theorem source?_eq_some {p : Pair PeerId} {k j : ℕ} :
    p.source? k = some j ↔ p.link[k]? = some (some j) := Option.join_eq_some_iff

omit [DecidableEq PeerId] in
theorem Linked.reads {p : Pair PeerId} (hp : p.Linked) {k j : ℕ} (hsource : p.source? k = some j) :
    p.Carries k j := hp.carries k j (source?_eq_some.mp hsource)

omit [DecidableEq PeerId] in
/-- A hand-off has one reader. -/
theorem Linked.reader_unique {p : Pair PeerId} (hp : p.Linked) {k k' j : ℕ}
    (hsource : p.source? k = some j) (hsource' : p.source? k' = some j) : k = k' :=
  hp.injective k k' j (source?_eq_some.mp hsource) (source?_eq_some.mp hsource')

omit [DecidableEq PeerId] in
theorem linked_init (a b : PeerId) (typeA typeB : NodeType) :
    (init a b typeA typeB).Linked where
  length := rfl
  carries _ _ h := by simp [init] at h
  injective _ _ _ h := by simp [init] at h
  foreign _ _ h := by simp [init] at h

theorem getElem?_of_isPrefix {α : Type*} {xs ys : List α} (h : xs <+: ys) {j : ℕ} {x : α}
    (hx : xs[j]? = some x) : ys[j]? = some x := by
  obtain ⟨zs, rfl⟩ := h
  rwa [List.getElem?_append_left (List.getElem?_eq_some_iff.mp hx).1]

variable {F S}

theorem Linked.sender {p : Pair PeerId} (hp : p.Linked) (i : NodeInput PeerId) :
    Linked { p with a := p.a.next F S i } where
  length := hp.length
  carries k j hlink := by
    obtain ⟨h, r, written, hh, hpeer, hwritten, hr, hfrom, harrived⟩ := hp.carries k j hlink
    exact ⟨h, r, written, getElem?_of_isPrefix (Node.handOffs_next F S p.a i) hh, hpeer, hwritten,
      hr, by rwa [Node.localPeerId_next], harrived⟩
  injective := hp.injective
  foreign k r hlink hr := by
    rw [Node.localPeerId_next]
    exact hp.foreign k r hlink hr

/-- A step of the receiver that adds no reader. -/
theorem Linked.receiver {p : Pair PeerId} (hp : p.Linked) {i : NodeInput PeerId}
    (htransport : ∀ k bytes, i = .arrive k bytes → p.Transport (.receiver i)) (source : Option ℕ)
    (hlength : (p.b.next F S i).readers.length = p.b.readers.length)
    (hreaders : ∀ k r, p.b.readers[k]? = some r →
      ∃ r', (p.b.next F S i).readers[k]? = some r' ∧ Node.ReaderMoves S i k r r') :
    (p.receive (p.b.next F S i) source).Linked := by
  have hlink : (p.receive (p.b.next F S i) source).link = p.link := if_pos hlength
  refine ⟨?_, ?_, ?_, ?_⟩
  · rw [hlink]
    exact hp.length.trans hlength.symm
  · intro k j hkj
    rw [hlink] at hkj
    obtain ⟨h, r, written, hh, hpeer, hwritten, hr, hfrom, harrived⟩ := hp.carries k j hkj
    obtain ⟨r', hr', hmoves⟩ := hreaders k r hr
    refine ⟨h, r', written, hh, hpeer.trans (Node.localPeerId_next F S p.b i).symm, hwritten, hr',
      hmoves.peer.trans hfrom, ?_⟩
    rcases hmoves.arrived with hsame | ⟨bytes, rfl, hmore⟩
    · rwa [hsame]
    · rw [hmore]
      obtain ⟨w, hw, hprefix⟩ := htransport k bytes rfl j (by simp [source?, hkj]) h hh r hr
      rw [Option.mem_def, hwritten] at hw
      rwa [Option.some.inj hw]
  · intro k k' j hk hk'
    rw [hlink] at hk hk'
    exact hp.injective k k' j hk hk'
  · intro k r hk hr
    rw [hlink] at hk
    have hlt : k < p.b.readers.length := hp.length ▸ (List.getElem?_eq_some_iff.mp hk).1
    obtain ⟨r', hr', hmoves⟩ := hreaders k _ (List.getElem?_eq_getElem hlt)
    obtain rfl := Option.some.inj (hr'.symm.trans hr)
    rw [hmoves.peer]
    exact hp.foreign k _ hk (List.getElem?_eq_getElem hlt)

omit [DecidableEq PeerId] in
/-- A stream that the receiver accepts. -/
theorem Linked.accepted {p : Pair PeerId} (hp : p.Linked) {b : Node PeerId} {peer : PeerId}
    {source : Option ℕ} (hreaders : b.readers = p.b.readers ++ [⟨peer, [], .reading⟩])
    (hid : b.actor.localPeerId = p.b.actor.localPeerId)
    (hsource : match source with
      | none => peer ≠ p.a.actor.localPeerId
      | some j => peer = p.a.actor.localPeerId ∧ p.Transport (.connect j)) :
    (p.receive b source).Linked := by
  have hlink : (p.receive b source).link = p.link ++ [source] := if_neg (by simp [hreaders])
  have hold : ∀ k s, (p.link ++ [source])[k]? = some s →
      p.link[k]? = some s ∨ (k = p.link.length ∧ source = s) := by
    intro k s hk
    rw [List.getElem?_append] at hk
    split_ifs at hk with hlt
    · exact .inl hk
    · refine .inr ⟨?_, (List.mem_singleton.mp (List.mem_of_getElem? hk)).symm⟩
      have := (List.getElem?_eq_some_iff.mp hk).1
      simp only [List.length_singleton] at this
      omega
  have hreader : ∀ (k : ℕ) (r : Reader PeerId),
      p.b.readers[k]? = some r → b.readers[k]? = some r := by
    intro k r hr
    exact getElem?_of_isPrefix (hreaders ▸ List.prefix_append _ _) hr
  have hnew : b.readers[p.link.length]? = some ⟨peer, [], .reading⟩ := by
    rw [hreaders, hp.length]
    simp
  refine ⟨?_, ?_, ?_, ?_⟩
  · rw [hlink, List.length_append, hp.length]
    simp [receive, hreaders]
  · intro k j hkj
    rw [hlink] at hkj
    rcases hold k _ hkj with hkj | ⟨rfl, rfl⟩
    · obtain ⟨h, r, written, hh, hpeer, hwritten, hr, hfrom, harrived⟩ := hp.carries k j hkj
      exact ⟨h, r, written, hh, hpeer.trans hid.symm, hwritten, hreader k r hr, hfrom, harrived⟩
    · obtain ⟨hfrom, -, h, hh, hpeer, hopened⟩ := hsource
      obtain ⟨written, hwritten⟩ := Option.isSome_iff_exists.mp hopened
      exact ⟨h, _, written, hh, hpeer.trans hid.symm, hwritten, hnew, hfrom, List.nil_prefix⟩
  · intro k k' j hk hk'
    rw [hlink] at hk hk'
    have hnot : ∀ k : ℕ, p.link[k]? = some (some j) → source ≠ some j := by
      rintro m hm rfl
      exact hsource.2.1 (List.mem_of_getElem? hm)
    rcases hold k _ hk with hk | ⟨rfl, hj⟩ <;> rcases hold k' _ hk' with hk' | ⟨rfl, hj'⟩
    · exact hp.injective k k' j hk hk'
    · exact absurd hj' (hnot k hk)
    · exact absurd hj (hnot k' hk')
    · rfl
  · intro k r hk hr
    rw [hlink] at hk
    rcases hold k _ hk with hk | ⟨rfl, rfl⟩
    · have hlt : k < p.b.readers.length := hp.length ▸ (List.getElem?_eq_some_iff.mp hk).1
      have hr' := hreader k _ (List.getElem?_eq_getElem hlt)
      obtain rfl := Option.some.inj (hr'.symm.trans hr)
      exact hp.foreign k _ hk (List.getElem?_eq_getElem hlt)
    · obtain rfl := Option.some.inj (hnew.symm.trans hr)
      exact hsource

theorem linked_next {p : Pair PeerId} (hp : p.Linked) {i : PairInput PeerId}
    (htransport : p.Transport i) : (p.next F S i).Linked := by
  cases i with
  | sender i => exact hp.sender i
  | receiver i =>
    rcases Node.readers_next F S p.b i with ⟨peer, rfl, hreaders⟩ | ⟨hlength, hreaders⟩
    · exact hp.accepted hreaders (Node.localPeerId_next F S p.b _) htransport
    · exact hp.receiver (fun _ _ _ => htransport) none hlength hreaders
  | connect j =>
    rcases Node.readers_next F S p.b (.accept p.a.actor.localPeerId) with
      ⟨peer, hpeer, hreaders⟩ | ⟨hlength, hreaders⟩
    · obtain rfl := NodeInput.accept.inj hpeer
      exact hp.accepted hreaders (Node.localPeerId_next F S p.b _) ⟨rfl, htransport⟩
    · -- the receiver's loop has stopped, and nothing is accepted
      exact hp.receiver (by simp) (some j) hlength hreaders

end Pair
end MeerkatNet.V2
