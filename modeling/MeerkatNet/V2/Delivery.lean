import MeerkatNet.V2.Pair

/-!
# End-to-end delivery

Every message that the receiver reports from the sender is a message that the sender
handed off to it, each hand-off at most once, whatever the readers and the streams
do. When all streams complete, every hand-off is reported.
-/

namespace MeerkatNet.V2

open Libp2p KeyedQueues Runs Framing

variable {PeerId : Type}

namespace Pair

variable (F : Formats PeerId) (S : Serde)

/-- The `i`-th event of the receiver reports this message from the sender. -/
def ReceivedAt (p : Pair PeerId) (i : ℕ) (msg : MeerkatMessage) : Prop :=
  (p.b.posted[i]?).map Posted.event =
    some (.messageReceived (F.peerText p.a.actor.localPeerId) msg)

/-- The hand-off that an event of the receiver was read from. -/
def origin (p : Pair PeerId) (q : Posted) : Option ℕ := q.reader.bind p.source?

theorem origin_eq_some {p : Pair PeerId} {q : Posted} {j : ℕ} :
    p.origin q = some j ↔ ∃ k, q.reader = some k ∧ p.source? k = some j := Option.bind_eq_some_iff

/-- Every stream towards the receiver was written and delivered as a whole and read to its
end. -/
def Completed (p : Pair PeerId) : Prop :=
  ∀ j h, p.a.world.handOffs[j]? = some h → h.peer = p.b.actor.localPeerId →
    ∃ data k r, S.toVec h.msg = .ok data ∧ h.written = some (frame data) ∧
      p.source? k = some j ∧ p.b.readers[k]? = some r ∧ r.arrived = frame data ∧
      r.state = .finished

/-- The JSON of every message handed off fits the length field. -/
def ShortMessages (p : Pair PeerId) : Prop :=
  ∀ h ∈ p.a.world.handOffs, ∀ data, S.toVec h.msg = .ok data → data.length < 2 ^ 32

/-- What delivery rests on. -/
structure Sound (p : Pair PeerId) : Prop where
  linked : p.Linked
  framed : ∀ h ∈ p.a.world.handOffs, h.Framed S
  posts : p.b.ReaderPosts F S

theorem sound_init (a b : PeerId) (typeA typeB : NodeType) :
    (init a b typeA typeB).Sound F S where
  linked := linked_init a b typeA typeB
  framed h hmem := by
    simp [init, Node.init, World.init, World.handOffs, World.effects] at hmem
  posts := Node.readerPosts_init F S b typeB

variable {F S}

/-- An event that reports a message from the sender was read from the stream of a hand-off of
that message. -/
theorem Sound.received {p : Pair PeerId} (hp : p.Sound F S) (hinverts : S.Inverts)
    (hrejects : S.RejectsPrefixes) {q : Posted} (hq : q ∈ p.b.posted) {msg : MeerkatMessage}
    (hevent : q.event = .messageReceived (F.peerText p.a.actor.localPeerId) msg) :
    ∃ j h, p.origin q = some j ∧ p.a.world.handOffs[j]? = some h ∧
      h.peer = p.b.actor.localPeerId ∧ h.msg = msg := by
  obtain ⟨reader, event⟩ := q
  cases reader with
  | none => exact absurd hevent (hp.posts.loop event hq _ msg)
  | some k =>
    obtain ⟨r, msg', rest, hr, -, hrecv, he⟩ := hp.posts.read k event hq
    obtain ⟨htext, rfl⟩ : F.peerText r.peer = F.peerText p.a.actor.localPeerId ∧ msg' = msg := by
      simpa using he.symm.trans hevent
    have hlt : k < p.link.length := hp.linked.length ▸ (List.getElem?_eq_some_iff.mp hr).1
    have hlink := List.getElem?_eq_getElem hlt
    cases hsource : p.link[k] with
    | none =>
      rw [hsource] at hlink
      exact absurd (F.peerText_injective htext) (hp.linked.foreign k r hlink hr)
    | some j =>
      rw [hsource] at hlink
      obtain ⟨h, r', written, hh, hpeer, hwritten, hr', -, harrived⟩ := hp.linked.carries k j hlink
      obtain rfl := Option.some.inj (hr.symm.trans hr')
      obtain ⟨data, hdata, -⟩ := hinverts h.msg
      have hframe : written <+: frame data :=
        hp.framed h (List.mem_of_getElem? hh) written data hwritten hdata
      exact ⟨j, h, origin_eq_some.mpr ⟨k, rfl, source?_eq_some.mpr hlink⟩, hh, hpeer,
        (recvMessage_of_isPrefix hinverts hrejects hdata (harrived.trans hframe) hrecv).symm⟩

/-- Two events that were read from the stream of one hand-off are the same event. -/
theorem Sound.origin_injective {p : Pair PeerId} (hp : p.Sound F S) {i i' j : ℕ} {q q' : Posted}
    (hq : p.b.posted[i]? = some q) (hq' : p.b.posted[i']? = some q') (horigin : p.origin q = some j)
    (horigin' : p.origin q' = some j) : i = i' := by
  obtain ⟨k, hk, hsource⟩ := origin_eq_some.mp horigin
  obtain ⟨k', hk', hsource'⟩ := origin_eq_some.mp horigin'
  obtain rfl := hp.linked.reader_unique hsource hsource'
  obtain ⟨hlt, hget⟩ := List.getElem?_eq_some_iff.mp hq
  obtain ⟨hlt', hget'⟩ := List.getElem?_eq_some_iff.mp hq'
  have honce := List.pairwise_iff_getElem.mp hp.posts.once
  rcases lt_trichotomy i i' with hlti | heq | hlti
  · exact absurd (hget' ▸ hk') (honce i i' hlt hlt' hlti k (hget ▸ hk))
  · exact heq
  · exact absurd (hget ▸ hk) (honce i' i hlt' hlt hlti k (hget' ▸ hk'))

variable [DecidableEq PeerId]

theorem sound_next {p : Pair PeerId} (hp : p.Sound F S) {i : PairInput PeerId}
    (htransport : p.Transport i) : (p.next F S i).Sound F S := by
  refine ⟨linked_next hp.linked htransport, ?_, ?_⟩
  · cases i with
    | sender i => exact Node.framed_next F S hp.framed i
    | receiver i => exact hp.framed
    | connect j => exact hp.framed
  · cases i with
    | sender i => exact hp.posts
    | receiver i => exact Node.readerPosts_next F S hp.posts i
    | connect j => exact Node.readerPosts_next F S hp.posts (.accept p.a.actor.localPeerId)

variable (F S)

/-- In every run there is an injective map from the messages that the receiver reports from the
sender to the sender's hand-offs to it, under which the messages agree; it is onto once every
stream has completed and every message fits the length field. -/
theorem received_handedOff (hinverts : S.Inverts) (hrejects : S.RejectsPrefixes) {a b : PeerId}
    {typeA typeB : NodeType} {inputs : List (PairInput PeerId)}
    (h : (machine F S a b typeA typeB).Along Transport (init a b typeA typeB) inputs) :
    let p := (machine F S a b typeA typeB).run inputs
    ∃ f : ℕ → ℕ,
      (∀ i msg, p.ReceivedAt F i msg → ∃ sent, p.a.world.handOffs[f i]? = some sent ∧
        sent.peer = p.b.actor.localPeerId ∧ sent.msg = msg) ∧
      Set.InjOn f {i | ∃ msg, p.ReceivedAt F i msg} ∧
      (p.Completed S → p.ShortMessages S → ∀ j sent, p.a.world.handOffs[j]? = some sent →
        sent.peer = p.b.actor.localPeerId → ∃ i, p.ReceivedAt F i sent.msg ∧ f i = j) := by
  have hp : ((machine F S a b typeA typeB).run inputs).Sound F S :=
    h.invariant (P := Sound F S) (sound_init F S a b typeA typeB)
      fun _ _ hp htransport => sound_next hp htransport
  generalize (machine F S a b typeA typeB).run inputs = p at hp
  -- each event goes to the hand-off whose stream it was read from
  have hreceived : ∀ i msg, p.ReceivedAt F i msg → ∃ q j sent, p.b.posted[i]? = some q ∧
      p.origin q = some j ∧ p.a.world.handOffs[j]? = some sent ∧
      sent.peer = p.b.actor.localPeerId ∧ sent.msg = msg := by
    intro i msg hi
    obtain ⟨q, hq, hevent⟩ := Option.map_eq_some_iff.mp hi
    obtain ⟨j, sent, horigin, hsent⟩ :=
      hp.received hinverts hrejects (List.mem_of_getElem? hq) hevent
    exact ⟨q, j, sent, hq, horigin, hsent⟩
  refine ⟨fun i => ((p.b.posted[i]?).bind p.origin).getD 0, ?_, ?_, ?_⟩
  · intro i msg hi
    obtain ⟨q, j, sent, hq, horigin, hsent⟩ := hreceived i msg hi
    exact ⟨sent, by simpa [hq, horigin] using hsent⟩
  · rintro i ⟨msg, hi⟩ i' ⟨msg', hi'⟩ hsame
    obtain ⟨q, j, sent, hq, horigin, -⟩ := hreceived i msg hi
    obtain ⟨q', j', sent', hq', horigin', -⟩ := hreceived i' msg' hi'
    simp only [hq, hq', Option.bind_some, horigin, horigin', Option.getD_some] at hsame
    subst hsame
    exact hp.origin_injective hq hq' horigin horigin'
  · intro hcompleted hshort j sent hsent hpeer
    obtain ⟨data, k, r, hdata, hwritten, hsource, hr, harrived, hdone⟩ :=
      hcompleted j sent hsent hpeer
    obtain ⟨data', hdata', hfrom⟩ := hinverts sent.msg
    obtain rfl := Except.ok.inj (hdata.symm.trans hdata')
    have hrecv := recvMessage_frame hfrom (hshort sent (List.mem_of_getElem? hsent) data hdata) []
    rw [List.append_nil, ← harrived] at hrecv
    have hposted := hp.posts.posts k r sent.msg [] hr hdone hrecv
    obtain ⟨i, hi⟩ := List.mem_iff_getElem?.mp hposted
    obtain ⟨-, r', -, -, -, -, hr', hfromA, -⟩ := hp.linked.reads hsource
    obtain rfl := Option.some.inj (hr.symm.trans hr')
    exact ⟨i, by simp [ReceivedAt, hi, hfromA], by simp [hi, origin, hsource]⟩

/-- Answers of a connected peer whose streams take everything. -/
def connectedAnswers : Answers :=
  { Answers.refused with isConnected := true, stream := fun _ => .opened none "" (.ok ()) }

/-- Messages to a connected peer, each handed off at once. -/
def sends (msgs : List MeerkatMessage) : List (PairInput String) :=
  .sender (.event (.connectionEstablished "177" 0) Answers.refused) ::
    msgs.flatMap fun msg =>
      [.sender (.command (.sendMessage sampleServer msg)), .sender (.take connectedAnswers)]

/-- The stream of a message arrives as a whole at a reader, which reads it. -/
def arrives (reader : ℕ) (msg : MeerkatMessage) : List (PairInput String) :=
  [.receiver (.arrive reader (frame (jsonBytes msg))), .receiver (.read reader)]

def onePing : List (PairInput String) :=
  sends [.ping "a"] ++ [.connect 0] ++ arrives 0 (.ping "a")

theorem received_handedOff_onePing :
    let p := (machine Formats.plain json "176" "177" .server .server).run onePing
    ∃ f : ℕ → ℕ,
      (∀ i msg, p.ReceivedAt Formats.plain i msg → ∃ sent, p.a.world.handOffs[f i]? = some sent ∧
        sent.peer = p.b.actor.localPeerId ∧ sent.msg = msg) ∧
      Set.InjOn f {i | ∃ msg, p.ReceivedAt Formats.plain i msg} ∧
      (p.Completed json → p.ShortMessages json → ∀ j sent, p.a.world.handOffs[j]? = some sent →
        sent.peer = p.b.actor.localPeerId →
          ∃ i, p.ReceivedAt Formats.plain i sent.msg ∧ f i = j) := by
  have hrun : (machine Formats.plain json "176" "177" .server .server).Along Transport
      (init "176" "177" .server .server) onePing := by decide +kernel
  exact received_handedOff Formats.plain json json_inverts json_rejectsPrefixes hrun

end Pair
end MeerkatNet.V2
