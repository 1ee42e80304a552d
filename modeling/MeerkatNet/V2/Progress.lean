import MeerkatNet.V2.Network

/-!
# What can still be delivered

A hand-off can still be reported by the other node exactly when all of its frame was
written, with a length that fits the header, and its stream is open: a running node has
not accepted it yet, or the reader that has it goes on reading. No step of any node
opens a stream again, and three steps of the transport and the reader are enough.
-/

namespace MeerkatNet.V2

open Libp2p KeyedQueues Runs Framing

variable {PeerId : Type}

/-- All of the frame was written, and its header tells the length of the payload. -/
def HandOff.Whole (S : Serde) (h : HandOff PeerId) : Prop :=
  ∃ data, S.toVec h.msg = .ok data ∧ h.written = some (frame data) ∧ data.length < 2 ^ 32

/-- A stream that carries a beginning of a hand-off's frame and yields a message carries all of
it. -/
theorem HandOff.Framed.whole {S : Serde} (hinverts : S.Inverts) (hrejects : S.RejectsPrefixes)
    {h : HandOff PeerId} (hframed : h.Framed S) {written arrived rest : List UInt8}
    (hwritten : h.written = some written) (harrived : arrived <+: written)
    {received : MeerkatMessage} (hrecv : recvMessage S arrived = some (.ok received, rest)) :
    h.Whole S := by
  obtain ⟨data, hdata, -⟩ := hinverts h.msg
  have hframe : written <+: frame data := hframed written data hwritten hdata
  obtain ⟨⟨payload, left⟩, hread, hslice⟩ := Option.map_eq_some_iff.mp hrecv
  have hpayload := readFrame_of_isPrefix (harrived.trans hframe) hread
  have hwhole : payload = data := by
    by_contra hne
    obtain ⟨e, he⟩ := hrejects h.msg data payload hdata hpayload hne
    simp [he] at hslice
  subst hwhole
  obtain ⟨hall, hlen⟩ := eq_frame_of_readFrame (harrived.trans hframe) hread
  have hsame : written = frame payload := by
    apply hframe.eq_of_length_le
    rw [← hall]
    exact harrived.length_le
  exact ⟨payload, hdata, hsame ▸ hwritten, hlen⟩

namespace Pair

/-- The receiver has reported the message of a hand-off from its stream. -/
def Reported (F : Formats PeerId) (p : Pair PeerId) (j : ℕ) (msg : MeerkatMessage) : Prop :=
  ∃ q ∈ p.b.posted, p.origin q = some j ∧
    q.event = .messageReceived (F.peerText p.a.actor.localPeerId) msg

/-- The stream of a hand-off waits for a running receiver, or a reader goes on reading it. -/
def Open (p : Pair PeerId) (j : ℕ) : Prop :=
  (some j ∉ p.link ∧ p.b.running = true) ∨
    ∃ k r, p.source? k = some j ∧ p.b.readers[k]? = some r ∧ r.state = .reading

/-- What later states of the two nodes keep. -/
structure Later (p p' : Pair PeerId) : Prop where
  handOffs : p.a.world.handOffs <+: p'.a.world.handOffs
  sender : p'.a.actor.localPeerId = p.a.actor.localPeerId
  receiver : p'.b.actor.localPeerId = p.b.actor.localPeerId
  link : p.link <+: p'.link
  ended : ∀ (k : ℕ) (r : Reader PeerId), p.b.readers[k]? = some r → r.state ≠ .reading →
    p'.b.readers[k]? = some r
  stopped : p.b.running = false → p'.b.running = false ∧ p'.link = p.link

theorem Later.refl (p : Pair PeerId) : p.Later p :=
  ⟨List.prefix_rfl, rfl, rfl, List.prefix_rfl, fun _ _ h _ => h, fun h => ⟨h, rfl⟩⟩

theorem Later.trans {p p' p'' : Pair PeerId} (h : p.Later p') (h' : p'.Later p'') :
    p.Later p'' where
  handOffs := h.handOffs.trans h'.handOffs
  sender := h'.sender.trans h.sender
  receiver := h'.receiver.trans h.receiver
  link := h.link.trans h'.link
  ended k r hr hended := h'.ended k r (h.ended k r hr hended) hended
  stopped hstopped := by
    obtain ⟨hstopped', hlink⟩ := h.stopped hstopped
    obtain ⟨hstopped'', hlink'⟩ := h'.stopped hstopped'
    exact ⟨hstopped'', hlink'.trans hlink⟩

theorem Later.source? {p p' : Pair PeerId} (h : p.Later p') {k j : ℕ}
    (hsource : p.source? k = some j) : p'.source? k = some j :=
  source?_eq_some.mpr (getElem?_of_isPrefix h.link (source?_eq_some.mp hsource))

end Pair

variable [DecidableEq PeerId]

namespace Node

variable (F : Formats PeerId) (S : Serde)

/-- A loop that has ended stays so and accepts no stream. -/
theorem stopped_next {n : Node PeerId} (hstopped : n.running = false) (i : NodeInput PeerId) :
    (n.next F S i).running = false ∧ (n.next F S i).readers.length = n.readers.length := by
  have hstep := next_nodeStep F S n i
  generalize n.next F S i = n' at hstep
  cases hstep with
  | taken hrunning | iterated hrunning | accepted hrunning => simp [hstopped] at hrunning
  | arrived | rejected | posted | broken => exact ⟨hstopped, List.length_set⟩
  | stopped => exact ⟨rfl, rfl⟩
  | _ => exact ⟨hstopped, rfl⟩

/-- A reader that has ended stays as it is. -/
theorem reader_ended {n : Node PeerId} {k : ℕ} {r : Reader PeerId} (hr : n.readers[k]? = some r)
    (hended : r.state ≠ .reading) (i : NodeInput PeerId) :
    (n.next F S i).readers[k]? = some r := by
  rcases readers_next F S n i with ⟨peer, -, hreaders⟩ | ⟨-, hreaders⟩
  · rw [hreaders]
    exact Pair.getElem?_of_isPrefix (List.prefix_append _ _) hr
  · obtain ⟨r', hr', hmoves⟩ := hreaders k r hr
    rw [hr', hmoves.ended hended]

end Node

namespace Pair

section

variable (F : Formats PeerId) (S : Serde)

theorem later_receive (p : Pair PeerId) (i : NodeInput PeerId) (source : Option ℕ) :
    p.Later (p.receive (p.b.next F S i) source) where
  handOffs := List.prefix_rfl
  sender := rfl
  receiver := Node.localPeerId_next F S p.b i
  link := by
    simp only [receive]
    split_ifs
    · exact List.prefix_rfl
    · exact List.prefix_append _ _
  ended k r hr hended := Node.reader_ended F S hr hended i
  stopped hstopped := by
    obtain ⟨hstopped', hlength⟩ := Node.stopped_next F S hstopped i
    exact ⟨hstopped', if_pos hlength⟩

theorem later_next (p : Pair PeerId) (i : PairInput PeerId) : p.Later (p.next F S i) := by
  cases i with
  | sender i =>
    exact ⟨Node.handOffs_next F S p.a i, Node.localPeerId_next F S p.a i, rfl, List.prefix_rfl,
      fun _ _ hr _ => hr, fun hstopped => ⟨hstopped, rfl⟩⟩
  | receiver i => exact later_receive F S p i none
  | connect j => exact later_receive F S p (.accept p.a.actor.localPeerId) (some j)

theorem later_exec (a b : PeerId) (typeA typeB : NodeType) (p : Pair PeerId)
    (inputs : List (PairInput PeerId)) :
    p.Later ((machine F S a b typeA typeB).exec p inputs) := by
  apply (machine F S a b typeA typeB).exec_invariant (P := p.Later)
  · intro p' i h
    exact h.trans (later_next F S p' i)
  · exact Later.refl p

end

variable {F : Formats PeerId} {S : Serde}

omit [DecidableEq PeerId] in
/-- What is reported at last was written whole, and has been reported already unless its stream is
still open. -/
theorem Later.open_of_reported {p p' : Pair PeerId} (hlater : p.Later p') (hp : p.Sound F S)
    (hp' : p'.Sound F S) (hinverts : S.Inverts) (hrejects : S.RejectsPrefixes) {j : ℕ}
    {sent : HandOff PeerId} (hsent : p.a.world.handOffs[j]? = some sent) {msg : MeerkatMessage}
    (hreported : p'.Reported F j msg) : sent.Whole S ∧ (p.Reported F j msg ∨ p.Open j) := by
  obtain ⟨⟨reader, event⟩, hq, horigin, rfl⟩ := hreported
  obtain ⟨k, rfl, hsource⟩ := origin_eq_some.mp horigin
  obtain ⟨r, msg', rest, hr, hdone, hrecv, he⟩ := hp'.posts.read k _ hq
  obtain ⟨htext, rfl⟩ : F.peerText p'.a.actor.localPeerId = F.peerText r.peer ∧ msg = msg' := by
    simpa using he
  obtain ⟨h, r', written, hh, -, hwritten, hr', hfrom, harrived⟩ := hp'.linked.reads hsource
  obtain rfl := Option.some.inj (hr.symm.trans hr')
  obtain rfl : sent = h :=
    Option.some.inj ((getElem?_of_isPrefix hlater.handOffs hsent).symm.trans hh)
  refine ⟨(hp.framed sent (List.mem_of_getElem? hsent)).whole hinverts hrejects hwritten harrived
    hrecv, ?_⟩
  by_cases hlink : some j ∈ p.link
  · -- the reader is there already, and it has posted the message if it has ended
    obtain ⟨k', hk'⟩ := List.mem_iff_getElem?.mp hlink
    have hsource' : p.source? k' = some j := source?_eq_some.mpr hk'
    obtain rfl := hp'.linked.reader_unique (hlater.source? hsource') hsource
    obtain ⟨-, s, -, -, -, -, hs, -, -⟩ := hp.linked.reads hsource'
    by_cases hreading : s.state = .reading
    · exact .inr (.inr ⟨k', s, hsource', hs, hreading⟩)
    · obtain rfl := Option.some.inj ((hlater.ended k' s hs hreading).symm.trans hr)
      refine .inl ⟨_, hp.posts.posts k' s msg rest hs hdone hrecv, ?_, ?_⟩
      · exact origin_eq_some.mpr ⟨k', rfl, hsource'⟩
      · rw [hfrom, hlater.sender]
  · by_cases hrunning : p.b.running = true
    · exact .inr (.inl ⟨hlink, hrunning⟩)
    · obtain ⟨-, hsame⟩ := hlater.stopped (Bool.not_eq_true _ ▸ hrunning)
      rw [source?_eq_some, hsame] at hsource
      exact absurd (List.mem_of_getElem? hsource) hlink

/-! ### Bringing a stream to its end -/

/-- The steps of the streams from the sender to the receiver. -/
def Between (p : Pair PeerId) : PairInput PeerId → Prop
  | .connect _ | .receiver (.read _) => True
  | .receiver (.arrive k _) => (p.source? k).isSome = true
  | _ => False

/-- The rest of the frame arrives and is read. -/
theorem Linked.read_rest {p : Pair PeerId} (hp : p.Linked) (hinverts : S.Inverts) {j k : ℕ}
    (hsource : p.source? k = some j) {sent : HandOff PeerId}
    (hsent : p.a.world.handOffs[j]? = some sent) (hwhole : sent.Whole S) {r : Reader PeerId}
    (hr : p.b.readers[k]? = some r) (hreading : r.state = .reading) (a b : PeerId)
    (typeA typeB : NodeType) :
    ∃ more, (machine F S a b typeA typeB).Along (fun p i => p.Transport i ∧ p.Between i) p more ∧
      ((machine F S a b typeA typeB).exec p more).Reported F j sent.msg := by
  obtain ⟨data, hdata, hwritten, hlen⟩ := hwhole
  obtain ⟨h, r', written, hh, -, hwritten', hr', hfrom, harrived⟩ := hp.reads hsource
  obtain rfl := Option.some.inj (hr.symm.trans hr')
  obtain rfl := Option.some.inj (hsent.symm.trans hh)
  obtain rfl := Option.some.inj (hwritten.symm.trans hwritten')
  obtain ⟨bytes, hbytes⟩ := harrived
  have hk : k < p.b.readers.length := (List.getElem?_eq_some_iff.mp hr).1
  let fed : Reader PeerId := { r with arrived := r.arrived ++ bytes }
  let p₁ : Pair PeerId := { p with b := p.b.setReader k fed }
  have harrive : p.next F S (.receiver (.arrive k bytes)) = p₁ := by
    have hnext : p.b.next F S (.arrive k bytes) = p.b.setReader k fed := by
      simp [Node.next, Node.withReader, hr, hreading, fed]
    simp [next, receive, hnext, p₁, Node.setReader]
  have hfed : p₁.b.readers[k]? = some fed := List.getElem?_set_self hk
  have hrecv : recvMessage S fed.arrived = some (.ok sent.msg, []) := by
    obtain ⟨data', hdata', hfrom'⟩ := hinverts sent.msg
    obtain rfl := Except.ok.inj (hdata.symm.trans hdata')
    have hread := recvMessage_frame hfrom' hlen []
    rwa [List.append_nil, ← hbytes] at hread
  have hposted : (p₁.next F S (.receiver (.read k))).b.posted =
      p₁.b.posted ++ [⟨some k, .messageReceived (F.peerText r.peer) sent.msg⟩] := by
    simp [next, receive, Node.next, Node.withReader, hfed, fed, hreading, Node.handleIncoming,
      hrecv]
  have hlater := later_next F S p₁ (.receiver (.read k))
  refine ⟨[.receiver (.arrive k bytes), .receiver (.read k)], ?_, ?_⟩
  · refine ⟨⟨?_, by simp [Between, hsource]⟩, ⟨trivial, trivial⟩, trivial⟩
    intro j' hj' h hh' s hs
    obtain rfl := Option.some.inj (hsource.symm.trans hj')
    obtain rfl := Option.some.inj (hh.symm.trans hh')
    obtain rfl := Option.some.inj (hr.symm.trans hs)
    exact ⟨_, hwritten, hbytes ▸ List.prefix_rfl⟩
  · simp only [Machine.exec_cons, Machine.exec_nil, machine_next, harrive]
    refine ⟨⟨some k, .messageReceived (F.peerText r.peer) sent.msg⟩, ?_, ?_, ?_⟩
    · rw [hposted]
      exact List.mem_append_right _ (List.mem_singleton_self _)
    · exact origin_eq_some.mpr ⟨k, rfl, hlater.source? hsource⟩
    · rw [hlater.sender, hfrom]

/-- A stream that is open can be brought to its end. -/
theorem Linked.read_open {p : Pair PeerId} (hp : p.Linked) (hinverts : S.Inverts) {j : ℕ}
    (hopen : p.Open j) {sent : HandOff PeerId} (hsent : p.a.world.handOffs[j]? = some sent)
    (hpeer : sent.peer = p.b.actor.localPeerId) (hwhole : sent.Whole S) (a b : PeerId)
    (typeA typeB : NodeType) :
    ∃ more, (machine F S a b typeA typeB).Along (fun p i => p.Transport i ∧ p.Between i) p more ∧
      ((machine F S a b typeA typeB).exec p more).Reported F j sent.msg := by
  rcases hopen with ⟨hnew, hrunning⟩ | ⟨k, r, hsource, hr, hreading⟩
  · have htransport : p.Transport (.connect j) := by
      obtain ⟨data, -, hwritten, -⟩ := hwhole
      exact ⟨hnew, sent, hsent, hpeer, hwritten ▸ rfl⟩
    have haccept : p.b.next F S (.accept p.a.actor.localPeerId) =
        { p.b with readers := p.b.readers ++ [⟨p.a.actor.localPeerId, [], .reading⟩] } := by
      simp [Node.next, Node.accept, hrunning]
    have hconnect : p.next F S (.connect j) =
        ⟨p.a, { p.b with readers := p.b.readers ++ [⟨p.a.actor.localPeerId, [], .reading⟩] },
          p.link ++ [some j]⟩ := by
      simp [next, receive, haccept]
    have hlinked := linked_next (F := F) (S := S) hp htransport
    rw [hconnect] at hlinked
    obtain ⟨more, hmore, hreported⟩ := hlinked.read_rest (F := F) hinverts
      (source?_eq_some.mpr List.getElem?_concat_length) hsent hwhole
      (by rw [hp.length]; exact List.getElem?_concat_length) rfl a b typeA typeB
    refine ⟨.connect j :: more, ⟨⟨htransport, trivial⟩, ?_⟩, ?_⟩
    · rw [machine_next, hconnect]
      exact hmore
    · rw [Machine.exec_cons, machine_next, hconnect]
      exact hreported
  · exact hp.read_rest hinverts hsource hsent hwhole hr hreading a b typeA typeB

end Pair

namespace Network

variable {ι : Type} [DecidableEq ι] {F : Formats PeerId} {S : Serde} {a b : ι}

/-- A step of two nodes of a network as a step of the network. -/
def ofPair (a b : ι) : PairInput PeerId → NetworkInput ι PeerId
  | .sender i => .step a i
  | .receiver i => .step b i
  | .connect j => .connect a b j

/-- The transport of a network can do what that of two of its nodes can do for the streams from one
to the other. -/
theorem next_ofPair (hab : a ≠ b) {w : Network ι PeerId} {i : PairInput PeerId}
    (htransport : (w.pair a b).Transport i) (hbetween : (w.pair a b).Between i) :
    w.Transport (ofPair a b i) ∧
      (w.next F S (ofPair a b i)).pair a b = (w.pair a b).next F S i := by
  cases i with
  | sender i => exact absurd hbetween id
  | connect j =>
    obtain ⟨hnew, hopened⟩ := htransport
    refine ⟨⟨hab, ?_, hopened⟩, ?_⟩
    · intro hmem
      exact hnew (List.mem_map.mpr ⟨_, hmem, sourceOf_eq_some.mpr rfl⟩)
    · have hself : sourceOf a (some (a, j)) = some j := sourceOf_eq_some.mpr rfl
      simp only [ofPair, next, pair_receive_right hab, hself]
      rfl
  | receiver i =>
    refine ⟨?_, pair_receive_right hab w _ none⟩
    cases i with
    | arrive k bytes =>
      obtain ⟨j, hj⟩ := Option.isSome_iff_exists.mp hbetween
      have hsource := source?_pair.mp hj
      intro source hmem h hh r hr
      obtain rfl := Option.some.inj (hsource.symm.trans hmem)
      exact htransport j hj h hh r hr
    | accept => exact absurd hbetween id
    | _ => trivial

theorem exec_ofPair (hab : a ≠ b) (ids : ι → PeerId) (types : ι → NodeType)
    {w : Network ι PeerId} {is : List (PairInput PeerId)} {x y : PeerId} {typeX typeY : NodeType}
    (h : (Pair.machine F S x y typeX typeY).Along (fun p i => p.Transport i ∧ p.Between i)
      (w.pair a b) is) :
    ∃ more, (machine F S ids types).Along Transport w more ∧
      (Pair.machine F S x y typeX typeY).exec (w.pair a b) is =
        ((machine F S ids types).exec w more).pair a b := by
  refine h.exec_forward (R := fun p (v : Network ι PeerId) => p = v.pair a b) ?_ rfl
  rintro p v i rfl ⟨htransport, hbetween⟩
  obtain ⟨htransport', hnext⟩ := next_ofPair (F := F) (S := S) hab htransport hbetween
  exact ⟨[ofPair a b i], ⟨htransport', trivial⟩, hnext.symm⟩

/-- In every state that a network reaches, a message that one node has handed off to another can
still be reported by it exactly when the whole frame was written, of a length that fits the header,
and the message has been reported already or its stream is still open. -/
theorem can_report_iff (hinverts : S.Inverts) (hrejects : S.RejectsPrefixes) {ids : ι → PeerId}
    (hids : Function.Injective ids) {types : ι → NodeType} (hab : a ≠ b)
    {inputs : List (NetworkInput ι PeerId)}
    (h : (machine F S ids types).Along Transport (init ids types) inputs) {j : ℕ}
    {sent : HandOff PeerId}
    (hsent : (((machine F S ids types).run inputs).node a).world.handOffs[j]? = some sent)
    (hpeer : sent.peer = ids b) :
    (∃ more, (machine F S ids types).Along Transport (init ids types) (inputs ++ more) ∧
        (((machine F S ids types).run (inputs ++ more)).pair a b).Reported F j sent.msg) ↔
      sent.Whole S ∧
        ((((machine F S ids types).run inputs).pair a b).Reported F j sent.msg ∨
          (((machine F S ids types).run inputs).pair a b).Open j) := by
  have hsound := sound_run hids hab h
  have hpeerId : ((machine F S ids types).run inputs).peerId = ids := peerId_run inputs
  constructor
  · rintro ⟨more, hmore, hreported⟩
    have hsound' := sound_run hids hab hmore
    obtain ⟨-, hrest⟩ := (Machine.along_append _ _ _ _ _).mp hmore
    obtain ⟨is, -, hexec⟩ := pair_exec hids hab hpeerId hrest
    have hlater := Pair.later_exec F S (ids a) (ids b) (types a) (types b)
      (((machine F S ids types).run inputs).pair a b) is
    rw [← hexec] at hlater
    rw [Machine.run_append] at hreported hsound'
    exact hlater.open_of_reported hsound hsound' hinverts hrejects hsent hreported
  · rintro ⟨hwhole, hreported | hopen⟩
    · exact ⟨[], by simpa using h, by simpa using hreported⟩
    · have hto : sent.peer = (((machine F S ids types).run inputs).pair a b).b.actor.localPeerId :=
        hpeer.trans (congrFun hpeerId b).symm
      obtain ⟨is, his, hreported⟩ := hsound.linked.read_open (F := F) hinverts hopen hsent hto
        hwhole (ids a) (ids b) (types a) (types b)
      obtain ⟨more, hmore, hexec⟩ := exec_ofPair hab ids types his
      refine ⟨more, (Machine.along_append _ _ _ _ _).mpr ⟨h, hmore⟩, ?_⟩
      rw [Machine.run_append]
      rwa [hexec] at hreported

theorem can_report_iff_sentPing :
    ∃ more, (machine Formats.plain json sampleIds fun _ => .server).Along Transport
        (init sampleIds fun _ => .server) (sendsOne 0 (.ping "a") ++ more) ∧
      (((machine Formats.plain json sampleIds fun _ => .server).run
        (sendsOne 0 (.ping "a") ++ more)).pair 0 1).Reported Formats.plain 0 (.ping "a") := by
  let sent : HandOff String := ⟨"177", ⟨1⟩, .ping "a", some (frame (jsonBytes (.ping "a")))⟩
  have hids : Function.Injective sampleIds := by decide
  have hne : (0 : Fin 3) ≠ 1 := by decide
  have hsent : (((machine Formats.plain json sampleIds fun _ => .server).run
      (sendsOne 0 (.ping "a"))).node 0).world.handOffs[0]? = some sent := by decide +kernel
  have hwhole : sent.Whole json := ⟨jsonBytes (.ping "a"), rfl, rfl, by decide +kernel⟩
  refine (can_report_iff json_inverts json_rejectsPrefixes hids hne (by decide +kernel) hsent
    rfl).mpr ⟨hwhole, .inr (.inl ⟨?_, ?_⟩)⟩
  · decide +kernel
  · decide +kernel

end Network
end MeerkatNet.V2
